import ExchangeCatalog.Sql.Result
import ExchangeCatalog.Sql.Statement

/-!
# One connection to a database

The service keeps one connection, opens it when it starts, and opens it again when a statement finds
it broken. What the database does is given as a row of replies, taken one by one: each opening looks
for refusals at the front of the row, and each statement takes the next reply.

## Main definitions

* `Reply` — what the database does next
* `Connection` — the connection, the replies to come and the statements sent
* `Connection.open?`, `Connection.send`, `Connection.close`
-/

namespace ExchangeCatalog

/-- What the database does next. -/
inductive Reply
  /-- Ends a statement. -/
  | ends (outcome : Outcome)
  /-- Refuses to open a connection. -/
  | refusesConnection (code message : String)
  deriving DecidableEq, Repr

/-- A connection to a database that follows a row of replies. -/
structure Connection where
  replies : List Reply
  /-- The connection is open. -/
  isOpen : Bool
  /-- The service has given the connection up. -/
  isClosed : Bool
  /-- The statements that have reached the database, the latest first. -/
  sent : List Statement

namespace Connection

/-- The refusals after which the opening is tried again: too many connections, and a database that
is still starting. -/
def isTransient (code : String) : Bool := code == "53300" || code == "57P03"

/-- Opens a connection: the refusal, if one is met, and the replies left. -/
def opening : List Reply → Option (String × String) × List Reply
  | .refusesConnection code message :: rest =>
    if isTransient code then opening rest else (some (code, message), rest)
  | replies => (none, replies)

/-- The first connection, unless it is refused. -/
def open? (replies : List Reply) : Option Connection :=
  match opening replies with
  | (none, replies) => some ⟨replies, true, false, []⟩
  | (some _, _) => none

/-- A connection to a database that cannot be reached. -/
def unreachable : Connection := ⟨[], false, true, []⟩

/-- The end of a statement on an open connection. Without a reply left every statement is
refused. -/
def exchange (s : Statement) (c : Connection) : Outcome × Connection :=
  let c := { c with sent := s :: c.sent }
  match c.replies with
  | [] => (.refused "" "", c)
  | .ends .lost :: rest => (.lost, { c with replies := rest, isOpen := false })
  | .ends outcome :: rest => (outcome, { c with replies := rest })
  | .refusesConnection code message :: rest => (.refused code message, { c with replies := rest })

/-- Sends a statement, over a new connection when the old one is broken. A statement for which no
connection can be opened does not reach the database. -/
def send (s : Statement) (c : Connection) : Outcome × Connection :=
  if c.isClosed then (.lost, c)
  else if c.isOpen then exchange s c
  else
    -- The broken connection is given up, and the statement goes out on the next one.
    match opening c.replies with
    | (none, replies) => exchange s { c with replies := replies, isOpen := true }
    | (some (code, message), replies) => (.refused code message, { c with replies := replies })

/-- Gives the connection up; nothing is sent any more. -/
def close (c : Connection) : Connection := { c with isClosed := true }

/-- The statements that have reached the database, in order. -/
def statements (c : Connection) : List Statement := c.sent.reverse

end Connection

end ExchangeCatalog
