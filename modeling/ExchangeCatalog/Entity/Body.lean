import ExchangeCatalog.Entity.Basic
import ExchangeCatalog.Json.Outline
import ExchangeCatalog.Number.Shortest
import ExchangeCatalog.Text.Quoted
import ExchangeCatalog.Time.Lenient

/-!
# Reading request bodies

A body gives a row's values as an object with the columns' keys, or as an array in the order of the
columns. A body for a new row gives all of them; a body for a change may leave any out, and `null`
counts as left out. Keys that name no column are skipped. A body is read from its outline in the
order in which it stands, and the first fault is the one that is reported.

## Main definitions

* `ContentFault`, `BodyFault` — what can be wrong with a body, with `ContentFault.message`
* `Entity.readRecord`, `Entity.readPatch` — the values that an outline gives
* `Entity.createOfJson`, `Entity.patchOfJson` — the same for a value that has been read already
-/

namespace ExchangeCatalog

/-- What is wrong with a value in a body. -/
inductive ContentFault
  /-- A value of another type stands where one was expected. -/
  | wrongType (found : Json.Head) (expected : String)
  /-- An integer needs more than a signed word. -/
  | integerTooLarge (n : Int)
  /-- A text is no instant. -/
  | notAnInstant (fault : Instant.ReadFault)
  /-- An object lacks a key. -/
  | missing (key : String)
  /-- An object has a key twice. -/
  | duplicate (key : String)
  /-- An array has too few items. -/
  | tooShort (length : Nat) (expected : String)
  /-- An array has too many items. -/
  | tooLong (length : Nat)
  deriving DecidableEq, Repr

/-- Where in a body a fault was found. -/
inductive BodyPlace
  | whole
  | member (key : String)
  | item (index : Nat)
  deriving DecidableEq, Repr

/-- Why a body was refused. -/
inductive BodyFault
  /-- The text is no JSON. -/
  | malformed
  /-- The text is JSON so far, and its content is wrong. -/
  | content (place : BodyPlace) (fault : ContentFault)
  deriving DecidableEq, Repr

/-- What a message says it found. -/
def Json.Head.description : Json.Head → String
  | .scalar .null => "null"
  | .scalar (.bool b) => "boolean `" ++ (if b then "true" else "false") ++ "`"
  | .scalar (.number (.integer n)) => "integer `" ++ String.ofList (Decimal.ofInt n) ++ "`"
  | .scalar (.number (.real x)) => "floating point `" ++ x.literal ++ "`"
  | .scalar (.string s) => "string " ++ Text.quoted s
  | .array => "sequence"
  | .object => "map"
  | .broken => "nothing"

/-- The wording of a fault. -/
def ContentFault.message : ContentFault → String
  | wrongType found expected => "invalid type: " ++ found.description ++ ", expected " ++ expected
  | integerTooLarge n =>
    "invalid value: integer `" ++ String.ofList (Decimal.ofInt n) ++ "`, expected i64"
  | notAnInstant fault => fault.message
  | missing key => "missing field `" ++ key ++ "`"
  | duplicate key => "duplicate field `" ++ key ++ "`"
  | tooShort n expected =>
    "invalid length " ++ String.ofList (Decimal.digits n) ++ ", expected " ++ expected
  | tooLong n =>
    "invalid length " ++ String.ofList (Decimal.digits n) ++ ", expected fewer elements in array"

/-- The place of a fault, as a message begins with it. -/
def BodyPlace.text : BodyPlace → String
  | whole => ""
  | member key => key ++ ": "
  | item n => "[" ++ String.ofList (Decimal.digits n) ++ "]: "

/-- What a message says it expected in a column of a kind. -/
def Kind.expectation : Kind → String
  | integer => "i64"
  | text => "a string"
  | boolean => "a boolean"
  | timestamp => "an RFC 3339 formatted date and time string"

/-- The value that a column of a kind takes from a JSON value. -/
def Kind.ofHead (k : Kind) (place : BodyPlace) (h : Json.Head) : Except BodyFault k.Carrier :=
  match k, h with
  | _, .broken => .error .malformed
  | .integer, .scalar (.number (.integer n)) =>
    match Decimal.toInt64? n with
    | some n => .ok n
    | none => .error (.content place (.integerTooLarge n))
  | .text, .scalar (.string s) => .ok s
  | .boolean, .scalar (.bool b) => .ok b
  | .timestamp, .scalar (.string s) =>
    (Instant.readLenient s.toList).mapError fun fault => .content place (.notAnInstant fault)
  | k, h => .error (.content place (.wrongType h k.expectation))

/-- The value that a column of a kind takes from a JSON value that may be `null`. -/
def Kind.ofHead? (k : Kind) (place : BodyPlace) (h : Json.Head) :
    Except BodyFault (Option k.Carrier) :=
  match h with
  | .scalar .null => .ok none
  | h => (k.ofHead place h).map some

/-- What a body of some use needs to know: how an entry is read, and what an entry that is left out
counts as, if it may be. -/
structure BodyRule (F : Kind → Type) where
  /-- Reads an entry. -/
  entry : (k : Kind) → BodyPlace → Json.Head → Except BodyFault (F k)
  /-- The entry in place of one that is left out. -/
  absent : (k : Kind) → Option (F k)
  /-- The name of the record in messages. -/
  name : String

/-- The rule for a new row: every value is given. -/
def Entity.createRule (e : Entity) : BodyRule Kind.Carrier where
  entry k place h := k.ofHead place h
  absent _ := none
  name := "struct Create" ++ e.recordName

/-- The rule for a change: any value may be left out. -/
def Entity.patchRule (e : Entity) : BodyRule (fun k => Option k.Carrier) where
  entry k place h := k.ofHead? place h
  absent _ := some none
  name := "struct Patch" ++ e.recordName

/-- Where a body comes from. In a text, items after the last expected one are no longer JSON that
can be used; in a value they are counted. -/
inductive BodySource
  | text
  | value
  deriving DecidableEq, Repr

namespace BodyRule

variable {F : Kind → Type}

/-- The entries read so far; those that have not been met are missing. -/
abbrev Partial (F : Kind → Type) (cs : List Column) := Fields (fun k => Option (F k)) cs

/-- Puts a member into the entry of its key. Answers nothing when no column has the key. -/
def place (rule : BodyRule F) (key : String) (h : Json.Head) :
    {cs : List Column} → Partial F cs → Option (Except BodyFault (Partial F cs))
  | _, .nil => none
  | _, @Fields.cons _ c _ x xs =>
    if c.key = key then
      some (match x with
        | some _ => .error (.content .whole (.duplicate key))
        | none => (rule.entry c.kind (.member key) h).map fun v => .cons (some v) xs)
    else (rule.place key h xs).map fun r => r.map fun ys => .cons x ys

/-- Reads the members of an object in order. A member that is skipped must at least be well
formed. -/
def members (rule : BodyRule F) {cs : List Column} :
    Partial F cs → List (String × Json.Item) → Except BodyFault (Partial F cs)
  | found, [] => .ok found
  | found, (key, item) :: rest =>
    match rule.place key item.head found with
    | some (.ok found) => rule.members found rest
    | some (.error fault) => .error fault
    | none => if item.complete then rule.members found rest else .error .malformed

/-- The entries of an object that has been read, each missing one replaced if it may be missing. -/
def complete (rule : BodyRule F) :
    {cs : List Column} → Partial F cs → Except BodyFault (Fields F cs)
  | _, .nil => .ok .nil
  | _, @Fields.cons _ c _ x xs =>
    match x.or (rule.absent c.kind) with
    | some v => (rule.complete xs).map fun vs => .cons v vs
    | none => .error (.content .whole (.missing c.key))

/-- The phrase for an array of the right length. -/
def lengthPhrase (rule : BodyRule F) (n : Nat) : String :=
  rule.name ++ " with " ++ String.ofList (Decimal.digits n) ++
    (if n = 1 then " element" else " elements")

/-- Reads the items of an array in the order of the columns, from the given position on. -/
def items (rule : BodyRule F) (source : BodySource) (closed : Bool) (expected : String)
    (length : Nat) : (cs : List Column) → Nat → List Json.Item → Except BodyFault (Fields F cs)
  -- Every column has its item.
  | [], _, [] => if closed then .ok .nil else .error .malformed
  | [], _, _ :: _ =>
    .error (match source with
      | .text => .malformed
      | .value => .content .whole (.tooLong length))
  -- The items have run out: in a closed array the rest counts as left out.
  | c :: cs, i, [] =>
    if closed then
      match rule.absent c.kind with
      | some v => (rule.items source closed expected length cs (i + 1) []).map fun vs => .cons v vs
      | none => .error (.content .whole (.tooShort i expected))
    else .error .malformed
  | c :: cs, i, item :: rest =>
    match rule.entry c.kind (.item i) item.head with
    | .ok v => (rule.items source closed expected length cs (i + 1) rest).map fun vs => .cons v vs
    | .error fault => .error fault

/-- Reads the outermost layer of a body. -/
def layer (rule : BodyRule F) (source : BodySource) (cs : List Column) :
    Json.Layer → Except BodyFault (Fields F cs)
  | .single .broken => .error .malformed
  | .single h => .error (.content .whole (.wrongType h rule.name))
  | .array items closed =>
    rule.items source closed (rule.lengthPhrase cs.length) items.length cs 0 items
  | .object members closed => do
    let found ← rule.members (Fields.fill (fun _ => none) cs) members
    if closed then rule.complete found else .error .malformed

/-- Reads a body, which must end after its value. -/
def read (rule : BodyRule F) (source : BodySource) (cs : List Column) (o : Json.Outline) :
    Except BodyFault (Fields F cs) := do
  let fields ← rule.layer source cs o.layer
  if o.finished then .ok fields else .error .malformed

end BodyRule

namespace Entity

/-- The record that the text of a body gives for a new row. -/
def readRecord (e : Entity) (body : List UInt8) : Except BodyFault (Record e.columns) :=
  e.createRule.read .text e.columns (Json.outline body)

/-- The change that the text of a body asks for. -/
def readPatch (e : Entity) (body : List UInt8) : Except BodyFault (Patch e.columns) :=
  e.patchRule.read .text e.columns (Json.outline body)

/-- The record that a value gives for a new row; its keys are taken in the order of their names. -/
def createOfJson (e : Entity) (v : Json) : Except BodyFault (Record e.columns) :=
  e.createRule.read .value e.columns v.sorted.toOutline

/-- The change that a value asks for; its keys are taken in the order of their names. -/
def patchOfJson (e : Entity) (v : Json) : Except BodyFault (Patch e.columns) :=
  e.patchRule.read .value e.columns v.sorted.toOutline

end Entity

end ExchangeCatalog
