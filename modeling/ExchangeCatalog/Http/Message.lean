import ExchangeCatalog.Json.Basic
import ExchangeCatalog.Text.Split

/-!
# Requests and responses

A request names its target by a path and a query, after an authority when the client goes through a
proxy. A path may have slashes too many at either end; they are removed before anything looks at the
path, so a trailing slash never makes a difference.

## Main definitions

* `Target`, `Target.parse`, `Target.trimmed` — the target of a request
* `Request`, `Response` — the messages
* `isTokenChar` — the characters of methods, header names and media types
* `isHeaderName` — the texts that name a header
-/

namespace ExchangeCatalog

/-- The characters of a token: the letters, digits and marks that need no quoting in a header. -/
def isTokenChar (c : Char) : Bool :=
  c.isAlphanum || "!#$%&'*+-.^_`|~".toList.contains c

/-- A token has at least one character. -/
def isToken (s : String) : Bool := s != "" && s.toList.all isTokenChar

/-- The greatest length of a header name. -/
def maxHeaderNameLength : Nat := 65535

/-- A header name is a token that is not too long. -/
def isHeaderName (s : String) : Bool := isToken s && decide (s.length ≤ maxHeaderNameLength)

/-- The characters that a header may hold as text: the visible ones of ASCII, the space and the
tab. -/
def isHeaderTextChar (c : Char) : Bool := (0x20 ≤ c.toNat && c.toNat < 0x7F) || c == '\t'

/-- The target of a request. -/
structure Target where
  /-- The authority of an absolute target. -/
  authority : Option String
  path : String
  query : Option String
  deriving DecidableEq, Repr

namespace Target

/-- The path and the query of a text that holds no more. -/
def ofPathText (authority : Option String) (cs : List Char) : Target :=
  match Text.cutFirst? '?' cs with
  | some (path, query) =>
    ⟨authority, String.ofList (if authority.isSome ∧ path = [] then ['/'] else path),
      some (String.ofList query)⟩
  | none => ⟨authority, String.ofList (if authority.isSome ∧ cs = [] then ['/'] else cs), none⟩

/-- The target that a request line names: a path, or an absolute address. A fragment does not
count. -/
def parse (s : String) : Target :=
  let cs := s.toList.takeWhile fun c => c != '#'
  match cs with
  | '/' :: _ => ofPathText none cs
  -- An absolute address has a scheme; without one the whole target is an authority.
  | _ =>
    match Text.cutAt? "://".toList cs with
    | some (_, rest) =>
      let isEnd := fun (c : Char) => c == '/' || c == '?'
      ofPathText (some (String.ofList (rest.takeWhile fun c => !isEnd c)))
        (rest.dropWhile fun c => !isEnd c)
    | none => ⟨some (String.ofList cs), "", none⟩

/-- A path without the slashes at its ends, after one slash. -/
def trimSlashes (path : List Char) : List Char :=
  '/' :: ((path.dropWhile fun c => c == '/').reverse.dropWhile fun c => c == '/').reverse

/-- The target without slashes too many at the ends of its path. A path with one slash in front and
none at its end is left alone. -/
def trimmed (t : Target) : Target :=
  let cs := t.path.toList
  if cs.getLast? = some '/' ∨ cs.take 2 = ['/', '/'] then
    { t with path := String.ofList (trimSlashes cs) }
  else t

/-- The path and the query, as they stand in the target. -/
def pathAndQuery (t : Target) : String :=
  match t.query with
  | some q => t.path ++ "?" ++ q
  | none => t.path

end Target

/-- A request. Headers stand in the order in which they were sent. -/
structure Request where
  method : String
  target : Target
  headers : List (String × String)
  body : List UInt8

/-- The value of the first header with a name, in any case. -/
def Request.header? (r : Request) (name : String) : Option String :=
  (r.headers.find? fun h =>
    h.1.toList.map Char.toLower == name.toList.map Char.toLower).map Prod.snd

/-- The value of a header when it is plain text. -/
def Request.headerText? (r : Request) (name : String) : Option String :=
  (r.header? name).filter fun v => v.toList.all isHeaderTextChar

/-- The host that the client addressed: the header of that name, else the authority of the target,
else the machine itself. -/
def Request.host (r : Request) : String :=
  ((r.headerText? "host").or r.target.authority).getD "localhost"

/-- A response. -/
structure Response where
  status : Nat
  headers : List (String × String)
  body : Option Json

namespace Response

/-- A response without a body. -/
def empty (status : Nat) : Response := ⟨status, [], none⟩

/-- A response with a value for its body. -/
def json (status : Nat) (body : Json) : Response :=
  ⟨status, [("content-type", "application/json")], some body⟩

/-- A response to a method that its path does not have. -/
def methodNotAllowed (allowed : String) : Response := ⟨405, [("allow", allowed)], none⟩

end Response

end ExchangeCatalog
