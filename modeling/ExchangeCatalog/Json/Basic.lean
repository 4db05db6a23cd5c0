import ExchangeCatalog.Number.Binary64

/-!
# JSON values

A JSON number is an integer as long as its text is one and it fits a word of 64 bits, signed or
unsigned; any other number is binary floating point. Objects keep their members in the order in
which they stand.

## Main definitions

* `Json.Number`, `Json.Scalar`, `Json` — numbers, values without parts, and all values
* `Json.get?` — the value of the last member with a name
* `Json.sorted` — the same value with the members of every object in the order of their names
-/

namespace ExchangeCatalog

/-- A number of a JSON text. -/
inductive Json.Number
  | integer (n : Int)
  | real (x : Binary64)
  deriving DecidableEq, Repr

/-- A JSON value without parts. -/
inductive Json.Scalar
  | null
  | bool (b : Bool)
  | number (n : Json.Number)
  | string (s : String)
  deriving DecidableEq, Repr

/-- A JSON value. -/
inductive Json
  | scalar (s : Json.Scalar)
  | array (items : List Json)
  | object (members : List (String × Json))
  deriving Repr

namespace Json

/-- The value `null`. -/
def null : Json := .scalar .null

/-- A truth value. -/
def bool (b : Bool) : Json := .scalar (.bool b)

/-- An integer. -/
def integer (n : Int) : Json := .scalar (.number (.integer n))

/-- A text. -/
def string (s : String) : Json := .scalar (.string s)

instance : Inhabited Json := ⟨null⟩

/-- The value of the last member of an object that has the given name. -/
def get? (name : String) : Json → Option Json
  | .object members => (members.reverse.find? fun m => m.1 == name).map Prod.snd
  | _ => none

/-- The members of an object in the order of their names; of several with one name the last. -/
def orderedMembers {α : Type} (members : List (String × α)) : List (String × α) :=
  members.foldl (fun kept m =>
    kept.takeWhile (fun k => k.1 < m.1) ++
      m :: (kept.dropWhile (fun k => k.1 < m.1)).filter (fun k => k.1 ≠ m.1)) []

mutual

/-- The same value with the members of every object in the order of their names. -/
def sorted : Json → Json
  | .scalar s => .scalar s
  | .array items => .array (sortedItems items)
  | .object members => .object (orderedMembers (sortedMembers members))

/-- The items of an array, each with its objects in order. -/
def sortedItems : List Json → List Json
  | [] => []
  | v :: vs => sorted v :: sortedItems vs

/-- The members of an object, each with its objects in order. -/
def sortedMembers : List (String × Json) → List (String × Json)
  | [] => []
  | (k, v) :: ms => (k, sorted v) :: sortedMembers ms

end

end Json

end ExchangeCatalog
