import ExchangeCatalog.Text.Decimal
import ExchangeCatalog.Text.Split

/-!
# Paths to settings

A setting is found by the names of the sections around it and by its position in each list around
it. In writing, as in `server.cors.allowed_origins[0]`, a point stands before a name, and a position
stands in brackets.

## Main definitions

* `PathStep` — a step of a path
* `PathStep.ofText` — the path that a name stands for
* `PathStep.text` — a path in a message
-/

namespace ExchangeCatalog

/-- A step of the path to a setting. -/
inductive PathStep
  | name (s : String)
  /-- A position in a list; a negative one is counted from the end. -/
  | index (n : Int)
  deriving DecidableEq, Repr

namespace PathStep

/-- Whether a character may stand in a name of a path. -/
def isNameChar (c : Char) : Bool := c.isAlphanum || c == '_' || c == '-'

/-- A name at the front of a text, and what follows. -/
private def takeName? (cs : List Char) : Option (PathStep × List Char) :=
  let word := cs.takeWhile isNameChar
  if word = [] then none else some (.name (String.ofList word), cs.dropWhile isNameChar)

/-- A position behind its opening bracket, and what follows its closing one. Blanks may stand around
the number. -/
private def takeIndex? (cs : List Char) : Option (PathStep × List Char) :=
  let skipBlanks := fun (cs : List Char) => cs.dropWhile fun c => c == ' ' || c == '\t'
  let (sign, cs) := match skipBlanks cs with
    | '-' :: cs => (['-'], cs)
    | cs => ([], cs)
  let ds := cs.takeWhile Decimal.isDigit
  match Decimal.int64? (sign ++ ds), skipBlanks (cs.dropWhile Decimal.isDigit) with
  | some n, ']' :: rest => some (.index n.toInt, rest)
  | _, _ => none

/-- The steps behind the first one, at most `n` of them, when the whole text is made of steps. -/
private def laterSteps? : Nat → List Char → Option (List PathStep)
  | _, [] => some []
  | 0, _ => none
  | n + 1, c :: cs => do
    let (step, rest) ←
      if c = '.' then takeName? cs
      else if c = '[' then takeIndex? cs
      else none
    some (step :: (← laterSteps? n rest))

/-- The path that a name stands for: its steps, when it is made of steps and starts with a name;
else the name as a single step. -/
def ofText (name : String) : List PathStep :=
  let steps : Option (List PathStep) := do
    let (step, rest) ← takeName? name.toList
    some (step :: (← laterSteps? rest.length rest))
  steps.getD [.name name]

/-- A path in a message. A point stands between two names, and none behind a position. -/
def text : List PathStep → String
  | [] => ""
  | .name s :: .name t :: steps => s ++ "." ++ text (.name t :: steps)
  | .name s :: steps => s ++ text steps
  | .index n :: steps => "[" ++ String.ofList (Decimal.ofInt n) ++ "]" ++ text steps

end PathStep

end ExchangeCatalog
