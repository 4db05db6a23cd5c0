import ExchangeCatalog.Notation.RelaxedJson

/-!
# Records in parentheses

A `ron` file writes a record as fields in parentheses, with or without a name in front, next to
lists in brackets and maps in braces. Its values are read as JSON values: a record is an object, a
tuple an array, an optional value the value itself, and the empty parentheses are nothing.

## Main definitions

* `Ron.read?` — the value that a text consists of
-/

namespace ExchangeCatalog.Ron

open RelaxedJson (skip?)

/-- The characters that a string spells between its quotes, and what follows. -/
private def string? (acc : List Char) : List Char → Option (String × List Char)
  | [] => none
  | '"' :: cs => some (String.ofList acc.reverse, cs)
  | '\\' :: c :: cs =>
    let escaped? : Option Char := match c with
      | '\\' | '"' | '\'' => some c
      | 'n' => some '\n'
      | 'r' => some '\r'
      | 't' => some '\t'
      | '0' => some '\x00'
      | _ => none
    escaped?.bind fun d => string? (d :: acc) cs
  | c :: cs => string? (c :: acc) cs

/-- The number that a word spells, in which underscores may stand between digits. -/
private def number? (cs : List Char) : Option Json :=
  let cs := if cs.head?.any fun c => c == '_' then [] else cs.filter fun c => c != '_'
  if cs = "inf".toList then some (.scalar (.number (.real (.infinite false))))
  else if cs = "-inf".toList then some (.scalar (.number (.real (.infinite true))))
  else match Decimal.int64? cs with
    | some n => some (.integer n.toInt)
    | none =>
      match RelaxedJson.number? cs with
      | some (.real (.infinite _)) => none
      | n => n.map fun n => .scalar (.number n)

private def isWordChar (c : Char) : Bool :=
  c.isAlphanum || c == '_' || c == '+' || c == '-' || c == '.'

private def isNameChar (c : Char) : Bool := c.isAlphanum || c == '_'

/-- A field's name with its colon at the front of a text, and what follows. -/
private def field? (cs : List Char) : Option (String × List Char) :=
  let word := cs.takeWhile isNameChar
  if word.head?.all Decimal.isDigit then none
  else
    match skip? (cs.dropWhile isNameChar) with
    | some (':' :: rest) => some (String.ofList word, rest)
    | _ => none

/-- Which parts stand between brackets. -/
private inductive Grouping
  | list
  | map
  | record
  | tuple

/-- The sign that ends a group. -/
private def Grouping.closing : Grouping → Char
  | list => ']'
  | map => '\x7d'
  | record | tuple => ')'

mutual

/-- A value at the front of a text, read in at most so many steps, and what follows. -/
private def valueUpTo? : Nat → List Char → Option (Json × List Char)
  | 0, _ => none
  | n + 1, cs =>
    match cs with
    | '"' :: rest => (string? [] rest).map fun (s, rest) => (.string s, rest)
    | '[' :: rest =>
      (partsUpTo? n .list [] rest).map fun (ms, rest) => (.array (ms.map Prod.snd), rest)
    | '\x7b' :: rest => (partsUpTo? n .map [] rest).map fun (ms, rest) => (.object ms, rest)
    | '(' :: rest => do
      let inner ← skip? rest
      if (field? inner).isSome then
        (partsUpTo? n .record [] inner).map fun (ms, rest) => (.object ms, rest)
      else
        let (ms, rest) ← partsUpTo? n .tuple [] inner
        some (if ms = [] then .null else .array (ms.map Prod.snd), rest)
    | cs => do
      let word := cs.takeWhile isWordChar
      let rest := cs.dropWhile isWordChar
      if word = "true".toList then some (.bool true, rest)
      else if word = "false".toList then some (.bool false, rest)
      else if word = "None".toList then some (.null, rest)
      else
        match number? word, ← skip? rest with
        | some v, _ => some (v, rest)
        | none, '(' :: inner =>
          if word = "Some".toList then do
            let (v, rest) ← valueUpTo? n (← skip? inner)
            match ← skip? rest with
            | ')' :: rest => some (v, rest)
            | _ => none
          else if word.head?.any fun c => c.isAlpha || c == '_' then valueUpTo? n ('(' :: inner)
          else none
        | none, _ => none

/-- The parts of a group up to its end, after others in reverse; a part without a name has an empty
one. -/
private def partsUpTo? :
    Nat → Grouping → List (String × Json) → List Char → Option (List (String × Json) × List Char)
  | 0, _, _, _ => none
  | n + 1, grouping, acc, cs => do
    match ← skip? cs with
    | [] => none
    | c :: rest =>
      if c = grouping.closing then some (acc.reverse, rest)
      else do
        let (name, inner) ← match grouping with
          | .list | .tuple => some ("", c :: rest)
          | .record => field? (c :: rest)
          | .map => do
            match ← valueUpTo? n (c :: rest) with
            | (.scalar (.string name), rest) =>
              match ← skip? rest with
              | ':' :: rest => some (name, rest)
              | _ => none
            | _ => none
        let (v, rest) ← valueUpTo? n (← skip? inner)
        match ← skip? rest with
        | ',' :: rest => partsUpTo? n grouping ((name, v) :: acc) rest
        | d :: rest =>
          if d = grouping.closing then some (((name, v) :: acc).reverse, rest) else none
        | [] => none

end

/-- The value that a text consists of. -/
def read? (s : String) : Option Json := do
  let cs ← skip? s.toList
  let (v, rest) ← valueUpTo? (2 * cs.length + 2) cs
  match ← skip? rest with
  | [] => some v
  | _ => none

end ExchangeCatalog.Ron
