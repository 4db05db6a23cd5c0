import ExchangeCatalog.Json.Basic
import ExchangeCatalog.Number.Reader
import ExchangeCatalog.Text.Split

/-!
# Indented mappings

The part of YAML that settings files are written in: mappings and lists by indentation, mappings and
lists in brackets on one line, and scalars on one line, plain or between quotes. A text of other
parts is not read.

## Main definitions

* `Yaml.scalar?` — the value that a plain scalar spells
* `Yaml.inline?` — the value of a text on one line
* `Yaml.read?` — the value of a document
-/

namespace ExchangeCatalog.Yaml

/-! ### Scalars -/

private def skipBlanks (cs : List Char) : List Char := cs.dropWhile fun c => c == ' ' || c == '\t'

private def withoutEnd (cs : List Char) : List Char := (skipBlanks cs.reverse).reverse

/-- The number that digits of a base spell, if it fits a signed word. -/
private def ofDigits? (base : Nat) (ds : List Char) : Option Int :=
  let value? := fun (c : Char) =>
    let v := if Decimal.isDigit c then Decimal.digitValue c else c.toLower.toNat - 'a'.toNat + 10
    if (Decimal.isDigit c || ('a' ≤ c.toLower && c.toLower ≤ 'f')) && v < base then some v else none
  match ds, ds.mapM value? with
  | _ :: _, some vs =>
    let n := vs.foldl (fun n v => n * base + v) 0
    if n < 0x8000000000000000 then some n else none
  | _, _ => none

/-- The integer that a plain scalar spells. -/
private def integer? (cs : List Char) : Option Int :=
  match cs with
  | '0' :: 'x' :: ds => ofDigits? 16 ds
  | '0' :: 'o' :: ds => ofDigits? 8 ds
  | cs => (Decimal.int64? cs).map Int64.toInt

/-- The value that a plain scalar spells: nothing, a truth value, a number, or the text itself.
Infinity has no value that a setting could take. -/
def scalar? (cs : List Char) : Option Json :=
  let word := String.ofList cs
  let infinities := [".inf", ".Inf", ".INF"]
  if ["", "~", "null"].contains word then some .null
  else if word = "true" then some (.bool true)
  else if word = "false" then some (.bool false)
  else if word = "NaN" then some (.scalar (.number (.real .notANumber)))
  else if [".nan", ".NAN"].contains word then none
  else if (infinities ++ infinities.flatMap fun w => ["+" ++ w, "-" ++ w]).contains word then none
  else match integer? cs with
    | some n => some (.integer n)
    | none =>
      if cs.any Decimal.isDigit then
        match Binary64.read? cs with
        | some x => some (.scalar (.number (.real x)))
        | none => some (.string word)
      else some (.string word)

/-- A text between apostrophes from behind the first one, and what follows. Two apostrophes stand
for one. -/
private def apostrophed? (acc : List Char) : List Char → Option (String × List Char)
  | [] => none
  | '\'' :: '\'' :: cs => apostrophed? ('\'' :: acc) cs
  | '\'' :: cs => some (String.ofList acc.reverse, cs)
  | c :: cs => apostrophed? (c :: acc) cs

/-- The character that a letter behind a backslash stands for. -/
private def escaped? : Char → Option Char
  | '0' => some '\x00'
  | 'a' => some '\x07'
  | 'b' => some '\x08'
  | 't' => some '\t'
  | 'n' => some '\n'
  | 'v' => some '\x0b'
  | 'f' => some '\x0c'
  | 'r' => some '\r'
  | 'e' => some '\x1b'
  | c => if [' ', '"', '\'', '/', '\\'].contains c then some c else none

/-- A text between quotes from behind the first one, and what follows. -/
private def quotedText? (acc : List Char) : List Char → Option (String × List Char)
  | [] => none
  | '"' :: cs => some (String.ofList acc.reverse, cs)
  | '\\' :: c :: cs => (escaped? c).bind fun d => quotedText? (d :: acc) cs
  | c :: cs => quotedText? (c :: acc) cs

/-- A text in either kind of quotes at the front, and what follows. -/
private def quoted? : List Char → Option (String × List Char)
  | '"' :: cs => quotedText? [] cs
  | '\'' :: cs => apostrophed? [] cs
  | _ => none

/-- Whether a plain scalar may start with a text. -/
private def startsPlain : List Char → Bool
  | [] => false
  | c :: cs =>
    if c == '-' || c == '?' || c == ':' then !(cs.head?.all fun d => d == ' ')
    else !(",[]\x7b\x7d#&*!|>'\"%@".toList.contains c) && c.toNat != 0x60

/-! ### Values on one line -/

/-- What stands before and after the first colon that a blank or the end follows. -/
private def cutColon? : List Char → Option (List Char × List Char)
  | [] => none
  | ':' :: cs =>
    if cs.head?.all fun c => c == ' ' then some ([], cs)
    else (cutColon? cs).map fun (a, b) => (':' :: a, b)
  | c :: cs => (cutColon? cs).map fun (a, b) => (c :: a, b)

/-- A key with its colon at the front of a line, and what follows them without the blanks in
between. -/
private def key? (cs : List Char) : Option (String × List Char) :=
  match quoted? cs with
  | some (key, rest) =>
    match skipBlanks rest with
    | ':' :: rest => if rest.head?.all fun c => c == ' ' then some (key, skipBlanks rest) else none
    | _ => none
  | none =>
    match cutColon? cs with
    | some (key, rest) =>
      if startsPlain key then some (String.ofList (withoutEnd key), skipBlanks rest) else none
    | none => none

/-- The plain scalar at the front of a text in brackets, and what follows. -/
private def plainInBrackets (cs : List Char) : List Char × List Char :=
  let isPart := fun (c : Char) => !(",[]\x7b\x7d".toList.contains c)
  let word := cs.takeWhile isPart
  match cutColon? word with
  | some (before, _) => (before, cs.drop before.length)
  | none => (word, cs.dropWhile isPart)

mutual

/-- A value in brackets, read in at most so many steps, and what follows it and its blanks. -/
private def valueUpTo? : Nat → List Char → Option (Json × List Char)
  | 0, _ => none
  | n + 1, cs =>
    match cs with
    | '[' :: rest =>
      (itemsUpTo? n [] (skipBlanks rest)).map fun (vs, rest) => (.array vs, skipBlanks rest)
    | '\x7b' :: rest =>
      (membersUpTo? n [] (skipBlanks rest)).map fun (ms, rest) => (.object ms, skipBlanks rest)
    | '"' :: _ | '\'' :: _ => (quoted? cs).map fun (s, rest) => (.string s, skipBlanks rest)
    | _ =>
      let (word, rest) := plainInBrackets cs
      if startsPlain word then (scalar? (withoutEnd word)).map fun v => (v, skipBlanks rest)
      else none

/-- The items of a list in brackets, after others in reverse. -/
private def itemsUpTo? : Nat → List Json → List Char → Option (List Json × List Char)
  | 0, _, _ => none
  | n + 1, acc, cs =>
    match cs with
    | ']' :: rest => some (acc.reverse, rest)
    | cs => do
      let (v, rest) ← valueUpTo? n cs
      match rest with
      | ',' :: rest => itemsUpTo? n (v :: acc) (skipBlanks rest)
      | ']' :: rest => some ((v :: acc).reverse, rest)
      | _ => none

/-- The members of a mapping in braces, after others in reverse. -/
private def membersUpTo? :
    Nat → List (String × Json) → List Char → Option (List (String × Json) × List Char)
  | 0, _, _ => none
  | n + 1, acc, cs =>
    match cs with
    | '\x7d' :: rest => some (acc.reverse, rest)
    | cs => do
      let (key, rest) ← key? cs
      let (v, rest) ← match rest with
        | ',' :: _ | '\x7d' :: _ => some (.null, rest)
        | rest => valueUpTo? n rest
      match rest with
      | ',' :: rest => membersUpTo? n ((key, v) :: acc) (skipBlanks rest)
      | '\x7d' :: rest => some (((key, v) :: acc).reverse, rest)
      | _ => none

end

/-- The value of a text on one line. -/
def inline? (cs : List Char) : Option Json :=
  match cs with
  | '[' :: _ | '\x7b' :: _ | '"' :: _ | '\'' :: _ =>
    match valueUpTo? (2 * cs.length + 2) cs with
    | some (v, []) => some v
    | _ => none
  | cs => if startsPlain cs && (cutColon? cs).isNone then scalar? cs else none

/-! ### Lines -/

/-- A line: how far it is indented, and what it says. -/
structure Line where
  indent : Nat
  text : List Char

/-- A text up to the comment at its end. A comment starts behind a blank and outside of quotes;
`quote` is the quote that is open, and `free` whether a comment may start here. -/
private def beforeComment (quote : Option Char) (free : Bool) : List Char → List Char
  | [] => []
  | c :: cs =>
    match quote with
    | some q => c :: beforeComment (if c = q then none else some q) false cs
    | none =>
      if c = '#' ∧ free then []
      else if (c = '"' ∨ c = '\'') ∧ free then c :: beforeComment (some c) false cs
      else c :: beforeComment none (c == ' ' || c == '\t' || c == '[' || c == '\x7b' || c == ',') cs

/-- The line that a text spells, if it says something; an error when it is indented by a tab. -/
def line? (cs : List Char) : Except Unit (Option Line) :=
  let cs := withoutEnd (beforeComment none true (cs.filter fun c => c != '\r'))
  let text := cs.dropWhile fun c => c == ' '
  match text with
  | [] => .ok none
  | '\t' :: _ => .error ()
  | text => .ok (some ⟨cs.length - text.length, text⟩)

/-- Whether a line is an item of a list. -/
private def isItem : List Char → Bool
  | '-' :: cs => cs.head?.all fun c => c == ' '
  | _ => false

mutual

/-- The value that lines give, read in at most so many steps, and the lines after it. -/
private def blockUpTo? : Nat → List Line → Option (Json × List Line)
  | 0, _ => none
  | _, [] => none
  | n + 1, l :: lines =>
    if isItem l.text then
      (itemLinesUpTo? n l.indent [] (l :: lines)).map fun (vs, rest) => (.array vs, rest)
    else if (key? l.text).isSome then
      (memberLinesUpTo? n l.indent [] (l :: lines)).map fun (ms, rest) => (.object ms, rest)
    else (inline? l.text).map fun v => (v, lines)

/-- The items of a list at an indentation, after others in reverse. -/
private def itemLinesUpTo? : Nat → Nat → List Json → List Line → Option (List Json × List Line)
  | 0, _, _, _ => none
  | _, _, acc, [] => some (acc.reverse, [])
  | n + 1, indent, acc, l :: lines =>
    if l.indent = indent ∧ isItem l.text then do
      let text := skipBlanks l.text.tail
      let (v, rest) ←
        if text = [] then
          if lines.head?.any fun m => indent < m.indent then blockUpTo? n lines
          else some (.null, lines)
        else blockUpTo? n (⟨indent + (l.text.length - text.length), text⟩ :: lines)
      itemLinesUpTo? n indent (v :: acc) rest
    else if indent < l.indent then none
    else some (acc.reverse, l :: lines)

/-- The members of a mapping at an indentation, after others in reverse. No key may come twice. -/
private def memberLinesUpTo? :
    Nat → Nat → List (String × Json) → List Line → Option (List (String × Json) × List Line)
  | 0, _, _, _ => none
  | _, _, acc, [] => some (acc.reverse, [])
  | n + 1, indent, acc, l :: lines =>
    if l.indent = indent then do
      let (key, text) ← key? l.text
      if acc.any fun m => m.1 == key then none
      else
        let isBelow := fun (m : Line) => indent < m.indent || (m.indent == indent && isItem m.text)
        let (v, rest) ←
          if text = [] then
            if lines.head?.any isBelow then blockUpTo? n lines else some (.null, lines)
          else (inline? text).map fun v => (v, lines)
        memberLinesUpTo? n indent ((key, v) :: acc) rest
    else if indent < l.indent then none
    else some (acc.reverse, l :: lines)

end

/-- The value of a document. One without lines is an empty mapping. -/
def read? (s : String) : Option Json :=
  match (Text.pieces '\n' s.toList).mapM line? with
  | .error () => none
  | .ok lines =>
    let lines := lines.filterMap id
    let marker := fun (l : Line) => l.indent = 0 ∧ l.text = "---".toList
    match lines with
    | [] => some (.object [])
    | l :: rest =>
      let lines := if marker l then rest else l :: rest
      let steps := 2 * (lines.map fun l => l.text.length + 1).foldl (· + ·) 0 + 2
      match blockUpTo? steps lines with
      | some (v, []) => some v
      | _ => none

end ExchangeCatalog.Yaml
