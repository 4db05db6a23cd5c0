import ExchangeCatalog.Json.Basic
import ExchangeCatalog.Number.Reader
import ExchangeCatalog.Text.Blank
import ExchangeCatalog.Text.Split

/-!
# Relaxed JSON

Relaxed JSON is JSON for people who write it by hand. It also has comments, commas behind the last
part, names without quotes, strings between apostrophes, strings over several lines, and more ways
to write a number.

## Main definitions

* `RelaxedJson.skip?` — blanks and comments left out
* `RelaxedJson.number?` — the number that a word spells
* `RelaxedJson.read?` — the value that a text consists of
-/

namespace ExchangeCatalog.RelaxedJson

/-- Whether a character ends a line. -/
private def isLineEnd (c : Char) : Bool :=
  c == '\n' || c == '\r' || c.toNat == 0x2028 || c.toNat == 0x2029

/-- Blanks and comments left out, at most so many of them. -/
private def skipUpTo? : Nat → List Char → Option (List Char)
  | 0, cs => some cs
  | n + 1, cs =>
    match cs.dropWhile fun c => Text.isBlank c || c.toNat == 0xFEFF with
    | '/' :: '/' :: rest => skipUpTo? n (rest.dropWhile fun c => !isLineEnd c)
    | '/' :: '*' :: rest => (Text.cutAt? "*/".toList rest).bind fun (_, rest) => skipUpTo? n rest
    | rest => some rest

/-- Blanks and comments left out; nothing when a comment has no end. -/
def skip? (cs : List Char) : Option (List Char) := skipUpTo? (cs.length + 1) cs

/-! ### Scalars -/

private def isHex (c : Char) : Bool := Decimal.isDigit c || ('a' ≤ c.toLower && c.toLower ≤ 'f')

/-- The number that hexadecimal digits spell. -/
def hexValue (ds : List Char) : Nat :=
  ds.foldl (fun n c =>
    n * 16 + if Decimal.isDigit c then Decimal.digitValue c else c.toLower.toNat - 'a'.toNat + 10) 0

/-- Whether a row of digits is the whole part of a number: not empty, and without a zero in
front. -/
private def isWhole : List Char → Bool
  | '0' :: _ :: _ => false
  | ds => ds ≠ [] && ds.all Decimal.isDigit

/-- The number that a word without its sign spells. An integer has to fit a signed word, and a
number with a fraction or an exponent must not be too large. -/
private def unsigned? (negative : Bool) (cs : List Char) : Option Json.Number :=
  let ofNat := fun (n : Nat) =>
    let n : Int := if negative then -n else n
    if -0x8000000000000000 ≤ n ∧ n < 0x8000000000000000 then some (.integer n) else none
  let mantissa := cs.takeWhile fun c => c != 'e' && c != 'E'
  let whole := mantissa.takeWhile fun c => c != '.'
  if cs = "Infinity".toList then some (.real (.infinite negative))
  else if cs = "NaN".toList then some (.real .notANumber)
  else match cs with
    | '0' :: 'x' :: ds | '0' :: 'X' :: ds =>
      if ds ≠ [] ∧ ds.all isHex then ofNat (hexValue ds) else none
    | cs =>
      if isWhole cs then ofNat (Decimal.ofDigits cs)
      else if whole = [] ∨ isWhole whole then
        match Binary64.read? (if negative then '-' :: cs else cs) with
        | some (.finite s m e) => some (.real (.finite s m e))
        | _ => none
      else none

/-- The number that a word spells. -/
def number? : List Char → Option Json.Number
  | '-' :: cs => unsigned? true cs
  | '+' :: cs => unsigned? false cs
  | cs => unsigned? false cs

/-- The character that a letter behind a backslash stands for. -/
private def escaped? : Char → Option Char
  | 'b' => some '\x08'
  | 'f' => some '\x0c'
  | 'n' => some '\n'
  | 'r' => some '\r'
  | 't' => some '\t'
  | 'v' => some '\x0b'
  | '0' => some '\x00'
  | c => if Decimal.isDigit c then none else some c

/-- The character of a number, unless it is half of a pair. -/
private def charOf? (n : Nat) : Option Char :=
  if n < 0xD800 ∨ 0xE000 ≤ n then some (Char.ofNat n) else none

/-- A string from behind its opening quote, after characters in reverse, and what follows the
closing one. -/
def string? (quote : Char) (acc : List Char) : List Char → Option (String × List Char)
  | [] => none
  -- A backslash at the end of a line joins it to the next.
  | '\\' :: '\r' :: '\n' :: cs => string? quote acc cs
  | '\\' :: 'x' :: a :: b :: cs =>
    if [a, b].all isHex then (charOf? (hexValue [a, b])).bind fun c => string? quote (c :: acc) cs
    else none
  | '\\' :: 'u' :: a :: b :: c :: d :: cs =>
    if [a, b, c, d].all isHex then
      (charOf? (hexValue [a, b, c, d])).bind fun c => string? quote (c :: acc) cs
    else none
  | '\\' :: c :: cs =>
    if isLineEnd c then string? quote acc cs
    else (escaped? c).bind fun d => string? quote (d :: acc) cs
  | c :: cs =>
    if c = quote then some (String.ofList acc.reverse, cs)
    else if c = '\n' ∨ c = '\r' then none
    else string? quote (c :: acc) cs

/-- Whether a character may stand in a name without quotes. -/
private def isNameChar (c : Char) : Bool :=
  c.isAlphanum || c == '_' || c == '$' || (0x80 ≤ c.toNat && !Text.isBlank c && c.toNat != 0xFEFF)

/-- The value that a word spells. -/
private def word? (cs : List Char) : Option Json :=
  if cs = "null".toList then some .null
  else if cs = "true".toList then some (.bool true)
  else if cs = "false".toList then some (.bool false)
  else (number? cs).map fun n => .scalar (.number n)

/-! ### Values -/

/-- A name at the front of a text, and what follows. -/
private def name? (cs : List Char) : Option (String × List Char) :=
  match cs with
  | '"' :: rest => string? '"' [] rest
  | '\'' :: rest => string? '\'' [] rest
  | cs =>
    let word := cs.takeWhile isNameChar
    if word.head?.all Decimal.isDigit then none
    else some (String.ofList word, cs.dropWhile isNameChar)

mutual

/-- A value at the front of a text, read in at most so many steps, and what follows. -/
private def valueUpTo? : Nat → List Char → Option (Json × List Char)
  | 0, _ => none
  | n + 1, cs =>
    match cs with
    | '[' :: rest => (itemsUpTo? n [] rest).map fun (vs, rest) => (.array vs, rest)
    | '\x7b' :: rest => (membersUpTo? n [] rest).map fun (ms, rest) => (.object ms, rest)
    | '"' :: rest => (string? '"' [] rest).map fun (s, rest) => (.string s, rest)
    | '\'' :: rest => (string? '\'' [] rest).map fun (s, rest) => (.string s, rest)
    | cs =>
      let isPart := fun (c : Char) => isNameChar c || c == '+' || c == '-' || c == '.'
      (word? (cs.takeWhile isPart)).map fun v => (v, cs.dropWhile isPart)

/-- The items of an array up to its end, after others in reverse. -/
private def itemsUpTo? : Nat → List Json → List Char → Option (List Json × List Char)
  | 0, _, _ => none
  | n + 1, acc, cs => do
    match ← skip? cs with
    | ']' :: rest => some (acc.reverse, rest)
    | cs => do
      let (v, rest) ← valueUpTo? n cs
      match ← skip? rest with
      | ',' :: rest => itemsUpTo? n (v :: acc) rest
      | ']' :: rest => some ((v :: acc).reverse, rest)
      | _ => none

/-- The members of an object up to its end, after others in reverse. -/
private def membersUpTo? :
    Nat → List (String × Json) → List Char → Option (List (String × Json) × List Char)
  | 0, _, _ => none
  | n + 1, acc, cs => do
    match ← skip? cs with
    | '\x7d' :: rest => some (acc.reverse, rest)
    | cs => do
      let (name, rest) ← name? cs
      match ← skip? rest with
      | ':' :: rest => do
        let (v, rest) ← valueUpTo? n (← skip? rest)
        match ← skip? rest with
        | ',' :: rest => membersUpTo? n ((name, v) :: acc) rest
        | '\x7d' :: rest => some (((name, v) :: acc).reverse, rest)
        | _ => none
      | _ => none

end

/-- The value that a text consists of. -/
def read? (s : String) : Option Json := do
  let cs ← skip? s.toList
  let (v, rest) ← valueUpTo? (2 * cs.length + 2) cs
  match ← skip? rest with
  | [] => some v
  | _ => none

end ExchangeCatalog.RelaxedJson
