import ExchangeCatalog.Number.Binary64
import ExchangeCatalog.Text.Split
import ExchangeCatalog.Time.Calendar
import ExchangeCatalog.Time.Reader

/-!
# Scalar values of settings files

Settings files are written in TOML. Its scalars are strings in four notations, integers in four
bases, floating-point numbers, truth values, and dates and times, which stay text here.

## Main definitions

* `Toml` — a value of a settings file
* `Toml.integer?`, `Toml.float?`, `Toml.dateTime?` — the scalars that are written without quotes
* `Toml.string?` — a string at the front of a text
-/

namespace ExchangeCatalog

/-- A value of a settings file. -/
inductive Toml
  | string (s : String)
  | integer (n : Int)
  | float (x : Binary64)
  | boolean (b : Bool)
  | dateTime (text : String)
  | array (items : List Toml)
  | table (entries : List (String × Toml))

namespace Toml

/-! ### Numbers -/

/-- Digits with single underscores between them, without the underscores. -/
def groupedDigits? (isDigit : Char → Bool) : List Char → Option (List Char)
  | [] => none
  | [c] => if isDigit c then some [c] else none
  | c :: '_' :: cs => if isDigit c then (groupedDigits? isDigit cs).map fun ds => c :: ds else none
  | c :: cs => if isDigit c then (groupedDigits? isDigit cs).map fun ds => c :: ds else none

/-- Digits of a base as a number. -/
def ofBase (base : Nat) (ds : List Char) : Nat :=
  ds.foldl (fun n c =>
    let v := if Decimal.isDigit c then Decimal.digitValue c else c.toLower.toNat - 'a'.toNat + 10
    n * base + v) 0

/-- Whether a character is a digit of base sixteen. -/
def isHexDigit (c : Char) : Bool := Decimal.isDigit c || ('a' ≤ c.toLower && c.toLower ≤ 'f')

/-- A sign at the front of a text: whether it is a minus, and what follows. -/
def takeSign : List Char → Bool × List Char
  | '-' :: cs => (true, cs)
  | '+' :: cs => (false, cs)
  | cs => (false, cs)

/-- Decimal digits without a leading zero. -/
def decimalDigits? (cs : List Char) : Option (List Char) :=
  match groupedDigits? Decimal.isDigit cs with
  | some ('0' :: _ :: _) => none
  | r => r

/-- An integer within a signed word, given by a text. -/
def integer? (cs : List Char) : Option Int :=
  let n : Option Int := match cs with
    | '0' :: 'x' :: ds => (groupedDigits? isHexDigit ds).map fun ds => (ofBase 16 ds : Int)
    | '0' :: 'o' :: ds =>
      (groupedDigits? (fun c => '0' ≤ c && c ≤ '7') ds).map fun ds => (ofBase 8 ds : Int)
    | '0' :: 'b' :: ds =>
      (groupedDigits? (fun c => c == '0' || c == '1') ds).map fun ds => (ofBase 2 ds : Int)
    | cs =>
      let (negative, ds) := takeSign cs
      (decimalDigits? ds).map fun ds => if negative then -(ofBase 10 ds : Int) else ofBase 10 ds
  n.filter fun n => -0x8000000000000000 ≤ n ∧ n < 0x8000000000000000

/-- A floating-point number given by a text; one that is too large is none. -/
def float? (cs : List Char) : Option Binary64 :=
  let (negative, body) := takeSign cs
  if body = "inf".toList then some (.infinite negative)
  else if body = "nan".toList then some .notANumber
  else
    let isMark := fun (c : Char) => c == 'e' || c == 'E'
    let mantissa := body.takeWhile fun c => !isMark c
    let (whole, fraction) := match Text.cutFirst? '.' mantissa with
      | some (a, b) => (a, some b)
      | none => (mantissa, none)
    let exponent : Option (Option Int) := match body.dropWhile fun c => !isMark c with
      | [] => some none
      | _ :: e =>
        let (below, ds) := takeSign e
        (groupedDigits? Decimal.isDigit ds).map fun ds =>
          some (if below then -(Decimal.ofDigits ds : Int) else Decimal.ofDigits ds)
    let places : Option (List Char) := match fraction with
      | some f => groupedDigits? Decimal.isDigit f
      | none => some []
    match decimalDigits? whole, places, exponent with
    | some ds, some fs, some e =>
      if fraction.isNone ∧ e.isNone then none
      else
        match Binary64.ofDecimal negative (Decimal.ofDigits (ds ++ fs)) (e.getD 0 - fs.length) with
        | .infinite _ => none
        | x => some x
    | _, _, _ => none

/-! ### Dates and times -/

/-- A date at the front of a text. -/
private def date? (cs : List Char) : Option (List Char × List Char) := do
  let (year, cs₁) ← fixedNumber? 4 cs
  let cs₂ ← afterChar? '-' cs₁
  let (month, cs₃) ← fixedNumber? 2 cs₂
  let cs₄ ← afterChar? '-' cs₃
  let (day, rest) ← fixedNumber? 2 cs₄
  let date : Date := ⟨year, month, day⟩
  if date.IsValid then some (cs.take 10, rest) else none

/-- The digits of a fraction as they are kept: at most nine, without zeros at the end, but at least
one. -/
private def keptFraction (ds : List Char) : List Char :=
  match (ds.take 9).reverse.dropWhile fun c => c == '0' with
  | [] => ".0".toList
  | kept => '.' :: kept.reverse

/-- A time of day at the front of a text; the seconds may be left out. -/
private def time? (cs : List Char) : Option (List Char × List Char) := do
  let (hour, cs₁) ← fixedNumber? 2 cs
  let cs₂ ← afterChar? ':' cs₁
  let (minute, cs₃) ← fixedNumber? 2 cs₂
  if ¬ (hour < 24 ∧ minute < 60) then none
  else match cs₃ with
    | ':' :: cs₄ => do
      let (second, cs₅) ← fixedNumber? 2 cs₄
      if ¬ second ≤ 60 then none
      else match cs₅ with
        | '.' :: more =>
          let ds := more.takeWhile Decimal.isDigit
          if ds = [] then none
          else some (cs.take 8 ++ keptFraction ds, more.dropWhile Decimal.isDigit)
        | rest => some (cs.take 8, rest)
    | rest => some (cs.take 5, rest)

/-- What may follow a time after a date: nothing, `Z`, or a sign, hours and minutes; in its usual
form, where no offset counts as one ahead. -/
private def offset? : List Char → Option (List Char)
  | [] => some []
  | [c] => if c = 'Z' ∨ c = 'z' then some ['Z'] else none
  | c :: cs => do
    if c ≠ '+' ∧ c ≠ '-' then none
    else
      let (hour, cs₁) ← fixedNumber? 2 cs
      let cs₂ ← afterChar? ':' cs₁
      let (minute, rest) ← fixedNumber? 2 cs₂
      if rest = [] ∧ hour < 24 ∧ minute < 60 then
        some ((if hour = 0 ∧ minute = 0 then '+' else c) :: cs)
      else none

/-- A date, a time, or both, given by a text; in its usual form. -/
def dateTime? (cs : List Char) : Option String :=
  match date? cs with
  | some (date, []) => some (String.ofList date)
  | some (date, c :: rest) => do
    if c ≠ 'T' ∧ c ≠ 't' ∧ c ≠ ' ' then none
    else
      let (time, rest) ← time? rest
      let offset ← offset? rest
      some (String.ofList (date ++ 'T' :: time ++ offset))
  | none =>
    match time? cs with
    | some (time, []) => some (String.ofList time)
    | _ => none

/-- The characters of scalars that are written without quotes. -/
def isPlainChar (c : Char) : Bool :=
  c.isAlphanum || c == '_' || c == '+' || c == '-' || c == '.' || c == ':'

/-- A scalar without quotes at the front of a text, and what follows. A space may stand between a
date and a time. -/
def plain? (cs : List Char) : Option (Toml × List Char) :=
  let word := cs.takeWhile isPlainChar
  let rest := cs.dropWhile isPlainChar
  let (word, rest) := match date? word, rest with
    | some (_, []), ' ' :: more =>
      match more with
      | c :: _ =>
        if Decimal.isDigit c then
          (word ++ ' ' :: more.takeWhile isPlainChar, more.dropWhile isPlainChar)
        else (word, rest)
      | [] => (word, rest)
    | _, _ => (word, rest)
  let value : Option Toml :=
    if word = "true".toList then some (.boolean true)
    else if word = "false".toList then some (.boolean false)
    else (integer? word).map .integer <|> (float? word).map .float <|>
      (dateTime? word).map .dateTime
  value.map fun v => (v, rest)

/-! ### Strings -/

/-- A control character that no string and no comment may hold. -/
def isForbidden (c : Char) : Bool := (c.toNat < 0x20 && c != '\t') || c.toNat == 0x7F

/-- The character with the number that hexadecimal digits spell, if there is one. -/
private def scalarOf? (ds : List Char) : Option Char :=
  let n := ofBase 16 ds
  if ds.all isHexDigit ∧ (n < 0xD800 ∨ (0xE000 ≤ n ∧ n < 0x110000)) then some (Char.ofNat n)
  else none

/-- The character that a two-character escape stands for. -/
private def escape? : Char → Option Char
  | 'b' => some '\x08'
  | 't' => some '\t'
  | 'n' => some '\n'
  | 'f' => some '\x0c'
  | 'r' => some '\r'
  | 'e' => some '\x1b'
  | '"' => some '"'
  | '\\' => some '\\'
  | _ => none

/-- The number of digits of a numbered escape. -/
private def escapeWidth? : Char → Option Nat
  | 'x' => some 2
  | 'u' => some 4
  | 'U' => some 8
  | _ => none

/-- An escape behind its backslash: the character it stands for, and what follows. -/
private def takeEscape? : List Char → Option (Char × List Char)
  | [] => none
  | c :: cs =>
    match escapeWidth? c with
    | some n =>
      if cs.length < n then none else (scalarOf? (cs.take n)).map fun ch => (ch, cs.drop n)
    | none => (escape? c).map fun ch => (ch, cs)

private theorem length_of_takeEscape? {cs rest : List Char} {c : Char}
    (h : takeEscape? cs = some (c, rest)) : rest.length < cs.length := by
  cases cs with
  | nil => simp [takeEscape?] at h
  | cons d ds =>
    simp only [takeEscape?] at h
    split at h
    · split at h
      · simp at h
      · obtain ⟨_, _, heq⟩ := Option.map_eq_some_iff.1 h
        obtain ⟨-, rfl⟩ := Prod.mk.inj heq
        simp only [List.length_drop, List.length_cons]
        omega
    · obtain ⟨_, _, heq⟩ := Option.map_eq_some_iff.1 h
      obtain ⟨-, rfl⟩ := Prod.mk.inj heq
      simp

/-- A string between double quotes, from behind the opening one, after characters given in
reverse. -/
def basicString? (acc : List Char) (cs : List Char) : Option (String × List Char) :=
  match cs with
  | [] => none
  | '"' :: rest => some (String.ofList acc.reverse, rest)
  | '\\' :: rest =>
    match h : takeEscape? rest with
    | some (c, rest') =>
      have : rest'.length < rest.length + 1 := by have := length_of_takeEscape? h; omega
      basicString? (c :: acc) rest'
    | none => none
  | c :: rest => if isForbidden c then none else basicString? (c :: acc) rest
termination_by cs.length

/-- A string between single quotes, from behind the opening one: everything up to the next one. -/
def literalString? (cs : List Char) : Option (String × List Char) :=
  match Text.cutFirst? '\'' cs with
  | some (s, rest) => if s.any isForbidden then none else some (String.ofList s, rest)
  | none => none

/-- A line end at the front of a text, and what follows. -/
def takeNewline? : List Char → Option (List Char)
  | '\n' :: cs => some cs
  | '\r' :: '\n' :: cs => some cs
  | _ => none

/-- Blanks and line ends left out. -/
def skipBlankLines : List Char → List Char
  | ' ' :: cs => skipBlankLines cs
  | '\t' :: cs => skipBlankLines cs
  | '\n' :: cs => skipBlankLines cs
  | '\r' :: '\n' :: cs => skipBlankLines cs
  | cs => cs

theorem length_skipBlankLines_le (cs : List Char) : (skipBlankLines cs).length ≤ cs.length := by
  fun_induction skipBlankLines cs <;> simp_all <;> omega

/-- What follows a backslash at the end of a line: the blanks up to the line end, the line end, and
all blanks and line ends after it are left out. -/
private def takeLineEnd? (cs : List Char) : Option (List Char) :=
  match takeNewline? (cs.dropWhile fun c => c == ' ' || c == '\t') with
  | some rest => some (skipBlankLines rest)
  | none => none

private theorem length_of_takeNewline? {cs rest : List Char} (h : takeNewline? cs = some rest) :
    rest.length < cs.length := by
  unfold takeNewline? at h
  split at h
  · obtain rfl := Option.some.inj h
    simp
  · obtain rfl := Option.some.inj h
    simp only [List.length_cons]
    omega
  · simp at h

private theorem length_of_takeLineEnd? {cs rest : List Char} (h : takeLineEnd? cs = some rest) :
    rest.length < cs.length := by
  unfold takeLineEnd? at h
  split at h
  · rename_i r hr
    have h₁ := length_of_takeNewline? hr
    have h₂ := (List.dropWhile_suffix (fun c => c == ' ' || c == '\t') (l := cs)).length_le
    have h₃ := length_skipBlankLines_le r
    simp only [Option.some.injEq] at h
    subst h
    omega
  · simp at h

/-- A string over several lines between three quotes of a kind, from behind the opening ones, after
characters given in reverse. Line ends are kept as they are written. Up to two quotes may stand
before the closing ones. With escapes a backslash at the end of a line joins it to the next. -/
def longString? (quote : Char) (escapes : Bool) (acc : List Char) (cs : List Char) :
    Option (String × List Char) :=
  match cs with
  | [] => none
  | c :: rest =>
    if c = quote then
      -- The last three quotes of a run close the string; up to two before them belong to it.
      let run := (c :: rest).takeWhile fun d => d == quote
      if 3 ≤ run.length then
        let kept := min (run.length - 3) 2
        some (String.ofList ((List.replicate kept quote ++ acc).reverse),
          (c :: rest).drop (kept + 3))
      else longString? quote escapes (c :: acc) rest
    else if c = '\\' ∧ escapes then
      match h : takeLineEnd? rest with
      | some rest' =>
        have : rest'.length < rest.length + 1 := by have := length_of_takeLineEnd? h; omega
        longString? quote escapes acc rest'
      | none =>
        match h' : takeEscape? rest with
        | some (d, rest') =>
          have : rest'.length < rest.length + 1 := by have := length_of_takeEscape? h'; omega
          longString? quote escapes (d :: acc) rest'
        | none => none
    else if c = '\n' then longString? quote escapes ('\n' :: acc) rest
    else if c = '\r' then
      match rest with
      | '\n' :: more => longString? quote escapes ('\n' :: '\r' :: acc) more
      | _ => none
    else if isForbidden c then none
    else longString? quote escapes (c :: acc) rest
termination_by cs.length

/-- A line end directly behind the opening quotes of a long string does not belong to it. -/
private def dropNewline (cs : List Char) : List Char := (takeNewline? cs).getD cs

/-- A string on one line at the front of a text, and what follows. -/
def shortString? : List Char → Option (String × List Char)
  | '"' :: cs => basicString? [] cs
  | '\'' :: cs => literalString? cs
  | _ => none

/-- A string at the front of a text, and what follows. -/
def string? : List Char → Option (String × List Char)
  | '"' :: '"' :: '"' :: cs => longString? '"' true [] (dropNewline cs)
  | '\'' :: '\'' :: '\'' :: cs => longString? '\'' false [] (dropNewline cs)
  | cs => shortString? cs

end Toml

end ExchangeCatalog
