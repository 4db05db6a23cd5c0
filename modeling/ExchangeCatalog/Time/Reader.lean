import ExchangeCatalog.Text.Blank
import ExchangeCatalog.Text.Decimal
import ExchangeCatalog.Time.Instant

/-!
# Reading instants in filters

A filter names an instant in one of two forms: the strict form of RFC 3339, with fixed widths and an
offset, or a bare date, which stands for its midnight in universal time.

## Main definitions

* `Instant.ofRfc3339?` — the strict form
* `Date.read?` — a date with unpadded numbers
* `Instant.read?` — the first of the two forms that fits
-/

namespace ExchangeCatalog

/-- The number spelled by exactly `n` digits at the front, and what follows them. -/
def fixedNumber? (n : Nat) (cs : List Char) : Option (Nat × List Char) :=
  let ds := cs.take n
  if ds.length = n ∧ ds.all Decimal.isDigit then some (Decimal.ofDigits ds, cs.drop n) else none

/-- The nanoseconds of a fraction's digits; what is below a nanosecond is dropped. -/
def fractionNanos (ds : List Char) : Nat :=
  let kept := ds.take 9
  Decimal.ofDigits kept * Decimal.tenTo (9 - kept.length)

/-- What follows a given character at the front. -/
def afterChar? (c : Char) : List Char → Option (List Char)
  | d :: cs => if d = c then some cs else none
  | [] => none

/-- An optional fraction: a point and at least one digit. -/
def fraction? : List Char → Option (Nat × List Char)
  | '.' :: cs =>
    let ds := cs.takeWhile Decimal.isDigit
    if ds = [] then none else some (fractionNanos ds, cs.dropWhile Decimal.isDigit)
  | cs => some (0, cs)

/-- The sign of an offset, written with a hyphen, a plus or the minus sign of mathematics. -/
def offsetSign? (c : Char) : Option Int :=
  if c = '+' then some 1 else if c = '-' ∨ c = '\u2212' then some (-1) else none

/-- The offset at the end of the strict form, in minutes: `Z`, or hours and minutes below a day. -/
def strictOffset? : List Char → Option Int
  | [c] => if c = 'Z' ∨ c = 'z' then some 0 else none
  | c :: cs => do
    let sign ← offsetSign? c
    let (hours, cs) ← fixedNumber? 2 cs
    let cs ← afterChar? ':' cs
    let (minutes, cs) ← fixedNumber? 2 cs
    if cs = [] ∧ hours < 24 ∧ minutes < 60 then some (sign * (hours * 60 + minutes)) else none
  | [] => none

/-- The strict form of RFC 3339. -/
def Instant.ofRfc3339? (cs : List Char) : Option Instant := do
  let (year, cs) ← fixedNumber? 4 cs
  let cs ← afterChar? '-' cs
  let (month, cs) ← fixedNumber? 2 cs
  let cs ← afterChar? '-' cs
  let (day, cs) ← fixedNumber? 2 cs
  let cs ← match cs with
    | c :: rest => if c = 'T' ∨ c = 't' ∨ c = ' ' then some rest else none
    | [] => none
  let (hour, cs) ← fixedNumber? 2 cs
  let cs ← afterChar? ':' cs
  let (minute, cs) ← fixedNumber? 2 cs
  let cs ← afterChar? ':' cs
  let (second, cs) ← fixedNumber? 2 cs
  let (fraction, cs) ← fraction? cs
  let offset ← strictOffset? cs
  let date : Date := ⟨year, month, day⟩
  -- Second 60 is a leap second, wherever in the day it stands.
  if date.IsValid ∧ hour < 24 ∧ minute < 60 ∧ second ≤ 60 then
    Instant.ofLocal? date hour minute second fraction offset
  else none

/-- One to `most` digits after optional blanks, and what follows them. -/
def blankNumber? (most : Nat) (cs : List Char) : Option (Nat × List Char) :=
  let cs := Text.trimStart cs
  let ds := (cs.take most).takeWhile Decimal.isDigit
  if ds = [] then none else some (Decimal.ofDigits ds, cs.drop ds.length)

/-- A year after optional blanks: up to four digits, or a sign and any number of digits. -/
def blankYear? (cs : List Char) : Option (Int × List Char) :=
  match Text.trimStart cs with
  | c :: rest =>
    -- Only a sign makes room for a fifth digit.
    if c = '+' ∨ c = '-' then
      let ds := rest.takeWhile Decimal.isDigit
      if ds = [] then none
      else
        let n : Int := Decimal.ofDigits ds
        some (if c = '-' then -n else n, rest.dropWhile Decimal.isDigit)
    else (blankNumber? 4 (c :: rest)).map fun (n, cs) => ((n : Int), cs)
  | [] => none

/-- A date whose numbers need no padding and may follow blanks; each but the last is followed
directly by a hyphen, and nothing follows the day. -/
def Date.read? (cs : List Char) : Option Date := do
  let (year, cs) ← blankYear? cs
  let cs ← afterChar? '-' cs
  let (month, cs) ← blankNumber? 2 cs
  let cs ← afterChar? '-' cs
  let (day, cs) ← blankNumber? 2 cs
  let date : Date := ⟨year, month, day⟩
  if cs = [] ∧ date.IsValid then some date else none

/-- An instant in a filter: the strict form, or a bare date for its midnight. -/
def Instant.read? (cs : List Char) : Option Instant :=
  match ofRfc3339? cs with
  | some t => some t
  | none => (Date.read? cs).bind fun d => ofLocal? d 0 0 0 0 0

end ExchangeCatalog
