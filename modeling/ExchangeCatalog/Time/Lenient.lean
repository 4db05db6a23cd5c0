import ExchangeCatalog.Text.Blank
import ExchangeCatalog.Time.Reader

/-!
# Reading instants in documents

In a JSON document the text of an instant may be looser than in a filter: numbers need no padding,
blanks may stand before each part, and universal time may be called `UTC`. A text that is refused is
refused for the first cause met from left to right.

## Main definitions

* `Instant.ReadFault` — why a text is no instant, with `ReadFault.message`
* `Instant.readLenient` — the instant of a text
-/

namespace ExchangeCatalog.Instant

/-- Why a text is no instant. -/
inductive ReadFault
  /-- The text ends too early. -/
  | tooShort
  /-- A character stands where it cannot. -/
  | invalid
  /-- A number is too large or too small for its place. -/
  | outOfRange
  /-- More text follows. -/
  | trailing
  /-- The instant lies outside the representable years. -/
  | impossible
  deriving DecidableEq, Repr

/-- The wording of a refusal. -/
def ReadFault.message : ReadFault → String
  | tooShort => "premature end of input"
  | invalid => "input contains invalid characters"
  | outOfRange => "input is out of range"
  | trailing => "trailing input"
  | impossible => "no possible date and time matching input"

/-- At least one digit and at most `most` of them, when a bound is given. -/
def number (most : Option Nat) (cs : List Char) : Except ReadFault (Nat × List Char) :=
  let ds := ((most.map cs.take).getD cs).takeWhile Decimal.isDigit
  if cs = [] then .error .tooShort
  else if ds = [] then .error .invalid
  else if 0x8000000000000000 ≤ Decimal.ofDigits ds then .error .outOfRange
  else .ok (Decimal.ofDigits ds, cs.drop ds.length)

/-- A number of one or two digits after optional blanks, within bounds. -/
def shortNumber (least greatest : Nat) (cs : List Char) : Except ReadFault (Nat × List Char) := do
  let (n, cs) ← number (some 2) (Text.trimStart cs)
  if least ≤ n ∧ n ≤ greatest then .ok (n, cs) else .error .outOfRange

/-- A year after optional blanks, within a signed word of 32 bits. -/
def yearNumber (cs : List Char) : Except ReadFault (Int × List Char) := do
  let (n, cs) ← match Text.trimStart cs with
    | '-' :: rest => do
      let (n, cs) ← number none rest
      pure (-(n : Int), cs)
    | '+' :: rest => do
      let (n, cs) ← number none rest
      pure ((n : Int), cs)
    | rest => do
      let (n, cs) ← number (some 4) rest
      pure ((n : Int), cs)
  if -0x80000000 ≤ n ∧ n < 0x80000000 then .ok (n, cs) else .error .outOfRange

/-- A fixed character after optional blanks. -/
def separator (c : Char) (cs : List Char) : Except ReadFault (List Char) :=
  match Text.trimStart cs with
  | [] => .error .tooShort
  | d :: rest => if d = c then .ok rest else .error .invalid

/-- The letter or space between the date and the clock. -/
def dateEnd : List Char → Except ReadFault (List Char)
  | [] => .error .tooShort
  | c :: rest => if c = 't' ∨ c = 'T' ∨ c = ' ' then .ok rest else .error .invalid

/-- An optional fraction of a second, in nanoseconds. -/
def fractionPart : List Char → Except ReadFault (Nat × List Char)
  | '.' :: cs =>
    let ds := cs.takeWhile Decimal.isDigit
    if cs = [] then .error .tooShort
    else if ds = [] then .error .invalid
    else .ok (fractionNanos ds, cs.dropWhile Decimal.isDigit)
  | cs => .ok (0, cs)

/-- Two digits of an offset; the first may not exceed `tens`. A text is too short when it has less
than two bytes left. -/
def offsetDigits (tens : Char) (cs : List Char) : Except ReadFault (Nat × List Char) :=
  if (String.ofList cs).utf8ByteSize < 2 then .error .tooShort
  else match cs with
    | a :: b :: rest =>
      if ¬ (Decimal.isDigit a ∧ Decimal.isDigit b) then .error .invalid
      else if tens < a then .error .outOfRange
      else .ok (Decimal.ofDigits [a, b], rest)
    | _ => .error .invalid

/-- Whether a text begins with `UTC` in any case. -/
def startsWithUtc (cs : List Char) : Bool := (cs.take 3).map Char.toLower == ['u', 't', 'c']

/-- An offset in minutes after optional blanks: `UTC`, `Z`, or a sign, hours and minutes with any
run of colons and blanks between them. -/
def offsetPart (cs : List Char) : Except ReadFault (Int × List Char) :=
  let cs := Text.trimStart cs
  -- After these three letters no sign or number is looked for.
  if startsWithUtc cs then .ok (0, cs.drop 3)
  else match cs with
    | [] => .error .tooShort
    | c :: rest =>
      if c = 'Z' ∨ c = 'z' then .ok (0, rest)
      else match offsetSign? c with
        | none => .error .invalid
        | some sign => do
          let (hours, rest) ← offsetDigits '9' rest
          let (minutes, rest) ←
            offsetDigits '5' (rest.dropWhile fun c => c == ':' || Text.isBlank c)
          .ok (sign * (hours * 60 + minutes), rest)

/-- The instant that a text in the loose form stands for. -/
def readLenient (cs : List Char) : Except ReadFault Instant := do
  let (year, cs) ← yearNumber cs
  let cs ← separator '-' cs
  let (month, cs) ← shortNumber 1 12 cs
  let cs ← separator '-' cs
  let (day, cs) ← shortNumber 1 31 cs
  let cs ← dateEnd cs
  let (hour, cs) ← shortNumber 0 23 cs
  let cs ← separator ':' cs
  let (minute, cs) ← shortNumber 0 59 cs
  let cs ← separator ':' cs
  let (second, cs) ← shortNumber 0 60 cs
  let (fraction, cs) ← fractionPart cs
  let (offset, cs) ← offsetPart cs
  let date : Date := ⟨year, month, day⟩
  -- What is left over is found before the day is looked up in the calendar.
  if Text.trimStart cs ≠ [] then .error .trailing
  else if ¬ (date.IsValid ∧ -262143 ≤ year ∧ year ≤ 262142) then .error .outOfRange
  else if ¬ offset.natAbs < 24 * 60 then .error .outOfRange
  else match ofLocal? date hour minute second fraction offset with
    | some t => .ok t
    | none => .error .impossible

end ExchangeCatalog.Instant
