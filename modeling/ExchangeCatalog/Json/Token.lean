import ExchangeCatalog.Json.Basic
import ExchangeCatalog.Text.Decimal
import ExchangeCatalog.Text.Percent
import ExchangeCatalog.Text.Utf8

/-!
# Tokens of a JSON text

A JSON text is cut into tokens up to the first byte that belongs to none. Whether a string spells a
text (it may hold lone surrogates or bytes that are no UTF-8) and whether a number is in range
matters only where the value is used, so such scalars have tokens of their own.

## Main definitions

* `Json.Token` — brackets, separators and scalar values
* `Json.Number.ofText?` — the value of a number's digits
* `Json.tokens` — the tokens of a text, and whether it has been cut to its end
-/

namespace ExchangeCatalog.Json

/-- A piece of a JSON text. -/
inductive Token
  | openArray
  | closeArray
  | openObject
  | closeObject
  | colon
  | comma
  | scalar (s : Scalar)
  /-- A string that spells no text. -/
  | textlessString
  /-- A number too large for floating point. -/
  | boundlessNumber
  deriving DecidableEq, Repr

/-- A byte as the character of that number. -/
def asChar (b : UInt8) : Char := Char.ofNat b.toNat

/-- The four characters that may stand between tokens. -/
def isSpace (b : UInt8) : Bool := b == 0x20 || b == 0x09 || b == 0x0A || b == 0x0D

/-! ## Strings -/

/-- A piece of a string: a byte that stands for itself, or a numbered code unit. -/
inductive Part
  | byte (b : UInt8)
  | unit (n : Nat)

/-- The byte that a two-character escape stands for. -/
def escape? (b : UInt8) : Option UInt8 :=
  match asChar b with
  | '"' => some 0x22
  | '\\' => some 0x5C
  | '/' => some 0x2F
  | 'b' => some 0x08
  | 'f' => some 0x0C
  | 'n' => some 0x0A
  | 'r' => some 0x0D
  | 't' => some 0x09
  | _ => none

/-- The pieces of a string after its opening quote, in reverse before those given, and what follows
the closing quote. Control characters and unknown escapes end the reading. -/
def stringParts (acc : List Part) : List UInt8 → Option (List Part × List UInt8)
  | [] => none
  | 0x22 :: bs => some (acc.reverse, bs)
  -- A backslash and the letter u announce four hexadecimal digits.
  | 0x5C :: 0x75 :: a :: b :: c :: d :: bs =>
    match hexValue? a, hexValue? b, hexValue? c, hexValue? d with
    | some a, some b, some c, some d =>
      stringParts (.unit (a * 0x1000 + b * 0x100 + c * 0x10 + d) :: acc) bs
    | _, _, _, _ => none
  | 0x5C :: e :: bs =>
    match escape? e with
    | some b => stringParts (.byte b :: acc) bs
    | none => none
  | b :: bs => if b < 0x20 ∨ b = 0x5C then none else stringParts (.byte b :: acc) bs

/-- The bytes of the character with a given number, before bytes already gathered in reverse. -/
def pushChar (n : Nat) (acc : List UInt8) : List UInt8 :=
  (Utf8.encode (String.singleton (Char.ofNat n))).reverse ++ acc

/-- The bytes that the pieces spell, in reverse; a surrogate that is not half of a pair spells
nothing. -/
def partBytes (acc : List UInt8) : List Part → Option (List UInt8)
  | [] => some acc.reverse
  | .byte b :: ps => partBytes (b :: acc) ps
  -- Two units in a row may be the halves of one character.
  | .unit h :: .unit l :: ps =>
    if 0xD800 ≤ h ∧ h < 0xDC00 then
      if 0xDC00 ≤ l ∧ l < 0xE000 then
        partBytes (pushChar (0x10000 + (h - 0xD800) * 0x400 + (l - 0xDC00)) acc) ps
      else none
    else if 0xDC00 ≤ h ∧ h < 0xE000 then none
    else partBytes (pushChar h acc) (.unit l :: ps)
  | .unit h :: ps => if 0xD800 ≤ h ∧ h < 0xE000 then none else partBytes (pushChar h acc) ps

/-- The text that the pieces of a string spell, if they do. -/
def partsText? (ps : List Part) : Option String := (partBytes [] ps).bind Utf8.decode?

/-! ## Numbers -/

/-- Takes digits into a significand while it fits an unsigned word; answers it and the digits left
over. -/
def takeDigits (significand : Nat) : List Char → Nat × List Char
  | [] => (significand, [])
  | c :: cs =>
    let next := significand * 10 + Decimal.digitValue c
    if next < UInt64.size then takeDigits next cs else (significand, c :: cs)

/-- The floating-point number `significand * 10 ^ exponent`: the significand is rounded first and
its product or quotient with the power of ten again, in steps of `1e308` for very small numbers.
Nothing when the number is too large. -/
def real? (negative : Bool) (significand : Nat) (exponent : Int) : Option Binary64 :=
  let x := Binary64.ofDecimal negative significand 0
  if x.isZero then some x
  else if 308 < exponent then none
  else
    let y :=
      if -308 ≤ exponent then x.scaleTen exponent
      else if -616 ≤ exponent then (x.scaleTen (-308)).scaleTen (exponent + 308)
      else .finite negative 0 Binary64.leastExponent
    match y with
    | .finite .. => some y
    | _ => none

/-- The value of a number from its sign, its integer digits, its fraction digits and its exponent,
each of the latter two absent where the text has none. -/
def Number.ofText? (negative : Bool) (whole : List Char) (fraction : Option (List Char))
    (exponent : Option Int) : Option Number :=
  let (significand, dropped) := takeDigits 0 whole
  match fraction, exponent, dropped with
  | none, none, [] =>
    if ¬ negative then some (.integer significand)
    -- Zero below zero is not an integer: only floating point tells it from zero.
    else if 0 < significand ∧ significand ≤ 0x8000000000000000 then some (.integer (-significand))
    else (real? negative significand 0).map .real
  | _, _, _ =>
    let ds := fraction.getD []
    let (significand, unused) := takeDigits significand ds
    let places : Int := (ds.length : Int) - unused.length
    (real? negative significand (dropped.length - places + exponent.getD 0)).map .real

/-- A run of digits at the front of a text, as characters, and what follows. -/
def digitRun (bs : List UInt8) : List Char × List UInt8 :=
  let isDigit := fun (b : UInt8) => Decimal.isDigit (asChar b)
  ((bs.takeWhile isDigit).map asChar, bs.dropWhile isDigit)

/-- The integer digits of a number: at least one, and a leading zero stands alone. -/
def wholeDigits? (bs : List UInt8) : Option (List Char × List UInt8) :=
  let run := digitRun bs
  if run.1 = [] ∨ (run.1.head? = some '0' ∧ run.1.length ≠ 1) then none else some run

/-- An optional fraction: a point and at least one digit. -/
def fractionDigits? : List UInt8 → Option (Option (List Char) × List UInt8)
  | 0x2E :: bs =>
    let run := digitRun bs
    if run.1 = [] then none else some (some run.1, run.2)
  | bs => some (none, bs)

/-- Takes a sign off the front of a text: whether it is a minus, and what follows. Only an exponent
may have a plus sign. -/
def takeSign (plus : Bool) : List UInt8 → Bool × List UInt8
  | [] => (false, [])
  | b :: bs =>
    if b = 0x2D then (true, bs) else if plus ∧ b = 0x2B then (false, bs) else (false, b :: bs)

/-- An optional exponent: the letter, an optional sign and at least one digit. -/
def exponent? : List UInt8 → Option (Option Int × List UInt8)
  | [] => some (none, [])
  | e :: bs =>
    if e ≠ 0x65 ∧ e ≠ 0x45 then some (none, e :: bs)
    else
      let signed := takeSign true bs
      let run := digitRun signed.2
      let n : Int := Decimal.ofDigits run.1
      if run.1 = [] then none else some (some (if signed.1 then -n else n), run.2)

/-- A number at the front of a text and what follows it. -/
def numberToken? (bs : List UInt8) : Option (Token × List UInt8) := do
  let signed := takeSign false bs
  let (whole, bs) ← wholeDigits? signed.2
  let (fraction, bs) ← fractionDigits? bs
  let (exponent, bs) ← exponent? bs
  let number := Number.ofText? signed.1 whole fraction exponent
  some ((number.map (.scalar <| .number ·)).getD .boundlessNumber, bs)

/-! ## Tokens -/

/-- A fixed word of ASCII letters at the front of a text. -/
def word? (word : List Char) (s : Scalar) (bs : List UInt8) : Option (Token × List UInt8) :=
  if (bs.take word.length).map asChar = word then some (.scalar s, bs.drop word.length) else none

/-- The token of a string with the given pieces. -/
def stringToken (ps : List Part) : Token :=
  match partsText? ps with
  | some s => .scalar (.string s)
  | none => .textlessString

/-- The token at the front of a text that begins with no space, and what follows it. -/
def nextToken? : List UInt8 → Option (Token × List UInt8)
  | [] => none
  | b :: bs =>
    match asChar b with
    | '[' => some (.openArray, bs)
    | ']' => some (.closeArray, bs)
    | '\x7b' => some (.openObject, bs)
    | '\x7d' => some (.closeObject, bs)
    | ':' => some (.colon, bs)
    | ',' => some (.comma, bs)
    | '"' => (stringParts [] bs).map fun (ps, rest) => (stringToken ps, rest)
    | 'n' => word? ['n', 'u', 'l', 'l'] .null (b :: bs)
    | 't' => word? ['t', 'r', 'u', 'e'] (.bool true) (b :: bs)
    | 'f' => word? ['f', 'a', 'l', 's', 'e'] (.bool false) (b :: bs)
    | _ => numberToken? (b :: bs)

/-! ### Reading a token uses up text -/

theorem length_of_stringParts {acc ps : List Part} {bs rest : List UInt8}
    (h : stringParts acc bs = some (ps, rest)) : rest.length < bs.length := by
  fun_induction stringParts acc bs with
  | case1 => simp at h
  | case2 => simp_all
  | case3 _ _ _ _ _ _ _ _ _ _ _ _ _ _ ih => have := ih h; simp only [List.length_cons]; omega
  | case4 => simp at h
  | case5 _ _ _ _ _ _ ih => have := ih h; simp only [List.length_cons]; omega
  | case6 => simp at h
  | case7 => simp at h
  | case8 _ _ _ _ _ _ _ ih => have := ih h; simp only [List.length_cons]; omega

private theorem length_digitRun (bs : List UInt8) :
    (digitRun bs).1.length + (digitRun bs).2.length = bs.length := by
  simp only [digitRun, List.length_map, ← List.length_append, List.takeWhile_append_dropWhile]

private theorem length_of_wholeDigits? {ds : List Char} {bs rest : List UInt8}
    (h : wholeDigits? bs = some (ds, rest)) : rest.length < bs.length := by
  have hrun := length_digitRun bs
  simp only [wholeDigits?] at h
  split at h
  · simp at h
  · rename_i hne
    have hpos : 0 < (digitRun bs).1.length := by
      apply List.length_pos_iff.2
      intro h0
      exact hne (Or.inl h0)
    have := congrArg (fun r => r.2.length) (Option.some.inj h)
    simp only at this
    omega

private theorem length_of_fractionDigits? {ds : Option (List Char)} {bs rest : List UInt8}
    (h : fractionDigits? bs = some (ds, rest)) : rest.length ≤ bs.length := by
  unfold fractionDigits? at h
  split at h
  · rename_i tail
    have hrun := length_digitRun tail
    simp only at h
    split at h
    · simp at h
    · have := congrArg (fun r => r.2.length) (Option.some.inj h)
      simp only at this
      simp only [List.length_cons]
      omega
  · have := congrArg (fun r => r.2.length) (Option.some.inj h)
    simp only at this
    omega

private theorem length_takeSign (plus : Bool) (bs : List UInt8) :
    (takeSign plus bs).2.length ≤ bs.length := by
  cases bs with
  | nil => simp [takeSign]
  | cons b bs => simp only [takeSign]; split <;> (try split) <;> simp

private theorem length_of_exponent? {n : Option Int} {bs rest : List UInt8}
    (h : exponent? bs = some (n, rest)) : rest.length ≤ bs.length := by
  cases bs with
  | nil => simp_all [exponent?]
  | cons e bs =>
    have hsign := length_takeSign true bs
    have hrun := length_digitRun (takeSign true bs).2
    simp only [exponent?] at h
    split at h
    · have := congrArg (fun r => r.2.length) (Option.some.inj h)
      simp only at this
      omega
    · split at h
      · simp at h
      · have := congrArg (fun r => r.2.length) (Option.some.inj h)
        simp only at this
        simp only [List.length_cons]
        omega

private theorem length_of_numberToken? {t : Token} {bs rest : List UInt8}
    (h : numberToken? bs = some (t, rest)) : rest.length < bs.length := by
  simp only [numberToken?, Option.bind_eq_bind, Option.bind_eq_some_iff, Prod.exists,
    Option.some.injEq, Prod.mk.injEq] at h
  obtain ⟨_, r₁, h₁, _, r₂, h₂, _, r₃, h₃, _, rfl⟩ := h
  have := length_takeSign false bs
  have := length_of_wholeDigits? h₁
  have := length_of_fractionDigits? h₂
  have := length_of_exponent? h₃
  omega

private theorem length_of_word? {word : List Char} {s : Scalar} {t : Token} {b : UInt8}
    {bs rest : List UInt8} (hword : 0 < word.length) (h : word? word s (b :: bs) = some (t, rest)) :
    rest.length < (b :: bs).length := by
  simp only [word?] at h
  split at h
  · have := congrArg (fun r => r.2.length) (Option.some.inj h)
    simp only [List.length_drop] at this
    simp only [List.length_cons] at this ⊢
    omega
  · simp at h

theorem length_of_nextToken? {t : Token} {bs rest : List UInt8}
    (h : nextToken? bs = some (t, rest)) : rest.length < bs.length := by
  cases bs with
  | nil => simp [nextToken?] at h
  | cons b bs =>
    simp only [nextToken?] at h
    split at h
    case h_7 =>
      obtain ⟨⟨ps, r⟩, hp, hr⟩ := Option.map_eq_some_iff.1 h
      have hlen := length_of_stringParts hp
      obtain ⟨-, rfl⟩ := Prod.mk.inj hr
      simp only [List.length_cons]
      omega
    case h_8 => exact length_of_word? (by decide) h
    case h_9 => exact length_of_word? (by decide) h
    case h_10 => exact length_of_word? (by decide) h
    case h_11 => exact length_of_numberToken? h
    all_goals
      obtain ⟨-, rfl⟩ := Prod.mk.inj (Option.some.inj h)
      simp

/-- The tokens of a text in order, after those given in reverse, and whether the text has been read
to its end. -/
def tokensFrom (acc : List Token) (bs : List UInt8) : List Token × Bool :=
  match h : bs.dropWhile isSpace with
  | [] => (acc.reverse, true)
  | b :: more =>
    match h' : nextToken? (b :: more) with
    | none => (acc.reverse, false)
    | some (t, after) =>
      have : after.length < bs.length := by
        have hskip := (List.dropWhile_suffix isSpace (l := bs)).length_le
        have htok := length_of_nextToken? h'
        rw [h] at hskip
        omega
      tokensFrom (t :: acc) after
termination_by bs.length

/-- The tokens of a text, and whether it has been cut to its end. -/
def tokens (bs : List UInt8) : List Token × Bool := tokensFrom [] bs

end ExchangeCatalog.Json
