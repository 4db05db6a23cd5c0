/-!
# Bytes that spell text

Bytes arrive from the network, so a sequence may be ill formed. `Utf8.scan` reads the well-formed
sequences as characters and reports each longest ill-formed piece once, so the two readers built on
it, the strict and the forgiving one, agree on where the faults are.

## Main definitions

* `Utf8.scan` — the characters of a byte sequence, `none` in the place of an ill-formed piece
* `Utf8.decode?` — the text, when every piece is well formed
* `Utf8.decodeLossy` — the text with the replacement character for each ill-formed piece
* `Utf8.encode` — the bytes of a text
* `Utf8.withoutMark` — a text without the byte order mark in front of it
-/

namespace ExchangeCatalog.Utf8

/-- A sequence of which some bytes have been read: how many are still to come, which range the next
one must lie in, and the bits gathered so far. -/
structure Pending where
  remaining : Nat
  low : UInt8
  high : UInt8
  bits : Nat

/-- What the first byte of a sequence announces: a character of its own, a sequence to be continued,
or nothing. The ranges of the second byte leave out overlong forms, surrogates and numbers past the
last code point. -/
def lead (b : UInt8) : Option (Char ⊕ Pending) :=
  if b < 0x80 then some (.inl (Char.ofNat b.toNat))
  else if b < 0xC2 then none
  else if b < 0xE0 then some (.inr ⟨1, 0x80, 0xBF, b.toNat % 0x20⟩)
  else if b < 0xF0 then
    let low : UInt8 := if b = 0xE0 then 0xA0 else 0x80
    let high : UInt8 := if b = 0xED then 0x9F else 0xBF
    some (.inr ⟨2, low, high, b.toNat % 0x10⟩)
  else if b < 0xF5 then
    let low : UInt8 := if b = 0xF0 then 0x90 else 0x80
    let high : UInt8 := if b = 0xF4 then 0x8F else 0xBF
    some (.inr ⟨3, low, high, b.toNat % 0x08⟩)
  else none

/-- Reads bytes after the given unfinished sequence and after the characters given in reverse. -/
def scanFrom (done : List (Option Char)) : Option Pending → List UInt8 → List (Option Char)
  | none, [] => done.reverse
  | some _, [] => (none :: done).reverse
  | pending, b :: bs =>
    let start := fun (done : List (Option Char)) =>
      match lead b with
      | none => scanFrom (none :: done) none bs
      | some (.inl c) => scanFrom (some c :: done) none bs
      | some (.inr p) => scanFrom done (some p) bs
    match pending with
    | none => start done
    | some p =>
      if p.low ≤ b ∧ b ≤ p.high then
        let bits := p.bits * 0x40 + b.toNat % 0x40
        if p.remaining ≤ 1 then scanFrom (some (Char.ofNat bits) :: done) none bs
        else scanFrom done (some ⟨p.remaining - 1, 0x80, 0xBF, bits⟩) bs
      -- The sequence breaks off here, and this byte begins anew.
      else start (none :: done)

/-- The characters of a byte sequence, with `none` for each longest ill-formed piece. -/
def scan (bs : List UInt8) : List (Option Char) := scanFrom [] none bs

/-- The text that the bytes spell, when they are well formed throughout. -/
def decode? (bs : List UInt8) : Option String :=
  let cs := scan bs
  if cs.all Option.isSome then some (String.ofList (cs.filterMap id)) else none

/-- The text that the bytes spell, each ill-formed piece read as U+FFFD. -/
def decodeLossy (bs : List UInt8) : String :=
  String.ofList ((scan bs).map fun c => c.getD (Char.ofNat 0xFFFD))

/-- The bytes of a text. -/
def encode (s : String) : List UInt8 := s.toList.flatMap String.utf8EncodeChar

/-- A text without the byte order mark in front of it; of two marks the second stays. -/
def withoutMark : List Char → List Char
  | c :: cs => if c.toNat = 0xFEFF then cs else c :: cs
  | [] => []

end ExchangeCatalog.Utf8
