import ExchangeCatalog.Text.Utf8
import Mathlib.Tactic.SplitIfs

/-!
# Reading encoded text back

The bytes of a text are well formed and spell the text. A character is read from its one to four
bytes by the first of them, which says how many others follow and which bits they add to.

## Main definitions

* `Utf8.encodeChars` — the bytes of characters

## Main results

* `Utf8.scanFrom_utf8EncodeChar_append` — a character is read from its bytes, whatever follows
* `Utf8.decode?_encode` — the bytes of a text are decoded to the text
-/

namespace ExchangeCatalog.Utf8

variable {n : Nat} {done : List (Option Char)} {bs : List UInt8}

theorem toNat_ofNat (h : n < 256) : (UInt8.ofNat n).toNat = n := UInt8.toNat_ofNat_of_lt' h

/-- What the byte of a number announces. -/
theorem lead_ofNat (h : n < 256) : lead (.ofNat n) =
    if n < 0x80 then some (.inl (Char.ofNat n))
    else if n < 0xC2 then none
    else if n < 0xE0 then some (.inr ⟨1, 0x80, 0xBF, n % 0x20⟩)
    else if n < 0xF0 then
      some (.inr ⟨2, if n = 0xE0 then 0xA0 else 0x80, if n = 0xED then 0x9F else 0xBF, n % 0x10⟩)
    else if n < 0xF5 then
      some (.inr ⟨3, if n = 0xF0 then 0x90 else 0x80, if n = 0xF4 then 0x8F else 0xBF, n % 0x08⟩)
    else none := by
  simp only [lead, UInt8.lt_iff_toNat_lt, ← UInt8.toNat_inj, toNat_ofNat h, UInt8.reduceToNat]

/-- A sequence of two bytes begins with five bits, not all but the last of them zero. -/
theorem lead_two (h : 2 ≤ n) (hn : n < 0x20) :
    lead (.ofNat (n + 0xC0)) = some (.inr ⟨1, .ofNat 0x80, .ofNat 0xBF, n⟩) := by
  have hbits : (n + 0xC0) % 0x20 = n := by omega
  rw [lead_ofNat (by omega), if_neg (by omega), if_neg (by omega), if_pos (by omega), hbits]
  rfl

/-- A sequence of three bytes begins with four bits, which narrow the next byte at both ends. -/
theorem lead_three (hn : n < 0x10) :
    lead (.ofNat (n + 0xE0)) = some (.inr ⟨2, .ofNat (if n = 0 then 0xA0 else 0x80),
      .ofNat (if n = 13 then 0x9F else 0xBF), n⟩) := by
  have hbits : (n + 0xE0) % 0x10 = n := by omega
  have hlow : n + 0xE0 = 0xE0 ↔ n = 0 := by omega
  have hhigh : n + 0xE0 = 0xED ↔ n = 13 := by omega
  rw [lead_ofNat (by omega), if_neg (by omega), if_neg (by omega), if_neg (by omega),
    if_pos (by omega), hbits]
  simp only [hlow, hhigh, apply_ite UInt8.ofNat]
  rfl

/-- A sequence of four bytes begins with three bits, which narrow the next byte at both ends. -/
theorem lead_four (hn : n < 5) :
    lead (.ofNat (n + 0xF0)) = some (.inr ⟨3, .ofNat (if n = 0 then 0x90 else 0x80),
      .ofNat (if n = 4 then 0x8F else 0xBF), n⟩) := by
  have hbits : (n + 0xF0) % 0x08 = n := by omega
  have hlow : n + 0xF0 = 0xF0 ↔ n = 0 := by omega
  have hhigh : n + 0xF0 = 0xF4 ↔ n = 4 := by omega
  rw [lead_ofNat (by omega), if_neg (by omega), if_neg (by omega), if_neg (by omega),
    if_neg (by omega), if_pos (by omega), hbits]
  simp only [hlow, hhigh, apply_ite UInt8.ofNat]
  rfl

theorem scanFrom_of_lead {b : UInt8} {p : Pending} (h : lead b = some (.inr p)) :
    scanFrom done none (b :: bs) = scanFrom done (some p) bs := by
  rw [scanFrom, h]

section Continued

variable {remaining low high bits : Nat}

/-- A byte that continues a sequence adds six bits. -/
theorem scanFrom_continued (hn : n < 0x40) (hlow : low ≤ n + 0x80) (hhigh : n + 0x80 ≤ high)
    (hbyte : high < 256) :
    scanFrom done (some ⟨remaining, .ofNat low, .ofNat high, bits⟩) (.ofNat (n + 0x80) :: bs) =
      if remaining ≤ 1 then scanFrom (some (Char.ofNat (bits * 0x40 + n)) :: done) none bs
      else scanFrom done (some ⟨remaining - 1, .ofNat 0x80, .ofNat 0xBF, bits * 0x40 + n⟩) bs := by
  have hrange : UInt8.ofNat low ≤ .ofNat (n + 0x80) ∧ UInt8.ofNat (n + 0x80) ≤ .ofNat high := by
    rw [UInt8.le_iff_toNat_le, UInt8.le_iff_toNat_le, toNat_ofNat (by omega),
      toNat_ofNat (by omega), toNat_ofNat hbyte]
    exact ⟨hlow, hhigh⟩
  have hbits : (UInt8.ofNat (n + 0x80)).toNat % 0x40 = n := by
    rw [toNat_ofNat (by omega)]
    omega
  rw [scanFrom]
  dsimp only
  rw [if_pos hrange, hbits]
  rfl

/-- The last byte of a sequence completes its character. -/
theorem scanFrom_last (hn : n < 0x40) (hlow : low ≤ n + 0x80) (hhigh : n + 0x80 ≤ high)
    (hbyte : high < 256) :
    scanFrom done (some ⟨1, .ofNat low, .ofNat high, bits⟩) (.ofNat (n + 0x80) :: bs) =
      scanFrom (some (Char.ofNat (bits * 0x40 + n)) :: done) none bs :=
  scanFrom_continued hn hlow hhigh hbyte

theorem scanFrom_more (hn : n < 0x40) (hlow : low ≤ n + 0x80) (hhigh : n + 0x80 ≤ high)
    (hbyte : high < 256) :
    scanFrom done (some ⟨remaining + 2, .ofNat low, .ofNat high, bits⟩) (.ofNat (n + 0x80) :: bs) =
      scanFrom done (some ⟨remaining + 1, .ofNat 0x80, .ofNat 0xBF, bits * 0x40 + n⟩) bs := by
  rw [scanFrom_continued hn hlow hhigh hbyte, if_neg (by omega)]
  rfl

end Continued

/-- A character is read from its bytes, whatever follows. -/
theorem scanFrom_utf8EncodeChar_append (done : List (Option Char)) (c : Char) (bs : List UInt8) :
    scanFrom done none (String.utf8EncodeChar c ++ bs) = scanFrom (some c :: done) none bs := by
  have hvalid : c.toNat < 0xD800 ∨ 0xDFFF < c.toNat ∧ c.toNat < 0x110000 := c.valid
  have hchar : ∀ n, n = c.toNat → Char.ofNat n = c := by
    rintro n rfl
    exact Char.ofNat_toNat c
  have hc : c.val.toNat = c.toNat := rfl
  simp only [String.utf8EncodeChar, hc]
  split_ifs with hone htwo hthree
  · rw [List.singleton_append, scanFrom, lead_ofNat (by omega), if_pos (by omega)]
    dsimp only
    rw [hchar _ rfl]
  · rw [List.cons_append, scanFrom_of_lead (lead_two (by omega) (by omega)), List.singleton_append,
      scanFrom_last (by omega) (by omega) (by omega) (by decide), hchar _ (by omega)]
  · -- The second byte leaves out overlong forms and surrogates.
    rw [List.cons_append, scanFrom_of_lead (lead_three (by omega)), List.cons_append,
      scanFrom_more (by omega) (by split_ifs <;> omega) (by split_ifs <;> omega)
        (by split_ifs <;> omega), List.singleton_append,
      scanFrom_last (by omega) (by omega) (by omega) (by decide), hchar _ (by omega)]
  · -- It leaves out overlong forms and numbers past the last code point.
    rw [List.cons_append, scanFrom_of_lead (lead_four (by omega)), List.cons_append,
      scanFrom_more (by omega) (by split_ifs <;> omega) (by split_ifs <;> omega)
        (by split_ifs <;> omega), List.cons_append,
      scanFrom_more (by omega) (by omega) (by omega) (by decide), List.singleton_append,
      scanFrom_last (by omega) (by omega) (by omega) (by decide), hchar _ (by omega)]

/-- The bytes of characters. -/
def encodeChars (cs : List Char) : List UInt8 := cs.flatMap String.utf8EncodeChar

theorem encode_ofList (cs : List Char) : encode (String.ofList cs) = encodeChars cs := by
  rw [encode, String.toList_ofList, encodeChars]

@[simp] theorem encodeChars_nil : encodeChars [] = [] := rfl

theorem encodeChars_cons (c : Char) (cs : List Char) :
    encodeChars (c :: cs) = String.utf8EncodeChar c ++ encodeChars cs := rfl

theorem encodeChars_append (cs cs' : List Char) :
    encodeChars (cs ++ cs') = encodeChars cs ++ encodeChars cs' := List.flatMap_append

/-- A character of ASCII is one byte. -/
theorem utf8EncodeChar_of_lt {c : Char} (h : c.toNat < 0x80) :
    String.utf8EncodeChar c = [.ofNat c.toNat] :=
  if_pos (Nat.le_of_lt_succ h)

/-- The bytes of any other character are none of ASCII. -/
theorem le_of_mem_utf8EncodeChar {c : Char} (h : 0x80 ≤ c.toNat) {b : UInt8}
    (hb : b ∈ String.utf8EncodeChar c) : 0x80 ≤ b.toNat := by
  have hc : c.val.toNat = c.toNat := rfl
  simp only [String.utf8EncodeChar, hc] at hb
  have hbyte : ∃ n, n < 256 ∧ 0x80 ≤ n ∧ b = .ofNat n := by
    split_ifs at hb
    · omega
    all_goals
      simp only [List.mem_cons, List.not_mem_nil, or_false] at hb
      rcases hb with rfl | hb
      · exact ⟨_, by omega, by omega, rfl⟩
    · exact ⟨_, by omega, by omega, hb⟩
    · rcases hb with rfl | rfl
      all_goals exact ⟨_, by omega, by omega, rfl⟩
    · rcases hb with rfl | rfl | rfl
      all_goals exact ⟨_, by omega, by omega, rfl⟩
  obtain ⟨n, hn, hlow, rfl⟩ := hbyte
  rwa [toNat_ofNat hn]

theorem scanFrom_encodeChars (done : List (Option Char)) (cs : List Char) :
    scanFrom done none (encodeChars cs) = done.reverse ++ cs.map some := by
  induction cs generalizing done with
  | nil => rw [encodeChars_nil, scanFrom, List.map_nil, List.append_nil]
  | cons c cs ih =>
    rw [encodeChars_cons, scanFrom_utf8EncodeChar_append, ih, List.reverse_cons, List.append_assoc,
      List.singleton_append, List.map_cons]

/-- The characters of a text are read from its bytes. -/
theorem scan_encode (s : String) : scan (encode s) = s.toList.map some :=
  scanFrom_encodeChars [] s.toList

/-- The bytes of a text are decoded to the text. -/
theorem decode?_encode (s : String) : decode? (encode s) = some s := by
  have hall : (s.toList.map some).all Option.isSome := by simp
  have hchars : (s.toList.map some).filterMap id = s.toList := by simp
  simp only [decode?]
  rw [scan_encode, if_pos hall, hchars, String.ofList_toList]

end ExchangeCatalog.Utf8
