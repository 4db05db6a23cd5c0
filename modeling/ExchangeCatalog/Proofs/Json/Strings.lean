import ExchangeCatalog.Json.Printer
import ExchangeCatalog.Json.Token
import ExchangeCatalog.Proofs.Text.Utf8

/-!
# Reading JSON strings back

A text that is written as a JSON string is read as the text, whatever characters it has. Each
character is written in one of three ways: by its bytes, by a letter after a backslash, or by its
number; and each way is read as pieces that spell the bytes of the character.

## Main definitions

* `Json.ReadsAs` — characters inside a JSON string, with the bytes that they stand for

## Main results

* `Json.exists_readsAs_escapedChar` — a written character stands for its bytes
* `Json.nextToken?_stringChars_append` — a written text is the token of the text
-/

namespace ExchangeCatalog.Json

open Utf8 (encodeChars)

variable {acc : List Part} {bs bs' rest : List UInt8} {cs cs' : List Char} {c : Char}

/-- A byte that is neither a mark nor a control character stands for itself. -/
theorem stringParts_plain {b : UInt8} (hquote : b ≠ 0x22) (hslash : b ≠ 0x5C) (hlow : ¬ b < 0x20) :
    stringParts acc (b :: rest) = stringParts (.byte b :: acc) rest := by
  rw [stringParts.eq_def]
  split
  case h_1 heq => cases heq
  case h_2 heq => exact absurd (List.cons.inj heq).1 hquote
  case h_3 heq => exact absurd (List.cons.inj heq).1 hslash
  case h_4 heq => exact absurd (List.cons.inj heq).1 hslash
  case h_5 heq =>
    obtain ⟨rfl, rfl⟩ := List.cons.inj heq
    exact if_neg (not_or.mpr ⟨hlow, hslash⟩)

/-- Characters inside a JSON string are read as pieces, whatever follows them, and these pieces
spell bytes, whatever follows them. -/
structure ReadsAs (cs : List Char) (ps : List Part) (bs : List UInt8) : Prop where
  parts : ∀ acc rest,
    stringParts acc (encodeChars cs ++ rest) = stringParts (ps.reverse ++ acc) rest
  bytes : ∀ acc qs, partBytes acc (ps ++ qs) = partBytes (bs.reverse ++ acc) qs

theorem ReadsAs.nil : ReadsAs [] [] [] := ⟨fun _ _ => rfl, fun _ _ => rfl⟩

theorem ReadsAs.append {ps ps' : List Part} (h : ReadsAs cs ps bs) (h' : ReadsAs cs' ps' bs') :
    ReadsAs (cs ++ cs') (ps ++ ps') (bs ++ bs') where
  parts acc rest := by
    rw [Utf8.encodeChars_append, List.append_assoc, h.parts, h'.parts, List.reverse_append,
      List.append_assoc]
  bytes acc qs := by
    rw [List.append_assoc, h.bytes, h'.bytes, List.reverse_append, List.append_assoc]

/-- Bytes that stand for themselves are read as such. -/
theorem readsAs_bytes (h : ∀ b ∈ encodeChars cs, b ≠ 0x22 ∧ b ≠ 0x5C ∧ ¬ b < 0x20) :
    ReadsAs cs ((encodeChars cs).map .byte) (encodeChars cs) where
  parts acc rest := by
    generalize encodeChars cs = bs at h ⊢
    induction bs generalizing acc with
    | nil => rfl
    | cons b bs ih =>
      obtain ⟨⟨hquote, hslash, hlow⟩, hbs⟩ := List.forall_mem_cons.mp h
      rw [List.cons_append, stringParts_plain hquote hslash hlow, ih _ hbs, List.map_cons,
        List.reverse_cons, List.append_assoc, List.singleton_append]
  bytes acc qs := by
    clear h
    induction encodeChars cs generalizing acc with
    | nil => rfl
    | cons b bs ih =>
      rw [List.map_cons, List.cons_append, partBytes, ih, List.reverse_cons, List.append_assoc,
        List.singleton_append]

/-- A character may be written by a letter after a backslash. -/
theorem readsAs_letter {letter : Char} (hletter : letter.toNat < 0x80) (hc : c.toNat < 0x80)
    (h : ∀ acc rest, stringParts acc (0x5C :: .ofNat letter.toNat :: rest) =
      stringParts (.byte (.ofNat c.toNat) :: acc) rest) :
    ReadsAs ['\\', letter] [.byte (.ofNat c.toNat)] (String.utf8EncodeChar c) := by
  rw [Utf8.utf8EncodeChar_of_lt hc]
  refine ⟨fun acc rest => ?_, fun acc qs => rfl⟩
  rw [Utf8.encodeChars_cons, Utf8.encodeChars_cons, Utf8.utf8EncodeChar_of_lt hletter]
  exact h acc rest

/-! ### Numbers of control characters -/

theorem toDigits_of_lt : ∀ n < 0x20,
    List.replicate (4 - (Nat.toDigits 16 n).length) '0' ++ Nat.toDigits 16 n =
      ['0', '0', Nat.digitChar (n / 16), Nat.digitChar (n % 16)] := by
  decide

theorem hexValue?_digitChar : ∀ n < 0x10, (Nat.digitChar n).toNat < 0x80 ∧
    hexValue? (.ofNat (Nat.digitChar n).toNat) = some n := by
  decide

/-- A unit that is no half of a pair spells its character, whatever follows. -/
theorem partBytes_unit {n : Nat} (h : n < 0xD800) (acc : List UInt8) (qs : List Part) :
    partBytes acc (.unit n :: qs) = partBytes (pushChar n acc) qs := by
  rw [partBytes.eq_def]
  split
  case h_1 heq => cases heq
  case h_2 heq => cases heq
  case h_3 heq =>
    obtain ⟨hunit, rfl⟩ := List.cons.inj heq
    cases hunit
    rw [if_neg (by omega), if_neg (by omega)]
  case h_4 heq =>
    obtain ⟨hunit, rfl⟩ := List.cons.inj heq
    cases hunit
    rw [if_neg (by omega)]

/-- A control character may be written by its number. -/
theorem readsAs_number (hc : c.toNat < 0x20) :
    ReadsAs (['\\', 'u'] ++ List.replicate (4 - (Nat.toDigits 16 c.toNat).length) '0' ++
      Nat.toDigits 16 c.toNat) [.unit c.toNat] (String.utf8EncodeChar c) where
  parts acc rest := by
    obtain ⟨hhigh, hhigh'⟩ := hexValue?_digitChar (c.toNat / 16) (by omega)
    obtain ⟨hlow, hlow'⟩ := hexValue?_digitChar (c.toNat % 16) (by omega)
    have hzero : hexValue? 0x30 = some 0 := rfl
    have hunit : 0 * 0x1000 + 0 * 0x100 + c.toNat / 16 * 0x10 + c.toNat % 16 = c.toNat := by omega
    rw [List.append_assoc, toDigits_of_lt _ hc]
    simp only [List.cons_append, List.nil_append, Utf8.encodeChars_cons,
      Utf8.utf8EncodeChar_of_lt hhigh, Utf8.utf8EncodeChar_of_lt hlow]
    change stringParts acc (0x5C :: 0x75 :: 0x30 :: 0x30 :: .ofNat (Nat.digitChar _).toNat ::
      .ofNat (Nat.digitChar _).toNat :: rest) = _
    rw [stringParts, hzero, hhigh', hlow']
    dsimp only
    rw [hunit]
    rfl
  bytes acc qs := by
    rw [List.singleton_append, partBytes_unit (by omega), pushChar, Char.ofNat_toNat]
    rw [Utf8.encode, String.toList_singleton, List.flatMap_singleton]

/-- No other character has a mark or a control character among its bytes. -/
theorem isPlain_of_mem_utf8EncodeChar (hquote : c ≠ '"') (hslash : c ≠ '\\')
    (hcontrol : ¬ c.toNat < 0x20) :
    ∀ b ∈ String.utf8EncodeChar c, b ≠ 0x22 ∧ b ≠ 0x5C ∧ ¬ b < 0x20 := by
  have hbyte : ∀ b : UInt8, b.toNat ≠ 0x22 → b.toNat ≠ 0x5C → 0x20 ≤ b.toNat →
      b ≠ 0x22 ∧ b ≠ 0x5C ∧ ¬ b < 0x20 := by
    intro b hb hb' hlow
    refine ⟨?_, ?_, ?_⟩
    · rintro rfl
      exact hb rfl
    · rintro rfl
      exact hb' rfl
    · rw [UInt8.lt_iff_toNat_lt]
      exact Nat.not_lt.mpr hlow
  intro b hb
  by_cases hascii : c.toNat < 0x80
  · rw [Utf8.utf8EncodeChar_of_lt hascii, List.mem_singleton] at hb
    subst hb
    have hchar : ∀ d : Char, c ≠ d → c.toNat ≠ d.toNat := fun d hd h => hd (Char.toNat_inj.mp h)
    have hquote' := hchar _ hquote
    have hslash' := hchar _ hslash
    rw [Nat.not_lt] at hcontrol
    refine hbyte _ ?_ ?_ ?_
    all_goals rwa [Utf8.toNat_ofNat (by omega)]
  · have hhigh := Utf8.le_of_mem_utf8EncodeChar (Nat.not_lt.mp hascii) hb
    exact hbyte b (by omega) (by omega) (by omega)

/-- A character that is written in a string stands for its bytes. -/
theorem exists_readsAs_escapedChar (c : Char) :
    ∃ ps, ReadsAs (escapedChar c) ps (String.utf8EncodeChar c) := by
  unfold escapedChar
  split
  · exact ⟨_, readsAs_letter (by decide) (by decide) fun _ _ => rfl⟩
  · exact ⟨_, readsAs_letter (by decide) (by decide) fun _ _ => rfl⟩
  · exact ⟨_, readsAs_letter (by decide) (by decide) fun _ _ => rfl⟩
  · exact ⟨_, readsAs_letter (by decide) (by decide) fun _ _ => rfl⟩
  · exact ⟨_, readsAs_letter (by decide) (by decide) fun _ _ => rfl⟩
  · exact ⟨_, readsAs_letter (by decide) (by decide) fun _ _ => rfl⟩
  · exact ⟨_, readsAs_letter (by decide) (by decide) fun _ _ => rfl⟩
  case h_8 hquote hslash _ _ _ _ _ =>
    split_ifs with hcontrol
    · exact ⟨_, readsAs_number hcontrol⟩
    · have hbytes : encodeChars [c] = String.utf8EncodeChar c := List.append_nil _
      refine ⟨(encodeChars [c]).map .byte, hbytes ▸ readsAs_bytes ?_⟩
      rw [hbytes]
      exact isPlain_of_mem_utf8EncodeChar hquote hslash hcontrol

theorem exists_readsAs_flatMap (cs : List Char) :
    ∃ ps, ReadsAs (cs.flatMap escapedChar) ps (encodeChars cs) := by
  induction cs with
  | nil => exact ⟨[], .nil⟩
  | cons c cs ih =>
    obtain ⟨ps, hps⟩ := ih
    obtain ⟨qs, hqs⟩ := exists_readsAs_escapedChar c
    exact ⟨qs ++ ps, hqs.append hps⟩

/-- A written text is the token of the text, whatever follows. -/
theorem nextToken?_stringChars_append (s : String) (rest : List UInt8) :
    nextToken? (encodeChars (stringChars s) ++ rest) = some (.scalar (.string s), rest) := by
  obtain ⟨ps, hps⟩ := exists_readsAs_flatMap s.toList
  have hparts : stringParts [] (encodeChars (s.toList.flatMap escapedChar) ++ 0x22 :: rest) =
      some (ps, rest) := by
    rw [hps.parts, stringParts, List.append_nil, List.reverse_reverse]
  have hbytes : partBytes [] ps = some (Utf8.encode s) := by
    have h := hps.bytes [] []
    rwa [List.append_nil, List.append_nil, partBytes, List.reverse_reverse] at h
  have htext : partsText? ps = some s := by
    rw [partsText?, hbytes, Option.bind_some, Utf8.decode?_encode]
  have hwritten : encodeChars (stringChars s) ++ rest =
      0x22 :: (encodeChars (s.toList.flatMap escapedChar) ++ 0x22 :: rest) := by
    rw [stringChars, List.cons_append, Utf8.encodeChars_cons, Utf8.encodeChars_append,
      List.append_assoc, List.append_assoc]
    rfl
  rw [hwritten]
  change (stringParts [] _).map _ = _
  simp only [hparts, Option.map_some, stringToken, htext]

end ExchangeCatalog.Json
