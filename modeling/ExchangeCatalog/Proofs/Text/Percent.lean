import ExchangeCatalog.Proofs.Text.Utf8
import ExchangeCatalog.Text.Percent

/-!
# Plain parameters

A parameter that is spelled in ASCII without percent and plus signs stands for itself.

## Main definitions

* `Percent.IsPlain` — a character that stands for itself in a parameter

## Main results

* `Percent.formText_of_isPlain` — a text of such characters stands for itself
-/

namespace ExchangeCatalog.Percent

/-- A character of ASCII that neither begins an encoded byte nor stands for a space. -/
def IsPlain (c : Char) : Prop := c.toNat < 128 ∧ c ≠ '%' ∧ c ≠ '+'

instance (c : Char) : Decidable (IsPlain c) := inferInstanceAs (Decidable (_ ∧ _))

/-- The byte of an ASCII character. -/
private def byte (c : Char) : UInt8 := UInt8.ofNat c.toNat

variable {c : Char} {cs : List Char}

private theorem toNat_byte (h : c.toNat < 128) : (byte c).toNat = c.toNat :=
  Utf8.toNat_ofNat (Nat.lt_trans h (by decide))

private theorem byte_ne {d : Char} (hc : c.toNat < 128) (hd : d.toNat < 128) (h : c ≠ d) :
    byte c ≠ byte d := by
  intro heq
  refine h (Char.toNat_inj.mp ?_)
  rw [← toNat_byte hc, heq, toNat_byte hd]

private theorem encode_of_isPlain (h : ∀ c ∈ cs, IsPlain c) :
    Utf8.encode (String.ofList cs) = cs.map byte := by
  rw [Utf8.encode_ofList]
  induction cs with
  | nil => rfl
  | cons c cs ih =>
    obtain ⟨hc, hcs⟩ := List.forall_mem_cons.mp h
    rw [Utf8.encodeChars_cons, ih hcs, Utf8.utf8EncodeChar_of_lt hc.1]
    rfl

private theorem decode_of_isPlain (h : ∀ c ∈ cs, IsPlain c) :
    decode (cs.map byte) = cs.map byte := by
  induction cs with
  | nil => rfl
  | cons c cs ih =>
    obtain ⟨hc, hcs⟩ := List.forall_mem_cons.mp h
    have hne : byte c ≠ 0x25 := byte_ne hc.1 (d := '%') (by decide) hc.2.1
    rw [List.map_cons, decode.eq_def]
    split
    · rename_i heq
      cases heq
    · rename_i heq
      exact absurd (List.cons.inj heq).1 hne
    · rename_i heq
      obtain ⟨rfl, rfl⟩ := List.cons.inj heq
      rw [ih hcs]

/-- A plain text stands for itself. -/
theorem formText_of_isPlain (h : ∀ c ∈ cs, IsPlain c) : formText cs = String.ofList cs := by
  have hplus : ((cs.map byte).map fun b => if b = 0x2B then 0x20 else b) = cs.map byte := by
    rw [List.map_map]
    refine List.map_congr_left ?_
    intro c hc
    exact if_neg (byte_ne (h c hc).1 (d := '+') (by decide) (h c hc).2.2)
  rw [formText, encode_of_isPlain h, hplus, decode_of_isPlain h, ← encode_of_isPlain h,
    Utf8.decodeLossy, Utf8.scan_encode, String.toList_ofList, List.map_map]
  congr 1
  exact List.map_id cs

end ExchangeCatalog.Percent
