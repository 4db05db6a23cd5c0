import ExchangeCatalog.Proofs.Text.Decimal
import Mathlib.Data.List.TakeWhile

/-!
# Text without its outer blanks

Every text is blanks, a text that neither begins nor ends with one, and blanks again. The text in
the middle is unique, and it is what trimming leaves.

## Main definitions

* `Text.IsBare` — a text neither begins nor ends with a blank
* `Text.Pads` — a text is another one with blanks around it

## Main results

* `Text.Pads.trim_eq` — trimming takes the blanks away that surround a bare text
* `Text.trim_eq_iff` — what trimming leaves is the bare text that blanks surround
-/

namespace ExchangeCatalog.Text

variable {cs core before after : List Char}

/-- A text neither begins nor ends with a blank. -/
def IsBare (cs : List Char) : Prop :=
  (∀ c, cs.head? = some c → isBlank c = false) ∧ ∀ c, cs.getLast? = some c → isBlank c = false

/-- A text is another one with blanks around it. -/
def Pads (cs core : List Char) : Prop :=
  ∃ before after, (∀ c ∈ before, isBlank c) ∧ (∀ c ∈ after, isBlank c) ∧
    cs = before ++ core ++ after

theorem Pads.refl (cs : List Char) : Pads cs cs :=
  ⟨[], [], fun _ h => absurd h List.not_mem_nil, fun _ h => absurd h List.not_mem_nil,
    (List.append_nil cs).symm⟩

theorem trimStart_of_blanks (h : ∀ c ∈ before, isBlank c) (cs : List Char) :
    trimStart (before ++ cs) = trimStart cs :=
  List.dropWhile_append_of_pos h

/-- A text that ends with something other than a blank keeps that when its front is trimmed. -/
theorem trimStart_append_of_ne_nil (hne : core ≠ []) (hcore : IsBare core) (cs : List Char) :
    trimStart (core ++ cs) = core ++ cs := by
  refine Decimal.trimStart_eq_self fun c hc => ?_
  rw [List.head?_append, Option.or_of_isSome (List.isSome_head?.mpr hne)] at hc
  exact hcore.1 c hc

theorem IsBare.reverse (h : IsBare cs) : IsBare cs.reverse :=
  ⟨fun c hc => h.2 c (List.head?_reverse.symm.trans hc),
    fun c hc => h.1 c (List.getLast?_reverse.symm.trans hc)⟩

/-- Trimming takes the blanks away that surround a bare text. -/
theorem Pads.trim_eq (h : Pads cs core) (hcore : IsBare core) : trim cs = core := by
  obtain ⟨before, after, hbefore, hafter, rfl⟩ := h
  have hafter' : ∀ c ∈ after.reverse, isBlank c := fun c hc => hafter c (List.mem_reverse.mp hc)
  rw [trim, List.append_assoc, trimStart_of_blanks hbefore]
  by_cases hne : core = []
  · subst hne
    have hall : trimStart (after ++ []) = trimStart [] := trimStart_of_blanks hafter []
    rw [List.append_nil] at hall
    rw [List.nil_append, hall]
    rfl
  · have hback : trimStart (core.reverse ++ []) = core.reverse ++ [] :=
      trimStart_append_of_ne_nil (by simpa using hne) hcore.reverse []
    rw [List.append_nil] at hback
    rw [trimStart_append_of_ne_nil hne hcore, List.reverse_append, ← trimStart,
      trimStart_of_blanks hafter', hback, List.reverse_reverse]

/-- Trimming keeps what begins and ends without a blank, whatever follows it. -/
theorem exists_trim_append (hbefore : ∀ c ∈ before, isBlank c) (hne : core ≠ [])
    (hcore : IsBare core) (rest : List Char) :
    ∃ rest', trim (before ++ core ++ rest) = core ++ rest' := by
  refine ⟨(trimStart rest.reverse).reverse, ?_⟩
  rw [trim, List.append_assoc, trimStart_of_blanks hbefore, trimStart_append_of_ne_nil hne hcore,
    List.reverse_append, List.dropWhile_append]
  split_ifs with hrest
  · have hnil : trimStart rest.reverse = [] := List.isEmpty_iff.mp hrest
    have hcore' : core.reverse.dropWhile isBlank = core.reverse :=
      Decimal.trimStart_eq_self hcore.reverse.1
    rw [hnil, hcore', List.reverse_reverse, List.reverse_nil, List.append_nil]
  · rw [List.reverse_append, List.reverse_reverse, trimStart]

/-- What is left of a text when its front has been trimmed begins with no blank. -/
theorem isBlank_of_head?_trimStart {c : Char} (h : (trimStart cs).head? = some c) :
    isBlank c = false := by
  have hhead := List.head?_dropWhile_not isBlank cs
  rw [← trimStart, h] at hhead
  exact hhead

/-- Every text is what trimming leaves of it, surrounded by blanks. -/
theorem pads_trim (cs : List Char) : IsBare (trim cs) ∧ Pads cs (trim cs) := by
  have hblank : ∀ (cs : List Char), ∀ c ∈ cs.takeWhile isBlank, isBlank c :=
    fun _ _ hc => List.mem_takeWhile_imp hc
  have hfront : cs.takeWhile isBlank ++ trimStart cs = cs := takeWhile_append_trimStart cs
  have hback : trimStart cs = trim cs ++ ((trimStart cs).reverse.takeWhile isBlank).reverse := by
    have hreverse := congrArg List.reverse (takeWhile_append_trimStart (trimStart cs).reverse)
    rw [List.reverse_append, List.reverse_reverse] at hreverse
    exact hreverse.symm
  refine ⟨⟨fun c hc => ?_, fun c hc => ?_⟩, _, _, hblank cs,
    fun c hc => hblank (trimStart cs).reverse c (List.mem_reverse.mp hc), ?_⟩
  · have hhead : (trimStart cs).head? = some c := by
      rw [hback, List.head?_append, hc, Option.some_or]
    exact isBlank_of_head?_trimStart hhead
  · rw [trim, List.getLast?_reverse] at hc
    exact isBlank_of_head?_trimStart hc
  · rw [List.append_assoc, ← hback, hfront]

/-- What trimming leaves is the bare text that blanks surround. -/
theorem trim_eq_iff : trim cs = core ↔ IsBare core ∧ Pads cs core := by
  constructor
  · rintro rfl
    exact pads_trim cs
  · rintro ⟨hbare, hpads⟩
    exact hpads.trim_eq hbare

end ExchangeCatalog.Text
