import ExchangeCatalog.Page.Links
import ExchangeCatalog.Proofs.Filter.Predicate
import ExchangeCatalog.Proofs.Text.Decimal
import ExchangeCatalog.Proofs.Text.Percent
import ExchangeCatalog.Proofs.Text.Split
import ExchangeCatalog.Http.ListRequest
import Mathlib.Data.Bool.AllAny

/-!
# A query with another page number

Two readers look at the query of a list request. The link builder looks for the key `page` as it is
spelled, the list request for the first parameter whose key decodes to `page`. They agree as long as
this first parameter is spelled plainly; all other parameters are the same to both.

## Main definitions

* `queryParts` — the parts of a query that are not empty
* `Percent.pairOf` — the parameter that a part of a query stands for
* `queryWithPage` — a query with another page number
* `SpellsPage` — the first parameter called `page` is spelled so

## Main results

* `queryParts_queryWithPage` — the parts of a query with another page number
* `find?_replacePage` — the part that the page number is read from
* `filter_replacePage` — the parameters of other names are untouched
-/

namespace ExchangeCatalog

/-! ### Parts and parameters -/

/-- The parts of a query that are not empty. -/
def queryParts (query : List Char) : List (List Char) :=
  (Text.pieces '&' query).filter fun p => p != []

/-- The key of a part of a query, as it is spelled. -/
def spelledKey (part : List Char) : List Char :=
  match Text.cutFirst? '=' part with
  | some (key, _) => key
  | none => part

/-- The parameter that a part of a query stands for. -/
def Percent.pairOf (part : List Char) : String × String :=
  match Text.cutFirst? '=' part with
  | some (name, value) => (formText name, formText value)
  | none => (formText part, "")

variable {page : UInt64} {parts : List (List Char)} {part : List Char}

theorem mem_queryParts {query : List Char} (h : part ∈ queryParts query) :
    part ≠ [] ∧ '&' ∉ part ∧ part ⊆ query := by
  obtain ⟨hpiece, hne⟩ := List.mem_filter.mp h
  exact ⟨bne_iff_ne.mp hne, Text.not_mem_of_mem_pieces hpiece⟩

theorem Percent.formPairs_eq (query : String) :
    formPairs query = (queryParts query.toList).map pairOf := by
  rw [formPairs, queryParts]
  refine congrArg (List.map pairOf) (List.filter_congr fun part _ => ?_)
  cases part with
  | nil => rfl
  | cons c cs => rfl

theorem Percent.fst_pairOf (part : List Char) : (pairOf part).1 = formText (spelledKey part) := by
  rw [pairOf, spelledKey]
  split
  · rfl
  · rfl

theorem isPlain_page : ∀ c ∈ "page".toList, Percent.IsPlain c :=
  List.all_iff_forall_prop.mp (by decide)

/-- A page part is a parameter called `page`. -/
theorem fst_pairOf_of_isPagePart (h : isPagePart part) : (Percent.pairOf part).1 = "page" := by
  have hkey : spelledKey part = "page".toList := beq_iff_eq.mp h
  rw [Percent.fst_pairOf, hkey, Percent.formText_of_isPlain isPlain_page, String.ofList_toList]

/-- A name that is kept has the same first value among the parameters that are kept. -/
theorem ListRequest.firstValue?_filter (keep : String → Bool) {name : String} (h : keep name)
    (pairs : List (String × String)) :
    firstValue? name (pairs.filter fun p => keep p.1) = firstValue? name pairs := by
  rw [firstValue?, firstValue?, List.find?_filter]
  congr 2
  funext p
  by_cases hp : p.1 = name
  · simp [hp, h]
  · simp [hp]

/-! ### The part for a page -/

private theorem isPlain_of_isDigit {c : Char} (h : Decimal.isDigit c) : Percent.IsPlain c := by
  obtain ⟨hlow, hhigh⟩ := Decimal.isDigit_iff.mp h
  refine ⟨by omega, ?_, ?_⟩
  · rintro rfl
    exact absurd hlow (by decide)
  · rintro rfl
    exact absurd hlow (by decide)

theorem pairOf_pagePart (page : UInt64) :
    Percent.pairOf (pagePart page) = ("page", String.ofList (Decimal.digits page.toNat)) := by
  have hdigits : ∀ c ∈ Decimal.digits page.toNat, Percent.IsPlain c :=
    fun c hc => isPlain_of_isDigit (Decimal.isDigit_of_mem_digits _ c hc)
  rw [Percent.pairOf, pagePart, show "page=".toList = "page".toList ++ ['='] from by decide,
    List.append_assoc, List.singleton_append, Text.cutFirst?_append (by decide)]
  dsimp only
  rw [Percent.formText_of_isPlain isPlain_page, Percent.formText_of_isPlain hdigits,
    String.ofList_toList]

theorem isPagePart_pagePart (page : UInt64) : isPagePart (pagePart page) := by
  rw [isPagePart, pagePart, show "page=".toList = "page".toList ++ ['='] from by decide,
    List.append_assoc, List.singleton_append, Text.cutFirst?_append (by decide)]
  exact beq_self_eq_true _

/-- No part of a query begins or ends inside the part for a page. -/
theorem not_mem_pagePart {c : Char} (h : ¬ Decimal.isDigit c) (hc : c ∉ "page=".toList) :
    c ∉ pagePart page := by
  rw [pagePart, List.mem_append, not_or]
  exact ⟨hc, fun hmem => h (Decimal.isDigit_of_mem_digits _ c hmem)⟩

/-! ### Replacing the page -/

/-- A query with another page number. -/
def queryWithPage (page : UInt64) (query : List Char) : List Char :=
  ['&'].intercalate (replacePage page (queryParts query))

theorem replacePage_cons_of_pos (h : isPagePart part) :
    replacePage page (part :: parts) = pagePart page :: parts.filter fun p => !isPagePart p := by
  simp only [replacePage, List.takeWhile_cons, List.dropWhile_cons, List.filter_cons, h,
    Bool.not_true, Bool.false_eq_true, if_false, List.nil_append]

theorem replacePage_cons_of_neg (h : ¬ isPagePart part) :
    replacePage page (part :: parts) = part :: replacePage page parts := by
  simp only [replacePage, List.takeWhile_cons, List.dropWhile_cons, Bool.eq_false_iff.mpr h,
    Bool.not_false, if_true, List.cons_append]

theorem mem_replacePage (h : part ∈ replacePage page parts) :
    part = pagePart page ∨ part ∈ parts := by
  rw [replacePage, List.mem_append, List.mem_cons] at h
  rcases h with h | h | h
  · exact Or.inr ((List.takeWhile_prefix _).subset h)
  · exact Or.inl h
  · exact Or.inr ((List.dropWhile_suffix _).subset (List.mem_filter.mp h).1)

/-- No part of a query with another page number is empty or holds the separator. -/
theorem replacePage_parts {query : List Char} (h : part ∈ replacePage page (queryParts query)) :
    part ≠ [] ∧ '&' ∉ part := by
  rcases mem_replacePage h with rfl | hpart
  · refine ⟨?_, not_mem_pagePart (by decide) (by decide)⟩
    rw [pagePart]
    exact List.append_ne_nil_of_left_ne_nil (by decide) _
  · exact ⟨(mem_queryParts hpart).1, (mem_queryParts hpart).2.1⟩

/-- A query with another page number is divided into these parts again. -/
theorem pieces_queryWithPage (page : UInt64) (query : List Char) :
    Text.pieces '&' (queryWithPage page query) = replacePage page (queryParts query) := by
  have hne : replacePage page (queryParts query) ≠ [] := by
    rw [replacePage]
    exact List.append_ne_nil_of_right_ne_nil _ (List.cons_ne_nil _ _)
  rw [queryWithPage, Text.pieces_intercalate hne fun part hpart => (replacePage_parts hpart).2]

/-- The parts of a query with another page number are those of the query, with the page replaced. -/
theorem queryParts_queryWithPage (page : UInt64) (query : List Char) :
    queryParts (queryWithPage page query) = replacePage page (queryParts query) := by
  rw [queryParts, pieces_queryWithPage]
  exact List.filter_eq_self.mpr fun part hpart => bne_iff_ne.mpr (replacePage_parts hpart).1

/-- A part of a query whose key decodes to `page`. -/
def isCalledPage (part : List Char) : Bool := (Percent.pairOf part).1 == "page"

theorem isCalledPage_of_isPagePart (h : isPagePart part) : isCalledPage part :=
  beq_iff_eq.mpr (fst_pairOf_of_isPagePart h)

/-- The first parameter called `page`, if there is one, is spelled so. -/
def SpellsPage (parts : List (List Char)) : Prop :=
  ∀ part ∈ parts.find? isCalledPage, isPagePart part

instance (parts : List (List Char)) : Decidable (SpellsPage parts) := by
  unfold SpellsPage
  infer_instance

theorem spellsPage_cons_of_isPagePart (h : isPagePart part) : SpellsPage (part :: parts) := by
  rw [SpellsPage, List.find?_cons_of_pos (isCalledPage_of_isPagePart h)]
  rintro _ ⟨⟩
  exact h

theorem not_spellsPage_cons (hcalled : isCalledPage part) (h : ¬ isPagePart part) :
    ¬ SpellsPage (part :: parts) := by
  rw [SpellsPage, List.find?_cons_of_pos hcalled]
  exact fun hspells => h (hspells part rfl)

theorem spellsPage_cons_of_not_isCalledPage (h : ¬ isCalledPage part) :
    SpellsPage (part :: parts) ↔ SpellsPage parts := by
  rw [SpellsPage, SpellsPage, List.find?_cons_of_neg h]

/-- The first part called `page` is the new one, unless one of another spelling stands before it. -/
theorem find?_replacePage (page : UInt64) (parts : List (List Char)) :
    (replacePage page parts).find? isCalledPage =
      if SpellsPage parts then some (pagePart page) else parts.find? isCalledPage := by
  have hnew : isCalledPage (pagePart page) := isCalledPage_of_isPagePart (isPagePart_pagePart page)
  induction parts with
  | nil =>
    rw [if_pos (show SpellsPage [] from nofun)]
    exact List.find?_cons_of_pos hnew
  | cons part parts ih =>
    by_cases hspelled : isPagePart part
    · -- the link builder and the list request take the same part
      rw [replacePage_cons_of_pos hspelled, if_pos (spellsPage_cons_of_isPagePart hspelled),
        List.find?_cons_of_pos hnew]
    · rw [replacePage_cons_of_neg hspelled]
      by_cases hcalled : isCalledPage part
      · -- the list request takes a part that the link builder passes over
        rw [if_neg (not_spellsPage_cons hcalled hspelled), List.find?_cons_of_pos hcalled,
          List.find?_cons_of_pos hcalled]
      · rw [List.find?_cons_of_neg hcalled, List.find?_cons_of_neg hcalled, ih]
        simp only [spellsPage_cons_of_not_isCalledPage hcalled]

/-- A query with another page number is spelled as the query is. -/
theorem spellsPage_replacePage (page : UInt64) (parts : List (List Char)) :
    SpellsPage (replacePage page parts) ↔ SpellsPage parts := by
  rw [SpellsPage, find?_replacePage]
  by_cases h : SpellsPage parts
  · rw [if_pos h]
    refine iff_of_true ?_ h
    rintro _ ⟨⟩
    exact isPagePart_pagePart page
  · rw [if_neg h]
    rfl

/-- The parts of other names are untouched. -/
theorem filter_replacePage (page : UInt64) (parts : List (List Char)) :
    ((replacePage page parts).filter fun p => !isCalledPage p) =
      parts.filter fun p => !isCalledPage p := by
  have hnew : isCalledPage (pagePart page) := isCalledPage_of_isPagePart (isPagePart_pagePart page)
  induction parts with
  | nil =>
    simp only [replacePage, List.takeWhile_nil, List.dropWhile_nil, List.nil_append,
      List.filter_cons, hnew, Bool.not_true, Bool.false_eq_true, if_false, List.filter_nil]
  | cons part parts ih =>
    by_cases hspelled : isPagePart part
    · have hcalled := isCalledPage_of_isPagePart hspelled
      simp only [replacePage_cons_of_pos hspelled, List.filter_cons, hnew, hcalled, Bool.not_true,
        Bool.false_eq_true, if_false, List.filter_filter]
      -- Whatever is spelled `page` is called so, and is left out either way.
      refine List.filter_congr ?_
      intro p _
      by_cases hp : isPagePart p
      · rw [isCalledPage_of_isPagePart hp]
        rfl
      · rw [Bool.eq_false_iff.mpr hp]
        exact Bool.and_true _
    · rw [replacePage_cons_of_neg hspelled, List.filter_cons, List.filter_cons, ih]

end ExchangeCatalog
