import ExchangeCatalog.Proofs.Page.Links

/-!
# The page number of an address

An address has three parts: what stands before its query, the query, and the fragment. Giving an
address a page number changes nothing but the query, and of the query nothing but the parts whose
key is spelled `page`: the first of them is replaced, the others are left out, and without one the
new part is put at the end. The last page number that an address was given is therefore the one that
counts, and no address is ever made empty by it, so a response shows an empty link exactly where
there is no page to link to.

## Main definitions

* `Address.front`, `Address.query`, `Address.fragment` — the three parts of an address
* `HasPageKey` — a part of a query has the key `page`, spelled so
* `PagePartReplaced` — what becomes of the parts of a query
* `NamesPage` — an address names a page by its number
* `PageIsSet` — all that giving an address a page number amounts to

## Main results

* `toList_setPage` — the three parts of an address with another page number
* `setPage_setPage` — the last page number counts
* `pagePartReplaced_replacePage` — what becomes of the parts of a query
* `namesPage_setPage` — the number of the page is written in decimal digits
* `page_is_set` — any address and any page number
-/

namespace ExchangeCatalog

/-! ### The parts of an address -/

namespace Address

/-- What stands before the fragment of an address. -/
def body (url : List Char) : List Char := url.takeWhile (· != '#')

/-- The fragment of an address with the mark before it; nothing when there is no mark. -/
def fragment (url : List Char) : List Char := url.dropWhile (· != '#')

/-- What stands before the query of an address. -/
def front (url : List Char) : List Char := (body url).takeWhile (· != '?')

/-- The query of an address, without the mark before it. -/
def query (url : List Char) : List Char := ((body url).dropWhile (· != '?')).tail

theorem question_not_mem_front (url : List Char) : '?' ∉ front url := Text.not_mem_takeWhile_ne _ _

theorem hash_not_mem_body (url : List Char) : '#' ∉ body url := Text.not_mem_takeWhile_ne _ _

theorem hash_not_mem_front (url : List Char) : '#' ∉ front url :=
  fun h => hash_not_mem_body url ((List.takeWhile_prefix _).subset h)

theorem hash_not_mem_query (url : List Char) : '#' ∉ query url := fun h =>
  hash_not_mem_body url ((List.dropWhile_suffix _).subset (List.mem_of_mem_tail h))

theorem head?_fragment (url : List Char) : ∀ c ∈ (fragment url).head?, c = '#' := by
  intro c hc
  have hstop := List.head?_dropWhile_not (· != '#') url
  rw [show (url.dropWhile (· != '#')).head? = some c from hc] at hstop
  exact bne_eq_false_iff_eq.mp hstop

/-- An address that is put together of three parts has these parts. -/
theorem parts_append {before asked rest : List Char} (hbefore : '?' ∉ before)
    (hbody : '#' ∉ before ++ '?' :: asked) (hrest : ∀ c ∈ rest.head?, c = '#') :
    front (before ++ '?' :: asked ++ rest) = before ∧
      query (before ++ '?' :: asked ++ rest) = asked ∧
      fragment (before ++ '?' :: asked ++ rest) = rest := by
  obtain ⟨htake, hdrop⟩ := Text.takeWhile_ne_append hbody hrest
  have hquestion : ∀ c ∈ ('?' :: asked).head?, c = '?' := by
    rintro _ ⟨⟩
    rfl
  obtain ⟨htake', hdrop'⟩ := Text.takeWhile_ne_append hbefore hquestion
  refine ⟨?_, ?_, hdrop⟩
  · rw [front, body, htake, htake']
  · rw [query, body, htake, hdrop', List.tail_cons]

end Address

open Address (front query fragment)

/-! ### Parts of a query -/

/-- A part of a query has the key `page`, spelled so. -/
def HasPageKey (part : List Char) : Prop := part.takeWhile (· != '=') = "page".toList

instance (part : List Char) : Decidable (HasPageKey part) := by
  unfold HasPageKey
  infer_instance

/-- Parts of a query with a new page part in the place of the first one, or at the end. -/
inductive PagePartReplaced (new : List Char) : List (List Char) → List (List Char) → Prop
  | first (before : List (List Char)) {after : List (List Char)} {part : List Char}
    (earlier : ∀ p ∈ before, ¬ HasPageKey p) (key : HasPageKey part) :
    PagePartReplaced new (before ++ part :: after)
      (before ++ new :: after.filter fun p => ¬ HasPageKey p)
  | last {parts : List (List Char)} (none : ∀ p ∈ parts, ¬ HasPageKey p) :
    PagePartReplaced new parts (parts ++ [new])

section Parts

variable {part : List Char} {parts : List (List Char)}

theorem isPagePart_iff : isPagePart part ↔ HasPageKey part := by
  rw [isPagePart, HasPageKey, beq_iff_eq]
  by_cases h : '=' ∈ part
  · obtain ⟨after, hcut, -⟩ := Text.cutFirst?_of_mem h
    rw [hcut]
  · rw [Text.cutFirst?_eq_none_iff.mpr h, Text.takeWhile_ne_eq_self h]

theorem filter_not_isPagePart (parts : List (List Char)) :
    (parts.filter fun p => !isPagePart p) = parts.filter fun p => ¬ HasPageKey p := by
  refine List.filter_congr fun p _ => ?_
  by_cases h : isPagePart p
  · simp [h, isPagePart_iff.mp h]
  · simp [h, mt isPagePart_iff.mpr h]

/-- The parts of a query are those that its separators divide it into, without the empty ones. -/
theorem queryParts_eq_splitOn (cs : List Char) :
    queryParts cs = (cs.splitOn '&').filter fun p => p ≠ [] := by
  rw [queryParts, Text.pieces_eq_splitOn]
  refine List.filter_congr fun p _ => ?_
  cases p with
  | nil => rfl
  | cons c p => rfl

/-- The first page part is replaced and the others are left out; without one the new part is put at
the end. -/
theorem pagePartReplaced_replacePage (page : UInt64) (parts : List (List Char)) :
    PagePartReplaced (pagePart page) parts (replacePage page parts) := by
  induction parts with
  | nil => exact .last nofun
  | cons part parts ih =>
    by_cases h : isPagePart part
    · rw [replacePage_cons_of_pos h, filter_not_isPagePart]
      exact .first [] nofun (isPagePart_iff.mp h)
    · have hpart : ¬ HasPageKey part := mt isPagePart_iff.mpr h
      rw [replacePage_cons_of_neg h]
      -- What becomes of the other parts does not depend on this one, which stays in front.
      generalize replacePage page parts = replaced at ih
      cases ih with
      | first _ earlier key =>
        exact .first (part :: _) (List.forall_mem_cons.mpr ⟨hpart, earlier⟩) key
      | last none => exact .last (List.forall_mem_cons.mpr ⟨hpart, none⟩)

/-- The new part is the only page part afterwards. -/
theorem PagePartReplaced.filter_eq {new : List Char} {replaced : List (List Char)}
    (h : PagePartReplaced new parts replaced) (hnew : HasPageKey new) :
    (replaced.filter fun p => HasPageKey p) = [new] := by
  have hother : ∀ {ps : List (List Char)}, (∀ p ∈ ps, ¬ HasPageKey p) →
      (ps.filter fun p => HasPageKey p) = [] :=
    fun hps => List.filter_eq_nil_iff.mpr fun p hp => by simpa using hps p hp
  cases h with
  | first _ earlier key =>
    rw [List.filter_append, hother earlier, List.filter_cons_of_pos (by simpa using hnew),
      hother fun p hp => by simpa using (List.mem_filter.mp hp).2]
    rfl
  | last none =>
    rw [List.filter_append, hother none, List.filter_cons_of_pos (by simpa using hnew)]
    rfl

/-- Of two page numbers the later one counts. -/
theorem replacePage_replacePage (page page' : UInt64) (parts : List (List Char)) :
    replacePage page' (replacePage page parts) = replacePage page' parts := by
  have hnew := isPagePart_pagePart page
  induction parts with
  | nil => exact replacePage_cons_of_pos hnew
  | cons part parts ih =>
    by_cases h : isPagePart part
    · -- what was put here is a page part itself, so it is replaced, and no other one is left
      rw [replacePage_cons_of_pos h, replacePage_cons_of_pos h, replacePage_cons_of_pos hnew,
        List.filter_filter]
      simp only [Bool.and_self]
    · rw [replacePage_cons_of_neg h, replacePage_cons_of_neg h, replacePage_cons_of_neg h, ih]

end Parts

/-! ### Addresses with another page number -/

/-- An address with another page number has the same front and the same fragment. -/
theorem toList_setPage (url : String) (page : UInt64) :
    (setPage url page).toList = front url.toList ++ '?' :: queryWithPage page (query url.toList) ++
      fragment url.toList := by
  rw [setPage]
  split
  rename_i head rest hcut
  obtain ⟨rfl, rfl⟩ : head = Address.body url.toList ∧ rest = fragment url.toList := by
    refine Prod.mk.inj (hcut.symm.trans ?_)
    by_cases h : '#' ∈ url.toList
    · obtain ⟨after, hfirst, hdrop⟩ := Text.cutFirst?_of_mem h
      rw [hfirst, fragment, hdrop]
      rfl
    · rw [Text.cutFirst?_eq_none_iff.mpr h, Address.body, fragment,
        Text.takeWhile_ne_eq_self h, Text.dropWhile_ne_eq_nil h]
  -- The query is looked for in what stands before the fragment.
  split
  rename_i base asked hcut'
  obtain ⟨rfl, rfl⟩ : base = front url.toList ∧ asked = query url.toList := by
    refine Prod.mk.inj (hcut'.symm.trans ?_)
    by_cases h : '?' ∈ Address.body url.toList
    · obtain ⟨after, hfirst, hdrop⟩ := Text.cutFirst?_of_mem h
      rw [hfirst, query, hdrop]
      rfl
    · rw [Text.cutFirst?_eq_none_iff.mpr h, front, query, Text.takeWhile_ne_eq_self h,
        Text.dropWhile_ne_eq_nil h]
      rfl
  rw [String.toList_ofList]
  rfl

/-- The parts of an address with another page number. -/
theorem parts_setPage (url : String) (page : UInt64) :
    front (setPage url page).toList = front url.toList ∧
      query (setPage url page).toList = queryWithPage page (query url.toList) ∧
      fragment (setPage url page).toList = fragment url.toList := by
  rw [toList_setPage]
  refine Address.parts_append (Address.question_not_mem_front _) ?_ (Address.head?_fragment _)
  rw [List.mem_append, List.mem_cons, not_or, not_or]
  exact ⟨Address.hash_not_mem_front _, by decide,
    hash_not_mem_queryWithPage page (Address.hash_not_mem_query _)⟩

/-- The last page number that an address was given is the one that counts. -/
theorem setPage_setPage (url : String) (page page' : UInt64) :
    setPage (setPage url page) page' = setPage url page' := by
  obtain ⟨hfront, hquery, hfragment⟩ := parts_setPage url page
  have hparts : queryWithPage page' (queryWithPage page (query url.toList)) =
      queryWithPage page' (query url.toList) := by
    rw [queryWithPage, queryParts_queryWithPage, replacePage_replacePage, queryWithPage]
  refine String.toList_inj.mp ?_
  rw [toList_setPage, hfront, hquery, hfragment, hparts, ← toList_setPage]

theorem setPage_ne_empty (url : String) (page : UInt64) : setPage url page ≠ "" := by
  intro hempty
  have hnil := toList_setPage url page
  rw [hempty, List.append_assoc, List.cons_append] at hnil
  exact List.append_ne_nil_of_right_ne_nil _ (List.cons_ne_nil _ _) hnil.symm

/-- The parts of the query of an address with another page number. -/
theorem pagePartReplaced_setPage (url : String) (page : UInt64) :
    PagePartReplaced (pagePart page) (((query url.toList).splitOn '&').filter fun p => p ≠ [])
      ((query (setPage url page).toList).splitOn '&') := by
  rw [(parts_setPage url page).2.1, ← queryParts_eq_splitOn, ← Text.pieces_eq_splitOn,
    pieces_queryWithPage]
  exact pagePartReplaced_replacePage page _

/-- The part for a page is the key with the number in decimal digits. -/
theorem pagePart_eq (page : UInt64) : pagePart page = ("page=" ++ toString page.toNat).toList := by
  rw [pagePart, String.toList_append, Decimal.toList_toString_nat]

/-- An address names a page: one part of its query has the key `page`, and the number of the page
follows in decimal digits. -/
def NamesPage (url : String) (n : Nat) : Prop :=
  (((query url.toList).splitOn '&').filter fun p => HasPageKey p) =
    [("page=" ++ toString n).toList]

/-- An address with another page number has one page part. -/
theorem filter_setPage (url : String) (page : UInt64) :
    (((query (setPage url page).toList).splitOn '&').filter fun p => HasPageKey p) =
      [pagePart page] :=
  (pagePartReplaced_setPage url page).filter_eq (isPagePart_iff.mp (isPagePart_pagePart page))

/-- It names the page of this number. -/
theorem namesPage_setPage (url : String) (page : UInt64) :
    NamesPage (setPage url page) page.toNat := by
  rw [NamesPage, filter_setPage, pagePart_eq]

/-! ### The links that a response shows -/

/-- A link is shown as the empty text exactly when there is no page to link to. -/
theorem link_eq_empty_iff (url : String) (page : UInt64) (linked : Bool) :
    (if linked then some (setPage url page) else none).getD "" = "" ↔ linked = false := by
  cases linked with
  | false => exact iff_of_true rfl rfl
  | true => exact iff_of_false (setPage_ne_empty url page) Bool.noConfusion

/-- A link that is made names the page that it is made for. -/
theorem namesPage_of_mem_ite {url link : String} {page : UInt64} {linked : Bool}
    (h : link ∈ if linked then some (setPage url page) else none) :
    linked ∧ NamesPage link page.toNat := by
  obtain ⟨hlinked, hlink⟩ := Option.ite_none_right_eq_some.mp h
  obtain rfl := Option.some.inj hlink
  exact ⟨hlinked, namesPage_setPage url page⟩

/-- All that giving an address a page number amounts to. -/
structure PageIsSet (url : String) : Prop where
  /-- The last page number is the one that counts. -/
  overwrite : ∀ page page', setPage (setPage url page) page' = setPage url page'
  /-- What stands before the query is kept, -/
  front_eq : ∀ page, front (setPage url page).toList = front url.toList
  /-- and so is the fragment. -/
  fragment_eq : ∀ page, fragment (setPage url page).toList = fragment url.toList
  /-- The query is divided into the parts that the address had, without the empty ones: the first
  page part is replaced and the others are left out, or the new part is put at the end. -/
  parts : ∀ page, PagePartReplaced (pagePart page)
    (((query url.toList).splitOn '&').filter fun p => p ≠ [])
    ((query (setPage url page).toList).splitOn '&')
  /-- So there is exactly one page part. -/
  only : ∀ page, (((query (setPage url page).toList).splitOn '&').filter fun p => HasPageKey p) =
    [pagePart page]
  /-- This part is the key `page` with the number in decimal digits, -/
  written : ∀ page, pagePart page = ("page=" ++ toString page.toNat).toList
  /-- which is read as the parameter `page` with this number. -/
  readBack : ∀ page, ∃ text, Percent.pairOf (pagePart page) = ("page", text) ∧
    Decimal.nat? text.toList = some page.toNat
  /-- The address is not empty. -/
  ne_empty : ∀ page, setPage url page ≠ ""
  /-- A response shows the empty text exactly where there is no page to link to. -/
  shown : ∀ request total p, (Pagination.compute request total).withLinks? url = some p →
    ∃ next previous facts,
      p.toJson =
        .object (("next_page", .string next) :: ("prev_page", .string previous) :: facts) ∧
      (next = "" ↔ p.hasNext = false) ∧ (previous = "" ↔ p.hasPrevious = false)
  /-- It has these links for every page request that is made. -/
  linked : ∀ request : PageRequest, request.IsMade → ∀ total,
    ∃ p, (Pagination.compute request total).withLinks? url = some p

/-- Giving an address a page number sets this number and nothing else, whatever the address. -/
theorem page_is_set (url : String) : PageIsSet url where
  overwrite := setPage_setPage url
  front_eq page := (parts_setPage url page).1
  fragment_eq page := (parts_setPage url page).2.2
  parts := pagePartReplaced_setPage url
  only := filter_setPage url
  written := pagePart_eq
  readBack page := by
    refine ⟨_, pairOf_pagePart page, ?_⟩
    rw [String.toList_ofList, Decimal.nat?_digits]
  ne_empty := setPage_ne_empty url
  shown request total p hlinks := by
    rw [Pagination.withLinks?] at hlinks
    obtain ⟨-, hlinks⟩ := Option.ite_none_left_eq_some.mp hlinks
    obtain rfl := Option.some.inj hlinks
    exact ⟨_, _, _, rfl, link_eq_empty_iff .., link_eq_empty_iff ..⟩
  linked request hmade total := by
    obtain ⟨p, hp, -⟩ := exists_withLinks? hmade.pos.2 total url
    exact ⟨p, hp⟩

/-- Neither the second question mark nor the one in the fragment begins a query. -/
example : setPage "h/?a=?&&page&b=1&page=2&p%61ge=3#f?page=4" 7 =
    "h/?a=?&page=7&b=1&p%61ge=3#f?page=4" := by decide +kernel

end ExchangeCatalog
