import ExchangeCatalog.Catalog
import ExchangeCatalog.Http.Routes
import ExchangeCatalog.Proofs.Http.Target
import ExchangeCatalog.Proofs.Lists
import ExchangeCatalog.Proofs.Page.Facts
import ExchangeCatalog.Proofs.Page.Query
import ExchangeCatalog.Proofs.Page.Request

/-!
# Following the links of a list

A client who follows a link sends a request for the address that the link names. What this request
is read as depends on one thing alone: whether the first parameter called `page` of the request that
the link was made for is spelled plainly. If it is, or if there is none, the link leads to the page
it was made for; otherwise it leads to the same page again, and a client who follows one link after
the other never gets on. Everything else that the request asked for is kept either way.

## Main definitions

* `Request.following` — the request of a client who follows a link
* `LeadsTo` — what a link made for a page leads to
* `IsListed` — a request for a list that a route of the catalog accepts
* `Walk` — a client follows one link to a next page after the other
* `LinksLead` — all that the links of a list amount to

## Main results

* `setPage_url` — the address in a link
* `leadsTo_of_setPage` — every link, whatever its page
* `links_lead_to_pages_iff` — the links of a response, and walks along them
-/

namespace ExchangeCatalog

/-! ### Addresses with another page number -/

section Address

variable {front query : List Char} {page : UInt64}

theorem setPage_append (hfront : '?' ∉ front) (hhash : '#' ∉ front ++ '?' :: query) :
    setPage (String.ofList (front ++ '?' :: query)) page =
      String.ofList (front ++ '?' :: queryWithPage page query) := by
  rw [setPage, String.toList_ofList, Text.cutFirst?_eq_none_iff.mpr hhash]
  dsimp only
  rw [Text.cutFirst?_append hfront]
  dsimp only
  rw [List.append_nil]
  rfl

theorem setPage_of_not_mem (hfront : '?' ∉ front) (hhash : '#' ∉ front) :
    setPage (String.ofList front) page = String.ofList (front ++ '?' :: queryWithPage page []) := by
  rw [setPage, String.toList_ofList, Text.cutFirst?_eq_none_iff.mpr hhash]
  dsimp only
  rw [Text.cutFirst?_eq_none_iff.mpr hfront]
  dsimp only
  rw [List.append_nil]
  rfl

theorem hash_not_mem_queryWithPage (page : UInt64) (hhash : '#' ∉ query) :
    '#' ∉ queryWithPage page query := by
  refine not_mem_intercalate (by decide) ?_
  intro part hpart
  rcases mem_replacePage hpart with rfl | hpart
  · exact not_mem_pagePart (by decide) (by decide)
  · exact fun hmem => hhash ((mem_queryParts hpart).2.2 hmem)

end Address

/-! ### Reading a list request -/

/-- The parts of a request's query that are not empty. -/
def Request.parts (r : Request) : List (List Char) := queryParts (r.target.query.getD "").toList

/-- The predicates that were not read from the parameter `page`. -/
def ListRequest.otherPredicates (q : ListRequest) : List Predicate :=
  q.predicates.filter fun p => p.key != "page"

theorem firstValue?_map_pairOf (parts : List (List Char)) :
    ListRequest.firstValue? "page" (parts.map Percent.pairOf) =
      (parts.find? isCalledPage).map fun p => (Percent.pairOf p).2 := by
  rw [ListRequest.firstValue?, List.find?_map, Option.map_map]
  rfl

theorem filter_map_pairOf (parts : List (List Char)) :
    ((parts.map Percent.pairOf).filter fun p => p.1 != "page") =
      (parts.filter fun p => !isCalledPage p).map Percent.pairOf := by
  rw [List.filter_map]
  rfl

/-- A list request is for a page of some size, and both numbers are positive. -/
theorem listRequest_page_bounds (r : Request) :
    (1 ≤ r.listRequest.page.page ∧ r.listRequest.page.page.toNat < 0x8000000000000000) ∧
      1 ≤ r.listRequest.page.limit ∧ r.listRequest.page.limit.toNat < 0x8000000000000000 :=
  ⟨PageRequest.positiveOr_bounds (by decide) _, PageRequest.positiveOr_bounds (by decide) _⟩

/-! ### Lists and their routes -/

/-- A request for a list that a route of the catalog accepts. Neither the scheme of links nor the
host that the client addressed begins a query or a fragment. -/
structure IsListed (base scheme : String) (e : Entity) (r : Request) : Prop where
  route : (base, e) ∈ Catalog.routes
  method : r.method = "GET"
  target : ∃ raw, r.target = (Target.parse raw).trimmed
  place : placeOf? base r.target.path = some .collection
  scheme_plain : ∀ c ∈ scheme.toList, c ≠ '?' ∧ c ≠ '#'
  host_plain : ∀ c ∈ r.host.toList, c ≠ '?' ∧ c ≠ '#'

/-- A path that begins with one slash, does not end with one, and begins neither a query nor a
fragment. -/
def IsPlainPath (path : List Char) : Prop :=
  path.head? = some '/' ∧ path.take 2 ≠ ['/', '/'] ∧ path.getLast? ≠ some '/' ∧ '?' ∉ path ∧
    '#' ∉ path

instance (path : List Char) : Decidable (IsPlainPath path) := inferInstanceAs (Decidable (_ ∧ _))

theorem Catalog.isPlainPath_root :
    ∀ m ∈ Catalog.routes, IsPlainPath (m.1.toList ++ "/api/v1".toList) := by decide

theorem toList_of_placeOf? {base path : String} (h : placeOf? base path = some .collection) :
    path.toList = base.toList ++ "/api/v1".toList := by
  rw [placeOf?] at h
  dsimp only at h
  split at h
  · assumption
  · -- whatever follows the root is the identifier of a row
    split at h
    · split at h
      · cases h
      · cases h
    · cases h

variable {base scheme : String} {e : Entity} {r : Request}

theorem IsListed.isPlainPath (h : IsListed base scheme e r) : IsPlainPath r.target.path.toList := by
  rw [toList_of_placeOf? h.place]
  exact Catalog.isPlainPath_root _ h.route

theorem IsListed.hash_not_mem (h : IsListed base scheme e r) :
    '#' ∉ (r.target.query.getD "").toList := by
  obtain ⟨raw, htarget⟩ := h.target
  rw [htarget, Target.query_trimmed]
  cases hquery : (Target.parse raw).query with
  | none => exact List.not_mem_nil
  | some q => exact Target.hash_not_mem_query hquery

/-! ### What a link leads to -/

/-- The address of a request without its query. -/
def Request.front (r : Request) (scheme : String) : List Char :=
  scheme.toList ++ ("://".toList ++ (r.host.toList ++ r.target.path.toList))

/-- The request of a client who follows a link. -/
def Request.following (r : Request) (link : String) : Request :=
  { r with target := (Target.parse link).trimmed }

theorem IsListed.not_mem_front (h : IsListed base scheme e r) {c : Char} (hc : c = '?' ∨ c = '#') :
    c ∉ r.front scheme := by
  obtain ⟨-, -, -, hquestion, hhash⟩ := h.isPlainPath
  have hpath : c ∉ r.target.path.toList := by
    rcases hc with rfl | rfl
    · exact hquestion
    · exact hhash
  have hmiddle : c ∉ "://".toList := by
    rcases hc with rfl | rfl
    · decide
    · decide
  have hplain : ∀ s : String, (∀ d ∈ s.toList, d ≠ '?' ∧ d ≠ '#') → c ∉ s.toList := by
    intro s hs hmem
    rcases hc with rfl | rfl
    · exact (hs _ hmem).1 rfl
    · exact (hs _ hmem).2 rfl
  rw [Request.front, List.mem_append, List.mem_append, List.mem_append, not_or, not_or, not_or]
  exact ⟨hplain _ h.scheme_plain, hmiddle, hplain _ h.host_plain, hpath⟩

/-- No fragment begins in an address with a query that has none. -/
theorem IsListed.hash_not_mem_address (h : IsListed base scheme e r) {query : List Char}
    (hquery : '#' ∉ query) : '#' ∉ r.front scheme ++ '?' :: query := by
  rw [List.mem_append, List.mem_cons, not_or, not_or]
  exact ⟨h.not_mem_front (Or.inr rfl), by decide, hquery⟩

/-- The address in a link is that of the request, with another page number in its query. -/
theorem setPage_url (h : IsListed base scheme e r) (page : UInt64) :
    setPage (r.listRequest.url scheme) page =
      String.ofList (r.front scheme ++ '?' ::
        queryWithPage page (r.target.query.getD "").toList) := by
  have hfront := h.not_mem_front (Or.inl rfl)
  cases hquery : r.target.query with
  | none =>
    have hurl : r.listRequest.url scheme = String.ofList (r.front scheme) := by
      refine String.toList_inj.mp ?_
      simp only [ListRequest.url, Request.listRequest, ListRequest.ofPairs, Target.pathAndQuery,
        hquery, String.toList_append, String.toList_ofList, Request.front, List.append_assoc]
    rw [hurl, setPage_of_not_mem hfront (h.not_mem_front (Or.inr rfl))]
    rfl
  | some q =>
    have hurl : r.listRequest.url scheme = String.ofList (r.front scheme ++ '?' :: q.toList) := by
      refine String.toList_inj.mp ?_
      simp only [ListRequest.url, Request.listRequest, ListRequest.ofPairs, Target.pathAndQuery,
        hquery, String.toList_append, String.toList_ofList, Request.front, List.append_assoc]
      rfl
    have hq := h.hash_not_mem
    rw [hquery, Option.getD_some] at hq
    rw [hurl, setPage_append hfront (h.hash_not_mem_address hq)]
    rfl

/-- The query of a client who follows a link. -/
theorem query_following (h : IsListed base scheme e r) (page : UInt64) :
    (r.following (setPage (r.listRequest.url scheme) page)).target.query =
      some (String.ofList (queryWithPage page (r.target.query.getD "").toList)) := by
  rw [setPage_url h, Request.following, Target.query_trimmed, Target.query_parse]
  · exact ⟨scheme.toList, r.host.toList ++ r.target.path.toList, List.append_assoc ..⟩
  · exact h.not_mem_front (Or.inl rfl)
  · exact h.hash_not_mem_address (hash_not_mem_queryWithPage page h.hash_not_mem)

theorem parts_following (h : IsListed base scheme e r) (page : UInt64) :
    (r.following (setPage (r.listRequest.url scheme) page)).parts = replacePage page r.parts := by
  rw [Request.parts, query_following h, Option.getD_some, String.toList_ofList,
    queryParts_queryWithPage]
  rfl

/-- The path of a client who follows a link, when the scheme and the host hold no slash. -/
theorem path_following (h : IsListed base scheme e r) (page : UInt64)
    (hscheme : '/' ∉ scheme.toList) (hhost : '/' ∉ r.host.toList) :
    (r.following (setPage (r.listRequest.url scheme) page)).target.path = r.target.path := by
  obtain ⟨hhead, htwo, hlast, hquestion, -⟩ := h.isPlainPath
  obtain ⟨path, hpath⟩ := List.head?_eq_some_iff.mp hhead
  have hhash := h.hash_not_mem_address (hash_not_mem_queryWithPage page h.hash_not_mem)
  have hhost' : ∀ c ∈ r.host.toList, c ≠ '/' ∧ c ≠ '?' :=
    fun c hc => ⟨ne_of_mem_of_not_mem hc hhost, (h.host_plain c hc).1⟩
  rw [hpath] at hquestion htwo hlast
  simp only [Request.front, hpath, List.append_assoc] at hhash
  rw [setPage_url h, Request.following]
  simp only [Request.front, hpath, List.append_assoc]
  rw [Target.parse_address hscheme hhost' hquestion hhash, Target.trimmed]
  dsimp only
  -- The path of a route has no slashes to trim.
  rw [String.toList_ofList, if_neg fun hslash => hslash.elim hlast htwo, ← hpath]
  exact String.ofList_toList

/-- What a link that was made for a page leads to. -/
structure LeadsTo (r : Request) (scheme link : String) (page : UInt64) : Prop where
  /-- The link keeps the path, as long as there are no slashes before it. -/
  path_eq : '/' ∉ scheme.toList → '/' ∉ r.host.toList →
    (r.following link).target.path = r.target.path
  /-- It keeps the page size. -/
  limit_eq : (r.following link).listRequest.page.limit = r.listRequest.page.limit
  /-- It keeps the predicates, apart from those that were read from the parameter `page`. -/
  predicates_eq : (r.following link).listRequest.otherPredicates = r.listRequest.otherPredicates
  /-- It is read as the page it was made for exactly when the first parameter called `page` is
  spelled so. -/
  page_iff : (r.following link).listRequest.page.page = page ↔ SpellsPage r.parts
  /-- Otherwise it is read as the page that the client came from. -/
  page_eq_of_not : ¬ SpellsPage r.parts →
    (r.following link).listRequest.page.page = r.listRequest.page.page
  /-- The spelling stays as it is. -/
  spells_iff : SpellsPage (r.following link).parts ↔ SpellsPage r.parts

theorem listRequest_page_eq (r : Request) :
    r.listRequest.page.page = PageRequest.positiveOr PageRequest.defaultPage
      ((r.parts.find? isCalledPage).map fun p => (Percent.pairOf p).2) := by
  rw [← firstValue?_map_pairOf, Request.parts, ← Percent.formPairs_eq]
  rfl

theorem listRequest_limit_eq (r : Request) :
    r.listRequest.page.limit = PageRequest.positiveOr PageRequest.defaultLimit
      (ListRequest.firstValue? "limit"
        ((r.parts.filter fun p => !isCalledPage p).map Percent.pairOf)) := by
  rw [← filter_map_pairOf, ListRequest.firstValue?_filter (fun key => key != "page") (by decide),
    Request.parts, ← Percent.formPairs_eq]
  rfl

theorem otherPredicates_eq (r : Request) :
    r.listRequest.otherPredicates =
      parseQuery ((r.parts.filter fun p => !isCalledPage p).map Percent.pairOf) := by
  rw [← filter_map_pairOf, parseQuery_filter fun key => key != "page", Request.parts,
    ← Percent.formPairs_eq]
  rfl

/-- Every link to another page leads there, or to the same page again. -/
theorem leadsTo_of_setPage (h : IsListed base scheme e r) {page : UInt64} (hpos : 1 ≤ page)
    (hlt : page.toNat < 0x8000000000000000) (hne : page ≠ r.listRequest.page.page) :
    LeadsTo r scheme (setPage (r.listRequest.url scheme) page) page := by
  have hparts := parts_following h page
  have hpage : (r.following (setPage (r.listRequest.url scheme) page)).listRequest.page.page =
      if SpellsPage r.parts then page else r.listRequest.page.page := by
    rw [listRequest_page_eq, hparts, find?_replacePage]
    split_ifs with hspells
    · rw [Option.map_some, pairOf_pagePart, PageRequest.positiveOr_digits hpos hlt]
    · rw [listRequest_page_eq]
  refine ⟨path_following h page, ?_, ?_, ?_, ?_, ?_⟩
  · rw [listRequest_limit_eq, hparts, filter_replacePage, ← listRequest_limit_eq]
  · rw [otherPredicates_eq, hparts, filter_replacePage, ← otherPredicates_eq]
  · rw [hpage]
    split_ifs with hspells
    · exact iff_of_true rfl hspells
    · exact iff_of_false hne.symm hspells
  · intro hspells
    rw [hpage, if_neg hspells]
  · rw [hparts, spellsPage_replacePage]

/-! ### The links of a response -/

/-- The pagination of a response to a list request. -/
def ListRequest.pagination (q : ListRequest) (scheme : String) (total : UInt64) : Pagination :=
  ((Pagination.compute q.page total).withLinks? (q.url scheme)).getD
    (Pagination.compute q.page total)

theorem nextLink_eq_some {q : ListRequest} {total : UInt64} {link : String}
    (h : (q.pagination scheme total).nextLink = some link) :
    hasNext total q.page.page q.page.limit ∧ link = setPage (q.url scheme) (q.page.page + 1) := by
  rw [ListRequest.pagination, Pagination.withLinks?] at h
  split at h
  · cases h
  · obtain ⟨hnext, hlink⟩ := Option.ite_none_right_eq_some.mp h
    exact ⟨hnext, (Option.some.inj hlink).symm⟩

theorem previousLink_eq_some {q : ListRequest} {total : UInt64} {link : String}
    (h : (q.pagination scheme total).previousLink = some link) :
    hasPrevious total q.page.page q.page.limit ∧
      link = setPage (q.url scheme) (q.page.page - 1) := by
  rw [ListRequest.pagination, Pagination.withLinks?] at h
  split at h
  · cases h
  · obtain ⟨hprevious, hlink⟩ := Option.ite_none_right_eq_some.mp h
    exact ⟨hprevious, (Option.some.inj hlink).symm⟩

/-- A client sends requests for a list one after the other, each for the link to the next page in
the response to the one before. -/
inductive Walk (base scheme : String) (e : Entity) (r : Request) : Nat → Request → Prop
  | start : Walk base scheme e r 0 r
  | next {n : Nat} {r' : Request} {total : UInt64} {link : String}
      (walk : Walk base scheme e r n r')
      (listed : IsListed base scheme e r') (countable : total.toNat < 0x8000000000000000)
      (shown : (r'.listRequest.pagination scheme total).nextLink = some link) :
      Walk base scheme e r (n + 1) (r'.following link)

/-- All that the links in the responses to a list request amount to. -/
structure LinksLead (base scheme : String) (e : Entity) (r : Request) : Prop where
  /-- The response to a page of rows shows these links, whatever repository the rows come from. -/
  response_eq : ∀ {σ : Type} (answer : (c : Call e) → σ → c.Answer × σ) (s : σ)
      (page : Page (Row e)),
    (answer (.page (e.retain r.listRequest.predicates) r.listRequest.page) s).1 = .ok page →
      ((e.respond scheme .collection r).run answer s).1 =
        .json 200 (envelope (r.listRequest.pagination scheme page.total)
          (page.items.map Row.toJson))
  /-- The link to the next page. -/
  next_leads : ∀ total : UInt64, total.toNat < 0x8000000000000000 →
    ∀ link ∈ (r.listRequest.pagination scheme total).nextLink,
      LeadsTo r scheme link (r.listRequest.page.page + 1)
  /-- The link to the page before. -/
  previous_leads : ∀ total : UInt64, total.toNat < 0x8000000000000000 →
    ∀ link ∈ (r.listRequest.pagination scheme total).previousLink,
      LeadsTo r scheme link (r.listRequest.page.page - 1)
  /-- A walk gets on by one page with each link, or does not get on at all. -/
  walk_eq : ∀ n r', Walk base scheme e r n r' →
    r'.listRequest.page.page.toNat =
      if SpellsPage r.parts then r.listRequest.page.page.toNat + n
        else r.listRequest.page.page.toNat

/-- The page after one that has a successor is a number, and a greater one. -/
theorem toNat_page_add_one {total : UInt64} (htotal : total.toNat < 0x8000000000000000)
    (hnext : hasNext total r.listRequest.page.page r.listRequest.page.limit) :
    (r.listRequest.page.page + 1).toNat = r.listRequest.page.page.toNat + 1 ∧
      r.listRequest.page.page.toNat + 1 < 0x8000000000000000 := by
  obtain ⟨-, hlimit, -⟩ := listRequest_page_bounds r
  rw [UInt64.le_iff_toNat_le] at hlimit
  rw [hasNext, Bool.and_eq_true, decide_eq_true_iff] at hnext
  -- A page of at least one row ends at or after its own number.
  have hrows : r.listRequest.page.page.toNat * 1 ≤
      r.listRequest.page.page.toNat * r.listRequest.page.limit.toNat :=
    Nat.mul_le_mul_left _ hlimit
  have hlt : r.listRequest.page.page.toNat + 1 < 0x8000000000000000 := by omega
  refine ⟨?_, hlt⟩
  rw [UInt64.toNat_add, UInt64.toNat_one, Nat.mod_eq_of_lt (by omega)]

theorem leadsTo_of_nextLink (h : IsListed base scheme e r) {total : UInt64}
    (htotal : total.toNat < 0x8000000000000000) {link : String}
    (hlink : (r.listRequest.pagination scheme total).nextLink = some link) :
    LeadsTo r scheme link (r.listRequest.page.page + 1) := by
  obtain ⟨hnext, rfl⟩ := nextLink_eq_some hlink
  obtain ⟨hsucc, hlt⟩ := toNat_page_add_one htotal hnext
  refine leadsTo_of_setPage h ?_ (hsucc ▸ hlt) ?_
  · rw [UInt64.le_iff_toNat_le, hsucc]
    exact Nat.le_add_left 1 _
  · intro heq
    rw [heq] at hsucc
    omega

theorem leadsTo_of_previousLink (h : IsListed base scheme e r) {total : UInt64} {link : String}
    (hlink : (r.listRequest.pagination scheme total).previousLink = some link) :
    LeadsTo r scheme link (r.listRequest.page.page - 1) := by
  obtain ⟨hprevious, rfl⟩ := previousLink_eq_some hlink
  obtain ⟨⟨-, hlt⟩, -⟩ := listRequest_page_bounds r
  rw [hasPrevious, Bool.and_eq_true, Bool.and_eq_true, decide_eq_true_iff, UInt64.lt_iff_toNat_lt,
    UInt64.toNat_one] at hprevious
  have hpred : (r.listRequest.page.page - 1).toNat = r.listRequest.page.page.toNat - 1 :=
    UInt64.toNat_sub_of_le _ _ (UInt64.le_iff_toNat_le.mpr (Nat.le_of_lt hprevious.1.2))
  refine leadsTo_of_setPage h ?_ (by omega) ?_
  · rw [UInt64.le_iff_toNat_le, hpred]
    exact Nat.le_sub_of_add_le hprevious.1.2
  · intro heq
    rw [heq] at hpred
    omega

/-- A walk gets on by one page with each link, or does not get on at all. -/
theorem Walk.page_eq {n : Nat} {r' : Request} (walk : Walk base scheme e r n r') :
    (SpellsPage r'.parts ↔ SpellsPage r.parts) ∧
      r'.listRequest.page.page.toNat =
        if SpellsPage r.parts then r.listRequest.page.page.toNat + n
          else r.listRequest.page.page.toNat := by
  induction walk with
  | start =>
    rw [Nat.add_zero, ite_self]
    exact ⟨Iff.rfl, rfl⟩
  | next walk listed countable shown ih =>
    obtain ⟨hspelling, hpage⟩ := ih
    have hleads := leadsTo_of_nextLink listed countable shown
    refine ⟨hleads.spells_iff.trans hspelling, ?_⟩
    by_cases hspells : SpellsPage r.parts
    · -- each link leads one page on
      rw [if_pos hspells] at hpage ⊢
      rw [hleads.page_iff.mpr (hspelling.mpr hspells),
        (toNat_page_add_one countable (nextLink_eq_some shown).1).1, hpage, Nat.add_assoc]
    · -- no link leads anywhere else
      rw [if_neg hspells] at hpage ⊢
      rw [hleads.page_eq_of_not fun h => hspells (hspelling.mp h), hpage]

/-- The links of a list lead to the pages that they were made for exactly when the first parameter
called `page`, if there is one, is spelled so; otherwise they lead to the same page again. -/
theorem links_lead_to_pages_iff (h : IsListed base scheme e r) : LinksLead base scheme e r where
  response_eq answer s page hanswer := by
    simp only [Entity.respond, h.method, Entity.listExchange, Entity.finish, Service.list,
      Service.asking, Plan.ask_bind, Plan.run_ask, hanswer, Plan.done_bind, Plan.run_done]
    rfl
  next_leads total htotal link hlink := leadsTo_of_nextLink h htotal hlink
  previous_leads total _ link hlink := leadsTo_of_previousLink h hlink
  walk_eq n r' walk := walk.page_eq.2

/-- A request for units of measure from a client on the same machine. -/
def measureUnitRequest (uri : String) : Request where
  method := "GET"
  target := (Target.parse uri).trimmed
  headers := [("host", "localhost:5500")]
  body := []

theorem isListed_measureUnitRequest {uri : String}
    (h : placeOf? "/measure-unit" (measureUnitRequest uri).target.path = some .collection) :
    IsListed "/measure-unit" "http" Catalog.measureUnit (measureUnitRequest uri) where
  route := by decide
  method := rfl
  target := ⟨uri, rfl⟩
  place := h
  scheme_plain := List.all_iff_forall_prop.mp (by decide)
  host_plain := by
    have hhost : (measureUnitRequest uri).host = "localhost:5500" := rfl
    rw [hhost]
    exact List.all_iff_forall_prop.mp (by decide)

theorem plainPageRequest_links_lead :
    IsListed "/measure-unit" "http" Catalog.measureUnit
        (measureUnitRequest "/measure-unit/api/v1/?limit=1&page=2&%70age=7") ∧
      LinksLead "/measure-unit" "http" Catalog.measureUnit
        (measureUnitRequest "/measure-unit/api/v1/?limit=1&page=2&%70age=7") :=
  ⟨isListed_measureUnitRequest (by decide),
    links_lead_to_pages_iff (isListed_measureUnitRequest (by decide))⟩

/-- The link to the second page of two, for a client who wrote the name of the parameter with an
encoded letter, leads to the first page again. -/
theorem encodedPageRequest_link_stays :
    IsListed "/measure-unit" "http" Catalog.measureUnit
        (measureUnitRequest "/measure-unit/api/v1?%70age=1&limit=1") ∧
      ∃ link, ((measureUnitRequest "/measure-unit/api/v1?%70age=1&limit=1").listRequest.pagination
          "http" 2).nextLink = some link ∧
        ((measureUnitRequest "/measure-unit/api/v1?%70age=1&limit=1").following
            link).listRequest.page.page ≠
          (measureUnitRequest
            "/measure-unit/api/v1?%70age=1&limit=1").listRequest.page.page + 1 := by
  have hlisted : IsListed "/measure-unit" "http" Catalog.measureUnit
      (measureUnitRequest "/measure-unit/api/v1?%70age=1&limit=1") :=
        isListed_measureUnitRequest (by decide)
  obtain ⟨link, hlink⟩ : ∃ link,
      ((measureUnitRequest "/measure-unit/api/v1?%70age=1&limit=1").listRequest.pagination
      "http" 2).nextLink = some link := ⟨_, rfl⟩
  refine ⟨hlisted, link, hlink, fun hpage => ?_⟩
  have hleads := leadsTo_of_nextLink hlisted (by decide) hlink
  exact absurd (hleads.page_iff.mp hpage) (by decide)

end ExchangeCatalog
