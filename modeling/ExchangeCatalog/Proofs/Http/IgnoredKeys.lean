import ExchangeCatalog.Catalog
import ExchangeCatalog.Proofs.Page.Query
import ExchangeCatalog.Proofs.Repository.Memory
import ExchangeCatalog.Repository.Sql
import ExchangeCatalog.Service

/-!
# Keys that a list does not look at

A parameter whose key is neither that of the page nor that of its size, and whose field the entity
does not let a filter name, might still reach into a list: it could hide a later parameter behind
its first occurrence, be taken for a filter on another field, or have a value that cannot be read.
None of this happens. Lists with and without such parameters ask the repository the same, wherever
among the others they stand, however often they are repeated and whatever their values are.

## Main definitions

* `Entity.ignores` — the keys that a list does not look at
* `Padded` — one list of parameters is another with ignored ones put in

## Main results

* `Entity.retain_parseQuery_filter` — the filters of a query are those of the keys that are not
  ignored
* `list_eq_of_padded` — the list asks the repository the same
* `ignored_keys_have_no_influence` — the page request and the list's answer are the same
-/

namespace ExchangeCatalog

/-- A list does not look at a key which is none of the page's and whose field no filter may name. -/
def Entity.ignores (e : Entity) (key : String) : Bool :=
  key != "page" && key != "limit" && (e.resolve? (splitKey key).1).isNone

/-- The second list of parameters is the first with any number of ignored ones put in anywhere. -/
inductive Padded (e : Entity) : List (String × String) → List (String × String) → Prop
  | nil : Padded e [] []
  | keep {pairs more : List (String × String)} (p : String × String) :
    Padded e pairs more → Padded e (p :: pairs) (p :: more)
  | insert {pairs more : List (String × String)} (key value : String) :
    e.ignores key → Padded e pairs more → Padded e pairs ((key, value) :: more)

variable {e : Entity} {pairs more : List (String × String)}

/-- What is put in is all that tells the lists apart. -/
theorem filter_eq_of_padded (h : Padded e pairs more) :
    (more.filter fun p => !e.ignores p.1) = pairs.filter fun p => !e.ignores p.1 := by
  induction h with
  | nil => rfl
  | keep p _ ih => simp only [List.filter_cons, ih]
  | insert key value hkey _ ih => simp [hkey, ih]

/-- A predicate is dropped when its key is ignored, for it names the key's field. -/
theorem Entity.resolve?_of_ignores {key value : String} {p : Predicate}
    (hp : Predicate.ofPair? key value = some p) (hkey : e.ignores key) :
    e.resolve? p.field = none := by
  rw [Predicate.ofPair?] at hp
  split at hp
  · cases hp
  · cases hp
    simp only [ignores, Bool.and_eq_true, Option.isNone_iff_eq_none] at hkey
    exact hkey.2

/-- The filters of a query are those of the keys that are not ignored. -/
theorem Entity.retain_parseQuery_filter (e : Entity) (pairs : List (String × String)) :
    e.retain (parseQuery (pairs.filter fun p => !e.ignores p.1)) = e.retain (parseQuery pairs) := by
  -- Which first occurrences there are is settled before any key is looked into.
  rw [parseQuery, parseQuery, firstOccurrences_filter fun key => !e.ignores key]
  induction firstOccurrences pairs with
  | nil => rfl
  | cons p pairs ih =>
    by_cases hkey : e.ignores p.1
    · rw [List.filter_cons_of_neg (by simp [hkey]), ih, List.filterMap_cons]
      cases hp : Predicate.ofPair? p.1 p.2 with
      | none => rfl
      | some q =>
        rw [retain, retain, List.filterMap_cons, resolve?_of_ignores hp hkey]
        rfl
    · rw [List.filter_cons_of_pos (by simp [hkey]), List.filterMap_cons, List.filterMap_cons]
      cases Predicate.ofPair? p.1 p.2 with
      | none => exact ih
      | some q =>
        simp only [retain, List.filterMap_cons] at ih ⊢
        rw [ih]

/-- The first parameter of a name that is not ignored is no other. -/
theorem firstValue?_of_padded (h : Padded e pairs more) {name : String} (hname : ¬ e.ignores name) :
    ListRequest.firstValue? name more = ListRequest.firstValue? name pairs := by
  have hkept : (!e.ignores name) = true := by simp [hname]
  rw [← ListRequest.firstValue?_filter (fun key => !e.ignores key) hkept more,
    ← ListRequest.firstValue?_filter (fun key => !e.ignores key) hkept pairs,
    filter_eq_of_padded h]

variable {host pathAndQuery : String}

theorem page_ofPairs_of_padded (h : Padded e pairs more) :
    (ListRequest.ofPairs more host pathAndQuery).page =
      (ListRequest.ofPairs pairs host pathAndQuery).page := by
  simp only [ListRequest.ofPairs]
  rw [firstValue?_of_padded h (by simp [Entity.ignores]),
    firstValue?_of_padded h (by simp [Entity.ignores])]

/-- The list asks the repository for the same rows. -/
theorem list_eq_of_padded (h : Padded e pairs more) (request : PageRequest) :
    (Service.list (parseQuery more) request : Session e (Page (Row e))) =
      Service.list (parseQuery pairs) request := by
  rw [Service.list, Service.list, ← e.retain_parseQuery_filter more, filter_eq_of_padded h,
    e.retain_parseQuery_filter pairs]

/-- Parameters with ignored keys change neither the page request nor the answer to it, be it a page
of rows with their total or a fault, and be the rows in memory or on a database. -/
theorem ignored_keys_have_no_influence (h : Padded e pairs more) (host pathAndQuery : String) :
    let plain := ListRequest.ofPairs pairs host pathAndQuery
    let padded := ListRequest.ofPairs more host pathAndQuery
    padded.page = plain.page ∧
      (∀ s : MemoryStore e, s.run (Service.list padded.predicates padded.page) =
        s.run (Service.list plain.predicates plain.page)) ∧
      ∀ {σ : Type} (database : Statement → σ → Outcome × σ) (s : σ),
        (Plan.through SqlRepository.answer
            (Service.list padded.predicates padded.page : Session e _)).run database s =
          (Plan.through SqlRepository.answer
            (Service.list plain.predicates plain.page : Session e _)).run database s := by
  intro plain padded
  have hpage : padded.page = plain.page := page_ofPairs_of_padded h
  have hlist : (Service.list padded.predicates padded.page : Session e _) =
      Service.list plain.predicates plain.page := by
    rw [hpage]
    exact list_eq_of_padded h plain.page
  refine ⟨hpage, ?_, ?_⟩
  · intro s
    rw [hlist]
  · intro σ database s
    rw [hlist]

/-- Parameters of a list of brokers. -/
def brokerPairs : List (String × String) :=
  [("page", "2"), ("spot_id_gte", "7"), ("persian_name", "")]

/-- The same with others put in: on a field that filters may not name, with another comparison of
it, with a key that is close to the page's, repeated, and on no field at all. -/
def paddedBrokerPairs : List (String × String) :=
  [("description_gt", "abc"), ("page", "2"), ("page_gt", "9"), ("id", "many"),
    ("spot_id_gte", "7"), ("id", ""), ("id_lte", "1"), ("persian_name", ""), ("_gt", "x")]

theorem padded_brokerPairs : Padded Catalog.broker brokerPairs paddedBrokerPairs := by
  refine .insert _ _ (by decide) (.keep _ (.insert _ _ (by decide) (.insert _ _ (by decide) ?_)))
  exact .keep _ (.insert _ _ (by decide) (.insert _ _ (by decide)
    (.keep _ (.insert _ _ (by decide) .nil))))

/-- Brokers are listed alike with the parameters put in. -/
theorem ignored_brokerPairs_have_no_influence :
    Padded Catalog.broker brokerPairs paddedBrokerPairs ∧
      (ListRequest.ofPairs paddedBrokerPairs "localhost" "/").page = ⟨2, 10⟩ ∧
      ∀ s : MemoryStore Catalog.broker,
        s.run (Service.list (parseQuery paddedBrokerPairs) ⟨2, 10⟩) =
          s.run (Service.list (parseQuery brokerPairs) ⟨2, 10⟩) := by
  obtain ⟨hpage, hmemory, -⟩ :=
    ignored_keys_have_no_influence padded_brokerPairs "localhost" "/"
  have hplain : (ListRequest.ofPairs brokerPairs "localhost" "/").page = ⟨2, 10⟩ := by decide
  rw [hplain] at hpage
  rw [hpage, hplain] at hmemory
  exact ⟨padded_brokerPairs, hpage, hmemory⟩

end ExchangeCatalog
