import ExchangeCatalog.Proofs.Http.Stores
import ExchangeCatalog.Proofs.Text.Split

/-!
# Which store a request reaches

An application keeps one store for each base, and the bases may begin alike as texts: `/group`
stands in front of `/group-hall`. Nevertheless a path names a place under one of them at most, for a
base is a whole segment of the path. A request therefore reaches one store or none, however the
stores are arranged, and the health report is out of reach of all of them.

## Main definitions

* `IsSegment`, `Apart` — a base of one segment, and two bases that no path lies under both of
* `Application.Holds` — stores of which one is a given mount, apart from all others
* `Mount.route` — a mount without what it keeps

## Main results

* `IsSegment.apart` — different segments are apart
* `Catalog.pairwise_apart` — the bases of the catalog are
* `Application.Holds.onMemory_of_place` — a request to a place of a mount is answered by it
* `Application.Holds.onMemory_of_no_place` — every other request leaves the mount as it is
-/

namespace ExchangeCatalog

/-! ### Bases -/

/-- A base is one segment of a path, behind its slash. -/
def IsSegment (base : String) : Prop := base.toList.head? = some '/' ∧ '/' ∉ base.toList.tail

instance (base : String) : Decidable (IsSegment base) := by
  unfold IsSegment
  infer_instance

/-- No path names a place under both bases. -/
def Apart (base base' : String) : Prop :=
  ∀ path place, placeOf? base path = some place → placeOf? base' path = none

theorem Apart.symm {base base' : String} (h : Apart base base') : Apart base' base := by
  intro path place hplace
  cases hother : placeOf? base path with
  | none => rfl
  | some place' =>
    rw [h path place' hother] at hplace
    cases hplace

/-- A place under a base stands behind the base and the version of the interface. -/
theorem isPrefix_of_placeOf? {base path : String} {place : Place}
    (h : placeOf? base path = some place) :
    base.toList ++ "/api/v1".toList <+: path.toList := by
  rw [placeOf?] at h
  dsimp only at h
  split at h
  · rename_i hroot
    exact ⟨[], (List.append_nil _).trans hroot.symm⟩
  · split at h
    · rename_i hitem
      exact (List.prefix_append _ ['/']).trans (List.isPrefixOf_iff_prefix.mp hitem)
    · cases h

/-- The first segment of a path is the base under which the path names a place. -/
theorem IsSegment.exists_cutFirst? {base path : String} (hbase : IsSegment base) {place : Place}
    (h : placeOf? base path = some place) :
    ∃ rest, Text.cutFirst? '/' path.toList.tail = some (base.toList.tail, rest) := by
  obtain ⟨hhead, htail⟩ := hbase
  obtain ⟨segment, hsegment⟩ : ∃ segment, base.toList = '/' :: segment :=
    List.head?_eq_some_iff.mp hhead
  obtain ⟨rest, hrest⟩ := isPrefix_of_placeOf? h
  rw [hsegment, List.tail_cons] at htail
  refine ⟨"api/v1".toList ++ rest, ?_⟩
  rw [← hrest, hsegment, List.append_assoc, List.cons_append, List.tail_cons, List.tail_cons]
  exact Text.cutFirst?_append htail _

/-- Two segments under which one path names a place are one. -/
theorem IsSegment.eq_of_placeOf? {base base' path : String} (hbase : IsSegment base)
    (hbase' : IsSegment base') {place place' : Place} (h : placeOf? base path = some place)
    (h' : placeOf? base' path = some place') : base = base' := by
  obtain ⟨rest, hcut⟩ := hbase.exists_cutFirst? h
  obtain ⟨rest', hcut'⟩ := hbase'.exists_cutFirst? h'
  have htail : base.toList.tail = base'.toList.tail :=
    congrArg Prod.fst (Option.some.inj (hcut.symm.trans hcut'))
  apply String.toList_injective
  rw [List.eq_cons_of_mem_head? hbase.1, List.eq_cons_of_mem_head? hbase'.1, htail]

/-- Different segments are apart, also when one of them begins with the other. -/
theorem IsSegment.apart {base base' : String} (hbase : IsSegment base) (hbase' : IsSegment base')
    (hne : base ≠ base') : Apart base base' := by
  intro path place hplace
  cases hother : placeOf? base' path with
  | none => rfl
  | some place' => exact absurd (hbase.eq_of_placeOf? hbase' hplace hother) hne

/-- The path of the health report is a segment alone, so it names no place under any. -/
theorem IsSegment.placeOf?_healthPath {base : String} (hbase : IsSegment base) :
    placeOf? base healthPath = none := by
  cases hplace : placeOf? base healthPath with
  | none => rfl
  | some place =>
    obtain ⟨rest, hcut⟩ := hbase.exists_cutFirst? hplace
    have hnone : Text.cutFirst? '/' healthPath.toList.tail = none :=
      Text.cutFirst?_eq_none_iff.mpr (by decide)
    rw [hnone] at hcut
    cases hcut

theorem Catalog.isSegment_base : ∀ route ∈ Catalog.routes, IsSegment route.1 := by decide

/-- No path names a place under two bases of the catalog. -/
theorem Catalog.pairwise_apart : Catalog.routes.Pairwise fun a b => Apart a.1 b.1 := by
  have hnodup : Catalog.routes.Pairwise fun a b => a.1 ≠ b.1 :=
    List.pairwise_map.mp (by decide : (Catalog.routes.map Prod.fst).Nodup)
  refine hnodup.imp_of_mem ?_
  intro a b ha hb hne
  exact (isSegment_base a ha).apart (isSegment_base b hb) hne

/-! ### Mounts -/

/-- The base and the entity of a mount. -/
def Mount.route {σ : Entity → Type} (m : Mount σ) : String × Entity := (m.base, m.entity)

namespace Application

variable {app : Application} {scheme : String} {r : Request} {stores : Stores}
  {m : Mount MemoryStore} {place : Place}

/-- A request changes what is kept under a base, and neither the base nor its entity. -/
theorem map_route_serveStores (scheme : String) (r : Request) (stores : Stores) :
    (serveStores scheme r stores).2.map Mount.route = stores.map Mount.route := by
  rcases serveStores_cases scheme r stores with
    ⟨-, hnone⟩ | ⟨before, m, after, place, rfl, -, -, hsome⟩
  · rw [hnone]
  · rw [hsome, List.map_append, List.map_append, List.map_cons, List.map_cons]
    rfl

theorem map_route_onMemory (app : Application) (r : Request) (stores : Stores) :
    (app.onMemory r stores).2.map Mount.route = stores.map Mount.route := by
  by_cases hhealth : app.asksHealth r.normalized
  · rw [onMemory_of_asksHealth hhealth]
  · rw [onMemory_of_not_asksHealth hhealth]
    exact map_route_serveStores app.scheme r.normalized stores

/-- Every state that a run reaches has the routes that it began with. -/
theorem map_route_storesAfter (app : Application) (rs : List Request) (stores : Stores) :
    (app.storesAfter rs stores).map Mount.route = stores.map Mount.route := by
  induction rs generalizing stores with
  | nil => rfl
  | cons r rs ih => rw [storesAfter_cons, ih, map_route_onMemory]

theorem isSegment_of_mem {m : Mount MemoryStore} {stores : Stores}
    (hstores : stores.map Mount.route = Catalog.routes) (hm : m ∈ stores) : IsSegment m.base := by
  have hroute : m.route ∈ Catalog.routes := by
    rw [← hstores]
    exact List.mem_map_of_mem hm
  exact Catalog.isSegment_base m.route hroute

/-- One of the stores is a mount, and its base is apart from those of all others. -/
inductive Holds (m : Mount MemoryStore) : Stores → Prop
  | here {stores : Stores} (apart : ∀ other ∈ stores, Apart m.base other.base) :
    Holds m (m :: stores)
  | later {other : Mount MemoryStore} {stores : Stores} (apart : Apart m.base other.base)
    (rest : Holds m stores) : Holds m (other :: stores)

namespace Holds

theorem mem (h : Holds m stores) : m ∈ stores := by
  induction h with
  | here => exact List.mem_cons_self
  | later _ _ ih => exact List.mem_cons_of_mem _ ih

/-- Of stores whose bases are apart, each is held. -/
theorem of_mem (hapart : stores.Pairwise fun a b => Apart a.base b.base) (hm : m ∈ stores) :
    Holds m stores := by
  induction stores with
  | nil => exact absurd hm List.not_mem_nil
  | cons first stores ih =>
    obtain ⟨hfirst, hrest⟩ := List.pairwise_cons.mp hapart
    rcases List.mem_cons.mp hm with rfl | hm
    · exact here hfirst
    · exact later (hfirst m hm).symm (ih hrest hm)

/-- Each store of the catalog's application is held, whatever is kept in it. -/
theorem of_catalog (hstores : stores.map Mount.route = Catalog.routes) (hm : m ∈ stores) :
    Holds m stores := by
  refine of_mem ?_ hm
  have hroutes := Catalog.pairwise_apart
  rw [← hstores, List.pairwise_map] at hroutes
  exact hroutes

/-- A request to a place of a mount is answered by the mount. -/
theorem serve_of_place (h : Holds m stores)
    (hplace : placeOf? m.base r.target.path = some place) :
    (serveStores scheme r stores).1 = (m.serve scheme place r).1 ∧
      Holds (m.serve scheme place r).2 (serveStores scheme r stores).2 := by
  induction h with
  | here apart =>
    simp only [serveStores, hplace]
    exact ⟨rfl, here apart⟩
  | later apart _ ih =>
    obtain ⟨hanswer, hrest⟩ := ih
    simp only [serveStores, apart _ _ hplace]
    exact ⟨hanswer, later apart hrest⟩

/-- A request to no place of a mount leaves it as it is. -/
theorem serve_of_no_place (h : Holds m stores) (hplace : placeOf? m.base r.target.path = none) :
    Holds m (serveStores scheme r stores).2 := by
  induction h with
  | @here stores apart =>
    simp only [serveStores, hplace]
    -- The stores behind the mount have the bases that they had.
    refine here ?_
    intro other hother
    have hroute : other.route ∈ stores.map Mount.route := by
      rw [← map_route_serveStores scheme r stores]
      exact List.mem_map_of_mem hother
    obtain ⟨old, hold, heq⟩ := List.mem_map.mp hroute
    have hbase : old.base = other.base := congrArg Prod.fst heq
    rw [← hbase]
    exact apart old hold
  | @later other stores apart rest ih =>
    rw [serveStores]
    cases hother : placeOf? other.base r.target.path with
    | some place => exact later apart rest
    | none => exact later apart ih

variable (h : Holds m stores)

include h

/-- A request to a place of a mount is answered by the mount, in the application's form. -/
theorem onMemory_of_place (app : Application) (hbase : IsSegment m.base)
    (hplace : placeOf? m.base r.target.trimmed.path = some place) :
    (app.onMemory r stores).1 =
        app.complete r.normalized (m.serve app.scheme place r.normalized).1 ∧
      Holds (m.serve app.scheme place r.normalized).2 (app.onMemory r stores).2 := by
  have hhealth : ¬ app.asksHealth r.normalized := by
    intro hasks
    have hpath : r.target.trimmed.path = healthPath := by
      simp only [asksHealth, Bool.and_eq_true, beq_iff_eq] at hasks
      exact hasks.2
    rw [hpath, hbase.placeOf?_healthPath] at hplace
    cases hplace
  obtain ⟨hanswer, hrest⟩ := h.serve_of_place (r := r.normalized) hplace
  rw [onMemory_of_not_asksHealth hhealth, hanswer]
  exact ⟨rfl, hrest⟩

/-- A request to no place of a mount leaves it as it is. -/
theorem onMemory_of_no_place (app : Application)
    (hplace : placeOf? m.base r.target.trimmed.path = none) :
    Holds m (app.onMemory r stores).2 := by
  by_cases hhealth : app.asksHealth r.normalized
  · rw [onMemory_of_asksHealth hhealth]
    exact h
  · rw [onMemory_of_not_asksHealth hhealth]
    exact h.serve_of_no_place (r := r.normalized) hplace

end Holds

end Application

end ExchangeCatalog
