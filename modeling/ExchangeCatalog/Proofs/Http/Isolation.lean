import ExchangeCatalog.Proofs.Http.Routing
import ExchangeCatalog.Proofs.Sequence

/-!
# What one base learns of another

All routes of an application are served by one program, one request after the other. The clients of
one base cannot tell: every request that concerns them is answered as if the requests for the other
bases, and those for the health report, had never been made. Two runs are compared, of which the
second lacks such requests; after each step both hold one and the same mount for the base, whatever
they keep elsewhere.

## Main definitions

* `Application.serveAll` — the answers to requests in a row, and the stores after them
* `Request.isFor`, `Application.isElsewhere` — a request to a place under a base, and one for
  another base or for the health report
* `Application.Isolates` — the clients of a base are not concerned by requests elsewhere

## Main results

* `Application.onMemory_alike` — stores that hold the same mount answer a request for it alike
* `Application.serveAll_alike` — so do they answer a run, with or without the requests elsewhere
* `Application.routes_isolated` — each base of the catalog is isolated from all others
-/

namespace ExchangeCatalog

/-- A request names a place under a base. -/
def Request.isFor (r : Request) (base : String) : Bool :=
  (placeOf? base r.target.trimmed.path).isSome

namespace Application

/-- The answers to requests in a row, each beside its request, and the stores after them. -/
def serveAll (app : Application) (rs : List Request) (stores : Stores) :
    List ((_ : Request) × Response) × Stores :=
  Plan.answerAll (A := fun _ => Response) app.onMemory rs stores

@[simp] theorem serveAll_nil (app : Application) (stores : Stores) :
    app.serveAll [] stores = ([], stores) := rfl

theorem serveAll_cons (app : Application) (r : Request) (rs : List Request) (stores : Stores) :
    app.serveAll (r :: rs) stores =
      (⟨r, (app.onMemory r stores).1⟩ :: (app.serveAll rs (app.onMemory r stores).2).1,
        (app.serveAll rs (app.onMemory r stores).2).2) := rfl

/-- A request is for another base than the given one, or for the health report. -/
def isElsewhere (app : Application) (routes : List (String × Entity)) (base : String)
    (r : Request) : Bool :=
  app.asksHealth r.normalized || routes.any fun route => route.1 != base && r.isFor route.1

variable {app : Application} {routes : List (String × Entity)} {base : String} {r : Request}
  {stores stores' : Stores} {m : Mount MemoryStore}

theorem isElsewhere_eq_false_iff :
    app.isElsewhere routes base r = false ↔
      ¬ app.asksHealth r.normalized ∧
        ∀ route ∈ routes, route.1 ≠ base → placeOf? route.1 r.target.trimmed.path = none := by
  simp [isElsewhere, Request.isFor]

/-- A request that is neither for a store nor for the health report is answered without any of
them. -/
theorem onMemory_of_no_store (hhealth : ¬ app.asksHealth r.normalized)
    (hnone : ∀ m ∈ stores, placeOf? m.base r.target.trimmed.path = none) :
    app.onMemory r stores = (app.complete r.normalized (.empty 404), stores) := by
  rw [onMemory_of_not_asksHealth hhealth]
  rcases serveStores_cases app.scheme r.normalized stores with
    ⟨-, hserve⟩ | ⟨before, m, after, place, rfl, -, hplace, -⟩
  · rw [hserve]
  · have hm : placeOf? m.base r.normalized.target.path = none := hnone m (by simp)
    rw [hm] at hplace
    cases hplace

/-- The store of a base, and what else there is. -/
structure Serves (routes : List (String × Entity)) (m : Mount MemoryStore) (stores : Stores) :
    Prop where
  holds : Holds m stores
  routes : stores.map Mount.route = routes

namespace Serves

/-- A request that is for no other store is answered by the mount, or by none. -/
theorem onMemory_eq_none (h : Serves routes m stores)
    (helsewhere : app.isElsewhere routes m.base r = false)
    (hplace : placeOf? m.base r.target.trimmed.path = none) :
    app.onMemory r stores = (app.complete r.normalized (.empty 404), stores) := by
  obtain ⟨hhealth, hothers⟩ := isElsewhere_eq_false_iff.mp helsewhere
  refine onMemory_of_no_store hhealth ?_
  intro other hother
  by_cases hbase : other.base = m.base
  · rw [hbase]
    exact hplace
  · have hroute : other.route ∈ routes := by
      rw [← h.routes]
      exact List.mem_map_of_mem hother
    exact hothers other.route hroute hbase

/-- A request elsewhere leaves the mount as it is. -/
theorem onMemory_of_isElsewhere (h : Serves routes m stores) (hbase : IsSegment m.base)
    (hroutes : ∀ route ∈ routes, IsSegment route.1)
    (helsewhere : app.isElsewhere routes m.base r) :
    Serves routes m (app.onMemory r stores).2 where
  holds := by
    rw [isElsewhere, Bool.or_eq_true] at helsewhere
    rcases helsewhere with hhealth | hother
    · rw [onMemory_of_asksHealth hhealth]
      exact h.holds
    · -- Under its own base it has no place, for it has one under another.
      simp only [List.any_eq_true, Bool.and_eq_true, bne_iff_ne] at hother
      obtain ⟨route, hroute, hne, hfor⟩ := hother
      obtain ⟨place, hplace⟩ := Option.isSome_iff_exists.mp hfor
      exact h.holds.onMemory_of_no_place app ((hroutes route hroute).apart hbase hne _ _ hplace)
  routes := (map_route_onMemory app r stores).trans h.routes

end Serves

/-- Stores that hold the same mount answer a request for it alike, and hold the same mount
afterwards. -/
theorem onMemory_alike (h : Serves routes m stores) (h' : Serves routes m stores')
    (hbase : IsSegment m.base) (helsewhere : app.isElsewhere routes m.base r = false) :
    (app.onMemory r stores).1 = (app.onMemory r stores').1 ∧
      ∃ m', m'.route = m.route ∧ Serves routes m' (app.onMemory r stores).2 ∧
        Serves routes m' (app.onMemory r stores').2 := by
  cases hplace : placeOf? m.base r.target.trimmed.path with
  | none =>
    rw [h.onMemory_eq_none helsewhere hplace, h'.onMemory_eq_none helsewhere hplace]
    exact ⟨rfl, m, rfl, h, h'⟩
  | some place =>
    obtain ⟨hanswer, hholds⟩ := h.holds.onMemory_of_place app hbase hplace
    obtain ⟨hanswer', hholds'⟩ := h'.holds.onMemory_of_place app hbase hplace
    refine ⟨hanswer.trans hanswer'.symm, (m.serve app.scheme place r.normalized).2, rfl,
      ⟨hholds, ?_⟩, ⟨hholds', ?_⟩⟩
    · exact (map_route_onMemory app r stores).trans h.routes
    · exact (map_route_onMemory app r stores').trans h'.routes

/-- A run is answered alike with and without the requests elsewhere. -/
theorem serveAll_alike (app : Application) (hroutes : ∀ route ∈ routes, IsSegment route.1)
    (rs : List Request) (h : Serves routes m stores) (h' : Serves routes m stores')
    (hbase : IsSegment m.base) :
    ((app.serveAll rs stores).1.filter fun x => !app.isElsewhere routes m.base x.1) =
        (app.serveAll (rs.filter fun r => !app.isElsewhere routes m.base r) stores').1 ∧
      ∃ m', m'.route = m.route ∧ Serves routes m' (app.serveAll rs stores).2 ∧
        Serves routes m'
          (app.serveAll (rs.filter fun r => !app.isElsewhere routes m.base r) stores').2 := by
  induction rs generalizing m stores stores' with
  | nil => exact ⟨rfl, m, rfl, h, h'⟩
  | cons r rs ih =>
    rw [serveAll_cons]
    cases helsewhere : app.isElsewhere routes m.base r with
    | true =>
      -- Only the first run has this request, and the mount is the same after it.
      rw [List.filter_cons_of_neg (by simp [helsewhere]),
        List.filter_cons_of_neg (by simp [helsewhere])]
      exact ih (h.onMemory_of_isElsewhere hbase hroutes helsewhere) h' hbase
    | false =>
      obtain ⟨hanswer, m', hroute, hnext, hnext'⟩ := onMemory_alike h h' hbase helsewhere
      have hsame : m'.base = m.base := congrArg Prod.fst hroute
      have hrest := ih hnext hnext' (hsame ▸ hbase)
      rw [hsame] at hrest
      obtain ⟨hanswers, m'', hroute', hend, hend'⟩ := hrest
      rw [List.filter_cons_of_pos (by simp [helsewhere]),
        List.filter_cons_of_pos (by simp [helsewhere]), serveAll_cons, hanswer, hanswers]
      exact ⟨rfl, m'', hroute'.trans hroute, hend, hend'⟩

/-- The clients of a base are not concerned by requests elsewhere. -/
structure Isolates (app : Application) (routes : List (String × Entity)) (base : String)
    (stores : Stores) : Prop where
  /-- A request to a place under the base is for no other base, nor for the health report. -/
  own : ∀ r : Request, r.isFor base → app.isElsewhere routes base r = false
  /-- The answers to all requests that are not elsewhere, those to places under the base among them,
  are what they are when the requests elsewhere are left out. -/
  answers : ∀ rs : List Request,
    ((app.serveAll rs stores).1.filter fun x => !app.isElsewhere routes base x.1) =
      (app.serveAll (rs.filter fun r => !app.isElsewhere routes base r) stores).1
  /-- And so is what is kept under the base in the end. -/
  kept : ∀ rs : List Request, ∃ m, m.base = base ∧ m ∈ (app.serveAll rs stores).2 ∧
    m ∈ (app.serveAll (rs.filter fun r => !app.isElsewhere routes base r) stores).2

/-- Each base of the catalog is isolated from all others, whatever the stores hold at first. -/
theorem routes_isolated (app : Application) (stores : Stores)
    (hstores : stores.map Mount.route = Catalog.routes) (route : String × Entity)
    (hroute : route ∈ Catalog.routes) : app.Isolates Catalog.routes route.1 stores := by
  obtain ⟨m, hm, rfl⟩ : ∃ m ∈ stores, m.route = route := by
    rw [← hstores] at hroute
    exact List.mem_map.mp hroute
  have hserves : Serves Catalog.routes m stores := ⟨.of_catalog hstores hm, hstores⟩
  have hbase : IsSegment m.base := Catalog.isSegment_base m.route hroute
  refine ⟨?_, ?_, ?_⟩
  · intro r hfor
    obtain ⟨place, hplace⟩ := Option.isSome_iff_exists.mp hfor
    rw [isElsewhere_eq_false_iff]
    constructor
    · intro hhealth
      rw [asksHealth, Bool.and_eq_true, beq_iff_eq] at hhealth
      have hnone := hbase.placeOf?_healthPath
      rw [← hhealth.2] at hnone
      cases hnone.symm.trans hplace
    · intro other hother hne
      exact hbase.apart (Catalog.isSegment_base other hother) hne.symm _ _ hplace
  · intro rs
    exact (serveAll_alike app Catalog.isSegment_base rs hserves hserves hbase).1
  · intro rs
    obtain ⟨-, m', hsame, hend, hend'⟩ :=
      serveAll_alike app Catalog.isSegment_base rs hserves hserves hbase
    exact ⟨m', congrArg Prod.fst hsame, hend.holds.mem, hend'.holds.mem⟩

/-- The request for a list of groups. -/
def groupList : Request := ⟨"GET", .parse "/group/api/v1/", [], []⟩

/-- A new group hall, a list of groups, a look at the health report, and the end of a subgroup. -/
def groupRun : List Request :=
  [⟨"POST", .parse "/group-hall/api/v1", [("content-type", "application/json")],
      Utf8.encode "[1, 2]"⟩,
    groupList, ⟨"GET", .parse "/health", [], []⟩, ⟨"DELETE", .parse "//sub-group/api/v1/1", [], []⟩]

/-- The list of groups is answered as if it had been asked for alone. -/
theorem groupRun_isolated :
    emptyStores.map Mount.route = Catalog.routes ∧ ("/group", Catalog.group) ∈ Catalog.routes ∧
      groupList.isFor "/group" ∧
      ((ofSettings {}).serveAll groupRun emptyStores).1.filter
          (fun x => !(ofSettings {}).isElsewhere Catalog.routes "/group" x.1) =
        ((ofSettings {}).serveAll [groupList] emptyStores).1 := by
  have hroute : ("/group", Catalog.group) ∈ Catalog.routes := by decide +kernel
  have hisolates := routes_isolated (ofSettings {}) emptyStores rfl ("/group", Catalog.group) hroute
  have hleft : (groupRun.filter fun r =>
      !(ofSettings {}).isElsewhere Catalog.routes "/group" r) = [groupList] := by
    rfl
  refine ⟨rfl, hroute, by decide +kernel, ?_⟩
  rw [hisolates.answers groupRun, hleft]

end Application

end ExchangeCatalog
