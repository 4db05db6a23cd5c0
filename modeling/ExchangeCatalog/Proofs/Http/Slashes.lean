import ExchangeCatalog.Proofs.Http.Isolation
import ExchangeCatalog.Proofs.Http.Target
import Mathlib.Data.List.DropRight

/-!
# Slashes at the end of a path

Slashes at the end of a path are taken off before anything looks at the path, so a request is
answered as if they had not been sent: it reaches the same place, the identifier in its path is the
same, and the links of a list start from the path without them.

## Main definitions

* `IsNeatPath` — a path with one slash in front and none at its end
* `Request.slashed` — a request with slashes more at the end of its path
* `Application.IgnoresSlashes` — an application answers requests as if they had no such slashes

## Main results

* `Target.trimmed_slashed` — the slashes are taken off again, and nothing else is
* `Target.parse_slashed` — they stand between the path and the query in the line of a request
* `Application.ignores_slashes` — every application ignores them
-/

namespace ExchangeCatalog

/-- A row of slashes. -/
def slashes (k : Nat) : String := String.ofList (List.replicate k '/')

/-- A path with one slash in front and none at its end. -/
structure IsNeatPath (path : String) : Prop where
  front : path.toList.head? = some '/'
  single : path.toList.take 2 ≠ ['/', '/']
  last : path.toList.getLast? ≠ some '/'

namespace IsNeatPath

variable {path : String}

/-- Behind the slash in front stands a text that neither begins nor ends with one. -/
theorem exists_eq (h : IsNeatPath path) :
    ∃ c cs, path.toList = '/' :: c :: cs ∧ c ≠ '/' ∧ (c :: cs).getLast? ≠ some '/' := by
  obtain ⟨hfront, hsingle, hlast⟩ := h
  cases hpath : path.toList with
  | nil => simp [hpath] at hfront
  | cons d cs =>
    rw [hpath] at hfront hsingle hlast
    obtain rfl := Option.some.inj hfront
    cases cs with
    | nil => simp at hlast
    | cons c cs =>
      refine ⟨c, cs, rfl, ?_, ?_⟩
      · rintro rfl
        exact hsingle rfl
      · rwa [List.getLast?_cons_cons] at hlast

end IsNeatPath

namespace Target

/-- Slashes at the end of a path are not told from those that are added to it. -/
theorem rdropWhile_append_replicate (cs : List Char) (k : Nat) :
    (cs ++ List.replicate k '/').rdropWhile (· == '/') = cs.rdropWhile (· == '/') := by
  induction k with
  | zero => rw [List.replicate_zero, List.append_nil]
  | succ k ih =>
    rw [List.replicate_succ', ← List.append_assoc, List.rdropWhile_concat_pos _ _ _ (by simp), ih]

theorem trimSlashes_append_replicate {path : String} (h : IsNeatPath path) (k : Nat) :
    trimSlashes (path.toList ++ List.replicate k '/') = path.toList := by
  obtain ⟨c, cs, hpath, hc, hlast⟩ := h.exists_eq
  have hfront : (path.toList ++ List.replicate k '/').dropWhile (· == '/') =
      c :: cs ++ List.replicate k '/' := by
    rw [hpath, List.cons_append, List.dropWhile_cons_of_pos (by simp), List.cons_append,
      List.dropWhile_cons_of_neg (by simpa using hc)]
  have hend : (c :: cs).rdropWhile (· == '/') = c :: cs := by
    rw [List.rdropWhile_eq_self_iff]
    intro hne hslash
    rw [List.getLast?_eq_some_getLast hne] at hlast
    exact hlast (congrArg some (beq_iff_eq.mp hslash))
  have htrim : trimSlashes (path.toList ++ List.replicate k '/') =
      '/' :: ((path.toList ++ List.replicate k '/').dropWhile (· == '/')).rdropWhile (· == '/') :=
    rfl
  rw [htrim, hfront, rdropWhile_append_replicate, hend, hpath]

/-- A target with slashes more at the end of its path. -/
def slashed (t : Target) (k : Nat) : Target := { t with path := t.path ++ slashes k }

/-- The slashes are taken off again, and nothing else is. -/
theorem trimmed_slashed {t : Target} (h : IsNeatPath t.path) (k : Nat) :
    (t.slashed k).trimmed = t := by
  have hpath : (t.slashed k).path.toList = t.path.toList ++ List.replicate k '/' := by
    rw [slashed, String.toList_append, slashes, String.toList_ofList]
  have hkept : { t.slashed k with path := t.path } = t := rfl
  rw [trimmed, hpath]
  cases k with
  | zero =>
    rw [List.replicate_zero, List.append_nil, if_neg (not_or.mpr ⟨h.last, h.single⟩)]
    exact congrArg (fun path => { t with path := path }) String.append_empty
  | succ k =>
    rw [if_pos, trimSlashes_append_replicate h, String.ofList_toList, hkept]
    left
    rw [List.replicate_succ', ← List.append_assoc, List.getLast?_concat]

/-- A path that is neat is left alone. -/
theorem trimmed_of_isNeatPath {t : Target} (h : IsNeatPath t.path) : t.trimmed = t := by
  rw [trimmed, if_neg (not_or.mpr ⟨h.last, h.single⟩)]

/-- Nothing but slashes is added to the line of a request. -/
theorem mem_pathAndQuery_slashed {t : Target} {k : Nat} {c : Char}
    (h : c ∈ (t.slashed k).pathAndQuery.toList) : c ∈ t.pathAndQuery.toList ∨ c = '/' := by
  have hslashes : c ∈ (slashes k).toList → c = '/' := by
    rw [slashes, String.toList_ofList]
    exact List.eq_of_mem_replicate
  obtain ⟨authority, path, query⟩ := t
  cases query with
  | none =>
    simp only [pathAndQuery, slashed, String.toList_append, List.mem_append] at h
    exact h.imp id hslashes
  | some q =>
    simp only [pathAndQuery, slashed, String.toList_append, List.mem_append] at h ⊢
    rcases h with ((hpath | hslash) | hmark) | hquery
    · exact Or.inl (Or.inl (Or.inl hpath))
    · exact Or.inr (hslashes hslash)
    · exact Or.inl (Or.inl (Or.inr hmark))
    · exact Or.inl (Or.inr hquery)

/-- In the line of a request the slashes stand between the path and the query. -/
theorem parse_slashed {t : Target} (h : IsNeatPath t.path) (hauthority : t.authority = none)
    (hpath : '?' ∉ t.path.toList) (hfragment : '#' ∉ t.pathAndQuery.toList) (k : Nat) :
    parse (t.slashed k).pathAndQuery = t.slashed k := by
  have hline : (t.slashed k).path.toList = t.path.toList ++ List.replicate k '/' := by
    rw [slashed, String.toList_append, slashes, String.toList_ofList]
  refine parse_pathAndQuery hauthority ?_ ?_ ?_
  · rw [hline, List.head?_append, h.front]
    rfl
  · rw [hline, List.mem_append]
    rintro (hmem | hmem)
    · exact hpath hmem
    · exact absurd (List.eq_of_mem_replicate hmem) (by decide)
  · intro hmem
    exact (mem_pathAndQuery_slashed hmem).elim hfragment (by decide)

end Target

/-- A request with slashes more at the end of its path. -/
def Request.slashed (r : Request) (k : Nat) : Request := { r with target := r.target.slashed k }

/-- A request is another one, or has slashes more at the end of a neat path. -/
def Request.IsSlashed (r r' : Request) : Prop :=
  r' = r ∨ IsNeatPath r.target.path ∧ ∃ k, r' = r.slashed k

namespace Application

variable {r r' : Request} {rs rs' : List Request}

theorem onMemory_slashed (app : Application) (h : IsNeatPath r.target.path) (k : Nat)
    (stores : Stores) : app.onMemory (r.slashed k) stores = app.onMemory r stores := by
  simp only [onMemory, Request.slashed, Target.trimmed_slashed h, Target.trimmed_of_isNeatPath h]

theorem statementPlan_slashed (app : Application) (routes : List (String × Entity))
    (h : IsNeatPath r.target.path) (k : Nat) :
    app.statementPlan routes (r.slashed k) = app.statementPlan routes r := by
  simp only [statementPlan, Request.slashed, Target.trimmed_slashed h,
    Target.trimmed_of_isNeatPath h]

/-- Step by step, slashes make no difference to a run. -/
theorem serveAll_slashed (app : Application) (h : List.Forall₂ Request.IsSlashed rs rs')
    (stores : Stores) :
    (app.serveAll rs' stores).1.map Sigma.snd = (app.serveAll rs stores).1.map Sigma.snd ∧
      (app.serveAll rs' stores).2 = (app.serveAll rs stores).2 := by
  induction h generalizing stores with
  | nil => exact ⟨rfl, rfl⟩
  | @cons r r' rs rs' hr hrs ih =>
    have hstep : app.onMemory r' stores = app.onMemory r stores := by
      rcases hr with rfl | ⟨hneat, k, rfl⟩
      · rfl
      · exact app.onMemory_slashed hneat k stores
    obtain ⟨hanswers, hend⟩ := ih (app.onMemory r stores).2
    rw [serveAll_cons, serveAll_cons, hstep]
    exact ⟨congrArg (List.cons _) hanswers, hend⟩

/-- An application answers requests as if they had no slashes at the end of their paths. -/
structure IgnoresSlashes (app : Application) : Prop where
  /-- On stores in memory, whatever they hold, the response is the same, and so are the stores
  after it. -/
  onMemory : ∀ (r : Request) (k : Nat) (stores : Stores), IsNeatPath r.target.path →
    app.onMemory (r.slashed k) stores = app.onMemory r stores
  /-- On a database, whatever it replies, the response is the same, and so are the statements. -/
  onDatabase : ∀ (routes : List (String × Entity)) (r : Request) (k : Nat) (c : Connection),
    IsNeatPath r.target.path →
      app.onDatabase routes (r.slashed k) c = app.onDatabase routes r c
  /-- So it is in a run of requests, of which each may have slashes of its own. -/
  run : ∀ (rs rs' : List Request) (stores : Stores), List.Forall₂ Request.IsSlashed rs rs' →
    (app.serveAll rs' stores).1.map Sigma.snd = (app.serveAll rs stores).1.map Sigma.snd ∧
      (app.serveAll rs' stores).2 = (app.serveAll rs stores).2
  /-- The slashes are those between the path and the query in the line of a request. -/
  line : ∀ (path : String) (query : Option String) (k : Nat), IsNeatPath path →
    '?' ∉ path.toList → '#' ∉ (Target.pathAndQuery ⟨none, path, query⟩).toList →
      Target.parse (Target.pathAndQuery ⟨none, path, query⟩) = ⟨none, path, query⟩ ∧
        Target.parse (Target.pathAndQuery ⟨none, path ++ slashes k, query⟩) =
          Target.slashed ⟨none, path, query⟩ k

/-- Every application ignores slashes at the end of paths. -/
theorem ignores_slashes (app : Application) : app.IgnoresSlashes where
  onMemory _ k stores h := app.onMemory_slashed h k stores
  onDatabase routes _ k c h := by
    rw [Application.onDatabase, Application.onDatabase, app.statementPlan_slashed routes h k]
  run _ _ stores h := app.serveAll_slashed h stores
  line path query k h hpath hfragment :=
    ⟨Target.parse_pathAndQuery rfl h.front hpath hfragment,
      Target.parse_slashed (t := ⟨none, path, query⟩) h rfl hpath hfragment k⟩

end Application

end ExchangeCatalog
