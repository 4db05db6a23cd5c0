import ExchangeCatalog.Proofs.Lists
import ExchangeCatalog.Settings.Tree
import Mathlib.Data.List.Infix

/-!
# One tree over another

What stands at a path after one tree was put over another is told by what stands there in the two of
them. This needs that the upper tree names nothing twice in one section, and that only sections
stand on the way to the path in it: a setting without parts on the way would hide what is below.

## Main definitions

* `Setting.at?` — the setting at a path of names
* `Setting.IsTidy` — no section has two entries of one name
* `Setting.LeadsTo` — only sections stand on the way to a path
* `Setting.wrap` — a setting within sections of one entry each

## Main results

* `Setting.at?_overlay` — what stands at a path after an overlay
* `Setting.overlayAt_names` — putting a setting at a path is an overlay
* `Setting.foldl_overlayAt` — so is putting the entries of a section, one after the other
-/

namespace ExchangeCatalog.Setting

variable {s : Setting} {name : String} {path : List String} {es : List (String × Setting)}

/-! ### Looking up -/

/-- The setting at a path of names. -/
def at? : List String → Setting → Option Setting
  | [], s => some s
  | name :: path, .section _ es => (find? name es).bind (at? path)
  | _ :: _, _ => none

/-- Whether a setting has named parts. -/
inductive IsSection : Setting → Prop
  | mk (o : Origin) (es : List (String × Setting)) : IsSection (.section o es)

/-- No section has two entries of one name. -/
inductive IsTidy : Setting → Prop
  | plain (o : Origin) (s : PlainSetting) : IsTidy (.plain o s)
  | list (o : Origin) (items : List Setting) : IsTidy (.list o items)
  | section (o : Origin) {es : List (String × Setting)} (names : (es.map Prod.fst).Nodup)
    (parts : ∀ e ∈ es, e.2.IsTidy) : IsTidy (.section o es)

/-- Only sections stand on the way to a path. -/
def LeadsTo (path : List String) (s : Setting) : Prop :=
  ∀ before, before <+: path → before ≠ path → ∀ v, s.at? before = some v → v.IsSection

theorem find?_eq_lookup (name : String) (es : List (String × Setting)) :
    find? name es = es.lookup name :=
  find?_fst_eq_lookup name es

@[simp] theorem find?_nil (name : String) : find? name [] = none := rfl

theorem find?_cons (name key : String) (v : Setting) (es : List (String × Setting)) :
    find? name ((key, v) :: es) = if name = key then some v else find? name es := by
  simp only [find?_eq_lookup, lookup_cons_eq_ite]

theorem mem_of_find? {v : Setting} (h : find? name es = some v) : (name, v) ∈ es :=
  mem_of_lookup (find?_eq_lookup name es ▸ h)

@[simp] theorem at?_nil (s : Setting) : s.at? [] = some s := by
  cases s <;> rfl

@[simp] theorem at?_section (o : Origin) (es : List (String × Setting)) (name : String)
    (path : List String) :
    (Setting.section o es).at? (name :: path) = (find? name es).bind (at? path) :=
  rfl

/-- What stands below a path stands there in what the path leads to. -/
theorem at?_append (before after : List String) (s : Setting) :
    s.at? (before ++ after) = (s.at? before).bind (at? after) := by
  induction before generalizing s with
  | nil => simp
  | cons name before ih =>
    cases s with
    | «section» o es =>
      rw [List.cons_append, at?_section, at?_section, Option.bind_assoc]
      exact congrArg _ (funext ih)
    | plain | list => rfl

theorem IsTidy.of_find? {o : Origin} (h : (Setting.section o es).IsTidy) {v : Setting}
    (hv : find? name es = some v) : v.IsTidy := by
  cases h with
  | «section» _ _ parts => exact parts (name, v) (mem_of_find? hv)

theorem IsTidy.names {o : Origin} (h : (Setting.section o es).IsTidy) :
    (es.map Prod.fst).Nodup := by
  cases h with
  | «section» _ names _ => exact names

theorem LeadsTo.isSection (h : s.LeadsTo (name :: path)) : s.IsSection :=
  h [] List.nil_prefix (by simp) s (at?_nil s)

theorem LeadsTo.of_find? {o : Origin} (h : (Setting.section o es).LeadsTo (name :: path))
    {v : Setting} (hv : find? name es = some v) : v.LeadsTo path := by
  intro before hbefore hne w hw
  refine h (name :: before) ((List.prefix_cons_inj name).2 hbefore) (by simpa using hne) w ?_
  rw [at?_section, hv]
  exact hw

/-! ### Overlays -/

@[simp] theorem overlayEntries_nil (inner : List (String × Setting)) :
    overlayEntries [] inner = inner := by
  rw [overlayEntries]

theorem overlayEntries_cons (e : String × Setting) (es inner : List (String × Setting)) :
    overlayEntries (e :: es) inner = overlayEntries es (alter e.1 e.2.overlay inner) := by
  rw [overlayEntries]

theorem overlay_section (o : Origin) (es : List (String × Setting)) (under : Option Setting) :
    (Setting.section o es).overlay under =
      .section (sectionParts under).1 (overlayEntries es (sectionParts under).2) := by
  rw [overlay]

theorem find?_alter (key : String) (name : String) (f : Option Setting → Setting)
    (es : List (String × Setting)) :
    find? key (alter name f es) =
      if key = name then some (f (find? name es)) else find? key es := by
  induction es with
  | nil => simp [alter, find?_cons]
  | cons e es ih =>
    obtain ⟨k, v⟩ := e
    rw [alter]
    by_cases hk : k = name
    · subst hk
      by_cases hkey : key = k <;> simp [find?_cons, hkey]
    · rw [if_neg hk, find?_cons, find?_cons, find?_cons, ih, if_neg (Ne.symm hk)]
      by_cases hkey : key = k
      · simp [hkey, hk]
      · simp [hkey]

/-- What a name has after an overlay of entries, of which no two have one name. -/
theorem find?_overlayEntries (hes : (es.map Prod.fst).Nodup) (inner : List (String × Setting)) :
    find? name (overlayEntries es inner) =
      ((find? name es).map fun v => v.overlay (find? name inner)).or (find? name inner) := by
  induction es generalizing inner with
  | nil => simp
  | cons e es ih =>
    obtain ⟨k, v⟩ := e
    rw [List.map_cons, List.nodup_cons] at hes
    rw [overlayEntries_cons, ih hes.2, find?_alter, find?_cons]
    by_cases hname : name = k
    · subst hname
      have hnone : find? name es = none := by
        rw [find?_eq_lookup]
        exact lookup_eq_none_iff_not_mem.2 hes.1
      simp [hnone]
    · rw [if_neg hname, if_neg hname]

/-- What stands at a path after an overlay: what the upper tree has there, over what the lower one
has. -/
theorem at?_overlay (hs : s.IsTidy) (hway : s.LeadsTo path) (under : Option Setting) :
    (s.overlay under).at? path =
      ((s.at? path).map fun v => v.overlay (under.bind (at? path))).or (under.bind (at? path)) := by
  induction path generalizing s under with
  | nil => cases under <;> simp
  | cons name path ih =>
    obtain ⟨o, es⟩ := hway.isSection
    have hunder : under.bind (at? (name :: path)) =
        (find? name (sectionParts under).2).bind (at? path) := by
      rcases under with - | - | - | ⟨o', inner⟩ <;> rfl
    rw [hunder, overlay_section, at?_section, at?_section, find?_overlayEntries hs.names]
    generalize find? name (sectionParts under).2 = inner
    cases hfind : find? name es with
    | none => simp
    | some v => simpa using ih (hs.of_find? hfind) (hway.of_find? hfind) inner

/-- A setting without parts, or a list, replaces what it is put over. -/
theorem overlay_of_not_isSection (h : ¬ s.IsSection) (under : Option Setting) :
    s.overlay under = s := by
  cases s with
  | plain | list => rw [overlay]; rintro _ _ ⟨⟩
  | «section» o es => exact absurd (.mk o es) h

theorem IsSection.overlay (h : s.IsSection) (under : Option Setting) :
    (s.overlay under).IsSection := by
  obtain ⟨o, es⟩ := h
  rw [overlay_section]
  exact .mk ..

/-! ### Putting a setting at a path -/

/-- A setting within sections of one entry each. -/
def wrap (s : Setting) : List String → Setting
  | [] => s
  | name :: path => .section .unnamed [(name, wrap s path)]

theorem overlayAt_names (s : Setting) (path : List String) (under : Option Setting) :
    s.overlayAt (path.map .name) under = (s.wrap path).overlay under := by
  induction path generalizing under with
  | nil => rfl
  | cons name path ih =>
    rw [wrap, overlay_section, overlayEntries_cons, overlayEntries_nil, ← funext ih]
    rfl

theorem isTidy_wrap (hs : s.IsTidy) (path : List String) : (s.wrap path).IsTidy := by
  induction path with
  | nil => exact hs
  | cons name path ih =>
    refine .section .unnamed (List.nodup_singleton name) fun e he => ?_
    obtain rfl := List.mem_singleton.1 he
    exact ih

/-- A plain setting within sections has at a path the rest of the way, or nothing. -/
theorem at?_wrap_eq_some_iff {o : Origin} {x : PlainSetting} {before : List String} {v : Setting} :
    ((plain o x).wrap path).at? before = some v ↔
      ∃ after, path = before ++ after ∧ v = (plain o x).wrap after := by
  induction before generalizing path with
  | nil => simp [eq_comm]
  | cons name before ih =>
    cases path with
    | nil => simp [wrap, at?]
    | cons name' path =>
      rw [wrap, at?_section, find?_cons]
      by_cases hname : name = name'
      · subst hname
        simp [ih]
      · simp [hname, Ne.symm hname]

/-- Putting the entries of a section, one after the other, is an overlay. -/
theorem foldl_overlayAt (o o' : Origin) (es inner : List (String × Setting)) :
    es.foldl (fun all e => e.2.overlayAt [.name e.1] (some all)) (.section o inner) =
      (Setting.section o' es).overlay (some (.section o inner)) := by
  rw [overlay_section]
  induction es generalizing inner with
  | nil => rw [overlayEntries_nil]; rfl
  | cons e es ih =>
    rw [List.foldl_cons, overlayEntries_cons]
    exact ih _

end ExchangeCatalog.Setting
