import ExchangeCatalog.Proofs.Settings.Decode
import ExchangeCatalog.Proofs.Toml.Tables

/-!
# What files and variables set

A file sets a setting by an entry at its path, a variable by its name. Both may set any of the known
settings, and no others, to right values. The layer that comes of them then gives these values
wherever it is put over a tree, and leaves all other settings of the tree as they are.

## Main definitions

* `Toml.IsKnownAt`, `Toml.SetsKnown` — a value stands in its place, and all that a file sets does
* `SettingsFile`, `SettingVariables` — a file and variables that do, with the value of each setting
* `Setting.Layer.onto`, `Setting.Layer.Gives` — a layer put over a tree, and the values that it
  gives

## Main results

* `Toml.standsAt_iff` — whether a file sets known settings can be computed
* `SettingsFile.gives`, `SettingVariables.gives` — the layers of files and of variables
-/

namespace ExchangeCatalog

/-! ### Entries of a file -/

namespace Toml

/-- Whether a value has named parts. -/
inductive IsTable : Toml → Prop
  | mk (es : List (String × Toml)) : IsTable (.table es)

/-- The value at a path of names. -/
def at? : List String → Toml → Option Toml
  | [], v => some v
  | name :: path, .table es => (es.lookup name).bind (at? path)
  | _ :: _, _ => none

/-- A value stands in its place: a table in that of a section, with parts that stand in theirs, or a
right value in that of a setting. -/
inductive IsKnownAt : List String → Toml → Prop
  | table {path : List String} {es : List (String × Toml)} (place : path ∈ SettingKey.sections)
    (parts : ∀ e ∈ es, IsKnownAt (path ++ [e.1]) e.2) : IsKnownAt path (.table es)
  | setting (k : SettingKey) {v : Toml} (right : (k.kind.ofToml? v).isSome) : IsKnownAt k.path v

/-- Entries set known settings to right values, and nothing else. -/
def SetsKnown (es : List (String × Toml)) : Prop := IsKnownAt [] (.table es)

/-- The value of a setting among entries. -/
def valueFor? (es : List (String × Toml)) (k : SettingKey) : Option k.Value :=
  ((Toml.table es).at? k.path).bind k.kind.ofToml?

variable {v w : Toml} {es : List (String × Toml)} {path : List String}

@[simp] theorem at?_nil (v : Toml) : v.at? [] = some v := by
  cases v <;> rfl

theorem IsKnownAt.at? {above : List String} (h : IsKnownAt above v) (hat : v.at? path = some w) :
    IsKnownAt (above ++ path) w := by
  induction path generalizing above v with
  | nil =>
    rw [at?_nil] at hat
    rw [List.append_nil]
    exact Option.some.inj hat ▸ h
  | cons name path ih =>
    cases h with
    | table _ parts =>
      obtain ⟨u, hu, hat⟩ := Option.bind_eq_some_iff.1 hat
      rw [List.append_cons]
      exact ih (parts (name, u) (mem_of_lookup hu)) hat
    | setting k right =>
      cases v with
      | table es =>
        rw [SettingKind.ofToml?_table] at right
        cases right
      | _ => cases hat

mutual

/-- Whether a value stands in its place. -/
def standsAt (path : List String) : Toml → Bool
  | .table es => SettingKey.sections.contains path && entriesStandAt path es
  | v => SettingKey.all.any fun k => k.path == path && (k.kind.ofToml? v).isSome

/-- Whether the values of entries stand in their places. -/
def entriesStandAt (path : List String) : List (String × Toml) → Bool
  | [] => true
  | (name, v) :: es => standsAt (path ++ [name]) v && entriesStandAt path es

end

theorem isKnownAt_table_iff : IsKnownAt path (.table es) ↔
    path ∈ SettingKey.sections ∧ ∀ e ∈ es, IsKnownAt (path ++ [e.1]) e.2 := by
  constructor
  · intro h
    cases h with
    | table place parts => exact ⟨place, parts⟩
    | setting k right =>
      rw [SettingKind.ofToml?_table] at right
      cases right
  · rintro ⟨place, parts⟩
    exact .table place parts

/-- A value without named parts stands in its place when it is right for a setting there. -/
theorem isKnownAt_iff_any (hv : ¬ v.IsTable) : IsKnownAt path v ↔
    (SettingKey.all.any fun k => k.path == path && (k.kind.ofToml? v).isSome) = true := by
  simp only [List.any_eq_true, Bool.and_eq_true, beq_iff_eq]
  constructor
  · intro h
    cases h with
    | table => exact absurd (.mk _) hv
    | setting k right => exact ⟨k, k.mem_all, rfl, right⟩
  · rintro ⟨k, -, rfl, right⟩
    exact .setting k right

mutual

theorem standsAt_iff (path : List String) : (v : Toml) → (standsAt path v = true ↔ IsKnownAt path v)
  | .table es => by
    rw [standsAt, isKnownAt_table_iff, Bool.and_eq_true, entriesStandAt_iff path es,
      List.contains_iff_mem]
  | .string _ | .integer _ | .float _ | .boolean _ | .dateTime _ | .array _ => by
    rw [standsAt, isKnownAt_iff_any]
    · rintro ⟨⟩
    · exact nofun

theorem entriesStandAt_iff (path : List String) : (es : List (String × Toml)) →
    (entriesStandAt path es = true ↔ ∀ e ∈ es, IsKnownAt (path ++ [e.1]) e.2)
  | [] => by simp [entriesStandAt]
  | (name, v) :: es => by
    rw [entriesStandAt, Bool.and_eq_true, standsAt_iff (path ++ [name]) v,
      entriesStandAt_iff path es, List.forall_mem_cons]

end

instance (es : List (String × Toml)) : Decidable (SetsKnown es) :=
  decidable_of_iff _ (standsAt_iff [] (.table es))

/-- Wherever entries that set known settings have something, it is a table in the place of a
section, or a right value in the place of a setting. -/
theorem SetsKnown.of_at? (h : SetsKnown es) (hat : (Toml.table es).at? path = some v) :
    path ∈ SettingKey.sections ∧ v.IsTable ∨
      ∃ k : SettingKey, k.path = path ∧ (k.kind.ofToml? v).isSome := by
  have hknown : IsKnownAt path v := IsKnownAt.at? h hat
  cases hknown with
  | table place _ => exact .inl ⟨place, .mk _⟩
  | setting k right => exact .inr ⟨k, rfl, right⟩

end Toml

namespace Setting

variable {es : List (String × Toml)}

theorem ofTomlEntries_eq_map (o : Origin) (es : List (String × Toml)) :
    ofTomlEntries o es = es.map fun e => (e.1, ofToml o e.2) := by
  induction es with
  | nil => rw [ofTomlEntries]; rfl
  | cons e es ih => rw [ofTomlEntries, ih]; rfl

/-- The tree of a file has at a path what the file has there. -/
theorem at?_ofToml (o : Origin) (path : List String) (v : Toml) :
    (ofToml o v).at? path = (v.at? path).map (ofToml o) := by
  induction path generalizing v with
  | nil => simp
  | cons name path ih =>
    cases v with
    | table es =>
      rw [ofToml, at?_section, find?_eq_lookup, ofTomlEntries_eq_map, lookup_map_snd, Toml.at?]
      cases es.lookup name with
      | none => rfl
      | some w => exact ih w
    | _ => rw [ofToml]; rfl

theorem isTidy_ofToml (o : Origin) {v : Toml} (h : v.IsTidy) : (ofToml o v).IsTidy := by
  induction h with
  | table names parts ih =>
    rw [ofToml, ofTomlEntries_eq_map]
    refine .section o (by rwa [List.map_map]) fun e' he' => ?_
    obtain ⟨e, he, rfl⟩ := List.mem_map.1 he'
    exact ih e he
  | array => rw [ofToml]; exact .list ..
  | _ => rw [ofToml]; exact .plain ..

/-- The tree of a file that sets known settings fits. -/
theorem fits_ofToml (o : Origin) (h : Toml.SetsKnown es) : (ofToml o (.table es)).Fits where
  sections path hpath v hv := by
    rw [at?_ofToml] at hv
    obtain ⟨w, hw, rfl⟩ := Option.map_eq_some_iff.1 hv
    rcases h.of_at? hw with ⟨-, ⟨es'⟩⟩ | ⟨k, rfl, -⟩
    · rw [ofToml]
      exact .mk ..
    · exact absurd hpath k.path_not_mem_sections
  values k v hv := by
    rw [at?_ofToml] at hv
    obtain ⟨w, hw, rfl⟩ := Option.map_eq_some_iff.1 hv
    rcases h.of_at? hw with ⟨hpath, -⟩ | ⟨k', hpath, hright⟩
    · exact absurd hpath k.path_not_mem_sections
    · obtain rfl : k' = k := SettingKey.eq_of_path_prefix (hpath ▸ List.prefix_rfl)
      obtain ⟨x, hx⟩ := Option.isSome_iff_exists.1 hright
      exact ⟨x, SettingKind.ofSetting?_ofToml hx o⟩

/-- The tree of a file has the values that the file sets. -/
theorem value?_ofToml (o : Origin) (h : Toml.SetsKnown es) (k : SettingKey) :
    (ofToml o (.table es)).value? k = Toml.valueFor? es k := by
  rw [value?, Toml.valueFor?, at?_ofToml]
  cases hat : (Toml.table es).at? k.path with
  | none => rfl
  | some w =>
    rcases h.of_at? hat with ⟨hpath, -⟩ | ⟨k', hpath, hright⟩
    · exact absurd hpath k.path_not_mem_sections
    · obtain rfl : k' = k := SettingKey.eq_of_path_prefix (hpath ▸ List.prefix_rfl)
      obtain ⟨x, hx⟩ := Option.isSome_iff_exists.1 hright
      simp [hx, SettingKind.ofSetting?_ofToml hx o]

end Setting

/-! ### Layers -/

namespace Setting.Layer

variable {layer layer' : Layer} {f g : (k : SettingKey) → Option k.Value}

/-- A layer put over a tree. -/
def onto (layer : Layer) (t : Setting) : Setting :=
  layer.foldl (fun all e => e.2.overlayAt (PathStep.ofText e.1) (some all)) t

/-- The settings of layers are those of all their entries, put together one after the other. -/
theorem layered?_eq_some_iff {layers : List Layer} {t : Setting} :
    layered? layers = some t ↔
      (∀ e ∈ layers.flatten, ∀ step ∈ PathStep.ofText e.1, isWithinReach step) ∧
        onto layers.flatten (.section .unnamed []) = t := by
  rw [layered?, List.foldl_map]
  simp only [List.all_eq_true, List.forall_mem_map]
  split
  · rename_i hwithin
    exact Option.some_inj.trans (and_iff_right hwithin).symm
  · rename_i hwithin
    exact iff_of_false nofun fun h => hwithin h.1

/-- A layer gives values: put over a tree that fits, it leaves one that fits, with these values, and
with the tree's own where it gives none. -/
structure Gives (layer : Layer) (f : (k : SettingKey) → Option k.Value) : Prop where
  within : ∀ e ∈ layer, ∀ step ∈ PathStep.ofText e.1, isWithinReach step
  fits : ∀ t : Setting, t.Fits → (layer.onto t).Fits
  value? : ∀ (t : Setting) (k : SettingKey), t.Fits →
    (layer.onto t).value? k = (f k).or (t.value? k)

theorem onto_cons (e : String × Setting) (t : Setting) :
    onto (e :: layer) t = layer.onto (e.2.overlayAt (PathStep.ofText e.1) (some t)) := rfl

theorem onto_append (t : Setting) : (layer ++ layer').onto t = layer'.onto (layer.onto t) :=
  List.foldl_append

theorem gives_nil : Gives [] fun _ => none where
  within := by simp
  fits _ ht := ht
  value? _ _ _ := rfl

/-- Of two layers the later one counts where both give a value. -/
theorem Gives.append (h : layer.Gives f) (h' : layer'.Gives g) :
    Gives (layer ++ layer') fun k => (g k).or (f k) where
  within e he := (List.mem_append.1 he).elim (h.within e) (h'.within e)
  fits t ht := by
    rw [onto_append]
    exact h'.fits _ (h.fits t ht)
  value? t k ht := by
    rw [onto_append, h'.value? _ k (h.fits t ht), h.value? t k ht, Option.or_assoc]

/-- A layer gives the values of a tidy tree that fits when putting it over others comes to an
overlay of this tree. -/
theorem gives_of_onto {s : Setting} (hs : s.Fits) (htidy : s.IsTidy)
    (hwithin : ∀ e ∈ layer, ∀ step ∈ PathStep.ofText e.1, isWithinReach step)
    (honto : ∀ t : Setting, t.IsSection → layer.onto t = s.overlay (some t)) :
    layer.Gives s.value? where
  within := hwithin
  fits t ht := by
    rw [honto t ht.isSection]
    exact hs.overlay htidy ht
  value? t k ht := by
    rw [honto t ht.isSection, value?_overlay hs htidy t k]

end Setting.Layer

/-- The text of a file that sets known settings, or no file. -/
structure SettingsFile where
  text? : Option String
  entries : List (String × Toml)
  parsed : text?.elim (some []) Toml.parse? = some entries
  known : Toml.SetsKnown entries

namespace SettingsFile

variable (file : SettingsFile)

/-- The value that a file sets. -/
def value? (k : SettingKey) : Option k.Value := Toml.valueFor? file.entries k

/-- A file with a text. -/
def ofText (text : String) (legible : (Toml.parse? text).isSome)
    (known : Toml.SetsKnown ((Toml.parse? text).get legible)) : SettingsFile where
  text? := some text
  entries := (Toml.parse? text).get legible
  parsed := (Option.some_get legible).symm
  known := known

/-- No file. -/
def absent : SettingsFile where
  text? := none
  entries := []
  parsed := rfl
  known := .table (by decide) (by simp)

theorem value?_absent (k : SettingKey) : absent.value? k = none := by
  cases k <;> rfl

theorem isTidy_entries : (Toml.table file.entries).IsTidy := by
  have hparsed := file.parsed
  cases htext : file.text? with
  | none =>
    rw [htext] at hparsed
    rw [← Option.some.inj hparsed]
    exact .table List.nodup_nil (by simp)
  | some text =>
    rw [htext] at hparsed
    exact Toml.isTidy_of_parse? hparsed

/-- The outermost names of a file are those of sections. -/
theorem ofText_of_mem {e : String × Toml} (he : e ∈ file.entries) :
    PathStep.ofText e.1 = [.name e.1] := by
  obtain ⟨v, hv⟩ : ∃ v, file.entries.lookup e.1 = some v := by
    refine Option.ne_none_iff_exists'.1 fun hnone => ?_
    exact lookup_eq_none_iff_not_mem.1 hnone (List.mem_map_of_mem he)
  have hat : (Toml.table file.entries).at? [e.1] = some v := by simp [Toml.at?, hv]
  rcases file.known.of_at? hat with ⟨hsection, -⟩ | ⟨k, hpath, -⟩
  · exact SettingKey.ofText_of_mem_sections hsection
  · exact absurd hpath (k.path_ne_singleton e.1)

/-- The layer of a file gives the values that the file sets. -/
theorem gives (o : Origin) :
    Setting.Layer.Gives (Setting.ofTomlEntries o file.entries) file.value? := by
  have hvalue : file.value? = (Setting.ofToml o (.table file.entries)).value? :=
    funext fun k => (Setting.value?_ofToml o file.known k).symm
  have hname : ∀ e ∈ Setting.ofTomlEntries o file.entries, PathStep.ofText e.1 = [.name e.1] := by
    rw [Setting.ofTomlEntries_eq_map]
    intro e' he'
    obtain ⟨e, he, rfl⟩ := List.mem_map.1 he'
    exact file.ofText_of_mem he
  rw [hvalue]
  refine Setting.Layer.gives_of_onto (Setting.fits_ofToml o file.known)
    (Setting.isTidy_ofToml o file.isTidy_entries) (fun e he step hstep => ?_) fun t ht => ?_
  · rw [hname e he, List.mem_singleton] at hstep
    rw [hstep]
    rfl
  · obtain ⟨o', inner⟩ := ht
    rw [Setting.ofToml, ← Setting.foldl_overlayAt o' o]
    exact List.foldl_ext _ _ _ fun all e he => by rw [hname e he]

end SettingsFile

/-! ### Variables -/

namespace Setting

variable {k : SettingKey} {p : PlainSetting} {x : k.Value}

/-- A plain setting in its place is a tree that fits. -/
theorem fits_wrap (hx : k.kind.ofPlain? p = some x) (o : Origin) :
    ((plain o p).wrap k.path).Fits where
  sections path hpath v hv := by
    obtain ⟨after, hafter, rfl⟩ := at?_wrap_eq_some_iff.1 hv
    cases after with
    | nil =>
      rw [List.append_nil] at hafter
      exact absurd (hafter ▸ hpath) k.path_not_mem_sections
    | cons name after => exact .mk ..
  values k' v hv := by
    obtain ⟨after, hafter, rfl⟩ := at?_wrap_eq_some_iff.1 hv
    obtain rfl : k' = k := SettingKey.eq_of_path_prefix ⟨after, hafter.symm⟩
    obtain rfl : after = [] := by simpa using hafter
    exact ⟨x, (SettingKind.ofSetting?_plain o p).trans hx⟩

theorem value?_wrap_self (o : Origin) :
    ((plain o p).wrap k.path).value? k = k.kind.ofPlain? p := by
  have hat : ((plain o p).wrap k.path).at? k.path = some (.plain o p) :=
    at?_wrap_eq_some_iff.2 ⟨[], by simp, rfl⟩
  rw [value?, hat, Option.bind_some, SettingKind.ofSetting?_plain]

theorem value?_wrap_of_ne {k' : SettingKey} (hne : k' ≠ k) (o : Origin) :
    ((plain o p).wrap k.path).value? k' = none := by
  have hat : ((plain o p).wrap k.path).at? k'.path = none := by
    refine Option.eq_none_iff_forall_ne_some.2 fun v hv => hne ?_
    obtain ⟨after, hafter, -⟩ := at?_wrap_eq_some_iff.1 hv
    exact SettingKey.eq_of_path_prefix ⟨after, hafter.symm⟩
  rw [value?, hat, Option.bind_none]

end Setting

namespace Variable

/-- The value that a variable sets. -/
def valueOf? (v : String × String) (k : SettingKey) : Option k.Value :=
  if settingName? v.1 = some k.name then k.kind.ofPlain? (typed v.2) else none

/-- The variables that hold settings are those of known settings, and hold right values. -/
def SetKnown (vars : List (String × String)) : Prop :=
  ∀ v ∈ vars, ∀ name, settingName? v.1 = some name →
    ∃ k : SettingKey, k.name = name ∧ (k.kind.ofPlain? (typed v.2)).isSome

end Variable

/-- The variables of the environment, where those that hold settings hold right values of known
ones. -/
structure SettingVariables where
  vars : List (String × String)
  known : Variable.SetKnown vars

namespace SettingVariables

/-- The value that variables set; of two for one setting the later counts. -/
def value? (env : SettingVariables) (k : SettingKey) : Option k.Value :=
  env.vars.reverse.findSome? fun v => Variable.valueOf? v k

/-- The layer of one variable. -/
theorem gives_singleton {v : String × String} (h : Variable.SetKnown [v]) :
    Setting.Layer.Gives (Variable.layer [v]) (Variable.valueOf? v) := by
  cases hname : Variable.settingName? v.1 with
  | none =>
    have hlayer : Variable.layer [v] = [] := by simp [Variable.layer, hname]
    have hvalue : Variable.valueOf? v = fun _ => none := by
      funext k
      simp [Variable.valueOf?, hname]
    rw [hlayer, hvalue]
    exact Setting.Layer.gives_nil
  | some name =>
    obtain ⟨k, rfl, hright⟩ := h v (by simp) name hname
    obtain ⟨x, hx⟩ := Option.isSome_iff_exists.1 hright
    have hlayer : Variable.layer [v] = [(k.name, .plain .environment (Variable.typed v.2))] := by
      simp [Variable.layer, hname]
    have hvalue : Variable.valueOf? v =
        ((Setting.plain .environment (Variable.typed v.2)).wrap k.path).value? := by
      funext k'
      rw [Variable.valueOf?, hname]
      by_cases hk : k' = k
      · subst hk
        rw [if_pos rfl, Setting.value?_wrap_self]
      · rw [Setting.value?_wrap_of_ne hk, if_neg]
        exact fun heq => hk (SettingKey.name_injective (Option.some.inj heq)).symm
    rw [hlayer, hvalue]
    refine Setting.Layer.gives_of_onto (Setting.fits_wrap hx _) (Setting.isTidy_wrap (.plain ..) _)
      (fun e he step hstep => ?_) fun t _ => ?_
    · obtain rfl := List.mem_singleton.1 he
      rw [SettingKey.ofText_name] at hstep
      obtain ⟨_, _, rfl⟩ := List.mem_map.1 hstep
      rfl
    · rw [← Setting.overlayAt_names, ← SettingKey.ofText_name]
      rfl

/-- The layer of variables gives the values that the variables set. -/
theorem gives (env : SettingVariables) :
    Setting.Layer.Gives (Variable.layer env.vars) env.value? := by
  obtain ⟨vars, known⟩ := env
  induction vars with
  | nil => exact Setting.Layer.gives_nil
  | cons v vars ih =>
    have hfirst : Variable.SetKnown [v] := fun w hw => known w (by simp_all)
    have hrest : Variable.SetKnown vars := fun w hw => known w (.tail _ hw)
    have hlayer : Variable.layer (v :: vars) = Variable.layer [v] ++ Variable.layer vars := by
      rw [Variable.layer, Variable.layer, Variable.layer, ← List.filterMap_append,
        List.singleton_append]
    have hvalue : value? ⟨v :: vars, known⟩ = fun k =>
        (value? ⟨vars, hrest⟩ k).or (Variable.valueOf? v k) := by
      funext k
      simp [value?, List.findSome?_append]
    rw [hvalue]
    exact hlayer ▸ (gives_singleton hfirst).append (ih hrest)

end SettingVariables

end ExchangeCatalog
