import ExchangeCatalog.Proofs.Settings.Key
import ExchangeCatalog.Proofs.Settings.Overlay

/-!
# What a tree gives each setting

A tree fits when it has sections where settings have sections and right values where settings have
values. Its settings then are the values that stand in their places, and the built-in values where
none does. Whether a whole section is missing or only the entry in it does not matter: the built-in
section has the same value there.

## Main definitions

* `Setting.Fits` — sections and right values in their places
* `Setting.value?` — the value of a setting that a tree has
* `Settings.usual` — the built-in values

## Main results

* `Setting.Fits.overlay`, `Setting.value?_overlay` — one tree over another, setting by setting
* `Settings.ofTree_of_fits` — the settings of a tree that fits
-/

namespace ExchangeCatalog

/-- A tree has sections and right values in the places of sections and settings. -/
structure Setting.Fits (t : Setting) : Prop where
  sections : ∀ path ∈ SettingKey.sections, ∀ v, t.at? path = some v → v.IsSection
  values : ∀ (k : SettingKey) (v : Setting), t.at? k.path = some v →
    ∃ x, k.kind.ofSetting? v = some x

namespace Setting

variable {s t under : Setting} {k : SettingKey}

/-- The value of a setting that a tree has. -/
def value? (t : Setting) (k : SettingKey) : Option k.Value := (t.at? k.path).bind k.kind.ofSetting?

theorem Fits.isSection (h : t.Fits) : t.IsSection :=
  h.sections [] (by decide) t (at?_nil t)

theorem Fits.leadsTo (h : t.Fits) (k : SettingKey) : t.LeadsTo k.path := by
  intro before hbefore hne v hv
  exact h.sections before (k.mem_sections_of_prefix hbefore hne) v hv

/-! ### Overlays of trees that fit -/

private theorem at?_overlay_value (hs : s.Fits) (htidy : s.IsTidy) (under : Setting)
    (k : SettingKey) :
    (s.overlay (some under)).at? k.path = (s.at? k.path).or (under.at? k.path) := by
  rw [at?_overlay htidy (hs.leadsTo k)]
  cases hat : s.at? k.path with
  | none => rfl
  | some v =>
    obtain ⟨x, hx⟩ := hs.values k v hat
    have hplain : ¬ v.IsSection := by
      rintro ⟨o, es⟩
      rw [SettingKind.ofSetting?_section] at hx
      cases hx
    rw [Option.map_some, overlay_of_not_isSection hplain]
    rfl

theorem Fits.overlay (hs : s.Fits) (htidy : s.IsTidy) (hunder : under.Fits) :
    (s.overlay (some under)).Fits where
  sections path hpath v hv := by
    have hway : s.LeadsTo path := fun before hbefore _ w hw =>
      hs.sections before (SettingKey.prefix_mem_sections hpath hbefore) w hw
    rw [at?_overlay htidy hway] at hv
    cases hat : s.at? path with
    | none => exact hunder.sections path hpath v (by simpa [hat] using hv)
    | some w =>
      rw [hat, Option.map_some, Option.some_or] at hv
      obtain rfl := Option.some.inj hv
      exact (hs.sections path hpath w hat).overlay _
  values k v hv := by
    rw [at?_overlay_value hs htidy under k] at hv
    rcases Option.or_eq_some_iff.1 hv with hv | ⟨-, hv⟩
    · exact hs.values k v hv
    · exact hunder.values k v hv

/-- A setting has the value of the upper tree, or else of the lower one. -/
theorem value?_overlay (hs : s.Fits) (htidy : s.IsTidy) (under : Setting) (k : SettingKey) :
    (s.overlay (some under)).value? k = (s.value? k).or (under.value? k) := by
  rw [value?, value?, value?, at?_overlay_value hs htidy under k]
  cases hat : s.at? k.path with
  | none => rfl
  | some v =>
    obtain ⟨x, hx⟩ := hs.values k v hat
    simp [hx]

end Setting

/-! ### Reading a tree that fits -/

namespace Setting

variable {s t : Setting} {k : SettingKey} {above : List String} {name : String}

theorem asSection_of_isSection (h : s.IsSection) (name : String) : s.asSection name = .ok s := by
  obtain ⟨o, es⟩ := h
  rfl

/-- A part of a section is read from what stands in its place, or is the usual one. -/
theorem part_of_at? {α : Type} (hs : s.IsSection) (hat : t.at? above = some s) (i : Nat)
    {usual x : α} {convert : Setting → Except SettingFault α}
    (hthere : ∀ v, t.at? (above ++ [name]) = some v → convert v = .ok x)
    (hmissing : t.at? (above ++ [name]) = none → usual = x) :
    s.part i name usual convert = .ok x := by
  obtain ⟨o, es⟩ := hs
  have hfind : t.at? (above ++ [name]) = find? name es := by
    rw [at?_append, hat]
    cases h : find? name es <;> simp [h]
  rw [part, part?]
  cases hv : find? name es with
  | none => rw [hmissing (hfind.trans hv)]; rfl
  | some v => simp only [Option.map_some, hthere v (hfind.trans hv)]; rfl

/-- The part for a setting has the value of the tree. -/
theorem part_of_fits (ht : t.Fits) (hat : t.at? above = some s) (hk : k.path = above ++ [name])
    (i : Nat) (usual : k.Value) :
    s.part i name usual k.kind.convert = .ok ((t.value? k).getD usual) := by
  have habove : above ∈ SettingKey.sections :=
    k.mem_sections_of_prefix (hk ▸ List.prefix_append above [name]) (by simp [hk])
  refine part_of_at? (ht.sections above habove s hat) hat i (fun v hv => ?_) (fun hnone => ?_)
  · rw [← hk] at hv
    obtain ⟨x, hx⟩ := ht.values k v hv
    rw [SettingKind.convert_of_ofSetting? hx, value?, hv, Option.bind_some, hx, Option.getD_some]
  · rw [value?, hk, hnone, Option.bind_none, Option.getD_none]

/-- Nothing stands below a place where nothing stands. -/
theorem value?_of_missing (hmissing : t.at? above = none) (hk : above <+: k.path) :
    t.value? k = none := by
  obtain ⟨below, hbelow⟩ := hk
  rw [value?, ← hbelow, at?_append, hmissing, Option.bind_none, Option.bind_none]

end Setting

namespace Settings

open Setting

variable {s t : Setting}

/-- The built-in values. -/
abbrev usual : (k : SettingKey) → k.Value := ({} : Settings).value

/-- The values of a tree, and the built-in ones where it has none. -/
def valuesOf (t : Setting) (k : SettingKey) : k.Value := (t.value? k).getD (usual k)

theorem usual_eq_valuesOf {above : List String} (hmissing : t.at? above = none) {k : SettingKey}
    (hk : above <+: k.path) : usual k = valuesOf t k := by
  rw [valuesOf, value?_of_missing hmissing hk, Option.getD_none]

theorem corsOf_of_fits (ht : t.Fits) (hat : t.at? ["server", "cors"] = some s) :
    corsOf s = .ok (ofValues (valuesOf t)).server.cors := by
  have hs : s.IsSection := ht.sections _ (by decide) s hat
  refine (bind_of_eq_ok (asSection_of_isSection hs _) _).trans ?_
  refine (bind_of_eq_ok (part_of_fits ht hat (k := .allowedOrigins) rfl 0 _) _).trans ?_
  refine (bind_of_eq_ok (part_of_fits ht hat (k := .allowedMethods) rfl 1 _) _).trans ?_
  refine (bind_of_eq_ok (part_of_fits ht hat (k := .allowedHeaders) rfl 2 _) _).trans ?_
  refine (bind_of_eq_ok (part_of_fits ht hat (k := .exposedHeaders) rfl 3 _) _).trans ?_
  refine (bind_of_eq_ok (part_of_fits ht hat (k := .allowCredentials) rfl 4 _) _).trans ?_
  refine (bind_of_eq_ok (part_of_fits ht hat (k := .maxAgeSeconds) rfl 5 _) _).trans ?_
  rfl

theorem cors_of_missing (hmissing : t.at? ["server", "cors"] = none) :
    ({} : CorsSettings) = (ofValues (valuesOf t)).server.cors := by
  show (ofValues usual).server.cors = _
  simp only [ofValues]
  congr 1 <;> exact usual_eq_valuesOf hmissing (by decide)

theorem serverOf_of_fits (ht : t.Fits) (hat : t.at? ["server"] = some s) :
    serverOf s = .ok (ofValues (valuesOf t)).server := by
  have hs : s.IsSection := ht.sections _ (by decide) s hat
  refine (bind_of_eq_ok (asSection_of_isSection hs _) _).trans ?_
  refine (bind_of_eq_ok (part_of_fits ht hat (k := .host) rfl 0 _) _).trans ?_
  refine (bind_of_eq_ok (part_of_fits ht hat (k := .port) rfl 1 _) _).trans ?_
  refine (bind_of_eq_ok (part_of_fits ht hat (k := .publicScheme) rfl 2 _) _).trans ?_
  refine (bind_of_eq_ok (part_of_fits ht hat (k := .requestTimeoutSeconds) rfl 3 _) _).trans ?_
  have hcors := part_of_at? hs hat 4 (fun _ => corsOf_of_fits ht) cors_of_missing
  refine (bind_of_eq_ok hcors _).trans ?_
  rfl

theorem server_of_missing (hmissing : t.at? ["server"] = none) :
    ({} : ServerSettings) = (ofValues (valuesOf t)).server := by
  have hcors : t.at? ["server", "cors"] = none := by
    rw [show ["server", "cors"] = ["server"] ++ ["cors"] from rfl, at?_append, hmissing]
    rfl
  show (ofValues usual).server = _
  have hnested : (ofValues usual).server.cors = (ofValues (valuesOf t)).server.cors :=
    cors_of_missing hcors
  simp only [ofValues] at hnested ⊢
  rw [hnested]
  congr 1 <;> exact usual_eq_valuesOf hmissing (by decide)

theorem databaseOf_of_fits (ht : t.Fits) (hat : t.at? ["database"] = some s) :
    databaseOf s = .ok (ofValues (valuesOf t)).database := by
  have hs : s.IsSection := ht.sections _ (by decide) s hat
  refine (bind_of_eq_ok (asSection_of_isSection hs _) _).trans ?_
  refine (bind_of_eq_ok (part_of_fits ht hat (k := .backend) rfl 0 _) _).trans ?_
  refine (bind_of_eq_ok (part_of_fits ht hat (k := .url) rfl 1 _) _).trans ?_
  refine (bind_of_eq_ok (part_of_fits ht hat (k := .maxConnections) rfl 2 _) _).trans ?_
  refine (bind_of_eq_ok (part_of_fits ht hat (k := .minConnections) rfl 3 _) _).trans ?_
  refine (bind_of_eq_ok (part_of_fits ht hat (k := .connectTimeoutSeconds) rfl 4 _) _).trans ?_
  refine (bind_of_eq_ok (part_of_fits ht hat (k := .idleTimeoutSeconds) rfl 5 _) _).trans ?_
  rfl

theorem database_of_missing (hmissing : t.at? ["database"] = none) :
    ({} : DatabaseSettings) = (ofValues (valuesOf t)).database := by
  show (ofValues usual).database = _
  simp only [ofValues]
  congr 1 <;> exact usual_eq_valuesOf hmissing (by decide)

theorem loggingOf_of_fits (ht : t.Fits) (hat : t.at? ["logging"] = some s) :
    loggingOf s = .ok (ofValues (valuesOf t)).logging := by
  have hs : s.IsSection := ht.sections _ (by decide) s hat
  refine (bind_of_eq_ok (asSection_of_isSection hs _) _).trans ?_
  refine (bind_of_eq_ok (part_of_fits ht hat (k := .level) rfl 0 _) _).trans ?_
  refine (bind_of_eq_ok (part_of_fits ht hat (k := .format) rfl 1 _) _).trans ?_
  rfl

theorem logging_of_missing (hmissing : t.at? ["logging"] = none) :
    ({} : LoggingSettings) = (ofValues (valuesOf t)).logging := by
  show (ofValues usual).logging = _
  simp only [ofValues]
  congr 1 <;> exact usual_eq_valuesOf hmissing (by decide)

/-- The settings of a tree that fits: its values, and the built-in ones where it has none. -/
theorem ofTree_of_fits (ht : t.Fits) : ofTree t = .ok (ofValues (valuesOf t)) := by
  have hs := ht.isSection
  have hat := at?_nil t
  have hserver := part_of_at? hs hat 0 (fun _ => serverOf_of_fits ht) server_of_missing
  have hdatabase := part_of_at? hs hat 1 (fun _ => databaseOf_of_fits ht) database_of_missing
  have hlogging := part_of_at? hs hat 2 (fun _ => loggingOf_of_fits ht) logging_of_missing
  refine (bind_of_eq_ok hserver _).trans ?_
  refine (bind_of_eq_ok hdatabase _).trans ?_
  refine (bind_of_eq_ok hlogging _).trans ?_
  rfl

end Settings

end ExchangeCatalog
