import ExchangeCatalog.Proofs.Settings.Key
import ExchangeCatalog.Proofs.Settings.Overlay

/-!
# One setting put into any tree

A setting that is put at a path makes sections of all that stands on the way, and is then found at
the end of it. Beside it the tree keeps what it had, as long as there were sections before. So what
is put later, at paths that part from this one, leaves it where it is, and when a text is put in the
place of a text setting, the tree can be read if it could be read before, whatever it is like.

## Main definitions

* `PathStep.PartFrom` — steps that neither lead to a path nor past it
* `Setting.Puts` — what becomes of a tree when a setting is put at a path
* `TextKey` — the settings that are texts

## Main results

* `Setting.puts_overlayAt`, `Setting.Puts.overlayAt` — one step of putting settings together
* `Settings.serverOf_eq_ok_iff`, `Settings.databaseOf_eq_ok_iff`, `Settings.loggingOf_eq_ok_iff`,
  `Settings.ofTree_eq_ok_iff` — a section is read when each of its parts is
* `Settings.ofTree_of_puts` — a tree with a text put in its place is read
-/

namespace ExchangeCatalog

/-- Steps part from a path of names: after some names that both have they go on with different
ones. -/
inductive PathStep.PartFrom : List PathStep → List String → Prop
  | here {name name' : String} {steps : List PathStep} {path : List String} (h : name' ≠ name) :
    PartFrom (.name name' :: steps) (name :: path)
  | later {name : String} {steps : List PathStep} {path : List String} (h : PartFrom steps path) :
    PartFrom (.name name :: steps) (name :: path)

/-- Paths of which neither leads to the other part. -/
theorem PathStep.partFrom_of_not_prefix {path path' : List String} (h : ¬ path <+: path')
    (h' : ¬ path' <+: path) : PartFrom (path'.map .name) path := by
  induction path generalizing path' with
  | nil => exact absurd List.nil_prefix h
  | cons name path ih =>
    cases path' with
    | nil => exact absurd List.nil_prefix h'
    | cons name' path' =>
      by_cases hname : name' = name
      · subst hname
        rw [List.prefix_cons_inj] at h h'
        exact .later (ih h h')
      · exact .here hname

/-- The name of another setting leads elsewhere. -/
theorem SettingKey.partFrom_of_ne {k k' : SettingKey} (hne : k' ≠ k) :
    PathStep.PartFrom (PathStep.ofText k'.name) k.path := by
  rw [ofText_name]
  apply PathStep.partFrom_of_not_prefix
  · intro h
    have heq := eq_of_path_prefix h
    exact hne heq.symm
  · intro h
    have heq := eq_of_path_prefix h
    exact hne heq

namespace Setting

/-- The setting `v` put at a path of a tree, if there is one, makes another tree: at the path stands
`v`, and at each of the sections on the way stands a section which has the other parts that the tree
has there. -/
inductive Puts (v : Setting) : List String → Option Setting → Setting → Prop
  | here (under : Option Setting) : Puts v [] under v
  | within {name : String} {path : List String} {under : Option Setting} {o : Origin}
    {es : List (String × Setting)} {t : Setting} (there : find? name es = some t)
    (below : Puts v path (find? name (sectionParts under).2) t)
    (beside : ∀ name', name' ≠ name → find? name' es = find? name' (sectionParts under).2) :
    Puts v (name :: path) under (.section o es)

variable {v w t t' : Setting} {path : List String} {under : Option Setting}

theorem overlayAt_cons (s : Setting) (name : String) (steps : List PathStep)
    (under : Option Setting) :
    s.overlayAt (.name name :: steps) under = .section (sectionParts under).1
      (alter name (s.overlayAt steps) (sectionParts under).2) := by
  rw [overlayAt]

/-- A setting that is no section is put at a path by overlaying it there. -/
theorem puts_overlayAt (hv : ¬ v.IsSection) (path : List String) (under : Option Setting) :
    v.Puts path under (v.overlayAt (path.map .name) under) := by
  induction path generalizing under with
  | nil =>
    rw [List.map_nil, overlayAt, overlay_of_not_isSection hv]
    exact .here under
  | cons name path ih =>
    rw [List.map_cons, overlayAt_cons]
    refine .within ?_ (ih _) fun name' hname => ?_
    · rw [find?_alter, if_pos rfl]
    · rw [find?_alter, if_neg hname]

/-- What is put elsewhere later leaves a setting where it was put. -/
theorem Puts.overlayAt (h : v.Puts path under t) {steps : List PathStep}
    (hsteps : PathStep.PartFrom steps path) (s : Setting) :
    v.Puts path (some (s.overlayAt steps under)) (s.overlayAt steps (some t)) := by
  induction h generalizing steps with
  | here => cases hsteps
  | @within name path under o es t there below beside ih =>
    cases hsteps with
    | @here _ name' steps _ hname =>
      -- The other name is treated alike in both trees, whatever stands under it.
      rw [overlayAt_cons, overlayAt_cons]
      have hthere : find? name (alter name' (s.overlayAt steps) es) = some t := by
        rw [find?_alter, if_neg hname.symm, there]
      refine .within hthere ?_ fun other hother => ?_
      · simpa only [sectionParts, find?_alter, if_neg hname.symm] using below
      · simp only [sectionParts, find?_alter, beside name' hname, beside other hother]
    | @later _ steps _ hsteps =>
      rw [overlayAt_cons, overlayAt_cons]
      have hthere : find? name (alter name (s.overlayAt steps) es) =
          some (s.overlayAt steps (some t)) := by
        rw [find?_alter, if_pos rfl, there]
      refine .within hthere ?_ fun other hother => ?_
      · simpa only [sectionParts, find?_alter, if_pos] using ih hsteps
      · simp only [sectionParts, find?_alter, if_neg hother, beside other hother]

/-- Of two settings put at one place of a tree the one can be put in the place of the other. -/
theorem Puts.replace (h : v.Puts path under t) (h' : w.Puts path under t') :
    w.Puts path (some t) t' := by
  induction h generalizing t' with
  | here => cases h' with | here => exact .here _
  | within there _ beside ih =>
    cases h' with
    | within there' below' beside' =>
      refine .within there' ?_ fun name hname => (beside' name hname).trans (beside name hname).symm
      simpa only [sectionParts, there] using ih below'

/-- What is put right into a section is one of its parts. -/
theorem Puts.exists_of_singleton {name : String} (h : v.Puts [name] under t) :
    ∃ o es, t = .section o es ∧ find? name es = some v ∧
      ∀ name', name' ≠ name → find? name' es = find? name' (sectionParts under).2 := by
  cases h with
  | @within _ _ _ o es _ there below beside =>
    cases below with
    | here => exact ⟨o, es, rfl, there, beside⟩

/-! ### Parts of sections -/

variable {α : Type} {name : String} {o o' : Origin} {es es' : List (String × Setting)}

/-- A part that has another name than the one that was changed is read as before. -/
theorem part_of_beside {name' : String}
    (beside : ∀ name', name' ≠ name → find? name' es = find? name' es') (hname : name' ≠ name)
    {i : Nat} {usual x : α} {convert : Setting → Except SettingFault α}
    (h : (Setting.section o' es').part i name' usual convert = .ok x) :
    (Setting.section o es).part i name' usual convert = .ok x := by
  rw [part, part?, beside name' hname]
  exact h

/-- A part that is there is converted. -/
theorem part_of_find? (h : find? name es = some v) (o : Origin) (i : Nat) {usual x : α}
    {convert : Setting → Except SettingFault α} (hx : convert v = .ok x) :
    (Setting.section o es).part i name usual convert = .ok x := by
  rw [part, part?, h]
  simp only [Option.map_some, hx]
  rfl

end Setting

namespace Settings

open Setting

variable {o o' : Origin} {es es' : List (String × Setting)}

theorem serverOf_eq_ok_iff {s : ServerSettings} : serverOf (.section o es) = .ok s ↔
    (Setting.section o es).part 0 "host" ({} : ServerSettings).host text = .ok s.host ∧
    (Setting.section o es).part 1 "port" ({} : ServerSettings).port
      (fun v => (v.narrowUint 16).map UInt16.ofNat) = .ok s.port ∧
    (Setting.section o es).part 2 "public_scheme" ({} : ServerSettings).publicScheme text =
      .ok s.publicScheme ∧
    (Setting.section o es).part 3 "request_timeout_seconds"
      ({} : ServerSettings).requestTimeoutSeconds uint = .ok s.requestTimeoutSeconds ∧
    (Setting.section o es).part 4 "cors" ({} : ServerSettings).cors corsOf = .ok s.cors := by
  simp only [serverOf, bind_eq_ok_iff, asSection]
  constructor
  · rintro ⟨_, ⟨⟩, _, hhost, _, hport, _, hscheme, _, htimeout, _, hcors, ⟨⟩⟩
    exact ⟨hhost, hport, hscheme, htimeout, hcors⟩
  · rintro ⟨hhost, hport, hscheme, htimeout, hcors⟩
    exact ⟨_, rfl, _, hhost, _, hport, _, hscheme, _, htimeout, _, hcors, rfl⟩

theorem databaseOf_eq_ok_iff {s : DatabaseSettings} : databaseOf (.section o es) = .ok s ↔
    (Setting.section o es).part 0 "backend" ({} : DatabaseSettings).backend backend =
      .ok s.backend ∧
    (Setting.section o es).part 1 "url" ({} : DatabaseSettings).url text = .ok s.url ∧
    (Setting.section o es).part 2 "max_connections" ({} : DatabaseSettings).maxConnections
      (fun v => (v.narrowUint 32).map UInt32.ofNat) = .ok s.maxConnections ∧
    (Setting.section o es).part 3 "min_connections" ({} : DatabaseSettings).minConnections
      (fun v => (v.narrowUint 32).map UInt32.ofNat) = .ok s.minConnections ∧
    (Setting.section o es).part 4 "connect_timeout_seconds"
      ({} : DatabaseSettings).connectTimeoutSeconds uint = .ok s.connectTimeoutSeconds ∧
    (Setting.section o es).part 5 "idle_timeout_seconds"
      ({} : DatabaseSettings).idleTimeoutSeconds uint = .ok s.idleTimeoutSeconds := by
  simp only [databaseOf, bind_eq_ok_iff, asSection]
  constructor
  · rintro ⟨_, ⟨⟩, _, hbackend, _, hurl, _, hmax, _, hmin, _, hconnect, _, hidle, ⟨⟩⟩
    exact ⟨hbackend, hurl, hmax, hmin, hconnect, hidle⟩
  · rintro ⟨hbackend, hurl, hmax, hmin, hconnect, hidle⟩
    exact ⟨_, rfl, _, hbackend, _, hurl, _, hmax, _, hmin, _, hconnect, _, hidle, rfl⟩

theorem loggingOf_eq_ok_iff {s : LoggingSettings} : loggingOf (.section o es) = .ok s ↔
    (Setting.section o es).part 0 "level" ({} : LoggingSettings).level text = .ok s.level ∧
    (Setting.section o es).part 1 "format" ({} : LoggingSettings).format text = .ok s.format := by
  simp only [loggingOf, bind_eq_ok_iff, asSection]
  constructor
  · rintro ⟨_, ⟨⟩, _, hlevel, _, hformat, ⟨⟩⟩
    exact ⟨hlevel, hformat⟩
  · rintro ⟨hlevel, hformat⟩
    exact ⟨_, rfl, _, hlevel, _, hformat, rfl⟩

theorem ofTree_eq_ok_iff {t : Setting} {s : Settings} : ofTree t = .ok s ↔
    t.part 0 "server" ({} : Settings).server serverOf = .ok s.server ∧
    t.part 1 "database" ({} : Settings).database databaseOf = .ok s.database ∧
    t.part 2 "logging" ({} : Settings).logging loggingOf = .ok s.logging := by
  simp only [ofTree, bind_eq_ok_iff]
  constructor
  · rintro ⟨_, hserver, _, hdatabase, _, hlogging, ⟨⟩⟩
    exact ⟨hserver, hdatabase, hlogging⟩
  · rintro ⟨hserver, hdatabase, hlogging⟩
    exact ⟨_, hserver, _, hdatabase, _, hlogging, rfl⟩

/-! ### Reading a tree after a text was put into it -/

variable {α : Type} {v t t' : Setting} {under : Option Setting} {path : List String} {x : String}

/-- What stands in a place can be read, if anything does. -/
def CanRead (read : Setting → Except SettingFault α) (under : Option Setting) : Prop :=
  ∀ w, under = some w → ∃ s, read w = .ok s

theorem canRead_of_part {name : String} {i : Nat} {usual y : α}
    {read : Setting → Except SettingFault α}
    (h : (Setting.section o es).part i name usual read = .ok y) :
    CanRead read (find? name es) := by
  intro w hw
  rw [part, part?, hw] at h
  cases hread : read w with
  | ok s => exact ⟨s, rfl⟩
  | error fault =>
    simp only [Option.map_some, hread] at h
    cases h

/-- The section that is made of what stands in the way can be read, if an empty one can. -/
theorem CanRead.exists_sectionParts {read : Setting → Except SettingFault α}
    (h : CanRead read under) (hempty : ∃ s, read (.section .unnamed []) = .ok s) :
    ∃ o s, read (.section o (sectionParts under).2) = .ok s := by
  cases under with
  | none => exact ⟨.unnamed, hempty⟩
  | some w =>
    cases w with
    | plain | list => exact ⟨.unnamed, hempty⟩
    | «section» o es => exact ⟨o, h _ rfl⟩

theorem serverOf_of_puts_host (h : v.Puts ["host"] under t) (hunder : CanRead serverOf under)
    (hv : v.text = .ok x) : ∃ s, serverOf t = .ok s ∧ s.host = x := by
  obtain ⟨o, es, rfl, there, beside⟩ := h.exists_of_singleton
  obtain ⟨o', s, hs⟩ := hunder.exists_sectionParts ⟨{}, rfl⟩
  -- The section that was read before gives all parts but the one that was put.
  obtain ⟨-, hport, hscheme, htimeout, hcors⟩ := serverOf_eq_ok_iff.1 hs
  refine ⟨{ s with host := x }, serverOf_eq_ok_iff.2 ⟨part_of_find? there o 0 hv, ?_⟩, rfl⟩
  exact ⟨part_of_beside beside (by decide) hport,
    part_of_beside beside (by decide) hscheme,
    part_of_beside beside (by decide) htimeout,
    part_of_beside beside (by decide) hcors⟩

theorem serverOf_of_puts_publicScheme (h : v.Puts ["public_scheme"] under t)
    (hunder : CanRead serverOf under) (hv : v.text = .ok x) :
    ∃ s, serverOf t = .ok s ∧ s.publicScheme = x := by
  obtain ⟨o, es, rfl, there, beside⟩ := h.exists_of_singleton
  obtain ⟨o', s, hs⟩ := hunder.exists_sectionParts ⟨{}, rfl⟩
  obtain ⟨hhost, hport, -, htimeout, hcors⟩ := serverOf_eq_ok_iff.1 hs
  refine ⟨{ s with publicScheme := x }, serverOf_eq_ok_iff.2 ?_, rfl⟩
  exact ⟨part_of_beside beside (by decide) hhost,
    part_of_beside beside (by decide) hport, part_of_find? there o 2 hv,
    part_of_beside beside (by decide) htimeout,
    part_of_beside beside (by decide) hcors⟩

theorem databaseOf_of_puts_url (h : v.Puts ["url"] under t) (hunder : CanRead databaseOf under)
    (hv : v.text = .ok x) : ∃ s, databaseOf t = .ok s ∧ s.url = x := by
  obtain ⟨o, es, rfl, there, beside⟩ := h.exists_of_singleton
  obtain ⟨o', s, hs⟩ := hunder.exists_sectionParts ⟨{}, rfl⟩
  obtain ⟨hbackend, -, hmax, hmin, hconnect, hidle⟩ := databaseOf_eq_ok_iff.1 hs
  refine ⟨{ s with url := x }, databaseOf_eq_ok_iff.2 ?_, rfl⟩
  exact ⟨part_of_beside beside (by decide) hbackend, part_of_find? there o 1 hv,
    part_of_beside beside (by decide) hmax,
    part_of_beside beside (by decide) hmin,
    part_of_beside beside (by decide) hconnect,
    part_of_beside beside (by decide) hidle⟩

theorem loggingOf_of_puts_level (h : v.Puts ["level"] under t) (hunder : CanRead loggingOf under)
    (hv : v.text = .ok x) : ∃ s, loggingOf t = .ok s ∧ s.level = x := by
  obtain ⟨o, es, rfl, there, beside⟩ := h.exists_of_singleton
  obtain ⟨o', s, hs⟩ := hunder.exists_sectionParts ⟨{}, rfl⟩
  obtain ⟨-, hformat⟩ := loggingOf_eq_ok_iff.1 hs
  refine ⟨{ s with level := x }, loggingOf_eq_ok_iff.2 ?_, rfl⟩
  exact ⟨part_of_find? there o 0 hv, part_of_beside beside (by decide) hformat⟩

theorem loggingOf_of_puts_format (h : v.Puts ["format"] under t) (hunder : CanRead loggingOf under)
    (hv : v.text = .ok x) : ∃ s, loggingOf t = .ok s ∧ s.format = x := by
  obtain ⟨o, es, rfl, there, beside⟩ := h.exists_of_singleton
  obtain ⟨o', s, hs⟩ := hunder.exists_sectionParts ⟨{}, rfl⟩
  obtain ⟨hlevel, -⟩ := loggingOf_eq_ok_iff.1 hs
  refine ⟨{ s with format := x }, loggingOf_eq_ok_iff.2 ?_, rfl⟩
  exact ⟨part_of_beside beside (by decide) hlevel, part_of_find? there o 1 hv⟩

/-- A setting below an outermost section changes this section alone. -/
theorem ofTree_of_puts_server {P : ServerSettings → Prop} (h : v.Puts ("server" :: path) under t)
    (hunder : CanRead ofTree under)
    (hserver : ∀ under t, v.Puts path under t → CanRead serverOf under →
      ∃ s, serverOf t = .ok s ∧ P s) : ∃ s, ofTree t = .ok s ∧ P s.server := by
  obtain ⟨o', s, hs⟩ := hunder.exists_sectionParts ⟨{}, rfl⟩
  obtain ⟨hread, hdatabase, hlogging⟩ := ofTree_eq_ok_iff.1 hs
  cases h with
  | @within _ _ _ o es t there below beside =>
    obtain ⟨s', hs', hP⟩ := hserver _ _ below (canRead_of_part hread)
    refine ⟨{ s with server := s' }, ofTree_eq_ok_iff.2 ?_, hP⟩
    exact ⟨part_of_find? there o 0 hs', part_of_beside beside (by decide) hdatabase,
      part_of_beside beside (by decide) hlogging⟩

theorem ofTree_of_puts_database {P : DatabaseSettings → Prop}
    (h : v.Puts ("database" :: path) under t) (hunder : CanRead ofTree under)
    (hdatabase : ∀ under t, v.Puts path under t → CanRead databaseOf under →
      ∃ s, databaseOf t = .ok s ∧ P s) : ∃ s, ofTree t = .ok s ∧ P s.database := by
  obtain ⟨o', s, hs⟩ := hunder.exists_sectionParts ⟨{}, rfl⟩
  obtain ⟨hserver, hread, hlogging⟩ := ofTree_eq_ok_iff.1 hs
  cases h with
  | @within _ _ _ o es t there below beside =>
    obtain ⟨s', hs', hP⟩ := hdatabase _ _ below (canRead_of_part hread)
    refine ⟨{ s with database := s' }, ofTree_eq_ok_iff.2 ?_, hP⟩
    exact ⟨part_of_beside beside (by decide) hserver, part_of_find? there o 1 hs',
      part_of_beside beside (by decide) hlogging⟩

theorem ofTree_of_puts_logging {P : LoggingSettings → Prop}
    (h : v.Puts ("logging" :: path) under t) (hunder : CanRead ofTree under)
    (hlogging : ∀ under t, v.Puts path under t → CanRead loggingOf under →
      ∃ s, loggingOf t = .ok s ∧ P s) : ∃ s, ofTree t = .ok s ∧ P s.logging := by
  obtain ⟨o', s, hs⟩ := hunder.exists_sectionParts ⟨{}, rfl⟩
  obtain ⟨hserver, hdatabase, hread⟩ := ofTree_eq_ok_iff.1 hs
  cases h with
  | @within _ _ _ o es t there below beside =>
    obtain ⟨s', hs', hP⟩ := hlogging _ _ below (canRead_of_part hread)
    refine ⟨{ s with logging := s' }, ofTree_eq_ok_iff.2 ?_, hP⟩
    exact ⟨part_of_beside beside (by decide) hserver,
      part_of_beside beside (by decide) hdatabase, part_of_find? there o 2 hs'⟩

end Settings

/-! ### Text settings -/

/-- The settings that are texts. -/
inductive TextKey
  | host
  | publicScheme
  | url
  | level
  | format
  deriving DecidableEq, Repr

namespace TextKey

/-- A text setting among all settings. -/
def key : TextKey → SettingKey
  | host => .host
  | publicScheme => .publicScheme
  | url => .url
  | level => .level
  | format => .format

/-- Every setting of this type is one of these. -/
theorem exists_key_eq_iff {k : SettingKey} : (∃ t : TextKey, t.key = k) ↔ k.kind = .text := by
  constructor
  · rintro ⟨t, rfl⟩
    cases t <;> rfl
  · cases k with
    | host => exact fun _ => ⟨.host, rfl⟩
    | publicScheme => exact fun _ => ⟨.publicScheme, rfl⟩
    | url => exact fun _ => ⟨.url, rfl⟩
    | level => exact fun _ => ⟨.level, rfl⟩
    | format => exact fun _ => ⟨.format, rfl⟩
    | _ => exact nofun

end TextKey

namespace Settings

open Setting

/-- The value of a text setting. -/
def text (s : Settings) : TextKey → String
  | .host => s.server.host
  | .publicScheme => s.server.publicScheme
  | .url => s.database.url
  | .level => s.logging.level
  | .format => s.logging.format

/-- A tree into which something was put that is converted to a text can be read, if there was
nothing before or it could be read; the text then is the value of the setting in whose place it was
put. -/
theorem ofTree_of_puts {v t : Setting} {under : Option Setting} {x : String} (k : TextKey)
    (h : v.Puts k.key.path under t) (hunder : CanRead ofTree under) (hv : v.text = .ok x) :
    ∃ s, ofTree t = .ok s ∧ s.text k = x := by
  cases k with
  | host =>
    exact ofTree_of_puts_server h hunder fun _ _ h hunder => serverOf_of_puts_host h hunder hv
  | publicScheme =>
    exact ofTree_of_puts_server h hunder fun _ _ h hunder =>
      serverOf_of_puts_publicScheme h hunder hv
  | url =>
    exact ofTree_of_puts_database h hunder fun _ _ h hunder => databaseOf_of_puts_url h hunder hv
  | level =>
    exact ofTree_of_puts_logging h hunder fun _ _ h hunder => loggingOf_of_puts_level h hunder hv
  | format =>
    exact ofTree_of_puts_logging h hunder fun _ _ h hunder => loggingOf_of_puts_format h hunder hv

end Settings

end ExchangeCatalog
