import ExchangeCatalog.Proofs.Settings.Layers
import ExchangeCatalog.Proofs.Settings.Put
import ExchangeCatalog.Proofs.Text.Numeral
import ExchangeCatalog.Proofs.Toml.Strings

/-!
# Texts in variables

A text setting that a file gives as a string has this text. The text of a variable is read first,
though: where it is a word for a truth value or spells a number, the setting is the truth value or
the number written anew, so that zeros in front, a plus sign, capital letters or an exponent are
lost. All other texts arrive as they are, whatever the files are like and whatever other variables
there are, as long as none of those behind it has to do with the setting.

## Main definitions

* `Variable.Arrives` — what becomes of the text of a variable
* `Variable.IsUntyped`, `Variable.IsCanonical` — the texts that nothing becomes of
* `TextVariable` — a variable that holds a text setting, among others
* `TextKey.line` — a file that sets a text setting
* `Settings.TextsArrive` — what becomes of the texts that text settings are given

## Main results

* `Variable.Arrives.eq_iff` — which texts arrive as they are
* `TextVariable.exists_load_eq_ok` — a text in a variable arrives
* `Settings.exists_load_of_hasText`, `Settings.exists_ofText_line` — a text in a file does
* `Settings.texts_arrive` — both, for all settings that are texts
-/

namespace ExchangeCatalog

/-! ### What becomes of a text -/

namespace Variable

/-- A text is a word for a truth value, in letters of any case. -/
def IsTruthWord (text : String) : Prop :=
  Text.lowercase text = "true" ∨ Text.lowercase text = "false"

instance (text : String) : Decidable (IsTruthWord text) := by
  unfold IsTruthWord
  infer_instance

/-- What arrives where a variable with a text holds a text setting. A word for a truth value, an
integer of a signed word and a floating-point number are written anew, tried in this order; any
other text arrives as it is. -/
inductive Arrives (text : String) : String → Prop
  | truth (hword : IsTruthWord text) : Arrives text (Text.lowercase text)
  | integer (hword : ¬ IsTruthWord text) {n : Int64} (h : Decimal.int64? text.toList = some n) :
    Arrives text (String.ofList (Decimal.ofInt n.toInt))
  | float (hword : ¬ IsTruthWord text) (hint : Decimal.int64? text.toList = none) {x : Binary64}
    (h : Binary64.read? text.toList = some x) : Arrives text x.positional
  | verbatim (hword : ¬ IsTruthWord text) (hint : Decimal.int64? text.toList = none)
    (hfloat : Binary64.read? text.toList = none) : Arrives text text

/-- The value of a variable is converted to what arrives of its text. -/
theorem exists_text_typed (o : Origin) (text : String) :
    ∃ x, (Setting.plain o (typed text)).text = .ok x ∧ Arrives text x := by
  rw [typed]
  split_ifs with htrue hfalse
  · exact ⟨"true", rfl, htrue ▸ .truth (.inl htrue)⟩
  · exact ⟨"false", rfl, hfalse ▸ .truth (.inr hfalse)⟩
  · have hword : ¬ IsTruthWord text := not_or.2 ⟨htrue, hfalse⟩
    cases hint : Decimal.int64? text.toList with
    | some n => exact ⟨_, rfl, .integer hword hint⟩
    | none =>
      cases hfloat : Binary64.read? text.toList with
      | some x => exact ⟨_, rfl, .float hword hint hfloat⟩
      | none => exact ⟨_, rfl, .verbatim hword hint hfloat⟩

/-- A text is read neither as a truth value nor as a number. -/
structure IsUntyped (text : String) : Prop where
  word : ¬ IsTruthWord text
  integer : Decimal.int64? text.toList = none
  float : Binary64.read? text.toList = none

/-- A text is how the truth value or the number that it is read as is written. -/
inductive IsCanonical (text : String) : Prop
  | truth (h : text = "true" ∨ text = "false")
  | integer (n : Int64) (h : text = String.ofList (Decimal.ofInt n.toInt))
  | float (hword : ¬ IsTruthWord text) (hint : Decimal.int64? text.toList = none) (x : Binary64)
    (h : Binary64.read? text.toList = some x) (hx : text = x.positional)

/-- The text of an integer is no word. -/
theorem not_isTruthWord_ofInt (n : Int) : ¬ IsTruthWord (String.ofList (Decimal.ofInt n)) := by
  obtain ⟨c, cs, hcs, hc⟩ := Decimal.exists_ofInt_eq_cons n
  -- A minus sign and digits have no small letters, and neither begins a word.
  obtain ⟨hascii, htrue, hfalse⟩ : c.toNat < 0x80 ∧ c.toLower ≠ 't' ∧ c.toLower ≠ 'f' := by
    obtain rfl | hdigit := hc
    · decide
    · have hdigits : ∀ k < 10, (Decimal.digitChar k).toNat < 0x80 ∧
          (Decimal.digitChar k).toLower ≠ 't' ∧ (Decimal.digitChar k).toLower ≠ 'f' := by
        decide
      rw [← Decimal.digitChar_digitValue hdigit]
      exact hdigits _ (Decimal.digitValue_lt hdigit)
  have hhead := Text.head?_lowercase hascii cs
  rw [← hcs] at hhead
  rintro (h | h)
  · rw [h] at hhead
    exact htrue (Option.some.inj hhead).symm
  · rw [h] at hhead
    exact hfalse (Option.some.inj hhead).symm

/-- Only one thing arrives. -/
theorem Arrives.unique {text x y : String} (h : Arrives text x) (h' : Arrives text y) : x = y := by
  cases h <;> cases h' <;> simp_all

theorem Arrives.of_isUntyped {text : String} (h : IsUntyped text) : Arrives text text :=
  .verbatim h.word h.integer h.float

theorem Arrives.of_isCanonical {text : String} (h : IsCanonical text) : Arrives text text := by
  cases h with
  | truth h =>
    have hlower : Text.lowercase text = text := by
      obtain rfl | rfl := h
      · decide +kernel
      · decide +kernel
    have hword : IsTruthWord text := h.imp hlower.trans hlower.trans
    have harrives := Arrives.truth hword
    rwa [hlower] at harrives
  | integer n h =>
    have hword := not_isTruthWord_ofInt n.toInt
    have hread := Decimal.int64?_ofInt n
    rw [← String.toList_ofList (l := Decimal.ofInt n.toInt)] at hread
    subst h
    exact .integer hword hread
  | float hword hint x h hx =>
    have harrives := Arrives.float hword hint h
    rwa [← hx] at harrives

/-- A text arrives as it is when it stands for nothing else, or is how what it stands for is
written. -/
theorem Arrives.eq_iff {text x : String} (h : Arrives text x) :
    x = text ↔ IsUntyped text ∨ IsCanonical text := by
  constructor
  · intro heq
    cases h with
    | truth hword => exact .inr (.truth (hword.imp heq.symm.trans heq.symm.trans))
    | integer _ h => exact .inr (.integer _ heq.symm)
    | float hword hint h => exact .inr (.float hword hint _ h heq.symm)
    | verbatim hword hint hfloat => exact .inl ⟨hword, hint, hfloat⟩
  · rintro (htext | htext)
    · exact h.unique (.of_isUntyped htext)
    · exact h.unique (.of_isCanonical htext)

end Variable

/-! ### A variable among others -/

open Setting in
/-- What is put at other places later leaves a setting where it was put. -/
theorem Setting.Puts.onto {v t : Setting} {path : List String} {under : Setting}
    (h : v.Puts path (some under) t) {layer : Layer}
    (hlayer : ∀ e ∈ layer, PathStep.PartFrom (PathStep.ofText e.1) path) :
    v.Puts path (some (layer.onto under)) (layer.onto t) := by
  induction layer generalizing under t with
  | nil => exact h
  | cons e layer ih =>
    obtain ⟨he, hlayer⟩ := List.forall_mem_cons.1 hlayer
    exact ih (h.overlayAt he e.2) hlayer

/-- A variable that holds a text setting, with the variables before and after it. None of those
after it holds the setting too, or a section that it is in, or something below it. -/
structure TextVariable (k : TextKey) where
  before : List (String × String)
  name : String
  after : List (String × String)
  holds : Variable.settingName? name = some k.key.name
  apart : ∀ v ∈ after, ∀ setting, Variable.settingName? v.1 = some setting →
    PathStep.PartFrom (PathStep.ofText setting) k.key.path

namespace TextVariable

variable {k : TextKey} (place : TextVariable k)

/-- The variables, with a text in this one. -/
def vars (text : String) : List (String × String) :=
  place.before ++ (place.name, text) :: place.after

/-- The variables without this one. -/
def others : List (String × String) := place.before ++ place.after

/-- The settings load without the variable, or with some text in it. -/
def Loads (environment : String) (fileAt? : String → Option String) : Prop :=
  (∃ s, Settings.load environment fileAt? place.others = .ok s) ∨
    ∃ text s, Settings.load environment fileAt? (place.vars text) = .ok s

end TextVariable

namespace Settings

variable {environment : String} {fileAt? : String → Option String} {vars : List (String × String)}

theorem ofLayers_eq_ok_iff {layers : List Setting.Layer} {s : Settings} :
    ofLayers layers = .ok s ↔ ∃ t, Setting.layered? layers = some t ∧ ofTree t = .ok s := by
  rw [ofLayers]
  cases Setting.layered? layers with
  | none => simp
  | some t => cases h : ofTree t <;> simp [h, Except.mapError]

/-- Loading succeeds when the files can be read and their settings and those of variables, put
together, make settings. -/
theorem load_eq_ok_iff {s : Settings} : load environment fileAt? vars = .ok s ↔
    ∃ layers t, ["default", environment].mapM (Folder.layer? fileAt?) = some layers ∧
      Setting.layered? (layers ++ [Variable.layer vars]) = some t ∧ ofTree t = .ok s := by
  rw [load]
  cases ["default", environment].mapM (Folder.layer? fileAt?) with
  | none => simp
  | some layers => simp [ofLayers_eq_ok_iff]

end Settings

namespace TextVariable

open Setting

variable {k : TextKey} (place : TextVariable k)

/-- The variable is one entry among those of the others. -/
theorem layer_vars (text : String) : Variable.layer (place.vars text) =
    Variable.layer place.before ++ (k.key.name, .plain .environment (Variable.typed text)) ::
      Variable.layer place.after := by
  simp [Variable.layer, vars, place.holds]

theorem layer_others : Variable.layer place.others =
    Variable.layer place.before ++ Variable.layer place.after := by
  simp [Variable.layer, others]

/-- Whatever the settings are put together with, the variable is put into what they are without
it. -/
theorem exists_layered?_vars {layers : List Layer} {under : Setting}
    (h : layered? (layers ++ [Variable.layer place.others]) = some under) (text : String) :
    ∃ t, layered? (layers ++ [Variable.layer (place.vars text)]) = some t ∧
      (Setting.plain .environment (Variable.typed text)).Puts k.key.path (some under) t := by
  obtain ⟨hwithin, rfl⟩ := Layer.layered?_eq_some_iff.1 h
  simp only [List.flatten_append, List.flatten_singleton, layer_others, ← List.append_assoc,
    List.forall_mem_append] at hwithin
  obtain ⟨hbefore, hafter⟩ := hwithin
  refine ⟨_, Layer.layered?_eq_some_iff.2 ⟨?_, rfl⟩, ?_⟩
  · simp only [List.flatten_append, List.flatten_singleton, layer_vars, ← List.append_assoc,
      List.forall_mem_append, List.forall_mem_cons]
    refine ⟨hbefore, fun step hstep => ?_, hafter⟩
    -- A path of names asks for no place in a list.
    rw [SettingKey.ofText_name] at hstep
    obtain ⟨_, _, rfl⟩ := List.mem_map.1 hstep
    rfl
  · simp only [List.flatten_append, List.flatten_singleton, layer_vars, layer_others,
      ← List.append_assoc, Layer.onto_append, Layer.onto_cons, SettingKey.ofText_name]
    apply Puts.onto
    · exact puts_overlayAt (by rintro ⟨⟩) _ _
    · -- The variables behind this one leave it where it was put.
      intro e he
      obtain ⟨v, hv, he⟩ := List.mem_filterMap.1 he
      obtain ⟨setting, hsetting, rfl⟩ := Option.map_eq_some_iff.1 he
      exact place.apart v hv setting hsetting

/-- What can be put together with the variable can be without it. -/
theorem exists_layered?_others {layers : List Layer} {t : Setting} {text : String}
    (h : layered? (layers ++ [Variable.layer (place.vars text)]) = some t) :
    ∃ under, layered? (layers ++ [Variable.layer place.others]) = some under := by
  obtain ⟨hwithin, -⟩ := Layer.layered?_eq_some_iff.1 h
  refine ⟨_, Layer.layered?_eq_some_iff.2 ⟨?_, rfl⟩⟩
  simp only [List.flatten_append, List.flatten_singleton, layer_vars, layer_others,
    ← List.append_assoc, List.forall_mem_append, List.forall_mem_cons] at hwithin ⊢
  exact ⟨hwithin.1, hwithin.2.2⟩

variable {environment : String} {fileAt? : String → Option String}

/-- When the settings load, with the variable or without, there is a tree that is read, and any text
is put into this tree. -/
theorem Loads.exists_puts {place : TextVariable k} (h : place.Loads environment fileAt?)
    (text : String) : ∃ layers under t,
      ["default", environment].mapM (Folder.layer? fileAt?) = some layers ∧
      layered? (layers ++ [Variable.layer (place.vars text)]) = some t ∧
      (Setting.plain .environment (Variable.typed text)).Puts k.key.path (some under) t ∧
      ∃ s, Settings.ofTree under = .ok s := by
  obtain ⟨s, hs⟩ | ⟨text', s, hs⟩ := h
  · obtain ⟨layers, under, hlayers, hunder, hread⟩ := Settings.load_eq_ok_iff.1 hs
    obtain ⟨t, ht, hputs⟩ := place.exists_layered?_vars hunder text
    exact ⟨layers, under, t, hlayers, ht, hputs, s, hread⟩
  · -- The tree with the other text is the one that is read, and has this text in its place.
    obtain ⟨layers, t', hlayers, ht', hread⟩ := Settings.load_eq_ok_iff.1 hs
    obtain ⟨under, hunder⟩ := place.exists_layered?_others ht'
    obtain ⟨t'', ht'', hputs'⟩ := place.exists_layered?_vars hunder text'
    obtain rfl := Option.some.inj (ht'.symm.trans ht'')
    obtain ⟨t, ht, hputs⟩ := place.exists_layered?_vars hunder text
    exact ⟨layers, t', t, hlayers, ht, hputs'.replace hputs, s, hread⟩

/-- The text of the variable arrives. -/
theorem exists_load_eq_ok (h : place.Loads environment fileAt?) (text : String) :
    ∃ s, Settings.load environment fileAt? (place.vars text) = .ok s ∧
      Variable.Arrives text (s.text k) := by
  obtain ⟨layers, under, t, hlayers, ht, hputs, s, hs⟩ := h.exists_puts text
  obtain ⟨x, hx, harrives⟩ := Variable.exists_text_typed .environment text
  have hunder : Settings.CanRead Settings.ofTree (some under) := by
    rintro _ ⟨⟩
    exact ⟨s, hs⟩
  obtain ⟨s', hs', rfl⟩ := Settings.ofTree_of_puts k hputs hunder hx
  exact ⟨s', Settings.load_eq_ok_iff.2 ⟨layers, t, hlayers, ht, hs'⟩, harrives⟩

end TextVariable

/-! ### A text in a file -/

namespace SettingsFile

/-- A file has a text in the place of a text setting. -/
def HasText (file : SettingsFile) (k : TextKey) (text : String) : Prop :=
  (Toml.table file.entries).at? k.key.path = some (.string text)

/-- Such a text is a right value. -/
theorem HasText.exists_value?_eq {file : SettingsFile} {k : TextKey} {text : String}
    (h : file.HasText k text) :
    ∃ x, file.value? k.key = some x ∧ k.key.kind.ofToml? (.string text) = some x := by
  have hright : ∃ x, k.key.kind.ofToml? (.string text) = some x := by
    cases k <;> exact ⟨text, rfl⟩
  obtain ⟨x, hx⟩ := hright
  refine ⟨x, ?_, hx⟩
  rw [value?, Toml.valueFor?, h, Option.bind_some, hx]

end SettingsFile

namespace TextKey

variable (k : TextKey) (text : String)

/-- The line of a file that sets a text setting. -/
def line : String := k.key.name ++ " = " ++ Toml.quoted text

theorem exists_path_eq :
    ∃ outer inner, k.key.path = [outer, inner] ∧ [outer] ∈ SettingKey.sections := by
  cases k <;> exact ⟨_, _, rfl, by decide⟩

theorem exists_name_eq_cons : ∃ c cs, k.key.name.toList = c :: cs ∧ Toml.isBareChar c := by
  cases k <;> exact ⟨_, _, rfl, by decide⟩

/-- The name of a text setting is read as the key with its path. -/
theorem key?_name (rest : List Char) : Toml.key? (k.key.name.toList ++ " = ".toList ++ rest) =
    some (k.key.path, '=' :: ' ' :: rest) := by
  cases k <;> rfl

/-- The line is a file that has the text in the place of the setting. -/
theorem exists_file_line :
    ∃ file : SettingsFile, file.text? = some (k.line text) ∧ file.HasText k text := by
  obtain ⟨outer, inner, hpath, hsection⟩ := k.exists_path_eq
  obtain ⟨c, cs, hname, hc⟩ := k.exists_name_eq_cons
  have hline : k.line text =
      String.ofList (c :: cs ++ " = ".toList ++ (Toml.quoted text).toList) := by
    rw [← hname, line, String.ofList_append, String.ofList_append, String.ofList_toList,
      String.ofList_toList, String.ofList_toList]
  have hkey := k.key?_name (Toml.quoted text).toList
  rw [hname] at hkey
  have hvalue : Toml.value? (Toml.skipBlanks (' ' :: (Toml.quoted text).toList)) =
      some (.string text, []) := by
    have hblank : Toml.skipBlanks (' ' :: (Toml.quoted text).toList) =
        (Toml.quoted text).toList ++ [] := by
      rw [Toml.quoted, String.toList_ofList, List.append_nil]
      rfl
    have hnone : ([] : List Char).head? ≠ some '"' := by simp
    rw [hblank, Toml.value?_quoted text hnone]
  have hput : Toml.put? (.string text) k.key.path [] =
      some [(outer, .table .dotted [(inner, .value (.string text))])] := by
    rw [hpath]
    rfl
  have hparsed := Toml.parse?_entry hc hkey hvalue hput
  have hknown : Toml.SetsKnown [(outer, .table [(inner, .string text)])] := by
    refine .table (by decide) (List.forall_mem_singleton.2 ?_)
    refine .table hsection (List.forall_mem_singleton.2 ?_)
    have hright : (k.key.kind.ofToml? (.string text)).isSome := by
      cases k <;> rfl
    have hplace := Toml.IsKnownAt.setting k.key hright
    rwa [hpath] at hplace
  refine ⟨⟨some (k.line text), _, hline ▸ hparsed, hknown⟩, rfl, ?_⟩
  rw [SettingsFile.HasText, hpath]
  simp [Toml.at?]

end TextKey

namespace Settings

variable {environment : String} {fileAt? : String → Option String} {k : TextKey} {text : String}

/-- A text setting is the text that stands in its place. -/
theorem text_ofValues {f : (k : SettingKey) → k.Value}
    (h : k.key.kind.ofToml? (.string text) = some (f k.key)) : (ofValues f).text k = text := by
  cases k <;> exact (Option.some.inj h).symm

/-- The text of a file arrives. -/
theorem exists_load_of_hasText {layers : SettingLayers} (h : layers.Found environment fileAt?)
    (hvars : layers.env.value? k.key = none)
    (htext : layers.overlay.HasText k text ∨
      layers.overlay.value? k.key = none ∧ layers.defaults.HasText k text) :
    ∃ s, load environment fileAt? layers.env.vars = .ok s ∧ s.text k = text := by
  refine ⟨_, load_of_found h, text_ofValues ?_⟩
  obtain hoverlay | ⟨hnone, hdefaults⟩ := htext
  · obtain ⟨x, hx, hright⟩ := hoverlay.exists_value?_eq
    rw [hright, SettingLayers.value?, hvars, hx]
    rfl
  · obtain ⟨x, hx, hright⟩ := hdefaults.exists_value?_eq
    rw [hright, SettingLayers.value?, hvars, hnone, hx]
    rfl

/-- The text of a line arrives. -/
theorem exists_ofText_line (k : TextKey) (text : String) :
    ∃ s, ofText (k.line text) = .ok s ∧ s.text k = text := by
  obtain ⟨file, hfile, htext⟩ := k.exists_file_line text
  obtain ⟨x, hx, hright⟩ := htext.exists_value?_eq
  refine ⟨_, ofText_eq file hfile, text_ofValues ?_⟩
  rw [hright, hx]
  rfl

/-- What becomes of the texts that text settings are given. -/
structure TextsArrive : Prop where
  /-- The text settings are all settings of this type. -/
  complete : ∀ k : SettingKey, (∃ k' : TextKey, k'.key = k) ↔ k.kind = .text
  /-- The variable `IBROKER__SECTION__KEY` holds the setting `section.key`. -/
  variableName : ∀ k : TextKey, Variable.settingName? k.key.variableName = some k.key.name
  /-- The variables of other settings may stand behind it. -/
  apart : ∀ (k : TextKey) (k' : SettingKey), k' ≠ k.key →
    PathStep.PartFrom (PathStep.ofText k'.name) k.key.path
  /-- Whatever text the variable has, loading succeeds if it does without the variable or with some
  other text in it. The text arrives as it is or, if it is read as a truth value or a number, as
  this is written; that is the text itself exactly when it is read as neither or is how this is
  written. -/
  loads : ∀ (k : TextKey) (place : TextVariable k) (environment : String)
    (fileAt? : String → Option String) (text : String), place.Loads environment fileAt? →
    ∃ s, load environment fileAt? (place.vars text) = .ok s ∧ Variable.Arrives text (s.text k) ∧
      (s.text k = text ↔ Variable.IsUntyped text ∨ Variable.IsCanonical text)
  /-- A text of a file that counts arrives as it is. -/
  files : ∀ (k : TextKey) (layers : SettingLayers) (environment : String)
    (fileAt? : String → Option String) (text : String), layers.Found environment fileAt? →
    layers.env.value? k.key = none →
    layers.overlay.HasText k text ∨
      layers.overlay.value? k.key = none ∧ layers.defaults.HasText k text →
    ∃ s, load environment fileAt? layers.env.vars = .ok s ∧ s.text k = text
  /-- Every text can be given in a file of its own, and arrives as it is. -/
  line : ∀ (k : TextKey) (text : String), ∃ s, ofText (k.line text) = .ok s ∧ s.text k = text

/-- Without files loading succeeds. -/
theorem exists_load_without_files (environment : String) (env : SettingVariables) :
    ∃ s, load environment (fun _ => none) env.vars = .ok s := by
  have hmissing (name : String) : Folder.Holds (fun _ => none) name none := .missing fun _ _ => rfl
  have hfound : SettingLayers.Found ⟨.absent, .absent, env⟩ environment fun _ => none :=
    ⟨hmissing _, hmissing _⟩
  exact ⟨_, load_of_found hfound⟩

/-- The variable of the host, among those behind the proxy. -/
def hostVariable : TextVariable .host where
  before := [("PATH", "/usr/bin")]
  name := "IBROKER__SERVER__HOST"
  after := [("IBROKER__SERVER__PORT", "8081")]
  holds := by decide +kernel
  apart := by
    have hname : SettingKey.port.variableName = "IBROKER__SERVER__PORT" := by decide +kernel
    have hport := SettingKey.port.settingName?_variableName
    intro v hv setting hsetting
    obtain rfl := List.mem_singleton.1 hv
    rw [← hname, hport] at hsetting
    exact Option.some.inj hsetting ▸ SettingKey.partFrom_of_ne (by decide)

/-- The variable of the host, with no others. -/
def loneHostVariable : TextVariable .host where
  before := []
  name := "IBROKER__SERVER__HOST"
  after := []
  holds := by decide +kernel
  apart := nofun

end Settings

end ExchangeCatalog
