import ExchangeCatalog.Proofs.Settings.Sources
import ExchangeCatalog.Proofs.Text.Split
import ExchangeCatalog.Settings.Load

/-!
# Settings layer by layer

Settings are loaded from a file of defaults, a file for the environment and variables. Whatever
known settings each of them sets, loading succeeds, and every single setting has the value of the
last of the three that sets it, or else its built-in value. So a layer has no influence on a setting
that it does not set, not even on one in the same section, and a list is never put together from two
layers.

## Main definitions

* `Folder.Holds` — the text of the settings file of a name, if there is such a file
* `SettingLayers` — two files and variables, with the value of each setting
* `Settings.LayersOverride` — what layers have to do with one another

## Main results

* `Settings.load_of_found`, `Settings.ofText_eq_load` — the settings that are loaded, and those of a
  text
* `Settings.layers_override` — layers override one another setting by setting
-/

namespace ExchangeCatalog

/-! ### Files of the folder -/

namespace Folder

variable {fileAt? : String → Option String} {name : String}

/-- A name leads from the settings folder to a file without a detour. -/
structure IsDirect (name : String) : Prop where
  path : pathOf (pathNames (folderName ++ "/" ++ name)) = folderName ++ "/" ++ name
  last : (pathNames (folderName ++ "/" ++ name)).getLast? ≠ some ".."

/-- The settings file of a name: there is none, in any format, or it is the one in TOML, with a
text. This is meant for folders where no file of the same name stands beside it in another format:
which of the two counts is not promised, although the folder looks for the one in TOML first. -/
inductive Holds (fileAt? : String → Option String) (name : String) : Option String → Prop
  | missing (h : ∀ place ∈ places name, fileAt? place.1 = none) : Holds fileAt? name none
  | file {text : String} (direct : IsDirect name)
    (bare : fileAt? (folderName ++ "/" ++ name) = none)
    (there : fileAt? (folderName ++ "/" ++ name ++ ".toml") = some text) :
    Holds fileAt? name (some text)

/-- The name of a file in the folder itself leads to it directly. -/
theorem isDirect_of_not_mem (hslash : '/' ∉ name.toList) (hname : name ∉ ["", ".", ".."]) :
    IsDirect name := by
  simp only [List.mem_cons, List.not_mem_nil, or_false, not_or] at hname
  have hpieces :
      Text.pieces '/' (folderName ++ "/" ++ name).toList = [folderName.toList, name.toList] := by
    have hjoin : (folderName ++ "/" ++ name).toList =
        ['/'].intercalate [folderName.toList, name.toList] := by
      simp [String.toList_append, List.intercalate]
    rw [hjoin]
    refine Text.pieces_intercalate (by simp) (List.forall_mem_cons.2 ⟨by decide, ?_⟩)
    exact List.forall_mem_singleton.2 hslash
  have hkept : name.toList ≠ [] ∧ name.toList ≠ ['.'] :=
    ⟨fun h => hname.1 (String.toList_injective h), fun h => hname.2.1 (String.toList_injective h)⟩
  have hnames : pathNames (folderName ++ "/" ++ name) = [folderName, name] := by
    rw [pathNames, hpieces, List.filter_cons_of_pos (by decide),
      List.filter_cons_of_pos (by simp [hkept])]
    simp
  constructor
  · rw [hnames]
    simp [pathOf]
  · rw [hnames]
    simpa using hname.2.2

private theorem exists_places_eq (direct : IsDirect name) :
    ∃ format rest, places name = (folderName ++ "/" ++ name, format) ::
      (folderName ++ "/" ++ name ++ ".toml", some .toml) :: rest := by
  have hending :
      folderName ++ "/" ++ name ++ "." ++ "toml" = folderName ++ "/" ++ name ++ ".toml" :=
    String.append_assoc
  rw [places, if_neg direct.last, direct.path, ← hending]
  exact ⟨_, _, rfl⟩

/-- The layer of a settings file that is found, and an empty one where there is none. -/
theorem exists_layer?_of_holds (file : SettingsFile) (h : Holds fileAt? name file.text?) :
    ∃ o, layer? fileAt? name = some (Setting.ofTomlEntries o file.entries) := by
  obtain ⟨text?, entries, parsed, known⟩ := file
  cases h with
  | missing hnone =>
    obtain rfl := Option.some.inj parsed
    refine ⟨.unnamed, ?_⟩
    rw [layer?, List.findSome?_eq_none_iff.2, Setting.ofTomlEntries]
    intro place hplace
    exact Option.map_eq_none_iff.2 (hnone place hplace)
  | @file text direct bare there =>
    obtain ⟨format, rest, hplaces⟩ := exists_places_eq direct
    refine ⟨.file (pathOf (pathNames (folderName ++ "/" ++ name ++ ".toml"))), ?_⟩
    simp only [layer?, hplaces, List.findSome?_cons, bare, there, Option.map_none, Option.map_some]
    exact congrArg (Option.map _) (Toml.parse?_withoutMark parsed)

end Folder

/-! ### Settings of layers -/

/-- What settings are loaded from: a file of defaults, a file for the environment, and variables. -/
structure SettingLayers where
  defaults : SettingsFile
  overlay : SettingsFile
  env : SettingVariables

namespace SettingLayers

/-- The value of the last layer that sets a setting. -/
def value? (layers : SettingLayers) (k : SettingKey) : Option k.Value :=
  (layers.env.value? k).or ((layers.overlay.value? k).or (layers.defaults.value? k))

/-- The files of the layers are those that are found for an environment. -/
structure Found (layers : SettingLayers) (environment : String) (fileAt? : String → Option String) :
    Prop where
  defaults : Folder.Holds fileAt? "default" layers.defaults.text?
  overlay : Folder.Holds fileAt? environment layers.overlay.text?

/-- Two times three layers that set one setting alike, whatever else they set. -/
structure AgreeAt (layers layers' : SettingLayers) (k : SettingKey) : Prop where
  defaults : layers.defaults.value? k = layers'.defaults.value? k
  overlay : layers.overlay.value? k = layers'.overlay.value? k
  env : layers.env.value? k = layers'.env.value? k

end SettingLayers

namespace Settings

variable {environment text : String} {fileAt? : String → Option String}
  {f : (k : SettingKey) → Option k.Value}

private theorem fits_empty : (Setting.section .unnamed []).Fits where
  sections path _ v hv := by
    cases path with
    | nil =>
      rw [Setting.at?_nil] at hv
      exact Option.some.inj hv ▸ .mk ..
    | cons => cases hv
  values k v hv := by
    cases hpath : k.path with
    | nil => exact absurd (hpath ▸ by decide) k.path_not_mem_sections
    | cons name path =>
      rw [hpath] at hv
      cases hv

private theorem value?_empty (k : SettingKey) : (Setting.section .unnamed []).value? k = none := by
  have hmissing : (Setting.section .unnamed []).at? (k.path.take 1) = none := by
    cases k <;> rfl
  exact Setting.value?_of_missing hmissing (List.take_prefix 1 k.path)

/-- The settings of layers are the values that they give, and the built-in ones elsewhere. -/
theorem ofLayers_of_gives {layers : List Setting.Layer} (h : Setting.Layer.Gives layers.flatten f) :
    ofLayers layers = .ok (ofValues fun k => (f k).getD (usual k)) := by
  have htree : Setting.layered? layers =
      some (Setting.Layer.onto layers.flatten (.section .unnamed [])) :=
    Setting.Layer.layered?_eq_some_iff.2 ⟨h.within, rfl⟩
  have hvalues : valuesOf (Setting.Layer.onto layers.flatten (.section .unnamed [])) =
      fun k => (f k).getD (usual k) := by
    funext k
    rw [valuesOf, h.value? _ k fits_empty, value?_empty, Option.or_none]
  rw [ofLayers, htree, ← hvalues]
  simp only [ofTree_of_fits (h.fits _ fits_empty)]
  rfl

/-- Loading gives the values of the layers, and the built-in ones where no layer has one. -/
theorem load_of_found {layers : SettingLayers} (h : layers.Found environment fileAt?) :
    load environment fileAt? layers.env.vars =
      .ok (ofValues fun k => (layers.value? k).getD (usual k)) := by
  obtain ⟨o, ho⟩ := Folder.exists_layer?_of_holds layers.defaults h.defaults
  obtain ⟨o', ho'⟩ := Folder.exists_layer?_of_holds layers.overlay h.overlay
  have hlayers : ["default", environment].mapM (Folder.layer? fileAt?) =
      some [Setting.ofTomlEntries o layers.defaults.entries,
        Setting.ofTomlEntries o' layers.overlay.entries] := by
    simp [ho, ho']
  rw [load, hlayers]
  refine ofLayers_of_gives ?_
  have hlater := (layers.overlay.gives o').append layers.env.gives
  have hvalue : layers.value? = fun k =>
      ((layers.env.value? k).or (layers.overlay.value? k)).or (layers.defaults.value? k) :=
    funext fun k => Option.or_assoc.symm
  rw [hvalue]
  simpa using (layers.defaults.gives o).append hlater

/-- A text of its own gives its values. -/
theorem ofText_eq (file : SettingsFile) (htext : file.text? = some text) :
    ofText text = .ok (ofValues fun k => (file.value? k).getD (usual k)) := by
  have hparsed : Toml.parse? text = some file.entries := by
    have hparsed := file.parsed
    rwa [htext] at hparsed
  have hlayer : FileFormat.toml.layer? .unnamed text =
      some (Setting.ofTomlEntries .unnamed file.entries) :=
    congrArg (Option.map _) hparsed
  rw [ofText, hlayer]
  refine ofLayers_of_gives ?_
  simpa using file.gives .unnamed

/-- Variables that hold no setting. -/
def NoSettings (vars : List (String × String)) : Prop :=
  ∀ v ∈ vars, Variable.settingName? v.1 = none

/-- A text gives what it gives as the only file. -/
theorem ofText_eq_load (file : SettingsFile) {vars : List (String × String)}
    (htext : file.text? = some text) (hvars : NoSettings vars)
    (hfiles : Folder.Holds fileAt? "default" (some text) ∧ Folder.Holds fileAt? environment none ∨
      Folder.Holds fileAt? "default" none ∧ Folder.Holds fileAt? environment (some text)) :
    ofText text = load environment fileAt? vars := by
  have known : Variable.SetKnown vars := by
    intro v hv name hname
    rw [hvars v hv] at hname
    cases hname
  have hnone : ∀ k, SettingVariables.value? ⟨vars, known⟩ k = none := by
    intro k
    rw [SettingVariables.value?, List.findSome?_eq_none_iff]
    intro v hv
    rw [Variable.valueOf?, hvars v (List.mem_reverse.1 hv)]
    rfl
  rw [ofText_eq file htext]
  rcases hfiles with ⟨hdefaults, hoverlay⟩ | ⟨hdefaults, hoverlay⟩
  · have hfound : SettingLayers.Found ⟨file, .absent, vars, known⟩ environment fileAt? :=
      ⟨htext ▸ hdefaults, hoverlay⟩
    rw [load_of_found hfound]
    simp [SettingLayers.value?, hnone, SettingsFile.value?_absent]
  · have hfound : SettingLayers.Found ⟨.absent, file, vars, known⟩ environment fileAt? :=
      ⟨hdefaults, htext ▸ hoverlay⟩
    rw [load_of_found hfound]
    simp [SettingLayers.value?, hnone, SettingsFile.value?_absent]

/-- What the layers of settings have to do with one another. -/
structure LayersOverride : Prop where
  /-- The variable `IBROKER__SECTION__KEY` holds the setting `section.key`. -/
  variableName : ∀ k : SettingKey, Variable.settingName? k.variableName = some k.name
  /-- Loading succeeds. Every setting has the value of its variable, else that of the file for the
  environment, else that of the file of defaults, and else the built-in one, whether its section is
  missing or is there without it. -/
  loads : ∀ (layers : SettingLayers) (environment : String) (fileAt? : String → Option String),
    layers.Found environment fileAt? →
    ∃ s, load environment fileAt? layers.env.vars = .ok s ∧
      ∀ k, s.value k = ((layers.env.value? k).or
        ((layers.overlay.value? k).or (layers.defaults.value? k))).getD (({} : Settings).value k)
  /-- Settings have no other parts than these. -/
  complete : ∀ s s' : Settings, (∀ k, s.value k = s'.value k) → s = s'
  /-- A setting does not depend on what the layers set elsewhere. -/
  apart : ∀ (layers layers' : SettingLayers) (environment environment' : String)
    (fileAt? fileAt?' : String → Option String) (k : SettingKey),
    layers.Found environment fileAt? → layers'.Found environment' fileAt?' →
    layers.AgreeAt layers' k →
    ∃ s s', load environment fileAt? layers.env.vars = .ok s ∧
      load environment' fileAt?' layers'.env.vars = .ok s' ∧ s.value k = s'.value k
  /-- A text of its own gives what it gives as the only file, that of defaults or the other. -/
  alone : ∀ (file : SettingsFile) (text environment : String) (fileAt? : String → Option String)
    (vars : List (String × String)), file.text? = some text → NoSettings vars →
    Folder.Holds fileAt? "default" (some text) ∧ Folder.Holds fileAt? environment none ∨
      Folder.Holds fileAt? "default" none ∧ Folder.Holds fileAt? environment (some text) →
    ofText text = load environment fileAt? vars

/-- Layers override one another setting by setting. -/
theorem layers_override : LayersOverride where
  variableName := SettingKey.settingName?_variableName
  loads layers environment fileAt? h := ⟨_, load_of_found h, fun k => value_ofValues _ k⟩
  complete _ _ := ext_value
  apart layers layers' environment environment' fileAt? fileAt?' k h h' hagree := by
    refine ⟨_, _, load_of_found h, load_of_found h', ?_⟩
    rw [value_ofValues, value_ofValues, SettingLayers.value?, SettingLayers.value?, hagree.defaults,
      hagree.overlay, hagree.env]
  alone file _ _ _ _ htext hvars hfiles := ofText_eq_load file htext hvars hfiles

/-! ### Settings behind a proxy -/

/-- A file of defaults that sets two of the nested settings. -/
def proxyDefaults : SettingsFile :=
  .ofText "[server.cors]\nallowed_origins = ['a.org', 'b.org']\nmax_age_seconds = 60\n"
    (by decide +kernel) (by decide +kernel)

/-- A file that replaces one of them, and sets another one beside their section. -/
def proxyOverlay : SettingsFile :=
  .ofText "[server]\nport = 8080\ncors.allowed_origins = ['c.org']\n"
    (by decide +kernel) (by decide +kernel)

/-- Variables, one of which holds a setting that a file sets too. -/
def proxyVariables : SettingVariables where
  vars := [("PATH", "/usr/bin"), ("IBROKER__SERVER__PORT", "8081")]
  known := by
    have hpath : Variable.settingName? "PATH" = none := by decide +kernel
    have hport : Variable.settingName? "IBROKER__SERVER__PORT" = some SettingKey.port.name := by
      decide +kernel
    intro v hv name hname
    obtain rfl | rfl : v = ("PATH", "/usr/bin") ∨ v = ("IBROKER__SERVER__PORT", "8081") := by
      simpa using hv
    · cases hpath.symm.trans hname
    · exact ⟨.port, Option.some.inj (hport.symm.trans hname), by decide +kernel⟩

/-- The two files in the settings folder. -/
def proxyFolder : Folder :=
  [("default.toml", proxyDefaults.text?.get rfl), ("proxy.toml", proxyOverlay.text?.get rfl)]

/-- Behind the proxy the port is that of the variable, the origins are those of the later file
alone, and the setting beside them stays that of the file of defaults. -/
theorem layers_override_proxy :
    ∃ s, load "proxy" proxyFolder.fileAt? proxyVariables.vars = .ok s ∧ s.server.port = 8081 ∧
      s.server.cors.allowedOrigins = ["c.org"] ∧ s.server.cors.maxAgeSeconds = 60 ∧
      s.server.cors.allowCredentials = false := by
  have hfound : SettingLayers.Found ⟨proxyDefaults, proxyOverlay, proxyVariables⟩ "proxy"
      proxyFolder.fileAt? := by
    have hdefault : Folder.IsDirect "default" := Folder.isDirect_of_not_mem (by decide) (by decide)
    have hproxy : Folder.IsDirect "proxy" := Folder.isDirect_of_not_mem (by decide) (by decide)
    exact ⟨.file hdefault (by decide +kernel) (by decide +kernel),
      .file hproxy (by decide +kernel) (by decide +kernel)⟩
  obtain ⟨s, hload, hvalue⟩ := layers_override.loads _ _ _ hfound
  refine ⟨s, hload, ?_, ?_, ?_, ?_⟩
  · exact (hvalue .port).trans (by decide +kernel)
  · exact (hvalue .allowedOrigins).trans (by decide +kernel)
  · exact (hvalue .maxAgeSeconds).trans (by decide +kernel)
  · exact (hvalue .allowCredentials).trans (by decide +kernel)

end Settings

end ExchangeCatalog
