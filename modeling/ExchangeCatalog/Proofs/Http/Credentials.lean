import ExchangeCatalog.Server
import Mathlib.Data.List.Basic

/-!
# Credentials and wildcards

With credentials a cross-origin policy must not have a wildcard for the value of any of its four
lists, or the application cannot be put together. Settings that ask for both lose the credentials,
but only when the wildcard is among the origins or the headers. A wildcard that stands alone among
the methods, or among the headers that may be read, is not noticed, and the server that meets it
crashes when it starts.

## Main definitions

* `CorsSettings.KeepsCredentials` — credentials are asked for and not given up

## Main results

* `CorsPolicy.listValue?_eq_wildcard_iff` — the value of a list is a wildcard when nothing else is
  in the list
* `CorsPolicy.isUsable_ofSettings_iff` — the settings that describe a usable policy
* `Application.usable_iff_no_lone_wildcard` — the settings with which a server can run
-/

namespace ExchangeCatalog

variable {values : List String}

/-! ### Values of lists -/

theorem hasWildcard_iff : hasWildcard values ↔ "*" ∈ values := by
  simp [hasWildcard]

namespace CorsPolicy

/-- The value of a list is a wildcard when nothing else is in the list: two values have a comma
between them. -/
theorem listValue?_eq_wildcard_iff : listValue? values = some "*" ↔ values = ["*"] := by
  cases values with
  | nil => simp [listValue?]
  | cons v values =>
    cases values with
    | nil => simp [listValue?]
    | cons w values =>
      have hcomma : ',' ∈ (",".intercalate (v :: w :: values)).toList := by simp
      refine iff_of_false ?_ (by simp)
      intro hstar
      rw [Option.some.inj hstar] at hcomma
      exact absurd hcomma (by decide)

end CorsPolicy

/-- No other character has the star for its small letter. -/
theorem toLower_eq_star_iff {c : Char} : c.toLower = '*' ↔ c = '*' := by
  constructor
  · intro hstar
    unfold Char.toLower at hstar
    split_ifs at hstar with hupper
    · -- The small letters stand behind the star.
      have hval : c.val + 32 = 42 := congrArg Char.val hstar
      have hlow : 65 ≤ c.val := hupper.1
      have hhigh : c.val ≤ 90 := hupper.2
      grind
    · exact hstar
  · rintro rfl
    rfl

/-- The names of headers are a lone wildcard when nothing else in the list can be one. -/
theorem headerNames_eq_wildcard_iff :
    headerNames values = ["*"] ↔ values.filter isHeaderName = ["*"] := by
  have hstar : ∀ v : String, String.ofList (v.toList.map Char.toLower) = "*" ↔ v = "*" := by
    intro v
    constructor
    · intro hlower
      have hlist : v.toList.map Char.toLower = ['*'] := by
        rw [← String.toList_ofList (l := v.toList.map Char.toLower), hlower]
        rfl
      obtain ⟨c, hc, hcstar⟩ := List.map_eq_singleton_iff.mp hlist
      rw [toLower_eq_star_iff] at hcstar
      apply String.toList_injective
      rw [hc, hcstar]
      rfl
    · rintro rfl
      rfl
  rw [headerNames, List.map_eq_singleton_iff]
  constructor
  · rintro ⟨v, hv, hlower⟩
    rw [hv, (hstar v).mp hlower]
  · intro hfilter
    exact ⟨"*", hfilter, (hstar "*").mpr rfl⟩

/-! ### Usable policies -/

/-- Credentials are asked for, and not given up for a wildcard among the origins or the headers. -/
def CorsSettings.KeepsCredentials (s : CorsSettings) : Prop :=
  s.allowCredentials ∧ "*" ∉ s.allowedOrigins ∧ "*" ∉ s.allowedHeaders

namespace CorsPolicy

variable {s : CorsSettings}

theorem credentials_ofSettings_iff : (ofSettings s).credentials ↔ s.KeepsCredentials := by
  simp [ofSettings, CorsSettings.KeepsCredentials, hasWildcard, and_assoc]

/-- Origins that are listed have no wildcard among them. -/
theorem not_mem_of_origins (h : (ofSettings s).origins = .only values) : "*" ∉ values := by
  by_cases hwildcard : hasWildcard s.allowedOrigins
  · simp [ofSettings, hwildcard] at h
  · simp only [ofSettings, hwildcard] at h
    cases h
    intro hmem
    exact hwildcard (hasWildcard_iff.mpr (List.mem_of_mem_filter hmem))

/-- A list without a wildcard does not become a lone one when entries are left out. -/
theorem filter_isHeaderName_ne (h : "*" ∉ values) : values.filter isHeaderName ≠ ["*"] := by
  intro hstar
  have hmem : "*" ∈ values.filter isHeaderName := by
    rw [hstar]
    exact List.mem_singleton_self "*"
  exact h (List.mem_of_mem_filter hmem)

/-- The settings describe a usable policy unless they keep the credentials and have a wildcard that
stands alone among the methods or among the headers that may be read. -/
theorem isUsable_ofSettings_iff :
    (ofSettings s).IsUsable ↔ (s.KeepsCredentials →
      s.allowedMethods.filter isToken ≠ ["*"] ∧
        s.exposedHeaders.filter isHeaderName ≠ ["*"]) := by
  rw [IsUsable, credentials_ofSettings_iff]
  refine forall_congr' ?_
  rintro ⟨-, horigins, hheaders⟩
  have horigin : (ofSettings s).origins ≠ .any := by simp [ofSettings, hasWildcard, horigins]
  have hmethod : listValue? (ofSettings s).methods ≠ some "*" ↔
      s.allowedMethods.filter isToken ≠ ["*"] := not_congr listValue?_eq_wildcard_iff
  have hheader : allowanceValue? (ofSettings s).headers ≠ some "*" := by
    have hnamed : (ofSettings s).headers = .only (headerNames s.allowedHeaders) := by
      simp [ofSettings, hasWildcard, hheaders]
    rw [hnamed, allowanceValue?, ne_eq, listValue?_eq_wildcard_iff, headerNames_eq_wildcard_iff]
    exact filter_isHeaderName_ne hheaders
  have hexposed : listValue? (ofSettings s).exposed ≠ some "*" ↔
      s.exposedHeaders.filter isHeaderName ≠ ["*"] :=
    not_congr (listValue?_eq_wildcard_iff.trans headerNames_eq_wildcard_iff)
  constructor
  · rintro ⟨-, hmethods, -, hexposes⟩
    exact ⟨hmethod.mp hmethods, hexposed.mp hexposes⟩
  · rintro ⟨hmethods, hexposes⟩
    exact ⟨horigin, hmethod.mpr hmethods, hheader, hexposed.mpr hexposes⟩

end CorsPolicy

/-! ### The server -/

namespace Application

theorem isUsable_ofSettings_iff {s : Settings} :
    (ofSettings s).IsUsable ↔ (CorsPolicy.ofSettings s.server.cors).IsUsable := by
  simp [IsUsable, ofSettings]

/-- A server can run with its cross-origin settings unless these keep the credentials and have a
wildcard that stands alone among the methods or among the headers that may be read; then it crashes
before it listens. A wildcard among listed origins is no trouble, for there is none. -/
theorem usable_iff_no_lone_wildcard (s : Settings) :
    ((ofSettings s).IsUsable ↔ (s.server.cors.KeepsCredentials →
        s.server.cors.allowedMethods.filter isToken ≠ ["*"] ∧
          s.server.cors.exposedHeaders.filter isHeaderName ≠ ["*"])) ∧
      (∀ values, (CorsPolicy.ofSettings s.server.cors).origins = .only values → "*" ∉ values) ∧
      ∀ w, Server.listen s w = .crashed ↔ ¬ (ofSettings s).IsUsable := by
  refine ⟨isUsable_ofSettings_iff.trans CorsPolicy.isUsable_ofSettings_iff,
    fun values => CorsPolicy.not_mem_of_origins, ?_⟩
  intro w
  rw [Server.listen]
  split_ifs with husable
  · simp [husable]
  · simp [husable]
  · simp [husable]

/-- Settings with credentials for one origin and one header, and a wildcard for the methods. -/
def wildcardMethods : Settings where
  server := { cors := { allowedOrigins := ["https://a.example"], allowedMethods := ["*"],
                        allowedHeaders := ["a"], allowCredentials := true } }
  database := { backend := .memory }

/-- No application can be put together with these settings: the server crashes on a free address. -/
theorem wildcardMethods_not_usable :
    ¬ (ofSettings wildcardMethods).IsUsable ∧
      Server.run wildcardMethods ⟨fun _ => none, fun _ => true⟩ = .crashed := by
  decide +kernel

end Application

end ExchangeCatalog
