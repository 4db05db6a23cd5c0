import ExchangeCatalog.Proofs.Http.Credentials
import ExchangeCatalog.Proofs.Http.Stores

/-!
# What a page of another origin may do

A browser shows a response to a page only if the response names the page's origin, or all origins,
and it sends cookies along only if the response allows credentials. Which headers a response carries
for this follows from the settings and the origin of the page alone: no route adds any, and entries
of the settings that cannot stand in a header are as good as not written.

## Main definitions

* `Response.values` — the values of a header of a response
* `CorsSettings.legible` — the settings without the entries that cannot stand in a header
* `AnswersOrigin` — what a response says to a page
* `FollowsCorsSettings` — every response of an application says what the settings ask for

## Main results

* `Response.IsPlain`, `Entity.isPlain_run_respond` — a route says nothing about origins
* `CorsPolicy.values_apply` — a policy says the same to a page in every response
* `CorsPolicy.allowedOrigin?_ofSettings` — which origin it names
* `CorsPolicy.ofSettings_legible` — entries that cannot stand in a header change no policy
* `cors_settings_followed` — the application of a server follows its settings
-/

namespace ExchangeCatalog

/-! ### Headers of responses -/

/-- The values of a header among others, in the order in which they stand. -/
def headerValuesOf (name : String) (headers : List (String × String)) : List String :=
  (headers.filter fun h => h.1 == name).map Prod.snd

/-- The values of a header of a response, in the order in which they are sent. -/
def Response.values (answer : Response) (name : String) : List String :=
  headerValuesOf name answer.headers

variable {name other : String}

@[simp] theorem headerValuesOf_nil : headerValuesOf name [] = [] := rfl

@[simp] theorem headerValuesOf_cons (value : String) (headers : List (String × String)) :
    headerValuesOf name ((other, value) :: headers) =
      if other = name then value :: headerValuesOf name headers
      else headerValuesOf name headers := by
  by_cases h : other = name <;> simp [headerValuesOf, h]

@[simp] theorem headerValuesOf_append (headers headers' : List (String × String)) :
    headerValuesOf name (headers ++ headers') =
      headerValuesOf name headers ++ headerValuesOf name headers' := by
  simp [headerValuesOf]

/-- A header that a response may have. -/
@[simp] theorem headerValuesOf_toList (value : Option String) :
    headerValuesOf name (value.map fun v => (other, v)).toList =
      if other = name then value.toList else [] := by
  cases value <;> simp

theorem headerValuesOf_eq_nil {headers : List (String × String)} (h : ∀ x ∈ headers, x.1 ≠ name) :
    headerValuesOf name headers = [] := by
  simpa [headerValuesOf] using h

/-- The headers of a response tell the type of its body and the methods of its path, no more. -/
def Response.IsPlain (answer : Response) : Prop :=
  ∀ h ∈ answer.headers, h.1 = "content-type" ∨ h.1 = "allow"

namespace Response

theorem isPlain_empty (status : Nat) : (empty status).IsPlain := by
  simp [IsPlain, empty]

theorem isPlain_json (status : Nat) (body : Json) : (json status body).IsPlain := by
  simp [IsPlain, json]

theorem isPlain_methodNotAllowed (allowed : String) : (methodNotAllowed allowed).IsPlain := by
  simp [IsPlain, methodNotAllowed]

theorem IsRefusal.isPlain {answer : Response} (h : answer.IsRefusal) : answer.IsPlain := by
  cases h with
  | fault fault => exact isPlain_json _ _
  | method allowed => exact isPlain_methodNotAllowed allowed

end Response

theorem Service.Operation.isPlain_conclude {e : Entity} (scheme : String) (r : Request)
    (op : Service.Operation e) (answer : op.Answer) : (op.conclude scheme r answer).IsPlain := by
  cases answer with
  | error fault => exact Response.isPlain_json _ _
  | ok result =>
    cases op with
    | delete id => exact Response.isPlain_empty 204
    | _ => exact Response.isPlain_json _ _

/-- However the questions of a request are answered, its response is plain. -/
theorem Entity.isPlain_run_respond {e : Entity} {σ : Type} (scheme : String) (place : Place)
    (r : Request) (answer : (c : Call e) → σ → c.Answer × σ) (s : σ) :
    ((e.respond scheme place r).run answer s).1.IsPlain := by
  rw [respond_eq]
  cases hasked : e.asked place r with
  | error refusal => exact (isRefusal_of_asked hasked).isPlain
  | ok op =>
    rw [exchangeOf, Plan.run_bind]
    exact op.isPlain_conclude scheme r _

theorem isPlain_healthResponse (backend : Except Fault String) :
    (healthResponse backend).IsPlain := by
  cases backend with
  | _ => exact Response.isPlain_json _ _

/-! ### What a policy says -/

namespace CorsPolicy

variable {answer : Response}

/-- What a policy says about credentials, if it allows them. -/
def credentialsValue? (p : CorsPolicy) : Option String :=
  if p.credentials then some "true" else none

private theorem commonHeaders_eq (p : CorsPolicy) (origin : Option String) :
    p.commonHeaders origin =
      ((p.allowedOrigin? origin).map fun v => ("access-control-allow-origin", v)).toList ++
        (p.credentialsValue?.map fun v => ("access-control-allow-credentials", v)).toList ++
        [("vary", "origin, access-control-request-method, access-control-request-headers")] := rfl

private theorem preflightHeaders_eq (p : CorsPolicy) :
    p.preflightHeaders =
      ((listValue? p.methods).map fun v => ("access-control-allow-methods", v)).toList ++
        ((allowanceValue? p.headers).map fun v => ("access-control-allow-headers", v)).toList ++
        [("access-control-max-age", String.ofList (Decimal.digits p.maxAge.toNat))] := rfl

private theorem apply_eq (p : CorsPolicy) (r : Request) (answer : Response) :
    (p.apply r answer).headers =
      if r.method = "OPTIONS" then
        p.commonHeaders (r.header? "origin") ++ p.preflightHeaders ++
          answer.headers.filter (fun h => h.1 == "allow")
      else
        p.commonHeaders (r.header? "origin") ++
          ((listValue? p.exposed).map fun v => ("access-control-expose-headers", v)).toList ++
          answer.headers := by
  rw [apply]
  split_ifs <;> rfl

/-- What a policy says about an origin and about credentials does not depend on the route. -/
theorem values_apply (p : CorsPolicy) (r : Request) (h : answer.IsPlain) :
    (p.apply r answer).values "access-control-allow-origin" =
        (p.allowedOrigin? (r.header? "origin")).toList ∧
      (p.apply r answer).values "access-control-allow-credentials" =
        p.credentialsValue?.toList := by
  have hplain : ∀ name, name ≠ "content-type" → name ≠ "allow" →
      headerValuesOf name answer.headers = [] ∧
        headerValuesOf name (answer.headers.filter fun h => h.1 == "allow") = [] := by
    intro name htype hallow
    have hne : ∀ x ∈ answer.headers, x.1 ≠ name := by
      intro x hx heq
      rcases h x hx with hx | hx
      · exact htype (heq.symm.trans hx)
      · exact hallow (heq.symm.trans hx)
    exact ⟨headerValuesOf_eq_nil hne,
      headerValuesOf_eq_nil fun x hx => hne x (List.mem_of_mem_filter hx)⟩
  obtain ⟨horigin, horigin'⟩ := hplain "access-control-allow-origin" (by decide) (by decide)
  obtain ⟨hcredentials, hcredentials'⟩ :=
    hplain "access-control-allow-credentials" (by decide) (by decide)
  rw [Response.values, Response.values, apply_eq]
  by_cases hmethod : r.method = "OPTIONS"
  · rw [if_pos hmethod]
    simp [commonHeaders_eq, preflightHeaders_eq, horigin', hcredentials']
  · rw [if_neg hmethod]
    simp [commonHeaders_eq, horigin, hcredentials]

end CorsPolicy

/-! ### What the settings ask for -/

/-- A text may be the value of a header: it has no control characters, apart from tabs. -/
def IsHeaderValue (v : String) : Prop :=
  ∀ c ∈ v.toList, (0x20 ≤ c.toNat ∧ c.toNat ≠ 0x7F) ∨ c = '\t'

instance (v : String) : Decidable (IsHeaderValue v) := List.decidableBAll _ v.toList

theorem headerValues_eq_filter (values : List String) :
    headerValues values = values.filter fun v => IsHeaderValue v := by
  refine List.filter_congr fun v _ => ?_
  rw [Bool.eq_iff_iff, decide_eq_true_iff, List.all_eq_true]
  simp [IsHeaderValue]

/-- The settings without the entries that cannot stand in a header as what they are meant for. -/
def CorsSettings.legible (c : CorsSettings) : CorsSettings :=
  { c with
    allowedOrigins := c.allowedOrigins.filter fun v => IsHeaderValue v
    allowedMethods := c.allowedMethods.filter isToken
    allowedHeaders := c.allowedHeaders.filter isHeaderName
    exposedHeaders := c.exposedHeaders.filter isHeaderName }

theorem hasWildcard_filter {keeps : String → Bool} (h : keeps "*") (values : List String) :
    hasWildcard (values.filter keeps) = hasWildcard values := by
  rw [Bool.eq_iff_iff, hasWildcard_iff, hasWildcard_iff, List.mem_filter]
  exact and_iff_left h

theorem headerNames_filter (values : List String) :
    headerNames (values.filter isHeaderName) = headerNames values := by
  rw [headerNames, headerNames, List.filter_filter]
  simp

namespace CorsPolicy

/-- Entries that cannot stand in a header change no policy. -/
theorem ofSettings_legible (c : CorsSettings) : ofSettings c.legible = ofSettings c := by
  have horigins : hasWildcard c.legible.allowedOrigins = hasWildcard c.allowedOrigins :=
    hasWildcard_filter (by decide) _
  have hheaders : hasWildcard c.legible.allowedHeaders = hasWildcard c.allowedHeaders :=
    hasWildcard_filter (by decide) _
  have hvalues : headerValues c.legible.allowedOrigins = headerValues c.allowedOrigins := by
    rw [headerValues_eq_filter, headerValues_eq_filter, CorsSettings.legible, List.filter_filter]
    simp
  have hmethods : c.legible.allowedMethods.filter isToken = c.allowedMethods.filter isToken := by
    rw [CorsSettings.legible, List.filter_filter]
    simp
  have hnames : headerNames c.legible.allowedHeaders = headerNames c.allowedHeaders :=
    headerNames_filter _
  have hexposed : headerNames c.legible.exposedHeaders = headerNames c.exposedHeaders :=
    headerNames_filter _
  rw [ofSettings, ofSettings, horigins, hheaders, hvalues, hmethods, hnames, hexposed]
  rfl

/-- The origin that is named to a page: all of them, its own, or none. -/
theorem allowedOrigin?_ofSettings (c : CorsSettings) (origin : String) :
    (ofSettings c).allowedOrigin? (some origin) =
      if "*" ∈ c.allowedOrigins then some "*"
      else if origin ∈ c.allowedOrigins ∧ IsHeaderValue origin then some origin
      else none := by
  by_cases hwildcard : "*" ∈ c.allowedOrigins
  · rw [if_pos hwildcard]
    simp [allowedOrigin?, ofSettings, hasWildcard, hwildcard]
  · have hlist : (ofSettings c).origins = .only (headerValues c.allowedOrigins) := by
      simp [ofSettings, hasWildcard, hwildcard]
    have hmem : (headerValues c.allowedOrigins).contains origin ↔
        origin ∈ c.allowedOrigins ∧ IsHeaderValue origin := by
      simp [headerValues_eq_filter]
    rw [if_neg hwildcard, allowedOrigin?, hlist]
    by_cases hlisted : origin ∈ c.allowedOrigins ∧ IsHeaderValue origin
    · rw [if_pos hlisted]
      exact if_pos (hmem.mpr hlisted)
    · rw [if_neg hlisted]
      exact if_neg (mt hmem.mp hlisted)

end CorsPolicy

/-- What a response says to a page of an origin, as settings ask for. -/
structure AnswersOrigin (c : CorsSettings) (origin : String) (answer : Response) : Prop where
  /-- All origins are allowed if the settings have a wildcard for them. -/
  everyone : answer.values "access-control-allow-origin" = ["*"] ↔ "*" ∈ c.allowedOrigins
  /-- Else the origin of the page is allowed if the settings list it, as a text that can stand in a
  header. An origin that reads like the wildcard would be named along with all others. -/
  own : answer.values "access-control-allow-origin" = [origin] ↔
    ("*" ∉ c.allowedOrigins ∧ origin ∈ c.allowedOrigins ∧ IsHeaderValue origin) ∨
      (origin = "*" ∧ "*" ∈ c.allowedOrigins)
  /-- Else no origin is allowed. -/
  nobody : answer.values "access-control-allow-origin" = [] ↔
    "*" ∉ c.allowedOrigins ∧ ¬ (origin ∈ c.allowedOrigins ∧ IsHeaderValue origin)
  /-- Credentials are allowed if the settings ask for them and have no wildcard for origins or
  headers. -/
  credentials : answer.values "access-control-allow-credentials" = ["true"] ↔
    c.allowCredentials ∧ "*" ∉ c.allowedOrigins ∧ "*" ∉ c.allowedHeaders
  /-- Else nothing is said of credentials. -/
  noCredentials : answer.values "access-control-allow-credentials" = [] ↔
    ¬ (c.allowCredentials ∧ "*" ∉ c.allowedOrigins ∧ "*" ∉ c.allowedHeaders)
  /-- Where credentials are allowed, it is not for all origins. -/
  apart : answer.values "access-control-allow-credentials" ≠ [] →
    "*" ∉ answer.values "access-control-allow-origin"

/-- A response that says what the policy of settings says. -/
theorem AnswersOrigin.of_policy {c : CorsSettings} {origin : String} {answer : Response}
    (horigin : answer.values "access-control-allow-origin" =
      ((CorsPolicy.ofSettings c).allowedOrigin? (some origin)).toList)
    (hcredentials : answer.values "access-control-allow-credentials" =
      (CorsPolicy.ofSettings c).credentialsValue?.toList) : AnswersOrigin c origin answer := by
  rw [CorsPolicy.allowedOrigin?_ofSettings] at horigin
  have hkeeps := CorsPolicy.credentials_ofSettings_iff (s := c)
  have hgranted : answer.values "access-control-allow-credentials" = ["true"] ↔
      c.KeepsCredentials := by
    rw [hcredentials, CorsPolicy.credentialsValue?, ← hkeeps]
    split_ifs with h <;> simp [h]
  have hdenied : answer.values "access-control-allow-credentials" = [] ↔
      ¬ c.KeepsCredentials := by
    rw [hcredentials, CorsPolicy.credentialsValue?, ← hkeeps]
    split_ifs with h <;> simp [h]
  by_cases hwildcard : "*" ∈ c.allowedOrigins
  · rw [if_pos hwildcard] at horigin
    refine ⟨?_, ?_, ?_, hgranted, hdenied, ?_⟩
    · simp [horigin, hwildcard]
    · simp [horigin, hwildcard, eq_comm]
    · simp [horigin, hwildcard]
    · intro hsome
      exact absurd hwildcard (not_not.mp (mt hdenied.mpr hsome)).2.1
  · rw [if_neg hwildcard] at horigin
    by_cases hlisted : origin ∈ c.allowedOrigins ∧ IsHeaderValue origin
    · -- A listed origin is no wildcard, for there is none in the list.
      have hne : origin ≠ "*" := fun heq => hwildcard (heq ▸ hlisted.1)
      rw [if_pos hlisted] at horigin
      refine ⟨?_, ?_, ?_, hgranted, hdenied, ?_⟩
      · simp [horigin, hwildcard, hne]
      · simp [horigin, hwildcard, hlisted]
      · simp [horigin, hlisted]
      · simp [horigin, hne.symm]
    · rw [if_neg hlisted] at horigin
      refine ⟨?_, ?_, ?_, hgranted, hdenied, ?_⟩
      · simp [horigin, hwildcard]
      · simp [horigin, hwildcard, hlisted]
      · simp [horigin, hwildcard, hlisted]
      · simp [horigin]

/-! ### The application -/

namespace Application

variable {app : Application} {r : Request}

/-- On stores in memory every response is that of a route, in its last form. -/
theorem exists_isPlain_onMemory (app : Application) (r : Request) (stores : Stores) :
    ∃ answer, answer.IsPlain ∧ (app.onMemory r stores).1 = app.complete r.normalized answer := by
  by_cases hhealth : app.asksHealth r.normalized
  · rw [onMemory_of_asksHealth hhealth]
    refine ⟨_, ?_, rfl⟩
    split_ifs
    · exact isPlain_healthResponse _
    · exact Response.isPlain_methodNotAllowed _
  · rw [onMemory_of_not_asksHealth hhealth]
    refine ⟨_, ?_, rfl⟩
    rcases serveStores_cases app.scheme r.normalized stores with
      ⟨-, hserve⟩ | ⟨before, m, after, place, -, -, -, hserve⟩
    · rw [hserve]
      exact Response.isPlain_empty 404
    · rw [hserve, Mount.serve, MemoryStore.run_eq_ask]
      exact Entity.isPlain_run_respond _ _ _ _ _

/-- On a database too. -/
theorem exists_isPlain_onDatabase (app : Application) (routes : List (String × Entity))
    (r : Request) (c : Connection) :
    ∃ answer, answer.IsPlain ∧
      (app.onDatabase routes r c).1 = app.complete r.normalized answer := by
  rw [onDatabase, statementPlan, Plan.run_bind]
  refine ⟨_, ?_, rfl⟩
  split_ifs
  · rw [Plan.run_bind]
    exact isPlain_healthResponse _
  · exact Response.isPlain_methodNotAllowed _
  · split
    · rw [Plan.run_through]
      exact Entity.isPlain_run_respond _ _ _ _ _
    · exact Response.isPlain_empty 404

/-- Every response in its last form says to a page what the settings ask for. -/
theorem answersOrigin_complete (s : Settings) {origin : String} {answer : Response}
    (horigin : r.header? "origin" = some origin) (hplain : answer.IsPlain) :
    AnswersOrigin s.server.cors origin ((ofSettings s).complete r answer) := by
  obtain ⟨hnamed, hcredentials⟩ :=
    (CorsPolicy.ofSettings s.server.cors).values_apply r hplain
  have hcors : (ofSettings s).cors = some (CorsPolicy.ofSettings s.server.cors) := rfl
  have hheaders : ((ofSettings s).complete r answer).headers =
      ((CorsPolicy.ofSettings s.server.cors).apply r answer).headers := by
    rw [complete, hcors]
    split_ifs <;> rfl
  rw [horigin] at hnamed
  refine .of_policy ?_ ?_
  · rw [← hnamed, Response.values, hheaders, Response.values]
  · rw [← hcredentials, Response.values, hheaders, Response.values]

end Application

/-- The application of a server says to pages of other origins what its settings ask for. -/
structure FollowsCorsSettings (s : Settings) : Prop where
  /-- Every response to a request with an origin does, on stores in memory with any rows. -/
  onMemory : ∀ (r : Request) (origin : String) (stores : Application.Stores),
    r.header? "origin" = some origin →
      AnswersOrigin s.server.cors origin ((Application.ofSettings s).onMemory r stores).1
  /-- So does every response on a database, whatever it replies. -/
  onDatabase : ∀ (routes : List (String × Entity)) (r : Request) (origin : String)
    (c : Connection), r.header? "origin" = some origin →
      AnswersOrigin s.server.cors origin ((Application.ofSettings s).onDatabase routes r c).1
  /-- Entries of any list that cannot stand in a header allow nothing: without them the
  application is the same. -/
  legible : Application.ofSettings
      { s with server := { s.server with cors := s.server.cors.legible } } =
    Application.ofSettings s

/-- The application of a server follows its settings, and it does so whether or not a server can
run with them. -/
theorem cors_settings_followed (s : Settings) : FollowsCorsSettings s where
  onMemory r origin stores horigin := by
    obtain ⟨answer, hplain, heq⟩ := (Application.ofSettings s).exists_isPlain_onMemory r stores
    rw [heq]
    exact Application.answersOrigin_complete s horigin hplain
  onDatabase routes r origin c horigin := by
    obtain ⟨answer, hplain, heq⟩ :=
      (Application.ofSettings s).exists_isPlain_onDatabase routes r c
    rw [heq]
    exact Application.answersOrigin_complete s horigin hplain
  legible := by
    rw [Application.ofSettings, Application.ofSettings, CorsPolicy.ofSettings_legible]

end ExchangeCatalog
