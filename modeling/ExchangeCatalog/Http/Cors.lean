import ExchangeCatalog.Http.Message
import ExchangeCatalog.Settings.Basic
import ExchangeCatalog.Text.Decimal

/-!
# Cross-origin requests

A browser asks whether a page of another origin may use the service. The answer follows from the
settings alone: which origins, methods and headers are allowed, whether credentials may be sent, and
which headers of a response may be read. Credentials are never combined with a wildcard for origins
or headers.

## Main definitions

* `CorsPolicy`, `CorsPolicy.ofSettings` — the policy that settings describe
* `CorsPolicy.IsUsable` — a policy that does not combine credentials with a wildcard
* `CorsPolicy.apply` — a response with the headers of the policy
-/

namespace ExchangeCatalog

/-- A list of values, or all values. -/
inductive Allowance
  | any
  | only (values : List String)
  deriving DecidableEq, Repr

/-- What cross-origin requests may do. -/
structure CorsPolicy where
  origins : Allowance
  methods : List String
  headers : Allowance
  exposed : List String
  credentials : Bool
  maxAge : UInt64
  deriving DecidableEq, Repr

/-- Whether a list of settings asks for everything. -/
def hasWildcard (values : List String) : Bool := values.contains "*"

/-- The entries that may be header names, in small letters; others are left out. -/
def headerNames (values : List String) : List String :=
  (values.filter isHeaderName).map fun v => String.ofList (v.toList.map Char.toLower)

/-- The entries that may be values of a header; others are left out. -/
def headerValues (values : List String) : List String :=
  values.filter fun v => v.toList.all fun c => (0x20 ≤ c.toNat && c.toNat != 0x7F) || c == '\t'

namespace CorsPolicy

/-- The policy that settings describe. A wildcard among the origins or the headers allows all of
them, and then there are no credentials. -/
def ofSettings (s : CorsSettings) : CorsPolicy where
  origins := if hasWildcard s.allowedOrigins then .any else .only (headerValues s.allowedOrigins)
  methods := s.allowedMethods.filter isToken
  headers := if hasWildcard s.allowedHeaders then .any else .only (headerNames s.allowedHeaders)
  exposed := headerNames s.exposedHeaders
  credentials := s.allowCredentials && !hasWildcard s.allowedOrigins &&
    !hasWildcard s.allowedHeaders
  maxAge := s.maxAgeSeconds

/-- The header value of a list; an empty list has none. -/
def listValue? (values : List String) : Option String :=
  if values.isEmpty then none else some (",".intercalate values)

/-- The header value of an allowance. -/
def allowanceValue? : Allowance → Option String
  | .any => some "*"
  | .only values => listValue? values

/-- With credentials no header of the policy is a wildcard. -/
def IsUsable (p : CorsPolicy) : Prop :=
  p.credentials = true →
    p.origins ≠ .any ∧ listValue? p.methods ≠ some "*" ∧ allowanceValue? p.headers ≠ some "*" ∧
      listValue? p.exposed ≠ some "*"

instance (p : CorsPolicy) : Decidable p.IsUsable := by unfold IsUsable; infer_instance

/-- The origin that a response names as allowed. -/
def allowedOrigin? (p : CorsPolicy) (origin : Option String) : Option String :=
  match p.origins with
  | .any => some "*"
  | .only values => origin.filter fun o => values.contains o

/-- A header, when it has a value. -/
private def header (name : String) (value : Option String) : List (String × String) :=
  (value.map fun v => (name, v)).toList

/-- The headers that every response carries. -/
def commonHeaders (p : CorsPolicy) (origin : Option String) : List (String × String) :=
  header "access-control-allow-origin" (p.allowedOrigin? origin) ++
    header "access-control-allow-credentials" (if p.credentials then some "true" else none) ++
    [("vary", "origin, access-control-request-method, access-control-request-headers")]

/-- The headers that answer a browser's question before a request. -/
def preflightHeaders (p : CorsPolicy) : List (String × String) :=
  header "access-control-allow-methods" (listValue? p.methods) ++
    header "access-control-allow-headers" (allowanceValue? p.headers) ++
    [("access-control-max-age", String.ofList (Decimal.digits p.maxAge.toNat))]

/-- A response under the policy. A question before a request, which is any with the method
`OPTIONS`, is answered in place of the service; of the service's own answer only the methods of the
path remain. -/
def apply (p : CorsPolicy) (r : Request) (answer : Response) : Response :=
  let common := p.commonHeaders (r.header? "origin")
  -- The service has answered already, but what it says about the path's methods is all that is
  -- kept.
  if r.method = "OPTIONS" then
    ⟨200, common ++ p.preflightHeaders ++ answer.headers.filter (fun h => h.1 == "allow"), none⟩
  else
    { answer with
      headers := common ++ header "access-control-expose-headers" (listValue? p.exposed) ++
        answer.headers }

end CorsPolicy

end ExchangeCatalog
