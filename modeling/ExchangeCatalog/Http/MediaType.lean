import ExchangeCatalog.Http.Message

/-!
# Media types

A body is taken only when its content type says that it is JSON: the type `application` with the
subtype `json`, or with a subtype to which the suffix `+json` is put.

## Main definitions

* `MediaType`, `MediaType.parse?` — a media type, its parameters checked and dropped
* `MediaType.isJson` — whether it says JSON
-/

namespace ExchangeCatalog

/-- A media type in small letters. The suffix is what follows the last plus sign of the subtype. -/
structure MediaType where
  type : String
  subtype : String
  suffix : Option String
  deriving DecidableEq, Repr

namespace MediaType

/-- A value between quotes, from behind the opening quote: what follows its closing quote. The value
is not empty, and its first character may be a quote. -/
private def quotedEnd? (cs : List Char) : Option (List Char) :=
  match cs with
  | [] => none
  | c :: rest =>
    let allowed := fun (c : Char) => 0x1F < c.toNat && c.toNat != 0x7F
    if ¬ allowed c then none
    else
      match Text.cutFirst? '"' rest with
      | some (value, after) => if value.all allowed then some after else none
      | none => none

/-- What follows a parameter's value: the text behind the next semicolon, or nothing. -/
private def valueEnd? (cs : List Char) : Option (List Char) :=
  match cs with
  | '"' :: rest =>
    (quotedEnd? rest).bind fun after =>
      match after.dropWhile fun c => c == ' ' with
      | [] => some []
      | ';' :: more => some more
      | _ => none
  | _ =>
    match cs.takeWhile isTokenChar, cs.dropWhile isTokenChar with
    | _, [] => some []
    | _ :: _, ';' :: more => some more
    | _, _ => none

private theorem length_of_quotedEnd? {cs after : List Char} (h : quotedEnd? cs = some after) :
    after.length ≤ cs.length := by
  unfold quotedEnd? at h
  split at h
  · simp at h
  · simp only at h
    split at h
    · simp at h
    · split at h
      · rename_i hcut
        have := Text.eq_of_cutFirst? hcut
        split at h
        · simp_all; omega
        · simp at h
      · simp at h

private theorem length_of_valueEnd? {cs after : List Char} (h : valueEnd? cs = some after) :
    after.length ≤ cs.length := by
  unfold valueEnd? at h
  split at h
  · obtain ⟨behind, hquoted, hrest⟩ := Option.bind_eq_some_iff.1 h
    have := length_of_quotedEnd? hquoted
    have hblank := (List.dropWhile_suffix (fun c => c == ' ') (l := behind)).length_le
    split at hrest
    all_goals simp_all
    all_goals omega
  · have htail := (List.dropWhile_suffix isTokenChar (l := cs)).length_le
    split at h
    all_goals simp_all
    all_goals omega

/-- Whether a text is a row of parameters, each a name, an equals sign and a value, with semicolons
between. Blanks may stand before a name only. -/
def parametersValid (cs : List Char) : Bool :=
  match hblank : cs.dropWhile fun c => c == ' ' with
  | [] => true
  | c :: rest =>
    match hname : (c :: rest).dropWhile isTokenChar with
    | '=' :: value =>
      if (c :: rest).takeWhile isTokenChar = [] then false
      else match hvalue : valueEnd? value with
        | some after =>
          have : after.length < cs.length := by
            have h₁ := (List.dropWhile_suffix (fun c => c == ' ') (l := cs)).length_le
            have h₂ := (List.dropWhile_suffix isTokenChar (l := c :: rest)).length_le
            have h₃ := length_of_valueEnd? hvalue
            rw [hblank] at h₁
            rw [hname] at h₂
            simp only [List.length_cons] at h₁ h₂
            omega
          parametersValid after
        | none => false
    | _ => false
termination_by cs.length

/-- The media type that a header names. -/
def parse? (s : String) : Option MediaType :=
  let cs := s.toList.map Char.toLower
  match cs.takeWhile isTokenChar, cs.dropWhile isTokenChar with
  | type@(_ :: _), '/' :: rest =>
    match rest.takeWhile isTokenChar, rest.dropWhile isTokenChar with
    -- The suffix has something before it, so the plus sign is looked for behind the first
    -- character.
    | first :: more, tail =>
      let valid := match tail with
        | [] => true
        | ';' :: parameters => parametersValid parameters
        | _ => false
      let (subtype, suffix) := match Text.cutLast? '+' more with
        | some (a, b) => (first :: a, some (String.ofList b))
        | none => (first :: more, none)
      if valid then some ⟨String.ofList type, String.ofList subtype, suffix⟩ else none
    | _, _ => none
  | _, _ => none

/-- Whether a media type says that a body is JSON. -/
def isJson (m : MediaType) : Bool :=
  m.type == "application" && (m.subtype == "json" || m.suffix == some "json")

end MediaType

/-- Whether a request says that its body is JSON. -/
def Request.hasJsonBody (r : Request) : Bool :=
  match (r.headerText? "content-type").bind MediaType.parse? with
  | some m => m.isJson
  | none => false

end ExchangeCatalog
