import ExchangeCatalog.Json.Token

/-!
# Reading JSON values

Tokens are put together by a machine whose stack holds the unfinished arrays and objects around the
next token, so a value may be nested to any depth. A value that is only skipped is read in the same
way: a scalar that stands for nothing does not hinder it.

## Main definitions

* `Json.takeValue?` — the value at the front of a row of tokens, and the tokens after it
* `Json.read?` — the value that a text consists of
-/

namespace ExchangeCatalog.Json

/-- An unfinished array or object, its parts so far in reverse. -/
inductive Frame
  | array (items : List Json)
  | object (members : List (String × Json)) (key : String)

/-- What may come next. -/
inductive Expected
  | value
  | valueOrEnd
  | keyOrEnd
  | key
  | colon
  | commaOrEnd

/-- The value of a token that is a scalar; one that stands for nothing counts as `null`. -/
def Token.scalarValue? : Token → Option Json
  | .scalar s => some (.scalar s)
  | .textlessString | .boundlessNumber => some .null
  | _ => none

/-- The text of a token in the place of a key. A string that spells nothing is still a string. -/
def Token.key? : Token → Option String
  | .scalar (.string k) => some k
  | .textlessString => some ""
  | _ => none

/-- What a finished value is put into, by the frame around it. -/
def Frame.add (v : Json) : Frame → Frame
  | .array items => .array (v :: items)
  | .object members key => .object ((key, v) :: members) ""

/-- The value of a frame that is closed. -/
def Frame.close : Frame → Json
  | .array items => .array items.reverse
  | .object members _ => .object members.reverse

/-- Whether a closing bracket fits a frame. -/
def Frame.closedBy : Frame → Token → Bool
  | .array _, .closeArray => true
  | .object _ _, .closeObject => true
  | _, _ => false

/-- Puts tokens together, inside the given frames, until the outermost value is complete. -/
def build : Expected → List Frame → List Token → Option (Json × List Token)
  | _, _, [] => none
  | expected, frames, t :: ts =>
    let finish := fun (v : Json) (frames : List Frame) =>
      match frames with
      | [] => some (v, ts)
      | f :: fs => build .commaOrEnd (f.add v :: fs) ts
    let close := fun (_ : Unit) =>
      match frames with
      | f :: fs => if f.closedBy t then finish f.close fs else none
      | [] => none
    let value := fun (_ : Unit) =>
      match t with
      | .openArray => build .valueOrEnd (.array [] :: frames) ts
      | .openObject => build .keyOrEnd (.object [] "" :: frames) ts
      | _ =>
        match t.scalarValue? with
        | some v => finish v frames
        | none => none
    let key := fun (_ : Unit) =>
      match frames, t.key? with
      | .object members _ :: fs, some k => build .colon (.object members k :: fs) ts
      | _, _ => none
    -- A closing bracket is welcome after an opening one and after a part, but not after a comma.
    match expected, t with
    | .value, _ => value ()
    | .valueOrEnd, .closeArray => close ()
    | .valueOrEnd, _ => value ()
    | .keyOrEnd, .closeObject => close ()
    | .keyOrEnd, _ => key ()
    | .key, _ => key ()
    | .colon, .colon => build .value frames ts
    | .colon, _ => none
    | .commaOrEnd, .comma =>
      match frames with
      | .array _ :: _ => build .value frames ts
      | .object _ _ :: _ => build .key frames ts
      | [] => none
    | .commaOrEnd, _ => close ()

/-- The value at the front of a row of tokens, and the tokens after it. -/
def takeValue? (ts : List Token) : Option (Json × List Token) := build .value [] ts

/-- Whether a token stands for something. -/
def Token.isUsable : Token → Bool
  | .textlessString | .boundlessNumber => false
  | _ => true

/-- The value that a text consists of: one value, every scalar of it usable, and nothing after
it. -/
def read? (bs : List UInt8) : Option Json :=
  match tokens bs with
  | (ts, true) =>
    if ts.all Token.isUsable then
      match takeValue? ts with
      | some (v, []) => some v
      | _ => none
    else none
  | (_, false) => none

/-! ### Reading a value uses up tokens -/

theorem length_of_build {e : Expected} {fs : List Frame} {ts rest : List Token} {v : Json}
    (h : build e fs ts = some (v, rest)) : rest.length < ts.length := by
  induction ts generalizing e fs with
  | nil => simp [build] at h
  | cons t ts ih =>
    have finish : ∀ (v' : Json) (fs : List Frame),
        (match fs with
          | [] => some (v', ts)
          | f :: fs => build .commaOrEnd (f.add v' :: fs) ts) = some (v, rest) →
        rest.length < (t :: ts).length := by
      intro v' fs hf
      split at hf
      · obtain ⟨-, rfl⟩ := Prod.mk.inj (Option.some.inj hf)
        simp
      · have := ih hf
        simp only [List.length_cons]
        omega
    have step : ∀ {e : Expected} {fs : List Frame}, build e fs ts = some (v, rest) →
        rest.length < (t :: ts).length := by
      intro e fs hs
      have := ih hs
      simp only [List.length_cons]
      omega
    unfold build at h
    grind

theorem length_of_takeValue? {ts rest : List Token} {v : Json}
    (h : takeValue? ts = some (v, rest)) : rest.length < ts.length := length_of_build h

end ExchangeCatalog.Json
