import ExchangeCatalog.Json.Outline
import ExchangeCatalog.Proofs.Json.Numbers
import ExchangeCatalog.Proofs.Json.Strings

/-!
# Reading flat JSON objects back

An object whose members are scalar values is read back from its text: the outline of the text is
that of the object, with the members in the order in which they were written. Numbers must be
integers that fit a word, signed or unsigned; a text may be any.

## Main definitions

* `Json.flat` — an object whose members are scalar values
* `Json.Scalar.IsExact` — a scalar value that is read as it is written

## Main results

* `Json.nextToken?_scalarChars_append` — a written scalar value is its token
* `Json.tokens_render_flat` — the tokens of a written flat object
* `Json.outline_render_flat` — the outline of a written flat object
-/

namespace ExchangeCatalog.Json

open Utf8 (encodeChars)

variable {acc : List Token} {bs rest : List UInt8} {t : Token} {s : Scalar} {key : String}
  {members : List (String × Scalar)}

/-! ### Scalars -/

/-- A scalar value that is read as it is written: no floating point, and no integer beyond the
words. -/
def Scalar.IsExact : Scalar → Prop
  | .null | .bool _ | .string _ => True
  | .number (.integer i) => -0x8000000000000000 ≤ i ∧ i < UInt64.size
  | .number (.real _) => False

/-- A written scalar value is its token, where a number may end. -/
theorem nextToken?_scalarChars_append (hs : s.IsExact) (hrest : EndsNumber rest) :
    nextToken? (encodeChars (scalarChars s) ++ rest) = some (.scalar s, rest) := by
  cases s with
  | null => rfl
  | bool b =>
    cases b with
    | false => rfl
    | true => rfl
  | number n =>
    cases n with
    | integer i => exact nextToken?_ofInt_append hs.1 hs.2 hrest
    | real x => exact hs.elim
  | string text => exact nextToken?_stringChars_append text rest

/-! ### Tokens in a row -/

/-- No token begins with a space. -/
theorem dropWhile_isSpace_of_nextToken? (h : nextToken? bs = some (t, rest)) :
    bs.dropWhile isSpace = bs := by
  cases bs with
  | nil => cases h
  | cons b bs =>
    refine List.dropWhile_cons_of_neg ?_
    rw [isSpace, Bool.or_eq_true, Bool.or_eq_true, Bool.or_eq_true, beq_iff_eq, beq_iff_eq,
      beq_iff_eq, beq_iff_eq]
    rintro (((rfl | rfl) | rfl) | rfl)
    all_goals cases h

/-- A token at the front is taken before the tokens after it. -/
theorem tokensFrom_of_nextToken? (h : nextToken? bs = some (t, rest)) :
    tokensFrom acc bs = tokensFrom (t :: acc) rest := by
  have hdrop := dropWhile_isSpace_of_nextToken? h
  rw [tokensFrom]
  split
  case h_1 heq =>
    rw [hdrop] at heq
    rw [heq] at h
    cases h
  case h_2 b more heq =>
    rw [hdrop] at heq
    subst heq
    split
    case h_1 hnone => cases hnone.symm.trans h
    case h_2 t' rest' hsome =>
      obtain ⟨rfl, rfl⟩ := Prod.mk.inj (Option.some.inj (hsome.symm.trans h))
      rfl

/-! ### Flat objects -/

/-- An object whose members are scalar values. -/
def flat (members : List (String × Scalar)) : Json :=
  .object (members.map fun m => (m.1, .scalar m.2))

/-- The tokens of a member of a flat object. -/
def memberTokens (m : String × Scalar) : List Token := [.scalar (.string m.1), .colon, .scalar m.2]

/-- The tokens of a flat object after its first member. -/
def closingTokens : List (String × Scalar) → List Token
  | [] => [.closeObject]
  | m :: ms => .comma :: memberTokens m ++ closingTokens ms

/-- The tokens of a flat object. -/
def flatTokens : List (String × Scalar) → List Token
  | [] => [.openObject, .closeObject]
  | m :: ms => .openObject :: memberTokens m ++ closingTokens ms

/-- The characters of a flat object after its first member. -/
def closingChars (members : List (String × Scalar)) : List Char :=
  membersChars (members.map fun m => (m.1, .scalar m.2))

theorem endsNumber_closingChars (members : List (String × Scalar)) :
    EndsNumber (encodeChars (closingChars members)) := by
  intro b hb
  cases members with
  | nil =>
    cases hb
    decide
  | cons m ms =>
    rw [closingChars, List.map_cons, membersChars] at hb
    cases hb
    decide

/-- A member is taken as its three tokens. -/
theorem tokensFrom_member (hs : s.IsExact) (hrest : EndsNumber rest) :
    tokensFrom acc (encodeChars (stringChars key ++ ':' :: scalarChars s) ++ rest) =
      tokensFrom ((memberTokens (key, s)).reverse ++ acc) rest := by
  rw [Utf8.encodeChars_append, List.append_assoc,
    tokensFrom_of_nextToken? (nextToken?_stringChars_append key _), Utf8.encodeChars_cons,
    List.append_assoc]
  have hcolon : ∀ bs, nextToken? (String.utf8EncodeChar ':' ++ bs) = some (.colon, bs) :=
    fun _ => rfl
  rw [tokensFrom_of_nextToken? (hcolon _),
    tokensFrom_of_nextToken? (nextToken?_scalarChars_append hs hrest)]
  rfl

/-- The rest of a flat object is cut into its tokens. -/
theorem tokensFrom_closingChars (h : ∀ m ∈ members, m.2.IsExact) :
    tokensFrom acc (encodeChars (closingChars members)) =
      (acc.reverse ++ closingTokens members, true) := by
  induction members generalizing acc with
  | nil =>
    have hclose : nextToken? (encodeChars (closingChars [])) = some (.closeObject, []) := rfl
    rw [tokensFrom_of_nextToken? hclose, tokensFrom]
    simp [closingTokens]
  | cons m ms ih =>
    obtain ⟨hm, hms⟩ := List.forall_mem_cons.mp h
    have hcomma : nextToken? (encodeChars (closingChars (m :: ms))) =
        some (.comma, encodeChars (stringChars m.1 ++ ':' :: scalarChars m.2) ++
          encodeChars (closingChars ms)) := by
      rw [← Utf8.encodeChars_append, closingChars, List.map_cons, membersChars]
      rfl
    rw [tokensFrom_of_nextToken? hcomma, tokensFrom_member hm (endsNumber_closingChars ms), ih hms]
    simp [closingTokens]

/-- The tokens of a written flat object. -/
theorem tokens_render_flat (h : ∀ m ∈ members, m.2.IsExact) :
    tokens (Utf8.encode (render (flat members))) = (flatTokens members, true) := by
  rw [render, Utf8.encode_ofList, tokens]
  cases members with
  | nil =>
    have hopen : nextToken? (encodeChars (chars (flat []))) =
        some (.openObject, encodeChars (closingChars [])) := by
      rw [flat, List.map_nil, chars]
      rfl
    rw [tokensFrom_of_nextToken? hopen, tokensFrom_closingChars h]
    rfl
  | cons m ms =>
    obtain ⟨hm, hms⟩ := List.forall_mem_cons.mp h
    have hopen : nextToken? (encodeChars (chars (flat (m :: ms)))) =
        some (.openObject, encodeChars (stringChars m.1 ++ ':' :: scalarChars m.2) ++
          encodeChars (closingChars ms)) := by
      rw [← Utf8.encodeChars_append, flat, List.map_cons, chars]
      rfl
    rw [tokensFrom_of_nextToken? hopen, tokensFrom_member hm (endsNumber_closingChars ms),
      tokensFrom_closingChars hms]
    simp [flatTokens]

/-! ### Outlines -/

theorem takeValue?_scalar (s : Scalar) (ts : List Token) :
    takeValue? (.scalar s :: ts) = some (.scalar s, ts) := rfl

/-- The members of a flat object are outlined in order. -/
theorem outlineMembers_flat (found : List (String × Item)) (m : String × Scalar)
    (members : List (String × Scalar)) :
    outlineMembers found (memberTokens m ++ closingTokens members) =
      (found.reverse ++ (m :: members).map (fun m => (m.1, ⟨.scalar m.2, true⟩)), true, []) := by
  induction members generalizing found m with
  | nil =>
    rw [memberTokens, outlineMembers.eq_def]
    simp [takeValue?_scalar, closingTokens, headOf]
  | cons m' ms ih =>
    rw [memberTokens, outlineMembers.eq_def]
    simp [takeValue?_scalar, closingTokens, headOf, ih]

/-- The outline of a written flat object is that of the object. -/
theorem outline_render_flat (h : ∀ m ∈ members, m.2.IsExact) :
    outline (Utf8.encode (render (flat members))) = (flat members).toOutline := by
  simp only [outline, tokens_render_flat h]
  cases members with
  | nil => rfl
  | cons m ms =>
    have hlayer : layerOf (flatTokens (m :: ms)) =
        (.object ((m :: ms).map fun m => (m.1, ⟨.scalar m.2, true⟩)) true, []) := by
      have hmembers := outlineMembers_flat [] m ms
      simp only [memberTokens, List.cons_append, List.nil_append, List.reverse_nil] at hmembers
      simp only [flatTokens, memberTokens, List.cons_append, List.nil_append, layerOf, hmembers]
    rw [hlayer]
    simp [flat, toOutline, head]

end ExchangeCatalog.Json
