import ExchangeCatalog.Proofs.Json.Members

/-!
# The outline of a text that can be read

A text that can be read as a value has the outline of that value, so a reader of outlines meets the
same parts in the text as in the value. The reader of values keeps its unfinished arrays and objects
on a stack. What it does with one token is a move; a move takes no notice of what is below in the
stack, so a part of an array or of an object is read as if it stood alone.

## Main definitions

* `Json.Move`, `Json.move` — what the reader does with one token
* `Json.Ready` — the reader has something to fill, or begins with a value

## Main results

* `Json.build_cons` — reading is one move after another
* `Json.build_append` — what is below in the stack waits for the value above it
* `Json.headOf_of_takeValue?` — the first token of a value tells how it begins
* `Json.outlineItems_of_build`, `Json.outlineMembers_of_build` — the parts of an array or object
* `Json.outline_of_read?` — a text that can be read has the outline of its value
-/

namespace ExchangeCatalog.Json

variable {e e' : Expected} {f g : Frame} {fs fs' gs : List Frame} {t : Token} {ts rest : List Token}
  {v : Json}

/-! ### Moves -/

/-- What the reader does with one token. -/
inductive Move
  | go (e : Expected) (frames : List Frame)
  | done (v : Json)
  | stuck

namespace Move

/-- A value is finished inside some frames. -/
def finish (v : Json) : List Frame → Move
  | [] => done v
  | f :: fs => go .commaOrEnd (f.add v :: fs)

/-- The innermost frame is closed by a token. -/
def close (t : Token) : List Frame → Move
  | [] => stuck
  | f :: fs => if f.closedBy t then finish f.close fs else stuck

/-- A value begins with a token. -/
def value (fs : List Frame) : Token → Move
  | .openArray => go .valueOrEnd (.array [] :: fs)
  | .openObject => go .keyOrEnd (.object [] "" :: fs)
  | t =>
    match t.scalarValue? with
    | some v => finish v fs
    | none => stuck

/-- A token is a key. -/
def key (t : Token) : List Frame → Move
  | .object members _ :: fs =>
    match t.key? with
    | some k => go .colon (.object members k :: fs)
    | none => stuck
  | _ => stuck

/-- A part of the innermost frame is followed by another. -/
def next : List Frame → Move
  | [] => stuck
  | .array items :: fs => go .value (.array items :: fs)
  | .object members key :: fs => go .key (.object members key :: fs)

/-- What the reader does with the next token. -/
def of (fs : List Frame) (t : Token) : Expected → Move
  | .value => value fs t
  | .valueOrEnd => if t = .closeArray then close t fs else value fs t
  | .keyOrEnd => if t = .closeObject then close t fs else key t fs
  | .key => key t fs
  | .colon => if t = .colon then go .value fs else stuck
  | .commaOrEnd => if t = .comma then next fs else close t fs

/-- Goes on from a move with the tokens that are left. -/
def resume (ts : List Token) : Move → Option (Json × List Token)
  | go e fs => build e fs ts
  | done v => some (v, ts)
  | stuck => none

end Move

/-- Reading is one move after another. -/
theorem build_cons (e : Expected) (fs : List Frame) (t : Token) (ts : List Token) :
    build e fs (t :: ts) = (Move.of fs t e).resume ts := by
  -- The reader looks at the token, at what it expects and at the innermost frame, all at once.
  cases t with
  | scalar s =>
    rcases fs with _ | ⟨_ | _, _ | _⟩
    all_goals cases s <;> cases e <;> rfl
  | _ =>
    rcases fs with _ | ⟨_ | _, _ | _⟩
    all_goals cases e <;> rfl

/-! ### What is below in the stack -/

/-- The reader begins with a value, or has a frame to fill. -/
def Ready (e : Expected) (fs : List Frame) : Prop := e = .value ∨ fs ≠ []

namespace Move

/-- The same move with more frames below: a value that would be the result is put into the first of
them. -/
def above (g : Frame) (gs : List Frame) : Move → Move
  | go e fs => go e (fs ++ g :: gs)
  | done v => go .commaOrEnd (g.add v :: gs)
  | stuck => stuck

theorem finish_append (v : Json) (fs : List Frame) (g : Frame) (gs : List Frame) :
    finish v (fs ++ g :: gs) = (finish v fs).above g gs := by
  cases fs with
  | _ => rfl

theorem close_append (h : fs ≠ []) (g : Frame) (gs : List Frame) :
    close t (fs ++ g :: gs) = (close t fs).above g gs := by
  cases fs with
  | nil => exact absurd rfl h
  | cons f fs =>
    rw [List.cons_append, close, close]
    split_ifs
    · exact finish_append f.close fs g gs
    · rfl

theorem value_append (fs : List Frame) (g : Frame) (gs : List Frame) :
    value (fs ++ g :: gs) t = (value fs t).above g gs := by
  cases t with
  | scalar s => exact finish_append (.scalar s) fs g gs
  | textlessString => exact finish_append .null fs g gs
  | boundlessNumber => exact finish_append .null fs g gs
  | _ => rfl

theorem key_append (h : fs ≠ []) (g : Frame) (gs : List Frame) :
    key t (fs ++ g :: gs) = (key t fs).above g gs := by
  rcases fs with _ | ⟨_ | _, fs⟩
  · exact absurd rfl h
  · rfl
  · rw [List.cons_append, key, key]
    cases t.key? with
    | _ => rfl

theorem next_append (h : fs ≠ []) (g : Frame) (gs : List Frame) :
    next (fs ++ g :: gs) = (next fs).above g gs := by
  rcases fs with _ | ⟨_ | _, fs⟩
  · exact absurd rfl h
  · rfl
  · rfl

/-- What is below in the stack makes no difference to a move. -/
theorem of_append (h : Ready e fs) (g : Frame) (gs : List Frame) :
    of (fs ++ g :: gs) t e = (of fs t e).above g gs := by
  cases e with
  | value => exact value_append fs g gs
  | valueOrEnd =>
    have hfs : fs ≠ [] := h.resolve_left Expected.noConfusion
    rw [of, of, close_append hfs, value_append, apply_ite (above g gs)]
  | keyOrEnd =>
    have hfs : fs ≠ [] := h.resolve_left Expected.noConfusion
    rw [of, of, close_append hfs, key_append hfs, apply_ite (above g gs)]
  | key => exact key_append (h.resolve_left Expected.noConfusion) g gs
  | colon =>
    rw [of, of, apply_ite (above g gs)]
    rfl
  | commaOrEnd =>
    have hfs : fs ≠ [] := h.resolve_left Expected.noConfusion
    rw [of, of, close_append hfs, next_append hfs, apply_ite (above g gs)]

end Move

/-! ### The outermost value -/

/-- How a value begins that a frame is going to be. -/
def Frame.head : Frame → Head
  | .array _ => .array
  | .object _ _ => .object

/-- How the outermost value begins, given how the innermost one does. -/
def outermost (h : Head) : List Frame → Head
  | [] => h
  | f :: fs => outermost f.head fs

namespace Move

/-- The outermost value is unfinished and begins in some way, or it is finished and does so. -/
def Begins (h : Head) : Move → Prop
  | go _ fs => fs ≠ [] ∧ ∀ inner, outermost inner fs = h
  | done v => v.head = h
  | stuck => True

theorem begins_finish (v : Json) (fs : List Frame) :
    (finish v fs).Begins (outermost v.head fs) := by
  rcases fs with _ | ⟨_ | _, fs⟩
  · rfl
  · exact ⟨List.cons_ne_nil _ _, fun _ => rfl⟩
  · exact ⟨List.cons_ne_nil _ _, fun _ => rfl⟩

theorem begins_close (t : Token) (fs : List Frame) (inner : Head) :
    (close t fs).Begins (outermost inner fs) := by
  cases fs with
  | nil => trivial
  | cons f fs =>
    rw [close]
    split_ifs
    · have hhead : f.close.head = f.head := by
        cases f with
        | _ => rfl
      have hbegins := begins_finish f.close fs
      rwa [hhead] at hbegins
    · trivial

theorem begins_value (ht : t.isUsable) (fs : List Frame) (ts : List Token) :
    (value fs t).Begins (outermost (headOf (t :: ts)) fs) := by
  cases t with
  | openArray => exact ⟨List.cons_ne_nil _ _, fun _ => rfl⟩
  | openObject => exact ⟨List.cons_ne_nil _ _, fun _ => rfl⟩
  | scalar s => exact begins_finish (.scalar s) fs
  | textlessString => cases ht
  | boundlessNumber => cases ht
  | _ => trivial

theorem begins_key (t : Token) (fs : List Frame) (inner : Head) :
    (key t fs).Begins (outermost inner fs) := by
  rcases fs with _ | ⟨_ | _, fs⟩
  · trivial
  · trivial
  · rw [key]
    cases t.key? with
    | none => trivial
    | some k => exact ⟨List.cons_ne_nil _ _, fun _ => rfl⟩

theorem begins_next (fs : List Frame) (inner : Head) : (next fs).Begins (outermost inner fs) := by
  rcases fs with _ | ⟨_ | _, fs⟩
  · trivial
  · exact ⟨List.cons_ne_nil _ _, fun _ => rfl⟩
  · exact ⟨List.cons_ne_nil _ _, fun _ => rfl⟩

/-- A move leaves the outermost value beginning as it does. -/
theorem begins_of (h : Ready e fs) (ht : t.isUsable) (ts : List Token) :
    (of fs t e).Begins (outermost (headOf (t :: ts)) fs) := by
  cases e with
  | value => exact begins_value ht fs ts
  | valueOrEnd =>
    rw [of]
    split_ifs
    · exact begins_close t fs _
    · exact begins_value ht fs ts
  | keyOrEnd =>
    rw [of]
    split_ifs
    · exact begins_close t fs _
    · exact begins_key t fs _
  | key => exact begins_key t fs _
  | colon =>
    have hfs : fs ≠ [] := h.resolve_left Expected.noConfusion
    rw [of]
    split_ifs
    · refine ⟨hfs, fun inner => ?_⟩
      cases fs with
      | nil => exact absurd rfl hfs
      | cons f fs => rfl
    · trivial
  | commaOrEnd =>
    rw [of]
    split_ifs
    · exact begins_next fs _
    · exact begins_close t fs _

end Move

/-! ### Values one by one -/

/-- A value is read by a move that goes on to it, or by one that ends with it. -/
theorem cases_of_build (h : build e fs (t :: ts) = some (v, rest)) :
    (∃ e' fs', Move.of fs t e = .go e' fs' ∧ build e' fs' ts = some (v, rest)) ∨
      Move.of fs t e = .done v ∧ ts = rest := by
  rw [build_cons] at h
  cases hmove : Move.of fs t e with
  | go e' fs' =>
    rw [hmove] at h
    exact Or.inl ⟨e', fs', rfl, h⟩
  | done w =>
    rw [hmove] at h
    cases h
    exact Or.inr ⟨rfl, rfl⟩
  | stuck =>
    rw [hmove] at h
    cases h

/-- A value uses up tokens from the front. -/
theorem suffix_of_build (h : build e fs ts = some (v, rest)) : rest <:+ ts := by
  induction ts generalizing e fs with
  | nil => cases h
  | cons t ts ih =>
    rcases cases_of_build h with ⟨e', fs', -, h⟩ | ⟨-, rfl⟩
    · exact (ih h).trans (List.suffix_cons t ts)
    · exact List.suffix_cons t _

/-- The outermost value begins as its first token or frame tells. -/
theorem head_of_build (hready : Ready e fs) (husable : ∀ t ∈ ts, t.isUsable)
    (h : build e fs ts = some (v, rest)) : v.head = outermost (headOf ts) fs := by
  induction ts generalizing e fs with
  | nil => cases h
  | cons t ts ih =>
    obtain ⟨ht, hts⟩ := List.forall_mem_cons.mp husable
    have hbegins := Move.begins_of hready ht ts
    rcases cases_of_build h with ⟨e', fs', hmove, h⟩ | ⟨hmove, rfl⟩
    · -- what the move leaves on the stack tells how the value begins, whatever comes next
      rw [hmove] at hbegins
      rw [ih (Or.inr hbegins.1) hts h]
      exact hbegins.2 _
    · rw [hmove] at hbegins
      exact hbegins

/-- What is below in the stack waits for the value above it. -/
theorem build_append (hready : Ready e fs) (husable : ∀ t ∈ ts, t.isUsable) (g : Frame)
    (gs : List Frame) :
    build e (fs ++ g :: gs) ts =
      (build e fs ts).bind fun r => build .commaOrEnd (g.add r.1 :: gs) r.2 := by
  induction ts generalizing e fs with
  | nil => rfl
  | cons t ts ih =>
    obtain ⟨ht, hts⟩ := List.forall_mem_cons.mp husable
    -- A move that goes on leaves a frame to fill, so the reader stays ready.
    have hbegins := Move.begins_of hready ht ts
    rw [build_cons, build_cons, Move.of_append hready]
    cases hmove : Move.of fs t e with
    | go e' fs' =>
      rw [hmove] at hbegins
      exact ih (Or.inr hbegins.1) hts
    | done w => rfl
    | stuck => rfl

/-- The first token of a value tells how it begins. -/
theorem headOf_of_takeValue? (husable : ∀ t ∈ ts, t.isUsable) (h : takeValue? ts = some (v, rest)) :
    headOf ts = v.head :=
  (head_of_build (Or.inl rfl) husable h).symm

/-- A value inside a frame is read as if it stood alone, and the frame goes on with it. -/
theorem exists_of_build_value (husable : ∀ t ∈ ts, t.isUsable)
    (h : build .value [g] ts = some (v, rest)) :
    ∃ w left, takeValue? ts = some (w, left) ∧ headOf ts = w.head ∧ (∀ t ∈ left, t.isUsable) ∧
      build .commaOrEnd [g.add w] left = some (v, rest) := by
  have happend : build .value [g] ts =
      (takeValue? ts).bind fun r => build .commaOrEnd [g.add r.1] r.2 :=
    @build_append .value [] ts (Or.inl rfl) husable g []
  rw [happend] at h
  obtain ⟨⟨w, left⟩, htake, h⟩ := Option.bind_eq_some_iff.mp h
  exact ⟨w, left, htake, headOf_of_takeValue? husable htake,
    fun t ht => husable t ((suffix_of_build htake).subset ht), h⟩

/-! ### The parts of an array or object -/

/-- After an item the array goes on or ends. -/
theorem after_item {items : List Json} (h : build .commaOrEnd [.array items] ts = some (v, rest)) :
    (∃ more, ts = .comma :: more ∧ build .value [.array items] more = some (v, rest)) ∨
      ts = .closeArray :: rest ∧ v = .array items.reverse := by
  cases ts with
  | nil => cases h
  | cons t ts =>
    rw [build_cons] at h
    cases t with
    | comma => exact Or.inl ⟨ts, rfl, h⟩
    | closeArray =>
      cases h
      exact Or.inr ⟨rfl, rfl⟩
    | _ => cases h

/-- After a member the object goes on with a key or ends. -/
theorem after_member {members : List (String × Json)} {key : String}
    (h : build .commaOrEnd [.object members key] ts = some (v, rest)) :
    (∃ more, ts = .comma :: more ∧ build .key [.object members key] more = some (v, rest)) ∨
      ts = .closeObject :: rest ∧ v = .object members.reverse := by
  cases ts with
  | nil => cases h
  | cons t ts =>
    rw [build_cons] at h
    cases t with
    | comma => exact Or.inl ⟨ts, rfl, h⟩
    | closeObject =>
      cases h
      exact Or.inr ⟨rfl, rfl⟩
    | _ => cases h

/-- A member is a key, which is a text, a colon, and a value; the object goes on with it. -/
theorem exists_of_build_key {members : List (String × Json)} {key : String}
    (husable : ∀ t ∈ ts, t.isUsable) (h : build .key [.object members key] ts = some (v, rest)) :
    ∃ k value w left, ts = .scalar (.string k) :: .colon :: value ∧
      takeValue? value = some (w, left) ∧ headOf value = w.head ∧ (∀ t ∈ left, t.isUsable) ∧
      build .commaOrEnd [.object ((k, w) :: members) ""] left = some (v, rest) := by
  cases ts with
  | nil => cases h
  | cons t ts =>
    rw [build_cons] at h
    obtain ⟨ht, hts⟩ := List.forall_mem_cons.mp husable
    cases t with
    | scalar s =>
      cases s with
      | string k =>
        cases ts with
        | nil => cases h
        | cons t ts =>
          replace h : build .colon [.object members k] (t :: ts) = some (v, rest) := h
          rw [build_cons] at h
          cases t with
          | colon =>
            obtain ⟨w, left, hvalue⟩ := exists_of_build_value (List.forall_mem_cons.mp hts).2 h
            exact ⟨k, ts, w, left, rfl, hvalue⟩
          | _ => cases h
      | _ => cases h
    | textlessString => cases ht
    | _ => cases h

/-- The items of an array are outlined as they are read. -/
theorem outlineItems_of_build {ts : List Token} {items : List Json} (acc : List Item)
    (husable : ∀ t ∈ ts, t.isUsable) (h : build .value [.array items] ts = some (v, rest)) :
    ∃ more, v = .array (items.reverse ++ more) ∧
      outlineItems acc ts = (acc.reverse ++ more.map toItem, true, rest) := by
  -- The cases are those of the reader of outlines; in the first and the last no array is read.
  fun_induction outlineItems acc ts generalizing items with
  | case1 acc ts hnone =>
    obtain ⟨w, left, htake, -⟩ := exists_of_build_value husable h
    cases hnone.symm.trans htake
  | case2 acc ts w _ more _ _ hsome =>
    rename_i ih
    obtain ⟨w, left, htake, hhead, hleft, hbuild⟩ := exists_of_build_value husable h
    cases hsome.symm.trans htake
    obtain ⟨later, rfl, hlater⟩ := ih (List.forall_mem_cons.mp hleft).2 hbuild
    refine ⟨w :: later, ?_, ?_⟩
    · rw [List.reverse_cons, List.append_assoc, List.singleton_append]
    · rw [hlater, List.reverse_cons, List.append_assoc, List.map_cons, toItem, hhead,
        List.singleton_append]
  | case3 acc ts w _ after hsome =>
    obtain ⟨w, left, htake, hhead, -, hbuild⟩ := exists_of_build_value husable h
    cases hsome.symm.trans htake
    cases hbuild
    refine ⟨[w], congrArg array List.reverse_cons, ?_⟩
    rw [List.reverse_cons, hhead]
    rfl
  | case4 acc ts w left _ _ hsome hcomma =>
    rename_i hclose
    obtain ⟨w, left, htake, -, -, hbuild⟩ := exists_of_build_value husable h
    cases hsome.symm.trans htake
    rcases after_item hbuild with ⟨more, rfl, -⟩ | ⟨rfl, -⟩
    · exact (hcomma more hsome rfl HEq.rfl).elim
    · exact (hclose rest hsome rfl HEq.rfl).elim

/-- The members of an object are outlined as they are read. -/
theorem outlineMembers_of_build {ts : List Token} {members : List (String × Json)} {key : String}
    (acc : List (String × Item)) (husable : ∀ t ∈ ts, t.isUsable)
    (h : build .key [.object members key] ts = some (v, rest)) :
    ∃ more, v = .object (members.reverse ++ more) ∧
      outlineMembers acc ts = (acc.reverse ++ more.map fun m => (m.1, toItem m.2), true, rest) := by
  obtain ⟨k, value, w, left, hts, htake, hhead, hleft, hbuild⟩ := exists_of_build_key husable h
  fun_induction outlineMembers acc ts generalizing members key k value w left with
  | case1 acc k value hnone =>
    cases hts
    cases hnone.symm.trans htake
  | case2 acc k value w _ more _ _ hsome =>
    rename_i ih
    cases hts
    cases hsome.symm.trans htake
    have hmore := (List.forall_mem_cons.mp hleft).2
    obtain ⟨k', value', w', left', hts, htake', hhead', hleft', hbuild'⟩ :=
      exists_of_build_key hmore hbuild
    obtain ⟨later, rfl, hlater⟩ :=
      ih hmore hbuild k' value' w' left' hts htake' hhead' hleft' hbuild'
    refine ⟨(k, w) :: later, ?_, ?_⟩
    · rw [List.reverse_cons, List.append_assoc, List.singleton_append]
    · rw [hlater, List.reverse_cons, List.append_assoc, List.map_cons, toItem, hhead,
        List.singleton_append]
  | case3 acc k value w _ after hsome =>
    cases hts
    cases hsome.symm.trans htake
    cases hbuild
    refine ⟨[(k, w)], congrArg object List.reverse_cons, ?_⟩
    rw [List.reverse_cons, hhead]
    rfl
  | case4 acc k value w left _ _ hsome hcomma =>
    rename_i hclose
    cases hts
    cases hsome.symm.trans htake
    rcases after_member hbuild with ⟨more, rfl, -⟩ | ⟨rfl, -⟩
    · exact (hcomma more hsome rfl HEq.rfl).elim
    · exact (hclose rest hsome rfl HEq.rfl).elim
  | case5 acc k ts hcolon =>
    cases hts
    exact (hcolon value rfl).elim
  | case6 acc ts hmember _ => exact (hmember k value hts).elim

/-! ### Whole texts -/

/-- After an opening bracket an array ends or has an item. -/
theorem after_openArray (h : build .valueOrEnd [.array []] ts = some (v, rest)) :
    (ts = .closeArray :: rest ∧ v = .array []) ∨
      (∀ after, ts ≠ .closeArray :: after) ∧ build .value [.array []] ts = some (v, rest) := by
  cases ts with
  | nil => cases h
  | cons t ts =>
    rw [build_cons] at h ⊢
    by_cases hclose : t = .closeArray
    · subst hclose
      cases h
      exact Or.inl ⟨rfl, rfl⟩
    · rw [Move.of, if_neg hclose] at h
      exact Or.inr ⟨fun after heq => hclose (List.cons.inj heq).1, h⟩

/-- After an opening brace an object ends or has a member. -/
theorem after_openObject (h : build .keyOrEnd [.object [] ""] ts = some (v, rest)) :
    (ts = .closeObject :: rest ∧ v = .object []) ∨
      (∀ after, ts ≠ .closeObject :: after) ∧ build .key [.object [] ""] ts = some (v, rest) := by
  cases ts with
  | nil => cases h
  | cons t ts =>
    rw [build_cons] at h ⊢
    by_cases hclose : t = .closeObject
    · subst hclose
      cases h
      exact Or.inl ⟨rfl, rfl⟩
    · rw [Move.of, if_neg hclose] at h
      exact Or.inr ⟨fun after heq => hclose (List.cons.inj heq).1, h⟩

/-- The outermost layer of a value is its own. -/
theorem layerOf_of_takeValue? (husable : ∀ t ∈ ts, t.isUsable)
    (h : takeValue? ts = some (v, rest)) :
    layerOf ts = (v.toOutline.layer, rest) := by
  cases ts with
  | nil => cases h
  | cons t ts =>
    obtain ⟨ht, hts⟩ := List.forall_mem_cons.mp husable
    rw [takeValue?, build_cons] at h
    cases t with
    | scalar s =>
      cases h
      rfl
    | textlessString => cases ht
    | boundlessNumber => cases ht
    | openArray =>
      rcases after_openArray h with ⟨rfl, rfl⟩ | ⟨hopen, hbuild⟩
      · rfl
      · obtain ⟨items, rfl, hitems⟩ := outlineItems_of_build [] hts hbuild
        rw [layerOf, hitems]
        · rfl
        · exact hopen
    | openObject =>
      rcases after_openObject h with ⟨rfl, rfl⟩ | ⟨hopen, hbuild⟩
      · rfl
      · obtain ⟨members, rfl, hmembers⟩ := outlineMembers_of_build [] hts hbuild
        rw [layerOf, hmembers]
        · rfl
        · exact hopen
    | _ => cases h

/-- A text that can be read has the outline of its value. -/
theorem outline_of_read? {bs : List UInt8} (h : read? bs = some v) : outline bs = v.toOutline := by
  obtain ⟨ts, whole, htokens⟩ : ∃ ts whole, tokens bs = (ts, whole) := ⟨_, _, rfl⟩
  rw [read?, htokens] at h
  cases whole with
  | false => cases h
  | true =>
    dsimp only at h
    split_ifs at h with husable
    cases htake : takeValue? ts with
    | none => simp [htake] at h
    | some r =>
      obtain ⟨w, rest⟩ := r
      cases rest with
      | cons t rest => simp [htake] at h
      | nil =>
        simp only [htake, Option.some.injEq] at h
        subst h
        rw [outline, htokens]
        simp only [layerOf_of_takeValue? (List.all_eq_true.mp husable) htake]
        cases w with
        | _ => rfl

end ExchangeCatalog.Json
