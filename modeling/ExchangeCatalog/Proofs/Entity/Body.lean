import ExchangeCatalog.Entity.Body
import ExchangeCatalog.Proofs.Entity.Fields
import ExchangeCatalog.Proofs.Json.Members
import Mathlib.Data.Fin.SuccPred

/-!
# What a body gives its columns

The members of an object are read in the order in which they stand, each into the column of its key;
the items of an array are read in the order of the columns. What a column ends with depends on
nothing but the members of its own key, or on the item at its own position: there is at most one,
which can be read, or none, where the column may be left out.

## Main definitions

* `BodyRule.Takes` — the entry that a column takes from what is given for it
* `BodyRule.Fills` — what becomes of a column's entry by the members of its key
* `BodyRule.Gathers` — the entries that the columns take from the members of an object

## Main results

* `BodyRule.members_cons_iff` — a column looks at the members of its key, the others at the rest
* `BodyRule.read_object_iff` — the entries that an object gives
* `BodyRule.read_array_iff` — the entries that an array gives
-/

namespace ExchangeCatalog.BodyRule

open Json (valuesOf)

variable {F : Kind → Type} {rule : BodyRule F} {c : Column} {cs : List Column} {key : String}
  {item : Json.Item} {items : List (String × Json.Item)}

/-! ### One column -/

/-- The entry that a column takes from the one thing that is given for it, or from nothing. -/
inductive Takes (rule : BodyRule F) (c : Column) (place : BodyPlace) :
    Option Json.Item → F c.kind → Prop
  | absent {v : F c.kind} (h : rule.absent c.kind = some v) : Takes rule c place none v
  | given {item : Json.Item} {v : F c.kind} (h : rule.entry c.kind place item.head = .ok v) :
      Takes rule c place (some item) v

/-- What becomes of a column's entry by the members of its key: the first of them is read, and after
that there is none. -/
inductive Fills (rule : BodyRule F) (c : Column) :
    Option (F c.kind) → List Json.Item → Option (F c.kind) → Prop
  | nothing (x : Option (F c.kind)) : Fills rule c x [] x
  | given {item : Json.Item} {v : F c.kind}
      (h : rule.entry c.kind (.member c.key) item.head = .ok v) : Fills rule c none [item] (some v)

theorem fills_cons_iff {items : List Json.Item} {y : Option (F c.kind)} :
    rule.Fills c none (item :: items) y ↔
      ∃ v, rule.entry c.kind (.member c.key) item.head = .ok v ∧ rule.Fills c (some v) items y := by
  constructor
  · rintro (_ | h)
    exact ⟨_, h, .nothing _⟩
  · rintro ⟨v, h, _ | _⟩
    exact .given h

theorem not_fills_cons {items : List Json.Item} {v : F c.kind} {y : Option (F c.kind)} :
    ¬rule.Fills c (some v) (item :: items) y := by
  intro h
  cases h

/-- A column that has met the members of its key and may be left out otherwise. -/
theorem exists_fills_iff {items : List Json.Item} {v : F c.kind} :
    (∃ y, rule.Fills c none items y ∧ y.or (rule.absent c.kind) = some v) ↔
      ∃ found : Option Json.Item, items = found.toList ∧ rule.Takes c (.member c.key) found v := by
  constructor
  · rintro ⟨_, _ | h, hv⟩
    · exact ⟨none, rfl, .absent hv⟩
    · cases hv
      exact ⟨some _, rfl, .given h⟩
  · rintro ⟨_, rfl, h | h⟩
    · exact ⟨none, .nothing none, h⟩
    · exact ⟨some v, .given h, rfl⟩

/-! ### Members in a row -/

theorem place_of_ne (h : c.key ≠ key) (head : Json.Head) (x : Option (F c.kind))
    (found : Partial F cs) :
    rule.place key head (.cons x found : Partial F (c :: cs)) =
      (rule.place key head found).map fun r => r.map (Fields.cons x) :=
  if_neg h

theorem place_self (head : Json.Head) (x : Option (F c.kind)) (found : Partial F cs) :
    rule.place c.key head (.cons x found : Partial F (c :: cs)) =
      some (match x with
        | some _ => .error (.content .whole (.duplicate c.key))
        | none => (rule.entry c.kind (.member c.key) head).map fun v => .cons (some v) found) :=
  if_pos rfl

/-- A column looks at the members of its key, and the others look at the rest. -/
theorem members_cons_iff {x y : Option (F c.kind)} {found found' : Partial F cs} :
    rule.members (.cons x found : Partial F (c :: cs)) items = .ok (.cons y found') ↔
      rule.Fills c x (valuesOf c.key items) y ∧
        rule.members found (items.filter fun m => m.1 ≠ c.key) = .ok found' := by
  -- The column's entry changes at the first member of its key, so it is generalised with the
  -- others.
  induction items generalizing x found with
  | nil =>
    rw [Json.valuesOf_nil, List.filter_nil, members, members]
    constructor
    · intro h
      cases h
      exact ⟨.nothing _, rfl⟩
    · rintro ⟨hfills, h⟩
      cases hfills
      cases h
      rfl
  | cons m items ih =>
    obtain ⟨key, item⟩ := m
    by_cases hkey : c.key = key
    · subst hkey
      rw [Json.valuesOf_cons_self, List.filter_cons_of_neg (by simp), members, place_self]
      cases x with
      | some v => exact iff_of_false nofun fun h => not_fills_cons h.1
      | none =>
        rw [fills_cons_iff]
        cases hread : rule.entry c.kind (.member c.key) item.head with
        | error fault =>
          refine iff_of_false nofun ?_
          rintro ⟨⟨v, hv, -⟩, -⟩
          cases hv
        | ok v =>
          refine ih.trans (and_congr_left fun _ => ?_)
          constructor
          · exact fun h => ⟨v, rfl, h⟩
          · rintro ⟨_, hv, h⟩
            cases hv
            exact h
    · rw [Json.valuesOf_cons_of_ne (Ne.symm hkey),
        List.filter_cons_of_pos (by simpa using Ne.symm hkey), members, members, place_of_ne hkey]
      cases rule.place key item.head found with
      | none =>
        dsimp only [Option.map_none]
        split_ifs
        · exact ih
        · exact iff_of_false nofun fun h => nomatch h.2
      | some r =>
        cases r with
        | ok found => exact ih
        | error fault => exact iff_of_false nofun fun h => nomatch h.2

/-- A member that no column looks at must be well formed. -/
theorem members_nil_iff {found : Partial F []} :
    rule.members .nil items = .ok found ↔ ∀ m ∈ items, m.2.complete := by
  cases found
  induction items with
  | nil => exact iff_of_true rfl nofun
  | cons m items ih =>
    rw [List.forall_mem_cons, ← ih, members]
    dsimp only [place]
    split_ifs with hm
    · exact (and_iff_right hm).symm
    · exact iff_of_false nofun fun h => hm h.1

/-- Fields that are read one after the other. -/
theorem map_cons_eq_ok_iff {r : Except BodyFault (Fields F cs)} {v w : F c.kind}
    {ws : Fields F cs} :
    (r.map (Fields.cons v) : Except BodyFault (Fields F (c :: cs))) = .ok (.cons w ws) ↔
      v = w ∧ r = .ok ws := by
  cases r with
  | error fault => exact iff_of_false nofun fun h => nomatch h.2
  | ok vs =>
    constructor
    · intro h
      cases h
      exact ⟨rfl, rfl⟩
    · rintro ⟨rfl, h⟩
      cases h
      rfl

theorem complete_cons_iff {x : Option (F c.kind)} {found : Partial F cs} {v : F c.kind}
    {vs : Fields F cs} :
    rule.complete (.cons x found : Partial F (c :: cs)) = .ok (.cons v vs) ↔
      x.or (rule.absent c.kind) = some v ∧ rule.complete found = .ok vs := by
  rw [complete]
  cases x.or (rule.absent c.kind) with
  | none => exact iff_of_false nofun fun h => nomatch h.1
  | some w => exact map_cons_eq_ok_iff.trans (and_congr_left fun _ => Option.some_inj.symm)

/-! ### Whole objects -/

/-- The entries that the columns take from the members of their keys. -/
def Gathers (rule : BodyRule F) (items : List (String × Json.Item)) (vs : Fields F cs) : Prop :=
  vs.All fun c v =>
    ∃ found : Option Json.Item, valuesOf c.key items = found.toList ∧
      rule.Takes c (.member c.key) found v

/-- Members of other keys make no difference to a column. -/
theorem gathers_filter {p : String × Json.Item → Bool} {vs : Fields F cs}
    (h : ∀ c ∈ cs, ∀ m : String × Json.Item, m.1 = c.key → p m) :
    rule.Gathers (items.filter p) vs ↔ rule.Gathers items vs := by
  constructor
  · refine Fields.All.imp fun c hc v => ?_
    rw [Json.valuesOf_filter (h c hc)]
    exact id
  · refine Fields.All.imp fun c hc v => ?_
    rw [Json.valuesOf_filter (h c hc)]
    exact id

/-- What an object gives whose members have all been read. -/
theorem gathers_iff (hkeys : (cs.map Column.key).Nodup) {vs : Fields F cs} :
    (∃ found, rule.members (Fields.fill (fun _ => none) cs) items = .ok found ∧
        rule.complete found = .ok vs) ↔
      (∀ m ∈ items, m.1 ∉ cs.map Column.key → m.2.complete) ∧ rule.Gathers items vs := by
  induction vs generalizing items with
  | nil =>
    constructor
    · rintro ⟨found, hmembers, -⟩
      exact ⟨fun m hm _ => members_nil_iff.mp hmembers m hm, trivial⟩
    · rintro ⟨hcomplete, -⟩
      exact ⟨.nil, members_nil_iff.mpr fun m hm => hcomplete m hm List.not_mem_nil, rfl⟩
  | @cons c cs v vs ih =>
    obtain ⟨hkey, hkeys⟩ := List.nodup_cons.mp hkeys
    -- The other columns find their members among those that are left.
    have hothers : ∀ d ∈ cs, ∀ m : String × Json.Item, m.1 = d.key →
        decide (m.1 ≠ c.key) = true := by
      rintro d hd m hm
      rw [hm, decide_eq_true_eq]
      exact fun heq => hkey (heq ▸ List.mem_map_of_mem hd)
    have hskipped : (∀ m ∈ items.filter fun m => m.1 ≠ c.key,
          m.1 ∉ cs.map Column.key → m.2.complete) ↔
        ∀ m ∈ items, m.1 ∉ (c :: cs).map Column.key → m.2.complete := by
      simp only [List.mem_filter, decide_eq_true_eq, List.map_cons, List.mem_cons, not_or, and_imp]
    have hrest := @ih (items.filter fun m => m.1 ≠ c.key) hkeys
    rw [hskipped, gathers_filter hothers] at hrest
    constructor
    · rintro ⟨_ | ⟨y, found⟩, hmembers, hcomplete⟩
      obtain ⟨hfills, hmembers⟩ := members_cons_iff.mp hmembers
      obtain ⟨hy, hcomplete⟩ := complete_cons_iff.mp hcomplete
      obtain ⟨hskip, hgathers⟩ := hrest.mp ⟨found, hmembers, hcomplete⟩
      exact ⟨hskip, exists_fills_iff.mp ⟨y, hfills, hy⟩, hgathers⟩
    · rintro ⟨hskip, hc, hgathers⟩
      obtain ⟨y, hfills, hy⟩ := exists_fills_iff.mpr hc
      obtain ⟨found, hmembers, hcomplete⟩ := hrest.mpr ⟨hskip, hgathers⟩
      exact ⟨.cons y found, members_cons_iff.mpr ⟨hfills, hmembers⟩,
        complete_cons_iff.mpr ⟨hy, hcomplete⟩⟩

/-- Nothing may follow a body. -/
theorem read_eq_ok_iff {source : BodySource} {layer : Json.Layer} {finished : Bool}
    {vs : Fields F cs} :
    rule.read source cs ⟨layer, finished⟩ = .ok vs ↔
      finished ∧ rule.layer source cs layer = .ok vs := by
  rw [read]
  cases finished with
  | false =>
    refine iff_of_false ?_ fun h => nomatch h.1
    cases rule.layer source cs layer with
    | _ => exact nofun
  | true =>
    rw [and_iff_right rfl]
    cases rule.layer source cs layer with
    | _ => rfl

/-- The entries that an object gives. -/
theorem read_object_iff (hkeys : (cs.map Column.key).Nodup) {source : BodySource}
    {closed finished : Bool} {vs : Fields F cs} :
    rule.read source cs ⟨.object items closed, finished⟩ = .ok vs ↔
      finished ∧ closed ∧ (∀ m ∈ items, m.1 ∉ cs.map Column.key → m.2.complete) ∧
        rule.Gathers items vs := by
  rw [read_eq_ok_iff, ← gathers_iff hkeys, layer]
  cases rule.members (Fields.fill (fun _ => none) cs) items with
  | error fault =>
    refine and_congr_right fun _ => iff_of_false nofun ?_
    rintro ⟨-, found, h, -⟩
    cases h
  | ok found =>
    change _ ∧ (if closed then rule.complete found else .error .malformed) = .ok vs ↔ _
    refine and_congr_right fun _ => ?_
    split_ifs with hclosed
    · constructor
      · exact fun h => ⟨hclosed, found, rfl, h⟩
      · rintro ⟨-, _, h, hcomplete⟩
        cases h
        exact hcomplete
    · exact iff_of_false nofun fun h => hclosed h.1

/-! ### Arrays -/

/-- The entries that the items of an array give, from a position on. -/
theorem items_eq_ok_iff {source : BodySource} {closed : Bool} {expected : String} {length i : Nat}
    {items : List Json.Item} {vs : Fields F cs} :
    rule.items source closed expected length cs i items = .ok vs ↔
      closed ∧ items.length ≤ cs.length ∧
        ∀ j : Fin cs.length,
          rule.Takes (cs.get j) (.item (i + j)) items[(j : Nat)]? (vs.get j) := by
  induction vs generalizing i items with
  | nil =>
    cases items with
    | nil =>
      rw [BodyRule.items]
      split_ifs with hclosed
      · exact iff_of_true rfl ⟨hclosed, Nat.le_refl _, fun j => j.elim0⟩
      · exact iff_of_false nofun fun h => hclosed h.1
    | cons item items => exact iff_of_false nofun fun h => Nat.not_succ_le_zero _ h.2.1
  | @cons c cs v vs ih =>
    -- The first column has the first item, and the others have the rest one position on.
    have hpositions : ∀ items : List Json.Item,
        (∀ j : Fin (c :: cs).length, rule.Takes ((c :: cs).get j) (.item (i + j)) items[(j : Nat)]?
          ((Fields.cons v vs : Fields F (c :: cs)).get j)) ↔
        rule.Takes c (.item i) items[0]? v ∧
          ∀ j : Fin cs.length,
            rule.Takes (cs.get j) (.item (i + 1 + j)) items.tail[(j : Nat)]? (vs.get j) := by
      intro items
      refine Fin.forall_fin_succ.trans (and_congr Iff.rfl (forall_congr' fun j => ?_))
      have hitem : items[(j.succ : Nat)]? = items.tail[(j : Nat)]? := List.getElem?_tail.symm
      have hplace : i + (j.succ : Nat) = i + 1 + j := by
        rw [Fin.val_succ]
        omega
      exact iff_of_eq (congrArg₂ (fun place found => rule.Takes (cs.get j) place found (vs.get j))
        (congrArg BodyPlace.item hplace) hitem)
    rw [hpositions]
    cases items with
    | nil =>
      rw [BodyRule.items]
      split_ifs with hclosed
      · cases habsent : rule.absent c.kind with
        | none =>
          refine iff_of_false nofun ?_
          rintro ⟨-, -, h, -⟩
          cases h with
          | absent h => cases habsent.symm.trans h
        | some w =>
          refine map_cons_eq_ok_iff.trans ?_
          rw [ih]
          constructor
          · rintro ⟨rfl, -, -, hrest⟩
            exact ⟨hclosed, Nat.zero_le _, .absent habsent, hrest⟩
          · rintro ⟨-, -, h, hrest⟩
            cases h with
            | absent h =>
              cases habsent.symm.trans h
              exact ⟨rfl, hclosed, Nat.zero_le _, hrest⟩
      · exact iff_of_false nofun fun h => hclosed h.1
    | cons item items =>
      rw [BodyRule.items]
      cases hread : rule.entry c.kind (.item i) item.head with
      | error fault =>
        refine iff_of_false nofun ?_
        rintro ⟨-, -, h, -⟩
        cases h with
        | given h => cases hread.symm.trans h
      | ok w =>
        refine map_cons_eq_ok_iff.trans ?_
        rw [ih]
        constructor
        · rintro ⟨rfl, hclosed, hlength, hrest⟩
          exact ⟨hclosed, Nat.succ_le_succ hlength, .given hread, hrest⟩
        · rintro ⟨hclosed, hlength, h, hrest⟩
          cases h with
          | given h =>
            cases hread.symm.trans h
            exact ⟨rfl, hclosed, Nat.le_of_succ_le_succ hlength, hrest⟩

/-- The entries that an array gives. -/
theorem read_array_iff {source : BodySource} {items : List Json.Item} {closed finished : Bool}
    {vs : Fields F cs} :
    rule.read source cs ⟨.array items closed, finished⟩ = .ok vs ↔
      finished ∧ closed ∧ items.length ≤ cs.length ∧
        ∀ i : Fin cs.length, rule.Takes (cs.get i) (.item i) items[(i : Nat)]? (vs.get i) := by
  rw [read_eq_ok_iff, layer, items_eq_ok_iff]
  simp only [Nat.zero_add]

/-- A scalar gives nothing. -/
theorem read_single_ne_ok {source : BodySource} {head : Json.Head} {finished : Bool}
    {vs : Fields F cs} : rule.read source cs ⟨.single head, finished⟩ ≠ .ok vs := by
  rw [Ne, read_eq_ok_iff]
  rintro ⟨-, h⟩
  cases head with
  | _ => cases h

end ExchangeCatalog.BodyRule
