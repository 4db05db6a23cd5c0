import ExchangeCatalog.Proofs.Lists
import ExchangeCatalog.Toml.Document

/-!
# Tables of a settings file

However a table is put together, by headers, by dotted keys or in braces, no two entries of it have
one name: a key that is there is either refused or its entry is changed in place. So what a path of
names leads to in a file is never a matter of order.

## Main definitions

* `Toml.IsTidy` — no table within a value has two entries of one name
* `Toml.Entries.AreTidy` — the same of a table under construction

## Main results

* `Toml.isTidy_of_parse?` — a file that can be read
* `Toml.parse?_withoutMark` — the byte order mark of a file
-/

namespace ExchangeCatalog.Toml

/-- No table within a value has two entries of one name. -/
inductive IsTidy : Toml → Prop
  | string (s : String) : IsTidy (.string s)
  | integer (n : Int) : IsTidy (.integer n)
  | float (x : Binary64) : IsTidy (.float x)
  | boolean (b : Bool) : IsTidy (.boolean b)
  | dateTime (text : String) : IsTidy (.dateTime text)
  | array {vs : List Toml} (items : ∀ v ∈ vs, v.IsTidy) : IsTidy (.array vs)
  | table {es : List (String × Toml)} (names : (es.map Prod.fst).Nodup)
    (parts : ∀ e ∈ es, e.2.IsTidy) : IsTidy (.table es)

variable {es es' : Entries} {key : String} {keys : List String} {n : Node}

/-! ### Tables under construction -/

/-- No table of a tree under construction has two entries of one name. -/
structure Entries.AreTidy (es : Entries) : Prop where
  names : (es.map Prod.fst).Nodup
  parts : ∀ e ∈ es, e.2.finish.IsTidy

theorem finishEntries_eq_map (es : Entries) :
    finishEntries es = es.map fun e => (e.1, e.2.finish) := by
  induction es with
  | nil => rw [finishEntries]; rfl
  | cons e es ih => rw [finishEntries, ih]; rfl

theorem finishRows_eq_map (rows : List Entries) :
    finishRows rows = rows.map fun es => .table (finishEntries es) := by
  induction rows with
  | nil => rw [finishRows]; rfl
  | cons es rows ih => rw [finishRows, ih]; rfl

/-- A table is tidy when the entries that it is made of are. -/
theorem isTidy_table_finishEntries_iff : (Toml.table (finishEntries es)).IsTidy ↔ es.AreTidy := by
  rw [finishEntries_eq_map]
  constructor
  · rintro (_ | _ | _ | _ | _ | _ | ⟨names, parts⟩)
    rw [List.map_map] at names
    exact ⟨names, fun e he => parts _ (List.mem_map_of_mem he)⟩
  · rintro ⟨names, parts⟩
    refine .table (by rwa [List.map_map]) fun e' he' => ?_
    obtain ⟨e, he, rfl⟩ := List.mem_map.1 he'
    exact parts e he

theorem isTidy_finish_table_iff {o : TableOrigin} :
    (Node.table o es).finish.IsTidy ↔ es.AreTidy := by
  rw [Node.finish, isTidy_table_finishEntries_iff]

theorem isTidy_finish_tables_iff {rows : List Entries} :
    (Node.tables es rows).finish.IsTidy ↔ es.AreTidy ∧ ∀ row ∈ rows, Entries.AreTidy row := by
  rw [Node.finish, finishRows_eq_map]
  constructor
  · rintro (_ | _ | _ | _ | _ | items | _)
    refine ⟨isTidy_table_finishEntries_iff.1 (items _ (by simp)), fun row hrow => ?_⟩
    refine isTidy_table_finishEntries_iff.1 (items _ ?_)
    simp only [List.mem_append, List.mem_reverse, List.mem_map]
    exact .inl ⟨row, hrow, rfl⟩
  · rintro ⟨hlatest, hrows⟩
    refine .array fun v hv => ?_
    simp only [List.mem_append, List.mem_reverse, List.mem_map, List.mem_singleton] at hv
    rcases hv with ⟨row, hrow, rfl⟩ | rfl
    · exact isTidy_table_finishEntries_iff.2 (hrows row hrow)
    · exact isTidy_table_finishEntries_iff.2 hlatest

theorem areTidy_nil : Entries.AreTidy [] := ⟨List.nodup_nil, by simp⟩

theorem isTidy_of_find? (h : es.AreTidy) (hfind : find? key es = some n) : n.finish.IsTidy := by
  rw [find?, find?_fst_eq_lookup] at hfind
  exact h.parts (key, n) (mem_of_lookup hfind)

theorem mem_set {e : String × Node} (h : e ∈ set key n es) : e = (key, n) ∨ e ∈ es := by
  induction es with
  | nil => exact .inl (by simpa [set] using h)
  | cons d es ih =>
    rw [set] at h
    split at h
    · rcases List.mem_cons.1 h with rfl | h
      · exact .inl rfl
      · exact .inr (.tail _ h)
    · rcases List.mem_cons.1 h with rfl | h
      · exact .inr (.head _)
      · exact (ih h).imp_right (.tail _)

theorem map_fst_set (hthere : key ∈ es.map Prod.fst) (n : Node) :
    (set key n es).map Prod.fst = es.map Prod.fst := by
  induction es with
  | nil => simp at hthere
  | cons e es ih =>
    rw [set]
    split
    · rename_i heq
      simp [heq]
    · rename_i hne
      have hlater : key ∈ es.map Prod.fst := by simpa [Ne.symm hne] using hthere
      simp [ih hlater]

theorem set_of_not_mem (hnew : key ∉ es.map Prod.fst) (n : Node) :
    set key n es = es ++ [(key, n)] := by
  induction es with
  | nil => rfl
  | cons e es ih =>
    rw [List.map_cons, List.mem_cons, not_or] at hnew
    rw [set, if_neg (Ne.symm hnew.1), ih hnew.2, List.cons_append]

theorem Entries.AreTidy.append (h : es.AreTidy) (hnew : key ∉ es.map Prod.fst)
    (hn : n.finish.IsTidy) :
    Entries.AreTidy (es ++ [(key, n)]) where
  names := by
    rw [List.map_append, List.nodup_append]
    refine ⟨h.names, List.nodup_singleton key, fun a ha b hb => ?_⟩
    obtain rfl := List.mem_singleton.1 hb
    rintro rfl
    exact hnew ha
  parts e he := by
    rcases List.mem_append.1 he with he | he
    · exact h.parts e he
    · obtain rfl := List.mem_singleton.1 he
      exact hn

/-- An entry is changed in its place, or comes last with a name that was not there. -/
theorem Entries.AreTidy.set (h : es.AreTidy) (hn : n.finish.IsTidy) : (set key n es).AreTidy := by
  by_cases hthere : key ∈ es.map Prod.fst
  · refine ⟨map_fst_set hthere n ▸ h.names, fun e he => ?_⟩
    rcases mem_set he with rfl | he
    · exact hn
    · exact h.parts e he
  · rw [set_of_not_mem hthere]
    exact h.append hthere hn

/-! ### One line more -/

/-- A change to the table under a key leaves the entries tidy when it leaves that table so. -/
theorem areTidy_of_within? {change : Entries → Option Entries}
    (hchange : ∀ {es es'}, es.AreTidy → change es = some es' → es'.AreTidy) (h : es.AreTidy)
    (hwithin : within? key change es = some es') : es'.AreTidy := by
  unfold within? at hwithin
  split at hwithin
  · obtain ⟨inner, hinner, rfl⟩ := Option.map_eq_some_iff.1 hwithin
    exact h.set (isTidy_finish_table_iff.2 (hchange areTidy_nil hinner))
  · rename_i o inner hfind
    obtain ⟨inner', hinner, rfl⟩ := Option.map_eq_some_iff.1 hwithin
    have hthere := isTidy_finish_table_iff.1 (isTidy_of_find? h hfind)
    exact h.set (isTidy_finish_table_iff.2 (hchange hthere hinner))
  · rename_i latest earlier hfind
    obtain ⟨latest', hlatest, rfl⟩ := Option.map_eq_some_iff.1 hwithin
    have hthere := isTidy_finish_tables_iff.1 (isTidy_of_find? h hfind)
    exact h.set (isTidy_finish_tables_iff.2 ⟨hchange hthere.1 hlatest, hthere.2⟩)
  · cases hwithin

private theorem areTidy_of_head?_last {row : Bool} (hlast : keys.length ≤ 1) (h : es.AreTidy)
    (hhead : head? row keys es = some es') : es'.AreTidy := by
  revert hhead
  fun_cases head? row keys es with
  | case1 | case6 => rintro ⟨⟩
  | case2 =>
    rintro ⟨⟩
    exact h.set (isTidy_finish_table_iff.2 areTidy_nil)
  | case3 key inner _ hfind =>
    rintro ⟨⟩
    exact h.set (isTidy_finish_table_iff.2 (isTidy_finish_table_iff.1 (isTidy_of_find? h hfind)))
  | case4 =>
    rintro ⟨⟩
    exact h.set (isTidy_finish_tables_iff.2 ⟨areTidy_nil, by simp⟩)
  | case5 key latest earlier _ hfind =>
    rintro ⟨⟩
    have hthere := isTidy_finish_tables_iff.1 (isTidy_of_find? h hfind)
    exact h.set (isTidy_finish_tables_iff.2 ⟨areTidy_nil, List.forall_mem_cons.2 hthere⟩)
  | case7 key keys =>
    rename_i hne
    exact absurd (List.length_eq_zero_iff.1 (by simpa using hlast)) hne

theorem areTidy_of_head? {row : Bool} (h : es.AreTidy) (hhead : head? row keys es = some es') :
    es'.AreTidy := by
  induction keys generalizing es es' with
  | nil => cases hhead
  | cons key keys ih =>
    cases keys with
    | nil => exact areTidy_of_head?_last (by simp) h hhead
    | cons => exact areTidy_of_within? ih h hhead

theorem areTidy_of_put? {v : Toml} (hv : v.IsTidy) (h : es.AreTidy)
    (hput : put? v keys es = some es') :
    es'.AreTidy := by
  fun_induction put? v keys es generalizing es' with
  | case1 | case2 | case5 | case7 | case9 => cases hput
  | case3 key es hfree =>
    obtain rfl := Option.some.inj hput
    rw [find?, find?_fst_eq_lookup, Option.not_isSome_iff_eq_none] at hfree
    exact h.append (lookup_eq_none_iff_not_mem.1 hfree) (by rwa [Node.finish])
  | case4 key keys es _ hfind ih =>
    obtain ⟨inner, hinner, rfl⟩ := Option.map_eq_some_iff.1 hput
    exact h.set (isTidy_finish_table_iff.2 (ih areTidy_nil hinner))
  | case6 key keys es _ o inner _ hfind ih =>
    obtain ⟨inner', hinner, rfl⟩ := Option.map_eq_some_iff.1 hput
    have hthere := isTidy_finish_table_iff.1 (isTidy_of_find? h hfind)
    exact h.set (isTidy_finish_table_iff.2 (ih hthere hinner))
  | case8 key keys es _ latest earlier hfind _ ih =>
    obtain ⟨latest', hlatest, rfl⟩ := Option.map_eq_some_iff.1 hput
    have hthere := isTidy_finish_tables_iff.1 (isTidy_of_find? h hfind)
    exact h.set (isTidy_finish_tables_iff.2 ⟨ih hthere.1 hlatest, hthere.2⟩)

theorem areTidy_of_below? {change : Entries → Option Entries}
    (hchange : ∀ {es es'}, es.AreTidy → change es = some es' → es'.AreTidy) (h : es.AreTidy)
    (hbelow : below? change keys es = some es') : es'.AreTidy := by
  induction keys generalizing es es' with
  | nil => exact hchange h hbelow
  | cons key keys ih => exact areTidy_of_within? ih h hbelow

/-! ### Values and files -/

/-- A word without quotes is no table. -/
private theorem isTidy_of_word {word : List Char} {v : Toml}
    (h : (if word = "true".toList then some (.boolean true)
      else if word = "false".toList then some (.boolean false)
      else (integer? word).map .integer <|> (float? word).map .float <|>
        (dateTime? word).map .dateTime) = some v) : v.IsTidy := by
  split_ifs at h
  · obtain rfl := Option.some.inj h
    exact .boolean true
  · obtain rfl := Option.some.inj h
    exact .boolean false
  · simp only [Option.orElse_eq_orElse, Option.orElse_eq_or, Option.or_eq_some_iff,
      Option.map_eq_some_iff] at h
    rcases h with ⟨n, -, rfl⟩ | ⟨-, ⟨x, -, rfl⟩ | ⟨-, t, -, rfl⟩⟩
    · exact .integer n
    · exact .float x
    · exact .dateTime t

theorem isTidy_of_plain? {cs rest : List Char} {v : Toml} (h : plain? cs = some (v, rest)) :
    v.IsTidy := by
  unfold plain? at h
  obtain ⟨w, hw, heq⟩ := Option.map_eq_some_iff.1 h
  obtain rfl := (Prod.mk.inj heq).1
  exact isTidy_of_word hw

/-- What the reading of a value, of the items of an array and of the members of a table gives is
tidy. -/
theorem isTidy_of_valueUpTo? (n : Nat) :
    (∀ {depth cs v rest}, valueUpTo? n depth cs = some (v, rest) → v.IsTidy) ∧
    (∀ {depth acc cs vs rest}, (∀ v ∈ acc, v.IsTidy) → itemsUpTo? n depth acc cs = some (vs, rest) →
      ∀ v ∈ vs, v.IsTidy) ∧
    ∀ {depth es cs es' rest}, Entries.AreTidy es → membersUpTo? n depth es cs = some (es', rest) →
      Entries.AreTidy es' := by
  induction n with
  | zero =>
    refine ⟨fun h => ?_, fun _ h => ?_, fun _ h => ?_⟩
    · simp [valueUpTo?] at h
    · simp [itemsUpTo?] at h
    · simp [membersUpTo?] at h
  | succ n ih =>
    obtain ⟨ihvalue, ihitems, ihmembers⟩ := ih
    refine ⟨fun {depth cs v rest} h => ?_, fun {depth acc cs vs rest} hacc h => ?_,
      fun {depth es cs es' rest} hes h => ?_⟩
    · rw [valueUpTo?.eq_def] at h
      dsimp only at h
      split at h
      · obtain ⟨⟨vs, rest'⟩, hread, heq⟩ := Option.map_eq_some_iff.1 h
        obtain rfl := (Prod.mk.inj heq).1
        exact .array (ihitems (by simp) hread)
      · obtain ⟨⟨es, rest'⟩, hread, heq⟩ := Option.map_eq_some_iff.1 h
        obtain rfl := (Prod.mk.inj heq).1
        exact isTidy_table_finishEntries_iff.2 (ihmembers areTidy_nil hread)
      · obtain ⟨⟨s, rest'⟩, -, heq⟩ := Option.map_eq_some_iff.1 h
        obtain rfl := (Prod.mk.inj heq).1
        exact .string s
      · obtain ⟨⟨s, rest'⟩, -, heq⟩ := Option.map_eq_some_iff.1 h
        obtain rfl := (Prod.mk.inj heq).1
        exact .string s
      · exact isTidy_of_plain? h
    · rw [itemsUpTo?] at h
      obtain ⟨cs', -, h⟩ := Option.bind_eq_some_iff.1 h
      split at h
      · obtain rfl := (Prod.mk.inj (Option.some.inj h)).1
        simpa using hacc
      · obtain ⟨⟨v, rest'⟩, hv, h⟩ := Option.bind_eq_some_iff.1 h
        obtain ⟨cs'', -, h⟩ := Option.bind_eq_some_iff.1 h
        have hitems : ∀ w ∈ v :: acc, w.IsTidy := List.forall_mem_cons.2 ⟨ihvalue hv, hacc⟩
        split at h
        · exact ihitems hitems h
        · obtain rfl := (Prod.mk.inj (Option.some.inj h)).1
          simpa [or_comm] using hitems
        · cases h
    · rw [membersUpTo?] at h
      obtain ⟨cs', -, h⟩ := Option.bind_eq_some_iff.1 h
      split at h
      · obtain rfl := (Prod.mk.inj (Option.some.inj h)).1
        exact hes
      · obtain ⟨⟨keys, rest₁⟩, -, h⟩ := Option.bind_eq_some_iff.1 h
        obtain ⟨rest₂, -, h⟩ := Option.bind_eq_some_iff.1 h
        obtain ⟨⟨v, rest₃⟩, hv, h⟩ := Option.bind_eq_some_iff.1 h
        obtain ⟨es₁, hput, h⟩ := Option.bind_eq_some_iff.1 h
        obtain ⟨rest₄, -, h⟩ := Option.bind_eq_some_iff.1 h
        have hes₁ := areTidy_of_put? (ihvalue hv) hes hput
        split at h
        · exact ihmembers hes₁ h
        · obtain rfl := (Prod.mk.inj (Option.some.inj h)).1
          exact hes₁
        · cases h

theorem isTidy_of_value? {cs rest : List Char} {v : Toml} (h : value? cs = some (v, rest)) :
    v.IsTidy :=
  (isTidy_of_valueUpTo? _).1 h

/-- Each line leaves the entries tidy. -/
theorem areTidy_of_linesUpTo? {n : Nat} {last : List String} {cs : List Char} (h : es.AreTidy)
    (hlines : linesUpTo? n last es cs = some es') : es'.AreTidy := by
  fun_induction linesUpTo? n last es cs with
  | case1 => cases hlines
  | case2 =>
    obtain rfl := Option.some.inj hlines
    exact h
  | case3 n last es cs rest _ ih =>
    obtain ⟨⟨row, keys, rest₁⟩, -, hlines⟩ := Option.bind_eq_some_iff.1 hlines
    obtain ⟨es₁, hhead, hlines⟩ := Option.bind_eq_some_iff.1 hlines
    obtain ⟨rest₂, -, hlines⟩ := Option.bind_eq_some_iff.1 hlines
    exact ih _ _ _ (areTidy_of_head? h hhead) hlines
  | case4 n last es cs rest _ ih =>
    obtain ⟨rest₁, -, hlines⟩ := Option.bind_eq_some_iff.1 hlines
    exact ih _ h hlines
  | case5 n last es cs c rest _ _ _ rest₁ _ ih => exact ih h hlines
  | case6 n last es cs c rest _ _ _ _ ih =>
    obtain ⟨⟨keys, rest₁⟩, -, hlines⟩ := Option.bind_eq_some_iff.1 hlines
    obtain ⟨rest₂, -, hlines⟩ := Option.bind_eq_some_iff.1 hlines
    obtain ⟨⟨v, rest₃⟩, hv, hlines⟩ := Option.bind_eq_some_iff.1 hlines
    obtain ⟨es₁, hbelow, hlines⟩ := Option.bind_eq_some_iff.1 hlines
    obtain ⟨rest₄, -, hlines⟩ := Option.bind_eq_some_iff.1 hlines
    exact ih _ _ (areTidy_of_below? (areTidy_of_put? (isTidy_of_value? hv)) h hbelow) hlines

/-- No table of a file that can be read has two entries of one name. -/
theorem isTidy_of_parse? {text : String} {file : List (String × Toml)}
    (h : parse? text = some file) :
    (Toml.table file).IsTidy := by
  obtain ⟨es, hlines, rfl⟩ := Option.map_eq_some_iff.1 h
  exact isTidy_table_finishEntries_iff.2 (areTidy_of_linesUpTo? areTidy_nil hlines)

private theorem linesUpTo?_mark (n : Nat) (last : List String) (es : Entries) (cs : List Char) :
    linesUpTo? n last es ('\uFEFF' :: cs) = none := by
  cases n <;> rfl

/-- A file that can be read does not start with two byte order marks, so that leaving out one of
them before it is read makes no difference. -/
theorem parse?_withoutMark {text : String} {file : List (String × Toml)}
    (h : parse? text = some file) :
    parse? (String.ofList (Utf8.withoutMark text.toList)) = some file := by
  rw [parse?, String.toList_ofList]
  obtain ⟨es, hlines, rfl⟩ := Option.map_eq_some_iff.1 h
  generalize Utf8.withoutMark text.toList = cs at hlines ⊢
  have hsame : Utf8.withoutMark cs = cs := by
    cases cs with
    | nil => rfl
    | cons c cs =>
      refine if_neg fun hmark => ?_
      obtain rfl : c = '\uFEFF' := Char.toNat_inj.1 hmark
      rw [linesUpTo?_mark] at hlines
      cases hlines
  rw [hsame, hlines]
  rfl

end ExchangeCatalog.Toml
