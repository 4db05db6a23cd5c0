import ExchangeCatalog.Proofs.Filter.Registry
import ExchangeCatalog.Proofs.Repository.Memory
import ExchangeCatalog.Proofs.Sequence
import ExchangeCatalog.Proofs.Sql.Content
import ExchangeCatalog.Proofs.Sql.Listing
import ExchangeCatalog.Repository.Sql

/-!
# The repository on a database agrees with the repository in memory

The repository on a database and the repository in memory are asked the same questions in turn,
beginning with the same rows. They answer alike as long as the identifiers last, the rows are fewer
than a signed word can count, and the instants have no finer fractions than microseconds and no leap
seconds; without the first two the numbers in the statements would not be those of the question, and
without the last one the database would not hold what it is given.

## Main definitions

* `SqlRepository.ask` — a question answered by statements to the database
* `Call.IsAdmissible` — a question on the entity's own fields, whose instants the database keeps
* `Agrees` — the invariant: the same rows, and as many identifiers left as are needed

## Main results

* `Agrees.ask` — one question
* `sql_repository_agrees` — all questions in turn
-/

namespace ExchangeCatalog

variable {e : Entity}

/-- A question answered by statements to the database with nothing in between, and the database
after it. -/
def SqlRepository.ask (c : Call e) (db : Sql.Database) : c.Answer × Sql.Database :=
  (SqlRepository.answer c).run Sql.Database.execute db

/-! ### Questions -/

/-- The value of a filter, if it can be read, keeps all it says when it is stored. -/
def RetainedFilter.IsPrecise (f : RetainedFilter) : Prop :=
  ∀ v, Value.read? f.column.kind f.value = some v → v.IsPrecise

/-- A question whose filters constrain fields of the entity, with instants that the database
keeps. -/
def Call.IsAdmissible : Call e → Prop
  | .find _ | .delete _ => True
  | .page filters _ => ∀ f ∈ filters, f.column ∈ e.fields ∧ f.IsPrecise
  | .create record => record.IsPrecise
  | .update row => row.IsPrecise

instance (f : RetainedFilter) : Decidable f.IsPrecise :=
  inferInstanceAs (Decidable (∀ v ∈ Value.read? f.column.kind f.value, v.IsPrecise))

instance : (c : Call e) → Decidable c.IsAdmissible
  | .find _ | .delete _ => .isTrue trivial
  | .page filters _ => inferInstanceAs
      (Decidable (∀ f ∈ filters, f.column ∈ e.fields ∧ f.IsPrecise))
  | .create record => inferInstanceAs (Decidable record.IsPrecise)
  | .update row => inferInstanceAs (Decidable row.IsPrecise)

/-- Filters on fields of the entity fit it when their values have been read. -/
theorem fits_of_typedFilters {filters : List RetainedFilter} {typed : List TypedFilter}
    (htyped : typedFilters filters = .ok typed)
    (h : ∀ f ∈ filters, f.column ∈ e.fields ∧ f.IsPrecise) :
    ∀ f ∈ typed, f.Fits e := by
  induction filters generalizing typed with
  | nil =>
    cases htyped
    exact fun f hf => absurd hf List.not_mem_nil
  | cons f filters ih =>
    obtain ⟨⟨hcolumn, hprecise⟩, hfilters⟩ := List.forall_mem_cons.mp h
    obtain ⟨v, rest, hread, hrest, rfl⟩ := exists_of_typedFilters_cons htyped
    refine List.forall_mem_cons.mpr
      ⟨⟨⟨f.column, hcolumn, rfl, ?_⟩, hprecise v hread⟩, ih hrest hfilters⟩
    obtain ⟨x, -, rfl⟩ := Option.map_eq_some_iff.mp hread
    exact (Kind.kind_value f.column.kind x).symm

/-! ### Numbers of rows -/

/-- Bounded or not, the numbers of a page show the same rows when these are few enough. -/
theorem window_boundedCount {α : Type} {xs : List α} (h : xs.length < 0x8000000000000000)
    (limit offset : UInt64) :
    (xs.drop (boundedCount offset).toInt.toNat).take (boundedCount limit).toInt.toNat =
      (xs.drop offset.toNat).take limit.toNat := by
  -- An offset that is cut off leaves nothing of the rows, and neither does the bound.
  have hdrop : xs.drop (min offset.toNat (0x7FFFFFFFFFFFFFFF)) = xs.drop offset.toNat := by
    by_cases hn : offset.toNat ≤ 0x7FFFFFFFFFFFFFFF
    · rw [Nat.min_eq_left hn]
    · rw [Nat.min_eq_right (by omega), List.drop_of_length_le (by omega),
        List.drop_of_length_le (by omega)]
  have hlength := List.length_drop (i := offset.toNat) (l := xs)
  rw [toNat_boundedCount, toNat_boundedCount, hdrop]
  by_cases hn : limit.toNat ≤ 0x7FFFFFFFFFFFFFFF
  · rw [Nat.min_eq_left hn]
  · rw [Nat.min_eq_right (by omega), List.take_of_length_le (by omega),
      List.take_of_length_le (by omega)]

/-! ### Reading results -/

namespace SqlRepository

variable {db : Sql.Database} {t : Table e}

/-- Rows that are sent are read back, whatever they were asked for. -/
theorem allRows_result (h : db.Holds t) (activity : Activity) {rows : List (Row e)}
    (hrows : ∀ r ∈ rows, r.IsPrecise) :
    allRows e activity (db.result (rows.map Row.stored)) = .ok rows := by
  have hread : ∀ r ∈ rows, e.rowOf? db.columns (db.columns.map fun c => r.stored c.name) =
      some (id r) :=
    fun r hr => e.rowOf?_stored h.columns_perm (hrows r hr)
  have hall := mapM_eq_some_map hread
  rw [List.map_id] at hall
  change readable e.label activity (((rows.map Row.stored).map fun row => db.columns.map fun c =>
    row c.name).mapM fun cells => e.rowOf? db.columns cells) = _
  rw [List.mapM_map, List.mapM_map]
  exact congrArg (readable e.label activity) hall

theorem optionalRow_result (h : db.Holds t) (activity : Activity) (row? : Option (Row e))
    (hrow : ∀ r ∈ row?, r.IsPrecise) :
    optionalRow e activity (db.result (row?.toList.map Row.stored)) = .ok row? := by
  cases row? with
  | none => rfl
  | some row =>
    change (readable e.label activity
      (e.rowOf? db.columns (db.columns.map fun c => row.stored c.name))).map some = _
    rw [e.rowOf?_stored h.columns_perm (hrow row rfl)]
    rfl

theorem oneRow_result (h : db.Holds t) (activity : Activity) {row : Row e} (hrow : row.IsPrecise) :
    oneRow e activity (db.result [row.stored]) = .ok row := by
  have hoptional := optionalRow_result h activity (some row) fun r hr => by
    obtain rfl := Option.some.inj hr
    exact hrow
  rw [oneRow]
  change (optionalRow e activity (db.result ((some row).toList.map Row.stored))).bind _ = _
  rw [hoptional]
  rfl

theorem counted_count (e : Entity) (n : Nat) :
    counted e (.rows ⟨[⟨"count", .bigint⟩], [[some (.number n)]]⟩) = .ok (UInt64.ofNat n) := rfl

end SqlRepository

/-! ### One question -/

/-- A database and a store in memory hold the same rows, none of which loses anything in the
database, and hand out the same identifier next, which no row has had; so many more can be handed
out. -/
structure Agrees (db : Sql.Database) (s : MemoryStore e) (room : Nat) : Prop where
  holds : db.Holds s.table
  precise : ∀ r ∈ s.table.rows, r.IsPrecise
  nextId_eq : s.nextId = Int64.ofInt db.next
  lower : -0x8000000000000000 ≤ db.next
  upper : db.next + room ≤ 0x8000000000000000
  id_lt : ∀ r ∈ s.table.rows, r.id.toInt < db.next

namespace Agrees

open SqlRepository

variable {db : Sql.Database} {s : MemoryStore e} {room : Nat}

theorem isPrecise_of_find? (h : Agrees db s room) {id : Int64} :
    ∀ r ∈ s.table.find? id, r.IsPrecise :=
  fun r hr => h.precise r (Table.find?_eq_some_iff.mp hr).1

theorem ask_find (h : Agrees db s room) (id : Int64) :
    ask (.find id) db = (.ok (s.table.find? id), db) := by
  rw [ask, answer, Plan.run_ask, Plan.run_done, h.holds.execute_find h.precise,
    optionalRow_result h.holds .find _ h.isPrecise_of_find?]

theorem ask_page (h : Agrees db s room) (hfew : s.table.rows.length < 0x8000000000000000)
    {filters : List RetainedFilter}
    (hfilters : ∀ f ∈ filters, f.column ∈ e.fields ∧ f.IsPrecise) (request : PageRequest) :
    ask (.page filters request) db =
      ((typedFilters filters).map fun typed => MemoryStore.selectPage s.table typed request,
        db) := by
  rw [ask, answer]
  cases htyped : typedFilters filters with
  | error fault => rfl
  | ok typed =>
    have hfits := fits_of_typedFilters htyped hfilters
    have hmatching := Nat.lt_of_le_of_lt (length_matchingRows_le s.table typed) hfew
    have hpage := h.holds.execute_page h.precise hfits (boundedCount_nonneg request.limit)
      (boundedCount_nonneg request.offset)
    rw [window_boundedCount hmatching] at hpage
    have hrows : ∀ r ∈ ((matchingRows s.table typed).drop request.offset.toNat).take
        request.limit.toNat, r.IsPrecise := by
      intro r hr
      exact h.precise r (List.mem_of_mem_filter (List.mem_of_mem_drop (List.mem_of_mem_take hr)))
    dsimp only
    rw [Plan.run_ask, h.holds.execute_count h.precise hfits, counted_count]
    dsimp only
    rw [Plan.run_ask, Plan.run_done, Entity.pageStatement, hpage,
      allRows_result h.holds .list hrows]
    rfl

/-- The identifier that both hand out next is one. -/
theorem toInt_nextId (h : Agrees db s (room + 1)) : s.nextId.toInt = db.next := by
  have hlower := h.lower
  have hupper := h.upper
  rw [h.nextId_eq, Int64.toInt_ofInt_of_le (by omega) (by omega)]

theorem ne_nextId (h : Agrees db s (room + 1)) : ∀ r ∈ s.table.rows, r.id ≠ s.nextId := by
  intro r hr heq
  have hlt := h.id_lt r hr
  rw [heq, h.toInt_nextId] at hlt
  omega

theorem ask_create (h : Agrees db s (room + 1)) {record : Record e.columns}
    (hrecord : record.IsPrecise) :
    ask (.create record) db = (.ok ⟨s.nextId, record⟩, db.append (⟨s.nextId, record⟩ : Row e)) := by
  have hrow : (⟨s.nextId, record⟩ : Row e).IsPrecise := hrecord
  rw [ask, answer, Plan.run_ask, Plan.run_done,
    h.holds.execute_insert h.toInt_nextId.symm h.ne_nextId record,
      oneRow_result h.holds .create hrow]

theorem create (h : Agrees db s (room + 1)) {record : Record e.columns}
    (hrecord : record.IsPrecise) :
    Agrees (db.append (⟨s.nextId, record⟩ : Row e))
      ⟨s.table.insert ⟨s.nextId, record⟩, s.nextId + 1⟩ room where
  holds := h.holds.append h.ne_nextId
  precise r hr := by
    rcases Table.mem_insert_iff.mp hr with rfl | ⟨hr, -⟩
    · exact hrecord
    · exact h.precise r hr
  nextId_eq := by
    change s.nextId + 1 = Int64.ofInt (db.next + 1)
    rw [h.nextId_eq, Int64.ofInt_add]
    rfl
  lower := Int.le_add_one h.lower
  upper := by
    have hupper := h.upper
    change db.next + 1 + room ≤ _
    omega
  id_lt r hr := by
    change r.id.toInt < db.next + 1
    rcases Table.mem_insert_iff.mp hr with rfl | ⟨hr, -⟩
    · rw [h.toInt_nextId]
      omega
    · have hlt := h.id_lt r hr
      omega

theorem ask_update (h : Agrees db s room) {row : Row e} (hrow : row.IsPrecise) :
    ask (.update row) db = (.ok ((s.table.find? row.id).map fun _ => row), db.overwrite row) := by
  have hrows : (s.table.find? row.id).toList.map (fun _ => row.stored) =
      ((s.table.find? row.id).map fun _ => row).toList.map Row.stored := by
    cases s.table.find? row.id with
    | none => rfl
    | some old => rfl
  have hprecise : ∀ r ∈ (s.table.find? row.id).map fun _ => row, r.IsPrecise := by
    intro r hr
    obtain ⟨-, -, rfl⟩ := Option.map_eq_some_iff.mp hr
    exact hrow
  rw [ask, answer, Plan.run_ask, Plan.run_done, h.holds.execute_update h.precise, hrows,
    optionalRow_result h.holds .update _ hprecise]

theorem overwrite (h : Agrees db s room) {row : Row e} (hrow : row.IsPrecise)
    (hfound : s.table.find? row.id ≠ none) :
    Agrees (db.overwrite row) { s with table := s.table.insert row } room where
  holds := h.holds.overwrite h.precise hfound
  precise r hr := by
    rcases Table.mem_insert_iff.mp hr with rfl | ⟨hr, -⟩
    · exact hrow
    · exact h.precise r hr
  nextId_eq := h.nextId_eq
  lower := h.lower
  upper := h.upper
  id_lt r hr := by
    rcases Table.mem_insert_iff.mp hr with rfl | ⟨hr, -⟩
    · obtain ⟨old, hold⟩ := Option.ne_none_iff_exists'.mp hfound
      have hlt := h.id_lt old (Table.find?_eq_some_iff.mp hold).1
      rw [Table.id_of_find? hold] at hlt
      exact hlt
    · exact h.id_lt r hr

theorem overwrite_absent (h : Agrees db s room) {row : Row e}
    (habsent : s.table.find? row.id = none) :
    Agrees (db.overwrite row) s room :=
  { h with holds := h.holds.overwrite_absent h.precise habsent }

theorem ask_delete (h : Agrees db s room) (id : Int64) :
    ask (.delete id : Call e) db = (.ok (s.table.find? id).isSome, db.remove id) := by
  rw [ask, answer, Plan.run_ask, Plan.run_done, h.holds.execute_delete h.precise]
  cases s.table.find? id with
  | none => rfl
  | some row => rfl

theorem remove (h : Agrees db s room) (id : Int64) :
    Agrees (db.remove id) { s with table := s.table.erase id } room where
  holds := h.holds.remove h.precise id
  precise r hr := h.precise r (List.mem_of_mem_filter hr)
  nextId_eq := h.nextId_eq
  lower := h.lower
  upper := h.upper
  id_lt r hr := h.id_lt r (List.mem_of_mem_filter hr)

/-- A question is answered alike, and what is held afterwards agrees. -/
theorem ask {c : Call e} {cs : List (Call e)} (h : Agrees db s ((c :: cs).countP Call.isCreate))
    (hfew : s.table.rows.length < 0x8000000000000000) (hc : c.IsAdmissible) :
    (SqlRepository.ask c db).1 = (MemoryStore.ask c s).1 ∧
      Agrees (SqlRepository.ask c db).2 (MemoryStore.ask c s).2 (cs.countP Call.isCreate) := by
  cases c with
  | find id =>
    rw [h.ask_find, MemoryStore.ask_find]
    exact ⟨rfl, h⟩
  | page filters request =>
    rw [h.ask_page hfew hc, MemoryStore.ask_page]
    exact ⟨rfl, h⟩
  | create record =>
    rw [List.countP_cons_of_pos rfl] at h
    rw [h.ask_create hc, MemoryStore.ask_create]
    exact ⟨rfl, h.create hc⟩
  | update row =>
    rw [List.countP_cons_of_neg Bool.false_ne_true] at h
    rw [h.ask_update hc, MemoryStore.ask_update]
    cases hfind : s.table.find? row.id with
    | none => exact ⟨rfl, h.overwrite_absent hfind⟩
    | some old => exact ⟨rfl, h.overwrite hc (hfind ▸ Option.some_ne_none old)⟩
  | delete id =>
    rw [List.countP_cons_of_neg Bool.false_ne_true] at h
    rw [h.ask_delete, MemoryStore.ask_delete]
    cases hfind : s.table.find? id with
    | none =>
      -- nothing is deleted on either side
      have hremove := h.remove id
      rw [Table.erase_absent hfind] at hremove
      exact ⟨rfl, hremove⟩
    | some old => exact ⟨rfl, h.remove id⟩

/-- Questions in turn are answered alike. -/
theorem answerAll {calls : List (Call e)} (h : Agrees db s (calls.countP Call.isCreate))
    (hcalls : ∀ c ∈ calls, c.IsAdmissible) (hfew : ∀ before, before <+: calls →
      (Plan.answerAll MemoryStore.ask before s).2.table.rows.length < 0x8000000000000000) :
    (Plan.answerAll SqlRepository.ask calls db).1 = (Plan.answerAll MemoryStore.ask calls s).1 ∧
      Agrees (Plan.answerAll SqlRepository.ask calls db).2
        (Plan.answerAll MemoryStore.ask calls s).2 0 := by
  obtain ⟨hanswers, hend⟩ :=
    Plan.answerAll_simulation (f := SqlRepository.ask) (g := MemoryStore.ask)
    (R := fun calls db (s : MemoryStore e) => Agrees db s (calls.countP Call.isCreate) ∧
      (∀ c ∈ calls, c.IsAdmissible) ∧ ∀ before, before <+: calls →
        (Plan.answerAll MemoryStore.ask before s).2.table.rows.length < 0x8000000000000000)
    (fun c calls db s ⟨h, hcalls, hfew⟩ => by
      obtain ⟨hc, hrest⟩ := List.forall_mem_cons.mp hcalls
      obtain ⟨hanswer, hnext⟩ := h.ask (hfew [] List.nil_prefix) hc
      exact ⟨hanswer, hnext, hrest, fun before hbefore =>
        hfew (c :: before) (List.cons_prefix_cons.mpr ⟨rfl, hbefore⟩)⟩)
    calls ⟨h, hcalls, hfew⟩
  exact ⟨hanswers, hend.1⟩

end Agrees

/-! ### All questions in turn -/

variable {rows : List (Row e)} {s : MemoryStore e} {db : Sql.Database} {calls : List (Call e)}

/-- A database that holds the rows that a store begins with, and hands out the same identifier next,
agrees with the store. -/
theorem agrees_of_ofRows? (hstore : MemoryStore.ofRows? rows = some s)
    (hrows : ∀ r ∈ rows, r.IsPrecise)
    (hdb : db.Holds s.table) (hnext : db.next = s.nextId.toInt) {room : Nat}
    (hids : s.nextId.toInt + room ≤ 0x8000000000000000) : Agrees db s room where
  holds := hdb
  precise r hr := by
    rw [MemoryStore.table_of_ofRows? hstore] at hr
    exact hrows r (Table.mem_of_mem_ofRows hr)
  nextId_eq := by rw [hnext, Int64.ofInt_toInt]
  lower := hnext ▸ s.nextId.le_toInt
  upper := hnext ▸ hids
  id_lt r hr := by
    rw [hnext]
    exact Int64.lt_iff_toInt_lt.mp (MemoryStore.lt_nextId_of_ofRows? hstore r hr)

/-- After each of the questions, the repository on the database has answered all of them as the one
in memory has, and the database holds the rows that are held in memory. -/
theorem sql_repository_agrees (hstore : MemoryStore.ofRows? rows = some s)
    (hrows : ∀ r ∈ rows, r.IsPrecise) (hdb : db.Holds s.table) (hnext : db.next = s.nextId.toInt)
    (hcalls : ∀ c ∈ calls, c.IsAdmissible)
    (hids : s.nextId.toInt + calls.countP Call.isCreate ≤ 0x8000000000000000)
    (hfew : ∀ before, before <+: calls →
      (Plan.answerAll MemoryStore.ask before s).2.table.rows.length < 0x8000000000000000) :
    ∀ before, before <+: calls →
      (Plan.answerAll SqlRepository.ask before db).1 = (Plan.answerAll MemoryStore.ask before s).1 ∧
        (Plan.answerAll SqlRepository.ask before db).2.Holds
          (Plan.answerAll MemoryStore.ask before s).2.table := by
  intro before hbefore
  have hcount := hbefore.sublist.countP_le (p := Call.isCreate)
  have hagrees : Agrees db s (before.countP Call.isCreate) :=
    agrees_of_ofRows? hstore hrows hdb hnext (by omega)
  obtain ⟨hanswers, hend⟩ := hagrees.answerAll (fun c hc => hcalls c (hbefore.subset hc))
    fun first hfirst => hfew first (hfirst.trans hbefore)
  exact ⟨hanswers, hend.holds⟩

/-- Reports that say of each trade its value and its day. -/
def dailyReport : Entity where
  table := "reports"
  label := "report"
  recordName := "Report"
  columns := [⟨"trade_value", .text⟩, ⟨"trade_date", .timestamp⟩]
  filterable := ["trade_value", "trade_date"]

/-- The first moment of 2000. -/
def newYear : Instant := ⟨0, 0, 0, by decide, by decide, by decide, by decide, by decide⟩

/-- Two reports on one day. -/
def dailyRows : List (Row dailyReport) :=
  [⟨-5, .cons ("100" : String) (.cons newYear .nil)⟩,
    ⟨3, .cons ("20" : String) (.cons newYear .nil)⟩]

/-- The store that begins with these reports. -/
def dailyStore : MemoryStore dailyReport := ⟨.ofRows dailyRows, 4⟩

/-- A database that holds these reports, the columns and the rows in another order. -/
def dailyDatabase : Sql.Database :=
  ⟨"reports", (dailyReport.fields.map Column.result).reverse,
    (dailyStore.table.rows.map Row.stored).reverse, 4⟩

/-- A page by a day, a report put in, one changed, one deleted, and one that is looked for. -/
def dailyCalls : List (Call dailyReport) :=
  [.page (dailyReport.retain [⟨"trade_date", .greaterThanOrEqual, "2000-01-01T00:00:00Z"⟩]) ⟨1, 10⟩,
    .create (.cons ("7" : String) (.cons newYear .nil)),
    .update ⟨3, .cons ("21" : String) (.cons newYear .nil)⟩, .delete (-5), .find 4]

theorem dailyDatabase_agrees :
    MemoryStore.ofRows? dailyRows = some dailyStore ∧ dailyDatabase.Holds dailyStore.table ∧
      ∀ before, before <+: dailyCalls →
        (Plan.answerAll SqlRepository.ask before dailyDatabase).1 =
            (Plan.answerAll MemoryStore.ask before dailyStore).1 ∧
          (Plan.answerAll SqlRepository.ask before dailyDatabase).2.Holds
            (Plan.answerAll MemoryStore.ask before dailyStore).2.table := by
  have hstore : MemoryStore.ofRows? dailyRows = some dailyStore := rfl
  have hdb : dailyDatabase.Holds dailyStore.table := ⟨rfl, List.reverse_perm _, List.reverse_perm _⟩
  refine ⟨hstore, hdb, sql_repository_agrees hstore (by decide) hdb rfl (by decide) (by decide) ?_⟩
  intro before hbefore
  -- Two reports and one that is put in are far fewer than can be counted.
  have hlength := MemoryStore.length_rows_answerAll_le before dailyStore
  have hcount := hbefore.sublist.countP_le (p := Call.isCreate)
  have hrows : dailyStore.table.rows.length = 2 := rfl
  have hcreates : dailyCalls.countP Call.isCreate = 1 := rfl
  omega

end ExchangeCatalog
