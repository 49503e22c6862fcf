import TableMapper.Proofs.Driver.Result
import TableMapper.Repository

/-!
# Reading entities

Entities are read from what a server answers in two steps: the cells of all rows are read before
the first entity is made of its row. One cell without a value or one row without an entity fails
the whole read. Otherwise there is one entity for each row, in the order of the rows.

## Main definitions

* `Repository.ofValues` — the entity that a row of values stands for.
-/

namespace TableMapper

namespace Repository

variable {α : Type} {r : Repository α} {filter : Filter} {limit : Nat} {xs : List α} {e : Error}

/-! ## Any driver -/

section Driver

variable {σ : Type} {driver : Driver σ} {s t : σ}

theorem read_eq_ok_iff :
    r.read driver filter limit s = .ok xs t ↔
      ∃ result, driver.query (r.table.read filter limit) s = .ok result t ∧
        result.toRows.mapM r.entity.ofRow = .ok xs := by
  rw [read, bind_eq_ok_iff]
  simp only [ofExcept_eq_ok_iff]
  constructor
  · rintro ⟨result, _, hquery, hrows, rfl⟩
    exact ⟨result, hquery, hrows⟩
  · rintro ⟨result, hquery, hrows⟩
    exact ⟨result, t, hquery, hrows, rfl⟩

theorem read_eq_error_iff :
    r.read driver filter limit s = .error e t ↔
      driver.query (r.table.read filter limit) s = .error e t ∨
        ∃ result, driver.query (r.table.read filter limit) s = .ok result t ∧
          result.toRows.mapM r.entity.ofRow = .error e := by
  rw [read, bind_eq_error_iff]
  simp only [ofExcept_eq_error_iff]
  constructor
  · rintro (hquery | ⟨result, _, hquery, hrows, rfl⟩)
    · exact .inl hquery
    · exact .inr ⟨result, hquery, hrows⟩
  · rintro (hquery | ⟨result, hquery, hrows⟩)
    · exact .inl hquery
    · exact .inr ⟨result, t, hquery, hrows, rfl⟩

end Driver

/-! ## A server -/

section Server

open TableMapper.Server

variable {connection : ConnectionId} {s t : Server} {reply : Reply} {result : ResultSet}

/-- The entity that a row of values under these names stands for. -/
def ofValues (r : Repository α) (names : List String) (values : List Value) : Except Error α :=
  r.entity.ofRow (Row.ofColumns names values)

/-- The first row of values that no entity stands for has none for this reason. -/
def FirstRejected (r : Repository α) (names : List String) (rows : List (List Value)) (e : Error) :
    Prop :=
  ∃ i values, FailsFirst (fun values => ∃ x, r.ofValues names values = .ok x) rows i values ∧
    r.ofValues names values = .error e

/-- Without rows it does not matter that a result has no columns. -/
theorem mapM_ofRow_toRows (hrows : reply.ReadsAs result.rows)
    (hcolumns : result.columns = if reply.rows = [] then [] else reply.columnNames) :
    result.toRows.mapM r.entity.ofRow = result.rows.mapM (r.ofValues reply.columnNames) := by
  rw [ResultSet.toRows, List.mapM_map, hcolumns]
  split
  · next hnil =>
    have hlength := hrows.length_eq
    rw [hnil] at hlength
    rw [List.length_eq_zero_iff.mp hlength]
    rfl
  · rfl

theorem read_eq_ok_iff_of_answers
    (h : Answers connection (r.table.read filter limit) s reply t) :
    r.read (driver connection) filter limit s = .ok xs t ↔
      ∃ rows, reply.ReadsAs rows ∧
        List.Forall₂ (fun values x => r.ofValues reply.columnNames values = .ok x) rows xs := by
  simp only [read_eq_ok_iff, h.query_eq_ok_iff, ← mapM_eq_ok_iff]
  constructor
  · rintro ⟨result, ⟨hrows, hcolumns⟩, hxs⟩
    exact ⟨result.rows, hrows, mapM_ofRow_toRows hrows hcolumns ▸ hxs⟩
  · rintro ⟨rows, hrows, hxs⟩
    exact ⟨⟨_, rows⟩, ⟨hrows, rfl⟩, (mapM_ofRow_toRows hrows rfl).trans hxs⟩

theorem read_eq_error_iff_of_answers
    (h : Answers connection (r.table.read filter limit) s reply t) :
    r.read (driver connection) filter limit s = .error e t ↔
      reply.FirstUnreadable e ∨
        ∃ rows, reply.ReadsAs rows ∧ r.FirstRejected reply.columnNames rows e := by
  simp only [read_eq_error_iff, h.query_eq_ok_iff, h.query_eq_error_iff, FirstRejected,
    ← mapM_eq_error_iff]
  refine or_congr_right ⟨?_, ?_⟩
  · rintro ⟨result, ⟨hrows, hcolumns⟩, he⟩
    exact ⟨result.rows, hrows, mapM_ofRow_toRows hrows hcolumns ▸ he⟩
  · rintro ⟨rows, hrows, he⟩
    exact ⟨⟨_, rows⟩, ⟨hrows, rfl⟩, (mapM_ofRow_toRows hrows rfl).trans he⟩

theorem exists_read_eq_ok_iff_of_answers
    (h : Answers connection (r.table.read filter limit) s reply t) :
    (∃ xs, r.read (driver connection) filter limit s = .ok xs t) ↔
      ∃ rows, reply.ReadsAs rows ∧
        ∀ values ∈ rows, ∃ x, r.ofValues reply.columnNames values = .ok x := by
  simp only [read_eq_ok_iff_of_answers h, ← mapM_eq_ok_iff, ← exists_mapM_eq_ok_iff]
  grind

/-- A read that does not hand over entities reports an error. -/
theorem exists_read_eq_error_iff_of_answers
    (h : Answers connection (r.table.read filter limit) s reply t) :
    (∃ e, r.read (driver connection) filter limit s = .error e t) ↔
      ¬ ∃ xs, r.read (driver connection) filter limit s = .ok xs t := by
  constructor
  · rintro ⟨e, he⟩ ⟨xs, hxs⟩
    cases he.symm.trans hxs
  · intro hfails
    rw [exists_read_eq_ok_iff_of_answers h] at hfails
    by_cases hreadable : reply.IsReadable
    · obtain ⟨rows, hrows⟩ := Reply.exists_readsAs_iff.mpr hreadable
      have hrejected : ∃ values ∈ rows, ¬ ∃ x, r.ofValues reply.columnNames values = .ok x := by
        by_contra hall
        exact hfails ⟨rows, hrows, by simpa using hall⟩
      obtain ⟨i, values, hfirst⟩ := exists_failsFirst_iff.mpr hrejected
      obtain ⟨e, he⟩ : ∃ e, r.ofValues reply.columnNames values = .error e := by
        simpa [exists_ok_iff_forall_ne_error] using hfirst.fails
      exact ⟨e, (read_eq_error_iff_of_answers h).mpr (.inr ⟨rows, hrows, i, values, hfirst, he⟩)⟩
    · obtain ⟨e, he⟩ := Reply.exists_firstUnreadable_iff.mpr hreadable
      exact ⟨e, (read_eq_error_iff_of_answers h).mpr (.inl he)⟩

/-- A query of rows succeeds when every cell has a value, and a read when, besides, every row of
values stands for an entity. Either of them answers for all rows in their order, or it reports the
first fault and hands over nothing. -/
theorem reads_are_all_or_nothing {connection : ConnectionId} {statement : Statement} {s t : Server}
    {reply : Reply} (h : Answers connection statement s reply t) :
    (let query := (driver connection).query statement s;
      (reply.rows = [] → query = .ok .empty t) ∧
      ((∃ result, query = .ok result t) ↔ reply.IsReadable) ∧
      (∀ result, query = .ok result t ↔
        reply.ReadsAs result.rows ∧
          result.columns = if reply.rows = [] then [] else reply.columnNames) ∧
      (∀ result, query = .ok result t →
        result.rows.length = reply.rows.length ∧
          ∀ values ∈ result.rows, values.length = reply.columns.length) ∧
      ((∃ e, query = .error e t) ↔ ¬ reply.IsReadable) ∧
      ∀ e, query = .error e t ↔ reply.FirstUnreadable e) ∧
    ∀ {α : Type} (r : Repository α) (filter : Filter) (limit : Nat),
      r.table.read filter limit = statement →
      let read := r.read (driver connection) filter limit s;
      ((∃ xs, read = .ok xs t) ↔ ∃ rows, reply.ReadsAs rows ∧
        ∀ values ∈ rows, ∃ x, r.ofValues reply.columnNames values = .ok x) ∧
      (∀ xs, read = .ok xs t ↔ ∃ rows, reply.ReadsAs rows ∧
        List.Forall₂ (fun values x => r.ofValues reply.columnNames values = .ok x) rows xs) ∧
      (∀ xs, read = .ok xs t → xs.length = reply.rows.length) ∧
      ((∃ e, read = .error e t) ↔ ¬ ∃ xs, read = .ok xs t) ∧
      ∀ e, read = .error e t ↔ reply.FirstUnreadable e ∨
        ∃ rows, reply.ReadsAs rows ∧ r.FirstRejected reply.columnNames rows e := by
  refine ⟨⟨h.query_of_rows_nil, h.exists_query_eq_ok_iff, fun result => h.query_eq_ok_iff,
    fun result hresult => ?_, h.exists_query_eq_error_iff, fun e => h.query_eq_error_iff⟩,
    fun r filter limit hstatement => ?_⟩
  · obtain ⟨hrows, -⟩ := h.query_eq_ok_iff.mp hresult
    exact ⟨hrows.length_eq, hrows.length_values h.shaped⟩
  · subst hstatement
    refine ⟨exists_read_eq_ok_iff_of_answers h, fun xs => read_eq_ok_iff_of_answers h,
      fun xs hxs => ?_, exists_read_eq_error_iff_of_answers h,
      fun e => read_eq_error_iff_of_answers h⟩
    obtain ⟨rows, hrows, hentities⟩ := (read_eq_ok_iff_of_answers h).mp hxs
    rw [← hentities.length_eq, hrows.length_eq]

/-- In the first row a null of an unsupported type comes before the broken cell of the second row.
The rows of another answer all have values, and the second one is not a task. -/
theorem reads_are_all_or_nothing_tasks :
    let columns := [("key", ColumnType.bytea), ("done", .bool)]
    let types := [("key", ValueType.bytea), ("done", .bool)]
    let r : Repository Bindings := ⟨Entity.ofColumns ⟨0, "Task"⟩ types,
      ⟨0, "app", "task", [⟨"key", "key", .primaryKey⟩, ⟨"done", "done", .plain⟩]⟩⟩
    let broken : Reply := {
      columns := columns ++ [("extra", .other "jsonb")]
      rows := [[some [1], none, none], [some [2], some [], none]] }
    let tasks : Reply := {
      columns
      rows := [[some [1], some [1]], [some [2], none], [some [3], none]] }
    let server (reply : Reply) : Server := { replies := [reply], connections := 1 }
    let statement := r.table.read .all 0
    (∃ t, (driver 0).query statement (server { broken with rows := [] }) = .ok .empty t) ∧
    (∃ t, (driver 0).query statement (server broken) =
      .error (.typeMismatch "extra" "a supported column type" "jsonb") t) ∧
    (∃ t, (driver 0).query statement (server tasks) = .ok ⟨["key", "done"],
      [[.bytea [1], .bool true], [.bytea [2], .null], [.bytea [3], .null]]⟩ t) ∧
    ∃ t, r.read (driver 0) .all 0 (server tasks) =
      .error (.typeMismatch "done" "bool" "null") t := by
  intro columns types r broken tasks server statement
  have hanswers (reply : Reply) (hprepare : prepare reply statement = .ok [])
      (hexecute : reply.executeError = none)
      (hshape : ∀ row ∈ reply.rows, row.length = reply.columns.length) :
      ∃ t, Answers 0 statement (server reply) reply t :=
    ⟨_, answers_of_prepare (by decide +kernel) List.not_mem_nil rfl hprepare hexecute hshape⟩
  obtain ⟨t, hempty⟩ := hanswers { broken with rows := [] } rfl rfl (by decide)
  obtain ⟨t', hbroken⟩ := hanswers broken rfl rfl (by decide)
  obtain ⟨t'', htasks⟩ := hanswers tasks rfl rfl (by decide)
  obtain ⟨⟨hnil, -⟩, -⟩ := reads_are_all_or_nothing hempty
  obtain ⟨⟨-, -, -, -, -, herror⟩, -⟩ := reads_are_all_or_nothing hbroken
  obtain ⟨⟨-, -, hok, -⟩, hread⟩ := reads_are_all_or_nothing htasks
  obtain ⟨-, -, -, -, hreject⟩ := hread r .all 0 rfl
  have hnull : ¬ Cell.IsReadable ⟨"extra", .other "jsonb", none⟩ := by
    rintro ⟨v, hv⟩
    cases hv
  have hcell : FailsFirst Cell.IsReadable (broken.cells [some [1], none, none]) 2
      ⟨"extra", .other "jsonb", none⟩ :=
    failsFirst_succ_iff.mpr ⟨⟨.bytea [1], rfl⟩,
      failsFirst_succ_iff.mpr ⟨⟨.null, rfl⟩, failsFirst_zero_iff.mpr ⟨rfl, hnull⟩⟩⟩
  have hrow : FailsFirst (fun row => ∀ cell ∈ broken.cells row, cell.IsReadable) broken.rows 0
      [some [1], none, none] :=
    failsFirst_zero_iff.mpr ⟨rfl, fun h => hnull (h _ (by simp [Reply.cells, broken, columns]))⟩
  have hrows : tasks.ReadsAs
      [[.bytea [1], .bool true], [.bytea [2], .null], [.bytea [3], .null]] :=
    .cons (.cons rfl (.cons rfl .nil)) <| .cons (.cons rfl (.cons rfl .nil)) <|
      .cons (.cons rfl (.cons rfl .nil)) .nil
  have hrejected : r.FirstRejected tasks.columnNames
      [[.bytea [1], .bool true], [.bytea [2], .null], [.bytea [3], .null]]
      (.typeMismatch "done" "bool" "null") :=
    ⟨1, _, failsFirst_succ_iff.mpr ⟨⟨⟨[("key", .bytea [1]), ("done", .bool true)]⟩, rfl⟩,
      failsFirst_zero_iff.mpr ⟨rfl, by rintro ⟨x, hx⟩; cases hx⟩⟩, rfl⟩
  exact ⟨⟨t, hnil rfl⟩,
    ⟨t', (herror _).mpr ⟨0, 2, _, _, failsFirstInRows_iff.mpr ⟨hrow, hcell⟩,
      .unsupported (by decide)⟩⟩,
    ⟨t'', (hok _).mpr ⟨hrows, rfl⟩⟩, t'', (hreject _).mpr (.inr ⟨_, hrows, hrejected⟩)⟩

end Server

end Repository

end TableMapper
