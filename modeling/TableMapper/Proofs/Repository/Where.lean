import TableMapper.Proofs.Driver.Sends
import TableMapper.Proofs.Filter.Everything
import TableMapper.Proofs.Table.Statement

/-!
# Statements for all rows

Reading, updating and deleting leave the WHERE clause out when a filter needs none. They do so for
the filters that hold for every row, and for no others: a filter that some row could fail restricts
the statement, whatever names and operands it has.

## Main definitions

* `Driver.SendsWhere` — a call sends a statement with a WHERE clause unless a filter needs none.
-/

namespace TableMapper

open Placeholder

namespace Driver

variable {β : Type} {call : {σ : Type} → Driver σ → Action σ β} {filter : Filter}
  {plain : Statement} {head tail : String}

/-- The call sends `plain` for a filter that needs no clause. For any other filter it sends a clause
of the filter between `head` and `tail`, with the operands behind the parameters of `plain`. -/
structure SendsWhere (call : {σ : Type} → Driver σ → Action σ β) (filter : Filter)
    (plain : Statement) (head tail : String) : Prop where
  sends_plain_iff : Sends call plain ↔ filter.isAll
  sends_clause : ¬ filter.isAll → filter.normal.operands ≠ [] ∧
    ∃ clause, filter.normal.Writes clause ∧
      Sends call ⟨head ++ " WHERE " ++ clause ++ tail, plain.params ++ filter.normal.operands⟩

/-- A clause has operands, so a statement with one is not the plain one. -/
theorem SendsWhere.intro (hplain : filter.isAll → Sends call plain)
    (hclause : ¬ filter.isAll → ∃ clause, filter.normal.Writes clause ∧
      Sends call ⟨head ++ " WHERE " ++ clause ++ tail, plain.params ++ filter.normal.operands⟩) :
    SendsWhere call filter plain head tail where
  sends_plain_iff := by
    refine ⟨fun hsends => ?_, hplain⟩
    by_contra hnot
    obtain ⟨clause, hw, hsends'⟩ := hclause hnot
    have hparams := congrArg Statement.params (hsends.unique hsends')
    exact hw.operands_ne_nil (by simpa using hparams)
  sends_clause hnot := by
    obtain ⟨clause, hw, hsends⟩ := hclause hnot
    exact ⟨hw.operands_ne_nil, clause, hw, hsends⟩

end Driver

namespace Table

variable {t : Table} {filter : Filter} {statement : Statement} {values : List (String × Value)}

theorem restrict_of_isAll (h : filter.isAll) : restrict statement filter = statement := by
  rw [restrict, Filter.render_of_isAll h]
  rfl

theorem restrict_of_not_isAll (statement : Statement) (h : ¬ filter.isAll) :
    ∃ clause, filter.normal.Writes clause ∧
      restrict statement filter =
        ⟨renumber statement.sql ++ " WHERE " ++ clause,
          statement.params ++ filter.normal.operands⟩ := by
  obtain ⟨hw, hparams⟩ := Filter.writes_render h
  obtain ⟨clause, hclause, hrenumber⟩ := hw.renumber_where statement.sql
  refine ⟨clause, hclause, ?_⟩
  rw [restrict, if_neg (by simpa using hw.ne_empty), hrenumber, hparams]

theorem read_of_isAll (t : Table) (limit : Nat) (h : filter.isAll) :
    t.read filter limit = ⟨t.selectText ++ limitText limit, []⟩ := by
  rw [read, Filter.render_of_isAll h]
  by_cases hlimit : limit = 0 <;> simp [hlimit, limitText, String.append_assoc]

theorem read_of_not_isAll (t : Table) (limit : Nat) (h : ¬ filter.isAll) :
    ∃ clause, filter.normal.Writes clause ∧
      t.read filter limit =
        ⟨t.selectText ++ " WHERE " ++ clause ++ limitText limit, filter.normal.operands⟩ := by
  obtain ⟨hw, hparams⟩ := Filter.writes_render h
  refine ⟨_, hw, ?_⟩
  rw [read, hparams]
  by_cases hlimit : limit = 0 <;> simp [hlimit, limitText, hw.ne_empty, String.append_assoc]

theorem update_of_ne_nil (t : Table) (filter : Filter) (hne : values ≠ []) :
    t.update values filter =
      .ok (restrict ⟨t.updateText ++ setText values, values.map (·.2)⟩ filter) := by
  rw [update, if_neg (by simpa using hne), setText, assignments_eq]

end Table

namespace Repository

variable {α β : Type} {call : {σ : Type} → Driver σ → Action σ β} {filter : Filter}
  {plain : Statement} {values : List (String × Value)}

/-- Updating and deleting restrict a statement. -/
theorem sendsWhere_restrict (h : Driver.Sends call (Table.restrict plain filter)) :
    Driver.SendsWhere call filter plain (renumber plain.sql) "" := by
  refine .intro (fun hall => ?_) (fun hnot => ?_)
  · rwa [Table.restrict_of_isAll hall] at h
  · obtain ⟨clause, hw, hrestrict⟩ := Table.restrict_of_not_isAll plain hnot
    rw [hrestrict] at h
    exact ⟨clause, hw, by rwa [String.append_empty]⟩

theorem sendsWhere_read (r : Repository α) (filter : Filter) (limit : Nat) :
    Driver.SendsWhere (r.read · filter limit) filter
      ⟨r.table.selectText ++ Table.limitText limit, []⟩ r.table.selectText
      (Table.limitText limit) := by
  have hsends := sends_read r filter limit
  refine .intro (fun hall => ?_) (fun hnot => ?_)
  · rwa [r.table.read_of_isAll limit hall] at hsends
  · obtain ⟨clause, hw, hread⟩ := r.table.read_of_not_isAll limit hnot
    rw [hread] at hsends
    exact ⟨clause, hw, hsends⟩

/-- A filter needs no clause exactly when it holds whatever its comparisons come out as, be it that
a comparison comes out alike wherever it stands or in each place on its own. For such a filter the
three operations send their plain statement; for any other they send a WHERE clause with operands.
No clause is empty, so neither is a side of a join in one. -/
theorem sends_where_unless_all (r : Repository α) (filter : Filter) (limit : Nat)
    (hne : values ≠ []) :
    let select := r.table.selectText
    let limited := Table.limitText limit
    let set := r.table.updateText ++ Table.setText values
    let delete := r.table.deleteText
    (filter.isAll ↔ ∀ truth, filter.eval truth = .holds) ∧
    (filter.isAll ↔ ∀ truth, filter.evalAt truth 0 = .holds) ∧
    Driver.SendsWhere (r.read · filter limit) filter ⟨select ++ limited, []⟩ select limited ∧
    Driver.SendsWhere (r.update · values filter) filter ⟨set, values.map (·.2)⟩ (renumber set) "" ∧
    Driver.SendsWhere (r.delete · filter) filter ⟨delete, []⟩ (renumber delete) "" ∧
    ∀ part clause, Filter.Writes part clause → clause ≠ "" :=
  ⟨Filter.isAll_iff_eval, Filter.isAll_iff_evalAt, sendsWhere_read r filter limit,
    sendsWhere_restrict (sends_update (r.table.update_of_ne_nil filter hne)),
    sendsWhere_restrict (sends_delete r filter), fun _ _ hw => hw.ne_empty⟩

/-- Two filters with the same comparisons, and names that are taken for placeholders. -/
theorem sends_where_unless_all_items :
    let table : Table := ⟨"app", "item$1", [⟨"id", "id", .primaryKey⟩]⟩
    let r : Repository Bindings := ⟨Entity.ofColumns ⟨0, "Item"⟩ [], ⟨0, table⟩⟩
    let values : List (String × Value) := [("$5", .null)]
    let partly := Filter.and (Filter.or (Filter.eq "a $7" "") (Filter.eq "a $7" "x")) .all
    let every := Filter.or (Filter.eq "a $7" "") (Filter.or .all (Filter.eq "a $7" "x"))
    values ≠ [] ∧
    (partly.isAll = false ∧ ∃ clause, partly.normal.Writes clause ∧
      Driver.Sends (r.update · values partly)
        ⟨"UPDATE app.item$1 SET $1 = $2 WHERE " ++ clause, [.null, .text "", .text "x"]⟩) ∧
    every.isAll ∧
      Driver.Sends (r.update · values every) ⟨"UPDATE app.item$1 SET $5 = $1", [.null]⟩ := by
  intro table r values partly every
  have hne : values ≠ [] := by simp [values]
  have hsome : partly.isAll = false := rfl
  have hevery : every.isAll := rfl
  obtain ⟨-, -, -, hupdate, -⟩ := sends_where_unless_all r partly 0 hne
  obtain ⟨-, clause, hw, hsends⟩ := hupdate.sends_clause (by simp [hsome])
  obtain ⟨-, -, -, hplain, -⟩ := sends_where_unless_all r every 0 hne
  have hset : r.table.updateText ++ Table.setText values = "UPDATE app.item$1 SET $5 = $1" := by
    decide +kernel
  have hrenumber : renumber "UPDATE app.item$1 SET $5 = $1" = "UPDATE app.item$1 SET $1 = $2" := by
    decide +kernel
  rw [hset, hrenumber, String.append_empty] at hsends
  rw [hset] at hplain
  exact ⟨hne, ⟨hsome, clause, hw, hsends⟩, hevery, hplain.sends_plain_iff.mpr hevery⟩

end Repository

end TableMapper
