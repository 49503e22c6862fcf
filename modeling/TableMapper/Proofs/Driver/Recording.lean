import Mathlib.Data.List.DropRight
import Mathlib.Data.List.Induction
import TableMapper.Proofs.Driver.Sends

/-!
# Runs of a recorder

A recorder takes an answer from its queue for each statement that reaches it, and its record is
about the same statements. The queue is counted over the whole run; the record begins anew whenever
it is cleared. An operation that no statement comes of leaves both of them alone.

## Main definitions

* `Recorder.Operation` — what can be asked of a recorder.
* `Recorder.run` — the outcomes of operations, and the recorder they leave.
* `Recorder.statements` — the statements that come of operations.
-/

namespace TableMapper

namespace Recorder

/-! ## Operations -/

inductive Operation where
  | ping
  | query (statement : Statement)
  | execute (statement : Statement)
  | executeNamed (template : String) (rows : List Bindings)
  | clear

inductive Outcome where
  | done (result : Except Error Unit)
  | rows (result : Except Error ResultSet)
  | count (result : Except Error Nat)

/-- The outcome of a step that has ended, and the recorder that it leaves. -/
def ended {α : Type} (outcome : Except Error α → Outcome) (step : EStateM.Result Error Recorder α) :
    Outcome × Recorder :=
  (outcome (resultOf step), Action.stateAfter step)

/-- Carry out an operation. -/
def perform (r : Recorder) : Operation → Outcome × Recorder
  | .ping => ended .done (driver.ping r)
  | .query statement => ended .rows (driver.query statement r)
  | .execute statement => ended .count (driver.execute statement r)
  | .executeNamed template rows => ended .count (driver.executeNamed template rows r)
  | .clear => (.done (.ok ()), r.clear)

/-- Carry out operations, one after the other. -/
def run (r : Recorder) : List Operation → List Outcome × Recorder
  | [] => ([], r)
  | operation :: operations =>
    let (outcome, r) := r.perform operation
    let (outcomes, r) := r.run operations
    (outcome :: outcomes, r)

namespace Operation

/-- The statement that comes of an operation, if one does; a template that cannot be expanded comes
to no statement. -/
def statement? : Operation → Option Statement
  | query statement => some statement
  | execute statement => some statement
  | executeNamed template rows => (Template.expand template rows).toOption
  | ping => none
  | clear => none

def isClear : Operation → Bool
  | clear => true
  | _ => false

/-- The outcome of an operation whose statement, if one comes of it, has this answer. -/
def outcome (healthy : Bool) (answer : Except Error ResultSet) : Operation → Outcome
  | ping =>
    .done (if healthy then .ok () else .error (.connectionFailed "in-memory driver is unhealthy"))
  | query _ => .rows answer
  | execute _ => .count (answer.map fun result => result.rows.length)
  | executeNamed template rows =>
    match Template.expand template rows with
    | .ok _ => .count (answer.map fun result => result.rows.length)
    | .error e => .count (.error e)
  | clear => .done (.ok ())

end Operation

/-- The statements that come of operations, in order. -/
def statements (operations : List Operation) : List Statement :=
  operations.filterMap Operation.statement?

/-- The operations behind the last one that clears the record. -/
def sinceClear (operations : List Operation) : List Operation :=
  operations.rtakeWhile (!·.isClear)

variable {r : Recorder} {statement : Statement} {operation : Operation}

/-! ## One operation -/

/-- An operation that a statement comes of takes the next answer and records the statement. -/
theorem perform_of_statement (h : operation.statement? = some statement) (r : Recorder) :
    r.perform operation = (operation.outcome r.healthy r.next, r.answered statement) := by
  cases operation with
  | ping => cases h
  | query statement' =>
    obtain rfl := Option.some.inj h
    rw [perform, query_eq]
    cases r.next <;> rfl
  | execute statement' =>
    obtain rfl := Option.some.inj h
    rw [perform, execute_eq]
    cases r.next <;> rfl
  | executeNamed template rows =>
    have hexpand : Template.expand template rows = .ok statement := by
      cases hexpand : Template.expand template rows <;>
        simp_all [Operation.statement?, Except.toOption]
    rw [perform, Driver.executeNamed_of_ok _ hexpand, execute_eq]
    simp only [Operation.outcome, hexpand]
    cases r.next <;> rfl
  | clear => cases h

/-- An operation that no statement comes of takes no answer and records nothing. -/
theorem perform_of_statement?_eq_none (h : operation.statement? = none)
    (answer : Except Error ResultSet) (r : Recorder) :
    r.perform operation =
      (operation.outcome r.healthy answer, if operation.isClear then r.clear else r) := by
  cases operation with
  | ping =>
    have hping : driver.ping r = if r.healthy then .ok () r else
        .error (.connectionFailed "in-memory driver is unhealthy") r := by
      change (if r.healthy then _ else _ : Action Recorder Unit) r = _
      split <;> rfl
    rw [perform, hping]
    cases hhealthy : r.healthy <;>
      simp [ended, Operation.outcome, Operation.isClear, resultOf, Action.stateAfter]
  | query statement => cases h
  | execute statement => cases h
  | executeNamed template rows =>
    cases hexpand : Template.expand template rows with
    | ok statement => simp [Operation.statement?, hexpand, Except.toOption] at h
    | error e =>
      rw [perform, Driver.executeNamed_of_error _ hexpand]
      simp only [Operation.outcome, hexpand]
      rfl
  | clear => rfl

/-! ## Many operations -/

theorem run_append (r : Recorder) (operations later : List Operation) :
    r.run (operations ++ later) =
      ((r.run operations).1 ++ ((r.run operations).2.run later).1,
        ((r.run operations).2.run later).2) := by
  induction operations generalizing r with
  | nil => rfl
  | cons operation operations ih => simp only [List.cons_append, run, ih]

theorem length_run (r : Recorder) (operations : List Operation) :
    (r.run operations).1.length = operations.length := by
  induction operations generalizing r with
  | nil => rfl
  | cons operation operations ih => simp only [run, List.length_cons, ih]

theorem run_concat (r : Recorder) (operations : List Operation) (operation : Operation) :
    (r.run (operations ++ [operation])).2 = ((r.run operations).2.perform operation).2 := by
  rw [run_append]
  rfl

theorem statements_concat (operations : List Operation) (operation : Operation) :
    statements (operations ++ [operation]) =
      statements operations ++ operation.statement?.toList := by
  rw [statements, List.filterMap_append, List.filterMap_cons]
  cases operation.statement? <;> rfl

theorem sinceClear_concat (operations : List Operation) (operation : Operation) :
    sinceClear (operations ++ [operation]) =
      if operation.isClear then [] else sinceClear operations ++ [operation] := by
  rw [sinceClear, List.rtakeWhile_concat]
  cases operation.isClear <;> rfl

theorem isClear_of_statement?_eq_some (h : operation.statement? = some statement) :
    operation.isClear = false := by
  cases operation with
  | clear => cases h
  | _ => rfl

/-- What operations leave of the queue, and what they put on a record that was empty. -/
theorem recorder_run (h : r.recorded = []) (operations : List Operation) :
    (r.run operations).2 =
      { r with
        answers := r.answers.drop (statements operations).length
        recorded := statements (sinceClear operations) } := by
  induction operations using List.reverseRecOn with
  | nil =>
    obtain ⟨answers, fallback, healthy, recorded⟩ := r
    cases h
    rfl
  | append_singleton operations operation ih =>
    rw [run_concat, ih, statements_concat, sinceClear_concat]
    cases hs : operation.statement? with
    | none =>
      rw [perform_of_statement?_eq_none hs (.ok .empty)]
      cases operation.isClear with
      | true => simp [clear, statements]
      | false => simp [statements_concat, hs]
    | some statement =>
      rw [perform_of_statement hs, isClear_of_statement?_eq_some hs]
      simp [statements_concat, hs, answered]

/-- Each operation is answered from the queue, at the number of statements that came of the
operations before it. -/
theorem outcome_run (h : r.recorded = []) (before : List Operation) (operation : Operation)
    (later : List Operation) :
    (r.run (before ++ operation :: later)).1[before.length]? =
      some (operation.outcome r.healthy
        (r.answers.getD (statements before).length (.ok r.fallback))) := by
  have houtcome : (r.run (before ++ operation :: later)).1[before.length]? =
      some ((r.run before).2.perform operation).1 := by
    rw [run_append, List.getElem?_append_right (by rw [length_run])]
    simp [length_run, run]
  rw [houtcome, recorder_run h]
  cases hs : operation.statement? with
  | none => rw [perform_of_statement?_eq_none hs]
  | some statement =>
    rw [perform_of_statement hs]
    simp [next, List.headD_eq_head?_getD, List.getD_eq_getElem?_getD]

/-! ## Setting up -/

namespace Setting

/-- The answers that a step of setting up puts in the queue. -/
def queued : Setting → List (Except Error ResultSet)
  | answer result => [.ok result]
  | answers results => results.map .ok
  | failure e => [.error e]
  | fallback _ => []
  | unhealthy => []

def fallback? : Setting → Option ResultSet
  | fallback result => some result
  | _ => none

end Setting

theorem configured_concat (settings : List Setting) (setting : Setting) :
    configured (settings ++ [setting]) = (configured settings).configure setting :=
  List.foldl_append

theorem answers_configured (settings : List Setting) :
    (configured settings).answers = settings.flatMap Setting.queued := by
  induction settings using List.reverseRecOn with
  | nil => rfl
  | append_singleton settings setting ih =>
    rw [configured_concat, List.flatMap_append, ← ih]
    cases setting <;> simp [configure, enqueue, Setting.queued]

/-- The fallback that was set last counts; without one there is no row. -/
theorem fallback_configured (settings : List Setting) :
    (configured settings).fallback = (settings.filterMap Setting.fallback?).getLastD .empty := by
  induction settings using List.reverseRecOn with
  | nil => rfl
  | append_singleton settings setting ih =>
    rw [configured_concat, List.filterMap_append]
    cases setting <;> simp [configure, enqueue, Setting.fallback?, ih]

theorem recorded_configured (settings : List Setting) : (configured settings).recorded = [] := by
  induction settings using List.reverseRecOn with
  | nil => rfl
  | append_singleton settings setting ih =>
    rw [configured_concat, ← ih]
    cases setting <;> rfl

/-- Over the whole life of a recorder each statement that comes of an operation takes one answer
from its queue, in order, and the fallback when the queue is used up. On record are, in order, the
statements that came of the operations since the record was cleared. An operation that no statement
comes of changes nothing, unless it clears the record. -/
theorem answers_in_order_and_records (settings : List Setting) :
    let r := configured settings
    let queue := settings.flatMap Setting.queued
    let fallback := (settings.filterMap Setting.fallback?).getLastD .empty
    (∀ before operation later,
      (r.run (before ++ operation :: later)).1[before.length]? =
        some (operation.outcome r.healthy
          (queue.getD (statements before).length (.ok fallback)))) ∧
    ∀ operations,
      (r.run operations).1.length = operations.length ∧
      (r.run operations).2.answers = queue.drop (statements operations).length ∧
      (r.run operations).2.recorded = statements (sinceClear operations) ∧
      (r.run operations).2.lastStatement? = (statements (sinceClear operations)).getLast? ∧
      ∀ operation, operation.statement? = none →
        (r.run (operations ++ [operation])).2 =
          if operation.isClear then (r.run operations).2.clear else (r.run operations).2 := by
  intro r queue fallback
  have hempty : r.recorded = [] := recorded_configured settings
  have hrecorded (operations : List Operation) :
      (r.run operations).2.recorded = statements (sinceClear operations) := by
    rw [recorder_run hempty]
  refine ⟨fun before operation later => ?_, fun operations => ⟨length_run r operations, ?_,
    hrecorded operations, ?_, fun operation hnone => ?_⟩⟩
  · rw [outcome_run hempty, answers_configured, fallback_configured]
  · rw [recorder_run hempty, answers_configured]
  · rw [lastStatement?, hrecorded]
  · rw [run_concat, perform_of_statement?_eq_none hnone (.ok .empty)]

/-- A query takes the failure from the queue, and a template that misses a parameter takes nothing.
The last statement finds the queue used up. -/
theorem answers_in_order_and_records_accounts :
    let insert := "INSERT INTO app.account (id) VALUES (:id)"
    let rejected : Operation := .executeNamed insert [⟨[("name", .null)]⟩]
    let r := configured [.failure (.queryFailed "57014: canceled"),
      .fallback ⟨["n"], [[.int4 1]]⟩, .answers [.empty]]
    let before : List Operation := [.ping, .query ⟨"SELECT 1", []⟩, rejected, .clear,
      .executeNamed insert [⟨[("id", .int8 1)]⟩, ⟨[("id", .int8 2)]⟩]]
    let operations := before ++ [.execute ⟨"SELECT 2", []⟩]
    (r.run operations).1[1]? = some (.rows (.error (.queryFailed "57014: canceled"))) ∧
    (r.run operations).1[5]? = some (.count (.ok 1)) ∧
    (r.run operations).2.recorded.map Statement.sql =
      ["INSERT INTO app.account (id) VALUES ($1), ($2)", "SELECT 2"] ∧
    rejected.statement? = none ∧
    (r.run (operations ++ [rejected])).2 = (r.run operations).2 := by
  intro insert rejected r before operations
  obtain ⟨houtcome, hrun⟩ := answers_in_order_and_records [
    .failure (.queryFailed "57014: canceled"), .fallback ⟨["n"], [[.int4 1]]⟩, .answers [.empty]]
  obtain ⟨-, -, hrecorded, -, hnone⟩ := hrun operations
  have hrejected : rejected.statement? = none :=
    Option.isNone_iff_eq_none.mp (by decide +kernel)
  have hlength : (statements before).length = 2 := by decide +kernel
  refine ⟨houtcome [.ping] _ _, ?_, ?_, hrejected, hnone rejected hrejected⟩
  · have hlast := houtcome before (.execute ⟨"SELECT 2", []⟩) []
    rw [hlength] at hlast
    exact hlast
  · rw [hrecorded]
    decide +kernel

end Recorder

end TableMapper
