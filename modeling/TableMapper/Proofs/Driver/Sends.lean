import TableMapper.Proofs.Repository.Create

/-!
# What reaches a driver

An operation of a repository puts one statement to the driver it is given, or comes to an end
without a driver. Which statement that is depends on no driver and on nothing a driver remembers.

## Main definitions

* `Recorder.answered` — a recorder that has answered a statement.
* `Driver.Sends` — a call puts a statement to every driver.
-/

namespace TableMapper

/-- The state that a step leaves behind, whether it fails or not. -/
def Action.stateAfter {σ α : Type} : EStateM.Result Error σ α → σ
  | .ok _ s => s
  | .error _ s => s

/-! ## Statements at a recorder -/

namespace Recorder

/-- The answer to the next statement. -/
def next (r : Recorder) : Except Error ResultSet := r.answers.headD (.ok r.fallback)

def answered (r : Recorder) (statement : Statement) : Recorder :=
  { r with answers := r.answers.tail, recorded := r.recorded ++ [statement] }

theorem query_eq (statement : Statement) (r : Recorder) :
    driver.query statement r =
      match r.next with
      | .ok result => .ok result (r.answered statement)
      | .error e => .error e (r.answered statement) := by
  rcases h : r.answers with _ | ⟨result | e, rest⟩ <;> simp [driver, answer, next, answered, h]

theorem execute_eq (statement : Statement) (r : Recorder) :
    driver.execute statement r =
      match r.next with
      | .ok result => .ok result.rows.length (r.answered statement)
      | .error e => .error e (r.answered statement) := by
  change EStateM.bind (driver.query statement) _ r = _
  rw [EStateM.bind, query_eq]
  cases r.next <;> rfl

theorem stateAfter_query (statement : Statement) (r : Recorder) :
    Action.stateAfter (driver.query statement r) = r.answered statement := by
  rw [query_eq]
  cases r.next <;> rfl

theorem stateAfter_execute (statement : Statement) (r : Recorder) :
    Action.stateAfter (driver.execute statement r) = r.answered statement := by
  rw [execute_eq]
  cases r.next <;> rfl

end Recorder

/-! ## Statements at any driver -/

namespace Driver

variable {β : Type} {call : {σ : Type} → Driver σ → Action σ β} {statement statement' : Statement}

/-- The call puts the statement to every driver and nothing else, and comes to what `result` makes
of the answer. -/
inductive Sends (call : {σ : Type} → Driver σ → Action σ β) (statement : Statement) : Prop
  | query (result : ResultSet → Except Error β) :
      (∀ {σ : Type} (driver : Driver σ), call driver = do
        let answer ← driver.query statement
        MonadExcept.ofExcept (result answer)) →
      Sends call statement
  | execute (result : Nat → Except Error β) :
      (∀ {σ : Type} (driver : Driver σ), call driver = do
        let count ← driver.execute statement
        MonadExcept.ofExcept (result count)) →
      Sends call statement

theorem stateAfter_bind_ofExcept {σ α : Type} (x : Action σ α) (f : α → Except Error β) (s : σ) :
    Action.stateAfter ((x >>= fun a => MonadExcept.ofExcept (f a)) s) =
      Action.stateAfter (x s) := by
  change Action.stateAfter (EStateM.bind x _ s) = _
  unfold EStateM.bind
  cases x s with
  | error e t => rfl
  | ok a t => cases h : f a <;> simp [h, MonadExcept.ofExcept] <;> rfl

/-- A recorder sees the statement. -/
theorem Sends.stateAfter_eq (h : Sends call statement) (r : Recorder) :
    Action.stateAfter (call Recorder.driver r) = r.answered statement := by
  cases h with
  | query result hcall =>
    rw [hcall, stateAfter_bind_ofExcept, Recorder.stateAfter_query]
  | execute result hcall =>
    rw [hcall, stateAfter_bind_ofExcept, Recorder.stateAfter_execute]

/-- No call puts two statements to a driver. -/
theorem Sends.unique (h : Sends call statement) (h' : Sends call statement') :
    statement = statement' := by
  have hanswered := (h.stateAfter_eq {}).symm.trans (h'.stateAfter_eq {})
  simpa [Recorder.answered] using hanswered

end Driver

namespace Repository

variable {α : Type} {r : Repository α} {entities : List α} {rows : List Bindings}
  {statement : Statement}

theorem sends_read (r : Repository α) (filter : Filter) (limit : Nat) :
    Driver.Sends (r.read · filter limit) (r.table.read filter limit) :=
  .query (fun answer => answer.toRows.mapM r.entity.ofRow) fun _ => rfl

theorem sends_update {values : List (String × Value)} {filter : Filter}
    (h : r.table.update values filter = .ok statement) :
    Driver.Sends (r.update · values filter) statement :=
  .execute (fun _ => .ok ()) fun driver => by
    rw [update, h]
    rfl

theorem sends_delete (r : Repository α) (filter : Filter) :
    Driver.Sends (r.delete · filter) (r.table.delete filter) :=
  .execute (fun _ => .ok ()) fun _ => rfl

/-- Entities that are all bound are sent as the statement that the insert template expands to. -/
theorem sends_create (hne : entities ≠ [])
    (hrows : entities.mapM (bindColumns r.entity r.table.columns) = .ok rows)
    (hexpand : Template.expand r.table.insertTemplate rows = .ok statement) :
    Driver.Sends (r.create · entities) statement :=
  .execute (fun _ => .ok ()) fun driver => by
    rw [create_eq driver hne hrows, Driver.executeNamed_of_ok driver hexpand]
    rfl

/-! ## Requests that are turned down -/

section Refused

variable {σ : Type} {e : Error}

theorem update_of_error {values : List (String × Value)} {filter : Filter}
    (h : r.table.update values filter = .error e) (driver : Driver σ) :
    r.update driver values filter = throw e := by
  rw [update, h]
  rfl

theorem create_of_unbound (hne : entities ≠ [])
    (h : entities.mapM (bindColumns r.entity r.table.columns) = .error e) (driver : Driver σ) :
    r.create driver entities = throw e := by
  rw [create, if_neg (by simpa using hne), h]
  rfl

theorem create_of_expand_error (hne : entities ≠ [])
    (hrows : entities.mapM (bindColumns r.entity r.table.columns) = .ok rows)
    (h : Template.expand r.table.insertTemplate rows = .error e) (driver : Driver σ) :
    r.create driver entities = throw e := by
  rw [create_eq driver hne hrows, Driver.executeNamed_of_error driver h]
  rfl

end Refused

end Repository

end TableMapper
