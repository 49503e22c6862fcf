import TableMapper.Row
import TableMapper.Statement
import TableMapper.Template

/-!
# Drivers

A driver carries statements to a database. What it remembers between statements is its state,
which is kept when a statement fails.

## Main definitions

* `Action` — a step of a driver that may fail.
* `Driver` — the operations on a driver's state.
* `Driver.executeNamed` — expands a template and executes it as one statement.
-/

namespace TableMapper

abbrev Action (σ α : Type) := EStateM Error σ α

structure Driver (σ : Type) where
  /-- Fails when no statement can be served. -/
  ping : Action σ Unit
  /-- Run a statement that returns rows. -/
  query : Statement → Action σ ResultSet
  /-- Run a statement and count the rows it affects. -/
  execute : Statement → Action σ Nat

/-- Execute a template once for all rows. A template that cannot be expanded reaches no database. -/
def Driver.executeNamed {σ : Type} (driver : Driver σ) (template : String) (rows : List Bindings) :
    Action σ Nat := do
  let statement ← MonadExcept.ofExcept (Template.expand template rows)
  driver.execute statement

end TableMapper
