import TableMapper.Catalog.Basic
import TableMapper.Driver.Basic
import TableMapper.Table.Statement

/-!
# Repositories

A repository stores the entities of one type in one table. Every operation sends at most one
statement through a driver.

## Main definitions

* `Repository` — an entity and the compiled table it is stored in.
* `Repository.connect` — checks the connection and finds the table in a catalog.
* `Repository.create`, `Repository.read`, `Repository.update`, `Repository.delete` — the
  operations.
-/

namespace TableMapper

structure Repository (α : Type) where
  entity : Entity α
  compiled : Compiled

namespace Repository

variable {σ α : Type}

def table (r : Repository α) : Table := r.compiled.table

/-! ## Connecting -/

structure Connected (α : Type) where
  outcome : Except Error (Repository α)
  catalog : Catalog
  /-- The entity types whose fields were looked up, in order. -/
  reflected : List EntityType

/-- The failure of a connection that was meant for a repository. -/
def invalidConnection (entity : EntityType) (e : Error) : Error :=
  .connectionFailed
    ("invalid connection supplied to Repository[" ++ entity.name ++ "]: " ++ e.message)

/-- A repository for `schema.table`. The connection is checked first; when it cannot serve
statements, nothing is compiled. -/
def connect (driver : Driver σ) (catalog : Catalog) (declared : Declarations) (entity : Entity α)
    (schema table : String) : StateM σ (Connected α) := fun s =>
  match driver.ping s with
  | .error e s => (⟨.error (invalidConnection entity.type e), catalog, []⟩, s)
  | .ok _ s =>
    let resolution := catalog.resolve declared ⟨entity.type, schema, table⟩
    match resolution.outcome with
    | .error fault => (⟨.error fault.toError, resolution.catalog, resolution.reflected⟩, s)
    | .ok compiled => (⟨.ok ⟨entity, compiled⟩, resolution.catalog, resolution.reflected⟩, s)

/-! ## Operations -/

/-- The values of an entity for some columns, in the order of the columns. -/
def bindColumns (entity : Entity α) (columns : List Column) (x : α) : Except Error Bindings := do
  let pairs ← columns.mapM fun column =>
    match entity.bind x column.name with
    | some v => .ok (column.name, v)
    | none => .error (.missingParameter (entity.type.name ++ "." ++ column.name))
  return ⟨pairs⟩

/-- Insert entities with one statement. Nothing is sent when there are none, or when one of them
leaves a column without a value. -/
def create (r : Repository α) (driver : Driver σ) (entities : List α) : Action σ Unit := do
  if entities.isEmpty then return
  let rows ← MonadExcept.ofExcept (entities.mapM (bindColumns r.entity r.table.columns))
  discard <| driver.executeNamed r.table.insertTemplate rows

/-- The entities a filter matches, at most `limit` of them, or all of them when `limit` is zero. One
row that does not decode fails the whole read. -/
def read (r : Repository α) (driver : Driver σ) (filter : Filter) (limit : Nat) :
    Action σ (List α) := do
  let result ← driver.query (r.table.read filter limit)
  MonadExcept.ofExcept (result.toRows.mapM r.entity.ofRow)

def update (r : Repository α) (driver : Driver σ) (values : List (String × Value))
    (filter : Filter) : Action σ Unit := do
  let statement ← MonadExcept.ofExcept (r.table.update values filter)
  discard <| driver.execute statement

/-- Delete the entities a filter matches; `Filter.all` empties the table. -/
def delete (r : Repository α) (driver : Driver σ) (filter : Filter) : Action σ Unit :=
  discard <| driver.execute (r.table.delete filter)

end Repository

end TableMapper
