import TableMapper.Table.Basic

/-!
# Catalogs

A catalog holds the tables that were compiled so far. A table is compiled when it is first asked
for, together with every table its foreign keys lead to, and the same table is returned ever
after. Foreign keys may form cycles: a slot is reserved before the fields of a table are walked,
and a walk that comes back to it refers to the slot.

## Main definitions

* `Key` — what a table is compiled for.
* `Catalog` — slots by key; a slot is empty while its table is being compiled.
* `Catalog.resolve` — the table for a key, compiled when it is not there yet.
* `Column.foreignTable?` — the table that a column refers to.
-/

namespace TableMapper

/-- A table is compiled for an entity type, a schema and a table name. -/
structure Key where
  entity : EntityType
  schema : String
  table : String
  deriving DecidableEq, Repr

structure Slot where
  key : Key
  id : TableId
  table : Option Table
  deriving DecidableEq, Repr

/-- A compiled table and its identity. -/
structure Compiled where
  id : TableId
  table : Table
  deriving DecidableEq, Repr

def Slot.compiled? (s : Slot) : Option Compiled := s.table.map fun t => ⟨s.id, t⟩

/-- `fresh` is an identity that no slot has had before. -/
structure Catalog where
  slots : List Slot
  fresh : TableId
  deriving DecidableEq, Repr

namespace Catalog

def empty : Catalog := ⟨[], 0⟩

/-- The number of tables. -/
def size (c : Catalog) : Nat := c.slots.length

def slot? (c : Catalog) (key : Key) : Option Slot := c.slots.find? (·.key == key)

/-- The compiled table for a key. -/
def get? (c : Catalog) (key : Key) : Option Compiled := c.slot? key >>= Slot.compiled?

/-- The compiled table with an identity. -/
def byId? (c : Catalog) (id : TableId) : Option Compiled :=
  c.slots.find? (·.id == id) >>= Slot.compiled?

def reserve (c : Catalog) (key : Key) : Catalog := ⟨c.slots ++ [⟨key, c.fresh, none⟩], c.fresh + 1⟩

def fill (c : Catalog) (key : Key) (table : Table) : Catalog :=
  { c with slots := c.slots.map fun s => if s.key = key then { s with table := some table } else s }

def release (c : Catalog) (keys : List Key) : Catalog :=
  { c with slots := c.slots.filter fun s => !keys.contains s.key }

/-! ## Compilation -/

/-- What a compilation keeps track of: the catalog, the keys it has reserved, and the entity types
whose fields it has looked up, in order. -/
structure Pass where
  catalog : Catalog
  reserved : List Key
  reflected : List EntityType

/-- Reserve a slot for a key. The fields of its entity type are looked up right after. -/
def Pass.reserve (p : Pass) (key : Key) : Pass :=
  ⟨p.catalog.reserve key, p.reserved ++ [key], p.reflected ++ [key.entity]⟩

/-- The identity of the table for a key, compiled first when no slot is reserved for it. Tables
are nested at most `depth` deep. -/
def compile (declared : Declarations) : (depth : Nat) → Key → EStateM SchemaFault Pass TableId
  | depth, key => do
    let pass ← get
    match pass.catalog.slot? key with
    | some slot => return slot.id
    | none =>
      match depth with
      | 0 => throw (.notCompiled key.entity.name)
      | depth + 1 =>
        set (pass.reserve key)
        let table ← Table.compile key.entity key.schema key.table (declared.fields key.entity)
          fun target name => compile declared depth ⟨target, key.schema, name⟩
        modify fun p => { p with catalog := p.catalog.fill key table }
        return pass.catalog.fresh

/-- The names of the tables that foreign keys refer to. -/
def foreignNames (declared : Declarations) : List String :=
  declared.entries.flatMap fun entry => entry.2.filterMap fun f =>
    match f.relation with
    | .foreignKey table _ => some table
    | _ => none

/-- A bound on how deep tables are nested: all but the innermost belong to a declared entity type,
and their names are the name asked for and the names that foreign keys refer to. -/
def depthBound (declared : Declarations) : Nat :=
  declared.entries.length * ((foreignNames declared).length + 1) + 1

structure Resolution where
  outcome : Except SchemaFault Compiled
  catalog : Catalog
  /-- The entity types whose fields were looked up, in order. -/
  reflected : List EntityType

/-- The table for a key. When it cannot be compiled, every slot reserved on the way is released. -/
def resolve (c : Catalog) (declared : Declarations) (key : Key) : Resolution :=
  match c.get? key with
  | some compiled => ⟨.ok compiled, c, []⟩
  | none =>
    match compile declared (depthBound declared) key ⟨c, [], []⟩ with
    | .ok id pass =>
      match pass.catalog.byId? id with
      | some compiled => ⟨.ok compiled, pass.catalog, pass.reflected⟩
      | none => ⟨.error (.notCompiled key.entity.name), pass.catalog, pass.reflected⟩
    | .error fault pass => ⟨.error fault, pass.catalog.release pass.reserved, pass.reflected⟩

end Catalog

/-- The table that a column refers to. `owner` is the catalog that compiled the column's table;
once it is gone, so are the tables behind its foreign keys. -/
def Column.foreignTable? (owner : Option Catalog) (column : Column) : Option Compiled := do
  let catalog ← owner
  let id ← column.foreignId?
  catalog.byId? id

end TableMapper
