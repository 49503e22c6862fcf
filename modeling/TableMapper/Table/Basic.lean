import TableMapper.Entity

/-!
# Tables

A table is what the declarations of an entity type compile to: its columns in the order of their
fields, the part each plays, and the texts its statements begin with.

## Main definitions

* `Column`, `Role` — one column and its part in the table.
* `Table` — the columns of a table in a schema.
* `Table.compile` — the table that a list of fields declares.
-/

namespace TableMapper

/-- The identity of a compiled table. -/
abbrev TableId := Nat

inductive Role where
  | plain
  | primaryKey
  /-- The column refers to `column` of `table`, whose compiled form has the identity `target`. -/
  | foreignKey (table column : String) (target : TableId)
  deriving DecidableEq, Repr

structure Column where
  name : String
  sourceField : String
  role : Role
  deriving DecidableEq, Repr

namespace Column

def isPrimaryKey (c : Column) : Bool := c.role == .primaryKey

def isForeignKey (c : Column) : Bool :=
  match c.role with
  | .foreignKey .. => true
  | _ => false

def foreignColumn? (c : Column) : Option String :=
  match c.role with
  | .foreignKey _ column _ => some column
  | _ => none

def foreignTableName? (c : Column) : Option String :=
  match c.role with
  | .foreignKey table _ _ => some table
  | _ => none

def foreignId? (c : Column) : Option TableId :=
  match c.role with
  | .foreignKey _ _ target => some target
  | _ => none

end Column

structure Table where
  schema : String
  name : String
  columns : List Column
  deriving DecidableEq, Repr

namespace Table

def qualifiedName (t : Table) : String := t.schema ++ "." ++ t.name

def primaryKey? (t : Table) : Option Column := t.columns.find? Column.isPrimaryKey

def column? (t : Table) (name : String) : Option Column := t.columns.find? (·.name == name)

def columnNames (t : Table) : List String := t.columns.map Column.name

/-! ## Statement texts -/

/-- The insert statement, with one named parameter for each column. -/
def insertTemplate (t : Table) : String :=
  "INSERT INTO " ++ t.qualifiedName ++ " (" ++ ", ".intercalate t.columnNames ++ ") VALUES (" ++
    ", ".intercalate (t.columnNames.map (":" ++ ·)) ++ ")"

def selectText (t : Table) : String :=
  "SELECT " ++ ", ".intercalate t.columnNames ++ " FROM " ++ t.qualifiedName

def updateText (t : Table) : String := "UPDATE " ++ t.qualifiedName ++ " SET "

def deleteText (t : Table) : String := "DELETE FROM " ++ t.qualifiedName

end Table

/-! ## Compilation -/

/-- What can be wrong with the fields an entity type declares. -/
inductive SchemaFault where
  | twoPrimaryKeys (entity first second : String)
  | noTargetTable (entity field : String)
  | noTargetColumn (entity field : String)
  | notOptionalEntity (entity field : String)
  | notCompiled (entity : String)
  deriving DecidableEq, Repr

namespace SchemaFault

def message : SchemaFault → String
  | twoPrimaryKeys entity first second =>
    "multiple primary keys for " ++ entity ++ ": " ++ first ++ ", " ++ second
  | noTargetTable entity field =>
    "foreign key " ++ entity ++ "." ++ field ++ " has no target table"
  | noTargetColumn entity field =>
    "foreign key " ++ entity ++ "." ++ field ++ " has no target column"
  | notOptionalEntity entity field =>
    "foreign key " ++ entity ++ "." ++ field ++ " must hold an optional entity"
  | notCompiled entity => "table for " ++ entity ++ " was not compiled"

def toError (fault : SchemaFault) : Error := .schema fault.message

end SchemaFault

/-- The entity type that a foreign key field holds. -/
def Field.target (entity : EntityType) (f : Field) (table column : String) :
    Except SchemaFault EntityType :=
  if table.isEmpty then .error (.noTargetTable entity.name f.name)
  else if column.isEmpty then .error (.noTargetColumn entity.name f.name)
  else
    match f.kind with
    | .entity true target => .ok target
    | _ => .error (.notOptionalEntity entity.name f.name)

namespace Table

variable {σ : Type}

/-- The role of a stored field. `key` is the column of the primary key among the fields before it,
and `resolve` finds the table that a foreign key refers to. -/
def roleOf (entity : EntityType) (resolve : EntityType → String → EStateM SchemaFault σ TableId)
    (key : Option String) (f : Field) : EStateM SchemaFault σ Role :=
  match f.relation with
  | .none => return .plain
  | .primaryKey =>
    match key with
    | some first => throw (.twoPrimaryKeys entity.name first f.column)
    | none => return .primaryKey
  | .foreignKey table column =>
    match f.target entity table column with
    | .error fault => throw fault
    | .ok target => return .foreignKey table column (← resolve target table)

/-- The columns of the stored fields, in order. The first field that is at fault ends the walk. -/
def columnsOf (entity : EntityType)
    (resolve : EntityType → String → EStateM SchemaFault σ TableId) :
    Option String → List Field → EStateM SchemaFault σ (List Column)
  | _, [] => return []
  | key, f :: fields =>
    if f.isStored then do
      let role ← roleOf entity resolve key f
      let key := if role = .primaryKey then some f.column else key
      let columns ← columnsOf entity resolve key fields
      return ⟨f.column, f.name, role⟩ :: columns
    else columnsOf entity resolve key fields

/-- The table `schema.name` of an entity type with these fields. -/
def compile (entity : EntityType) (schema name : String) (fields : List Field)
    (resolve : EntityType → String → EStateM SchemaFault σ TableId) :
    EStateM SchemaFault σ Table := do
  let columns ← columnsOf entity resolve none fields
  return ⟨schema, name, columns⟩

end Table

end TableMapper
