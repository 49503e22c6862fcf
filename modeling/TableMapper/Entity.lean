import TableMapper.Bindings
import TableMapper.Row

/-!
# Entities

An entity type declares its fields: which of them are stored, in which columns, and what part they
play in the table. Declarations are data, so a table can be compiled from them.

## Main definitions

* `EntityType` — the identity of a kind of entity.
* `Field` — the declaration of one field.
* `Declarations` — the fields that each entity type declares.
* `Entity` — how the terms of a type are bound to columns and read from rows.
-/

namespace TableMapper

/-- An entity type has a number of its own, and a name that messages call it by. -/
structure EntityType where
  id : Nat
  name : String
  deriving DecidableEq, Repr

/-! ## Fields -/

inductive Relation where
  | none
  | primaryKey
  /-- The field refers to `column` of the rows of `table`. -/
  | foreignKey (table column : String)
  deriving DecidableEq, Repr

inductive FieldKind where
  | value
  /-- Another entity, held always or optionally. -/
  | entity (optional : Bool) (target : EntityType)
  deriving DecidableEq, Repr

/-- The declaration of a field; the column is empty when the field is not stored. -/
structure Field where
  name : String
  column : String
  relation : Relation := .none
  kind : FieldKind := .value
  deriving DecidableEq, Repr

namespace Field

def stored (name column : String) : Field := ⟨name, column, .none, .value⟩

def transient (name : String) : Field := stored name ""

def primaryKey (f : Field) : Field := { f with relation := .primaryKey }

def foreignKey (f : Field) (table column : String) : Field :=
  { f with relation := .foreignKey table column }

def entity (f : Field) (target : EntityType) : Field := { f with kind := .entity false target }

def optionalEntity (f : Field) (target : EntityType) : Field :=
  { f with kind := .entity true target }

def isStored (f : Field) : Bool := !f.column.isEmpty

end Field

/-! ## Declarations -/

/-- The fields of each entity type, in the order they are declared. -/
structure Declarations where
  entries : List (EntityType × List Field)

namespace Declarations

/-- A type without an entry declares no field. -/
def fields (d : Declarations) (entity : EntityType) : List Field :=
  ((d.entries.find? (·.1 == entity)).map (·.2)).getD []

/-- Replace what an entity type declares. -/
def define (d : Declarations) (entity : EntityType) (fields : List Field) : Declarations :=
  ⟨(entity, fields) :: d.entries.filter (·.1 != entity)⟩

end Declarations

/-! ## Terms -/

/-- How terms of `α` are stored as rows of a table. -/
structure Entity (α : Type) where
  type : EntityType
  /-- The value stored in a column. -/
  bind : α → String → Option Value
  ofRow : Row → Except Error α

/-- Entities that are no more than named values: a column is bound to the first value of its name,
and a row is read column by column, up to the first one that does not decode. -/
def Entity.ofColumns (type : EntityType) (columns : List (String × ValueType)) :
    Entity Bindings where
  type
  bind := Bindings.get?
  ofRow row := do
    let pairs ← columns.mapM fun (column, t) => do
      let x ← row.get t column
      return (column, t.toValue x)
    return ⟨pairs⟩

end TableMapper
