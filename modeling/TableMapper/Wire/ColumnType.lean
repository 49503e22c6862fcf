/-!
# Column types

The types a server gives to parameters and result columns.

## Main definitions

* `ColumnType` — the types, and their names.
-/

namespace TableMapper

inductive ColumnType where
  | bool
  | int2
  | int4
  | int8
  | float4
  | float8
  | text
  | varchar
  | bpchar
  | name
  | unknown
  | bytea
  | uuid
  | timestamp
  | timestamptz
  /-- Every other type, built into the server or added to it, by its name. -/
  | other (name : String)
  deriving DecidableEq, Repr

namespace ColumnType

/-- The name a server gives to the type. -/
def typeName : ColumnType → String
  | bool => "bool"
  | int2 => "int2"
  | int4 => "int4"
  | int8 => "int8"
  | float4 => "float4"
  | float8 => "float8"
  | text => "text"
  | varchar => "varchar"
  | bpchar => "bpchar"
  | name => "name"
  | unknown => "unknown"
  | bytea => "bytea"
  | uuid => "uuid"
  | timestamp => "timestamp"
  | timestamptz => "timestamptz"
  | other typeName => typeName

end ColumnType

end TableMapper
