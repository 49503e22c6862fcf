import TableMapper.Value.Binary
import TableMapper.Value.Moment
import TableMapper.Value.Uuid

/-!
# Values

The values that travel between a program and its tables: statement parameters and table cells.

## Main definitions

* `Value` — a value of one of ten kinds.
* `ToValue` — the types whose terms can be bound as parameters.
-/

namespace TableMapper

inductive Value where
  | null
  | text (s : String)
  | int4 (n : Int32)
  | int8 (n : Int64)
  | float8 (x : Binary64)
  | bool (b : Bool)
  | bytea (bytes : Bytes)
  | uuid (u : Uuid)
  /-- A moment without a time zone. -/
  | timestamp (m : Moment)
  /-- A moment in universal time. -/
  | timestamptz (m : Moment)

namespace Value

/-- The short name of a value's kind. -/
def kind : Value → String
  | null => "null"
  | text _ => "text"
  | int4 _ => "int4"
  | int8 _ => "int8"
  | float8 _ => "float8"
  | bool _ => "bool"
  | bytea _ => "bytea"
  | uuid _ => "uuid"
  | timestamp _ => "timestamp"
  | timestamptz _ => "timestamptz"

def isNull : Value → Bool
  | null => true
  | _ => false

/-- Values are equal when their kinds and contents are; floating-point contents compare as
numbers. -/
def beq : Value → Value → Bool
  | null, null => true
  | text s, text t => s == t
  | int4 m, int4 n => m == n
  | int8 m, int8 n => m == n
  | float8 x, float8 y => x == y
  | bool a, bool b => a == b
  | bytea a, bytea b => a == b
  | uuid u, uuid v => u == v
  | timestamp a, timestamp b => a == b
  | timestamptz a, timestamptz b => a == b
  | _, _ => false

instance : BEq Value := ⟨beq⟩

end Value

/-! ## Terms that can be bound -/

class ToValue (α : Type) where
  toValue : α → Value

export ToValue (toValue)

instance : ToValue Value := ⟨id⟩

instance : ToValue String := ⟨.text⟩

/-- The narrowest integers are widened: no kind of their own exists for them. -/
instance : ToValue Int16 := ⟨fun n => .int4 n.toInt32⟩

instance : ToValue Int32 := ⟨.int4⟩

instance : ToValue Int64 := ⟨.int8⟩

/-- Unsigned integers are widened, so that the value always fits. -/
instance : ToValue UInt32 := ⟨fun n => .int8 (Int64.ofNat n.toNat)⟩

instance : ToValue Binary32 := ⟨fun x => .float8 x.widen⟩

instance : ToValue Binary64 := ⟨.float8⟩

instance : ToValue Bool := ⟨.bool⟩

instance : ToValue Bytes := ⟨.bytea⟩

instance : ToValue Uuid := ⟨.uuid⟩

/-- An absent term is bound as null. -/
instance {α : Type} [ToValue α] : ToValue (Option α) := ⟨fun x => x.elim .null toValue⟩

end TableMapper
