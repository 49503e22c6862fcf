import TableMapper.BigEndian
import TableMapper.Value.Basic

/-!
# Typed values

The types a value can be decoded to, and what their terms are. An integer decodes to either width
when the number fits, a text decodes to a uuid when it spells one, and null decodes only to an
absent optional.

## Main definitions

* `Decoder` — a way to read values as terms of some type.
* `ValueType` — the nine plain types and the optional ones.
* `ValueType.Carrier` — the terms of a type.
* `ValueType.decode` — the term a value stands for, if any.
* `ValueType.toValue` — the value a term is bound as.
-/

namespace TableMapper

/-! ## Decoders -/

/-- A way to read values as terms of `α`. -/
structure Decoder (α : Type) where
  /-- The kind of value that is asked for, as error messages name it. -/
  expected : String
  /-- The term that a value stands for, if any. -/
  decode : Value → Option α

/-- Reads null as the absent term, and every other value as `d` does. -/
def Decoder.optional {α : Type} (d : Decoder α) : Decoder (Option α) where
  expected := d.expected
  decode v := if v.isNull then some none else (d.decode v).map some

/-! ## Types -/

inductive ValueType where
  | text
  | int4
  | int8
  | float8
  | bool
  | bytea
  | uuid
  | timestamp
  | timestamptz
  | optional (t : ValueType)
  deriving DecidableEq, Repr

namespace ValueType

@[reducible] def Carrier : ValueType → Type
  | text => String
  | int4 => Int32
  | int8 => Int64
  | float8 => Binary64
  | bool => Bool
  | bytea => Bytes
  | uuid => Uuid
  | timestamp => Moment
  | timestamptz => Moment
  | optional t => Option t.Carrier

/-- The kind of value a type is named for in error messages; an optional type has the name of the
type it wraps. -/
def expected : ValueType → String
  | text => "text"
  | int4 => "int4"
  | int8 => "int8"
  | float8 => "float8"
  | bool => "bool"
  | bytea => "bytea"
  | uuid => "uuid"
  | timestamp => "timestamp"
  | timestamptz => "timestamptz"
  | optional t => t.expected

/-- The term of type `t` that a value stands for. -/
def decode : (t : ValueType) → Value → Option t.Carrier
  | text, .text s => some s
  | int4, .int4 n => some n
  | int4, .int8 n => if BigEndian.fits 4 n.toInt then some n.toInt32 else none
  | int8, .int4 n => some n.toInt64
  | int8, .int8 n => some n
  | float8, .float8 x => some x
  | bool, .bool b => some b
  | bytea, .bytea bytes => some bytes
  | uuid, .uuid u => some u
  | uuid, .text s => Uuid.parse? s
  | timestamp, .timestamp m => some m
  | timestamptz, .timestamptz m => some m
  | optional _, .null => some none
  | optional t, v => (t.decode v).map some
  | _, _ => none

def decoder (t : ValueType) : Decoder t.Carrier := ⟨t.expected, t.decode⟩

theorem decoder_optional (t : ValueType) : (optional t).decoder = t.decoder.optional := by
  refine congrArg (Decoder.mk t.expected) (funext fun v => ?_)
  cases v <;> rfl

/-- The value that a term of type `t` is bound as. -/
def toValue : (t : ValueType) → t.Carrier → Value
  | text, s => .text s
  | int4, n => .int4 n
  | int8, n => .int8 n
  | float8, x => .float8 x
  | bool, b => .bool b
  | bytea, bytes => .bytea bytes
  | uuid, u => .uuid u
  | timestamp, m => .timestamp m
  | timestamptz, m => .timestamptz m
  | optional t, x => x.elim .null t.toValue

end ValueType

end TableMapper
