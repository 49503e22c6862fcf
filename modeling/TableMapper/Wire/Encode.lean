import TableMapper.BigEndian
import TableMapper.Value.Basic
import TableMapper.Wire.ColumnType

/-!
# Encoding parameters

The binary form of a parameter, as the server expects it for the type it gave to the placeholder.
An integer takes the width of its column when it fits, a float is rounded for a narrow column, and
a text may spell a uuid; every other value goes only to columns of its own type.

## Main definitions

* `Wire.encode` — the bytes of a value, none for null.
-/

namespace TableMapper

namespace Wire

inductive EncodeFault where
  /-- No form of the value has this column type. -/
  | wrongType
  | intOutOfRange
  | invalidUuid
  deriving DecidableEq, Repr

def utf8 (s : String) : Bytes := s.toUTF8.data.toList

/-- The bytes of a term, for a column that has the term's own type. -/
def checked (own : ColumnType) (bytes : Bytes) (type : ColumnType) : Except EncodeFault Bytes :=
  if type = own then .ok bytes else .error .wrongType

def encodeText (s : String) (type : ColumnType) : Except EncodeFault Bytes :=
  match type with
  | .uuid =>
    match Uuid.parse? s with
    | some u => checked .uuid u.bytes type
    | none => .error .invalidUuid
  | .text | .varchar | .bpchar | .name | .unknown => .ok (utf8 s)
  -- Text types that a server does not start out with are told by their names.
  | .other name =>
    if name = "citext" then .ok (utf8 s)
    -- These put a version number in front of the text.
    else if name ∈ ["ltree", "lquery", "ltxtquery"] then .ok (1 :: utf8 s)
    else .error .wrongType
  | _ => .error .wrongType

/-- The number, if it is in the range of signed integers of `width` bytes. -/
def narrow (width : Nat) (n : Int) : Except EncodeFault Int :=
  if BigEndian.fits width n then .ok n else .error .intOutOfRange

/-- An integer of 32 bits: a narrower column is checked for room, a wider one has it. -/
def encodeInt4 (n : Int32) (type : ColumnType) : Except EncodeFault Bytes :=
  match type with
  | .int2 => do checked .int2 (BigEndian.ofInt 2 (← narrow 2 n.toInt)) type
  | .int8 => checked .int8 (BigEndian.ofInt 8 n.toInt64.toInt) type
  | _ => checked .int4 (BigEndian.ofInt 4 n.toInt) type

/-- An integer of 64 bits: every other column of integers is checked for room. -/
def encodeInt8 (n : Int64) (type : ColumnType) : Except EncodeFault Bytes :=
  match type with
  | .int2 => do checked .int2 (BigEndian.ofInt 2 (← narrow 2 n.toInt)) type
  | .int4 => do checked .int4 (BigEndian.ofInt 4 (← narrow 4 n.toInt)) type
  | _ => checked .int8 (BigEndian.ofInt 8 n.toInt) type

def encodeFloat (x : Binary64) (type : ColumnType) : Except EncodeFault Bytes :=
  match type with
  | .float4 => checked .float4 (BigEndian.ofNat 4 x.narrow.bits.toNat) type
  | _ => checked .float8 (BigEndian.ofNat 8 x.bits.toNat) type

/-- Microseconds since the year 2000. -/
def encodeMoment (m : Moment) : Bytes := BigEndian.ofInt 8 m.micros

/-- The bytes of a value for a column of the given type; null has none, whatever the type. -/
def encode (type : ColumnType) : Value → Except EncodeFault (Option Bytes)
  | .null => .ok none
  | .text s => some <$> encodeText s type
  | .int4 n => some <$> encodeInt4 n type
  | .int8 n => some <$> encodeInt8 n type
  | .float8 x => some <$> encodeFloat x type
  | .bool b => some <$> checked .bool [if b then 1 else 0] type
  | .bytea bytes => some <$> checked .bytea bytes type
  | .uuid u => some <$> checked .uuid u.bytes type
  | .timestamp m => some <$> checked .timestamp (encodeMoment m) type
  | .timestamptz m => some <$> checked .timestamptz (encodeMoment m) type

end Wire

end TableMapper
