import TableMapper.BigEndian
import TableMapper.Value.Basic
import TableMapper.Wire.ColumnType

/-!
# Decoding cells

The value that a cell of a result holds, given the type of its column.

## Main definitions

* `Wire.reader?` — how the bytes of a column type are read, for the types that are supported.
* `Wire.decode` — the value of a cell.
-/

namespace TableMapper

namespace Wire

inductive DecodeFault where
  /-- Cells of this column type are not read. -/
  | unsupported
  | malformed
  deriving DecidableEq, Repr

def readInt (width : Nat) (bytes : Bytes) : Option Int :=
  if bytes.length = width then some (BigEndian.toInt bytes) else none

def readNat (width : Nat) (bytes : Bytes) : Option Nat :=
  if bytes.length = width then some (BigEndian.toNat bytes) else none

/-- One byte; every byte but zero is true. -/
def readBool : Bytes → Option Bool
  | [b] => some (b != 0)
  | _ => none

def readText (bytes : Bytes) : Option String := String.fromUTF8? ⟨bytes.toArray⟩

def readMoment (bytes : Bytes) : Option Moment := readInt 8 bytes >>= Moment.ofMicros?

/-- How the bytes of a cell are read. The narrow types widen: an `int2` is read as an `int4`, a
`float4` as a `float8`, and every text type as text. -/
def reader? : ColumnType → Option (Bytes → Option Value)
  | .bool => some fun bytes => .bool <$> readBool bytes
  | .int2 => some fun bytes => (fun n => .int4 (Int32.ofInt n)) <$> readInt 2 bytes
  | .int4 => some fun bytes => (fun n => .int4 (Int32.ofInt n)) <$> readInt 4 bytes
  | .int8 => some fun bytes => (fun n => .int8 (Int64.ofInt n)) <$> readInt 8 bytes
  | .float4 => some fun bytes =>
    (fun n => .float8 (Binary32.widen ⟨UInt32.ofNat n⟩)) <$> readNat 4 bytes
  | .float8 => some fun bytes => (fun n => .float8 ⟨UInt64.ofNat n⟩) <$> readNat 8 bytes
  | .text | .varchar | .bpchar | .name => some fun bytes => .text <$> readText bytes
  | .bytea => some fun bytes => some (.bytea bytes)
  | .uuid => some fun bytes => .uuid <$> Uuid.ofBytes? bytes
  | .timestamp => some fun bytes => .timestamp <$> readMoment bytes
  | .timestamptz => some fun bytes => .timestamptz <$> readMoment bytes
  | _ => none

/-- The value of a cell. The column type is checked first, so even a null cell fails when its type
is not supported. -/
def decode (type : ColumnType) (cell : Option Bytes) : Except DecodeFault Value :=
  match reader? type with
  | none => .error .unsupported
  | some read =>
    match cell with
    | none => .ok .null
    | some bytes =>
      match read bytes with
      | some v => .ok v
      | none => .error .malformed

end Wire

end TableMapper
