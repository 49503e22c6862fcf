import TableMapper.Proofs.Wire.RoundTrip

/-!
# Coercion on reading and on writing

A value of another kind may stand for a term of a type: an integer of the other width, a text that
spells a uuid. A program that decodes the value and a server that takes it for the type's own
column make the same choice, and they agree on the content.

## Main definitions

* `Wire.column` — the column type that is made for a type.
* `Wire.native` — the bytes of a term in that column.
* `Wire.refusal` — why a value is not taken.
-/

namespace TableMapper

namespace Wire

/-- The column type for the terms of a type, present or absent. -/
def column : ValueType → ColumnType
  | .text => .text
  | .int4 => .int4
  | .int8 => .int8
  | .float8 => .float8
  | .bool => .bool
  | .bytea => .bytea
  | .uuid => .uuid
  | .timestamp => .timestamp
  | .timestamptz => .timestamptz
  | .optional t => column t

/-- The bytes of a term in the column of its type; an absent term has none. -/
def native : (t : ValueType) → t.Carrier → Option Bytes
  | .text, s => some (utf8 s)
  | .int4, n => some (BigEndian.ofInt 4 n.toInt)
  | .int8, n => some (BigEndian.ofInt 8 n.toInt)
  | .float8, x => some (BigEndian.ofNat 8 x.bits.toNat)
  | .bool, b => some [if b then 1 else 0]
  | .bytea, bytes => some bytes
  | .uuid, u => some u.bytes
  | .timestamp, m => some (BigEndian.ofInt 8 m.micros)
  | .timestamptz, m => some (BigEndian.ofInt 8 m.micros)
  | .optional t, x => x.bind (native t)

/-- Why a value that stands for no term of a type is not taken for its column. -/
def refusal : ValueType → Value → EncodeFault
  | .int4, .int8 _ => .intOutOfRange
  | .uuid, .text _ => .invalidUuid
  | .optional t, v => refusal t v
  | _, _ => .wrongType

variable {t : ValueType} {v : Value}

/-- What the column of a type is to make of a value, going by the term that it stands for. -/
def verdict (t : ValueType) (v : Value) : Except EncodeFault (Option Bytes) :=
  match t.decode v with
  | some x => .ok (native t x)
  | none => .error (refusal t v)

theorem encode_int4 (hv : v ≠ .null) : encode .int4 v = verdict .int4 v := by
  cases v with
  | null => exact absurd rfl hv
  | int4 n =>
    change _ = Except.ok (some (BigEndian.ofInt 4 n.toInt))
    rw [encode_of_int? rfl, encodeInt_of_fits rfl (BigEndian.fits_toInt32 n)]
    rfl
  | int8 n =>
    rw [encode_of_int? rfl]
    by_cases hfits : BigEndian.fits 4 n.toInt
    · simp only [verdict, ValueType.decode, if_pos hfits, native, BigEndian.toInt_toInt32 hfits]
      rw [encodeInt_of_fits rfl hfits]
      rfl
    · simp only [verdict, ValueType.decode, if_neg hfits]
      rw [encodeInt_of_not_fits rfl hfits]
      rfl
  | _ => rfl

theorem encode_int8 (hv : v ≠ .null) : encode .int8 v = verdict .int8 v := by
  cases v with
  | null => exact absurd rfl hv
  | int4 n =>
    change _ = Except.ok (some (BigEndian.ofInt 8 n.toInt64.toInt))
    have hfits : BigEndian.fits 8 n.toInt :=
      BigEndian.fits_of_le (by omega) (BigEndian.fits_toInt32 n)
    rw [encode_of_int? rfl, encodeInt_of_fits rfl hfits, n.toInt_toInt64]
    rfl
  | int8 n =>
    change _ = Except.ok (some (BigEndian.ofInt 8 n.toInt))
    rw [encode_of_int? rfl, encodeInt_of_fits rfl (BigEndian.fits_toInt64 n)]
    rfl
  | _ => rfl

theorem encode_uuid (hv : v ≠ .null) : encode .uuid v = verdict .uuid v := by
  cases v with
  | null => exact absurd rfl hv
  | text s =>
    simp only [encode, encodeText, verdict, ValueType.decode]
    cases Uuid.parse? s <;> rfl
  | _ => rfl

theorem decode_optional (hv : v ≠ .null) :
    (ValueType.optional t).decode v = (t.decode v).map some := by
  cases v with
  | null => exact absurd rfl hv
  | _ => rfl

theorem verdict_optional (hv : v ≠ .null) : verdict (.optional t) v = verdict t v := by
  simp only [verdict, decode_optional hv]
  cases t.decode v <;> rfl

/-- The column of a type takes a value for the term that it stands for. -/
theorem encode_column (hv : v ≠ .null) : encode (column t) v = verdict t v := by
  induction t with
  | int4 => exact encode_int4 hv
  | int8 => exact encode_int8 hv
  | uuid => exact encode_uuid hv
  | optional t ih => exact ih.trans (verdict_optional hv).symm
  | _ =>
    cases v with
    | null => exact absurd rfl hv
    | _ => rfl

/-- The column of a type takes exactly the values that stand for a term of the type, and it takes
them for that term. -/
theorem taken_iff_decoded (t : ValueType) (v : Value) (hv : v ≠ .null) :
    (∀ x, t.decode v = some x → encode (column t) v = .ok (native t x)) ∧
    (t.decode v = none → encode (column t) v = .error (refusal t v)) ∧
    ((∃ x, t.decode v = some x) ↔ ∃ bytes, encode (column t) v = .ok (some bytes)) := by
  have hencode : encode (column t) v = verdict t v := encode_column hv
  have hsome : ∀ x, t.decode v = some x → encode (column t) v = .ok (native t x) := by
    intro x hx
    rw [hencode, verdict, hx]
  have hnone : t.decode v = none → encode (column t) v = .error (refusal t v) := by
    intro hx
    rw [hencode, verdict, hx]
  refine ⟨hsome, hnone, ?_⟩
  constructor
  · rintro ⟨x, hx⟩
    cases hcell : native t x with
    | none => exact absurd (encode_eq_ok_none_iff.mp ((hsome x hx).trans (congrArg _ hcell))) hv
    | some bytes => exact ⟨bytes, (hsome x hx).trans (congrArg _ hcell)⟩
  · rintro ⟨bytes, hbytes⟩
    cases hx : t.decode v with
    | none => cases (hnone hx).symm.trans hbytes
    | some x => exact ⟨x, rfl⟩

/-- The largest 32-bit integer and the next one, as 64-bit integers, and a text that is no uuid. -/
theorem taken_iff_decoded_limits :
    encode .int4 (.int8 2147483647) = .ok (native .int4 2147483647) ∧
    encode .int4 (.int8 2147483648) = .error .intOutOfRange ∧
    (∃ bytes, encode .int8 (.int4 (-1)) = .ok (some bytes)) ∧
    encode .uuid (.text "stock") = .error .invalidUuid := by
  obtain ⟨hsome, -, -⟩ := taken_iff_decoded .int4 (.int8 2147483647) (by nofun)
  obtain ⟨-, hnone, -⟩ := taken_iff_decoded .int4 (.int8 2147483648) (by nofun)
  obtain ⟨-, -, hiff⟩ := taken_iff_decoded .int8 (.int4 (-1)) (by nofun)
  obtain ⟨-, hnone', -⟩ := taken_iff_decoded .uuid (.text "stock") (by nofun)
  exact ⟨hsome _ rfl, hnone rfl, hiff.mp ⟨-1, rfl⟩, hnone' (by decide +kernel)⟩

end Wire

end TableMapper
