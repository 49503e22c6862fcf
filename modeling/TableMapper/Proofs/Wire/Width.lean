import TableMapper.Wire.Encode

/-!
# Integers in the width of their columns

A column of an integer type takes the numbers that have room in it. It makes no difference whether
a number was held in 32 or in 64 bits: the checks and widenings that are made for the one and for
the other come to the same.

## Main definitions

* `ColumnType.intWidth?` — the width of an integer type.
* `Value.int?` — the number that a value holds.
* `Wire.encodeInt` — the bytes of a number, given the type of its column.
-/

namespace TableMapper

/-! ## Ranges of integers -/

namespace BigEndian

variable {n : Int} {width width' : Nat}

theorem fits_iff :
    fits width n ↔ -(Nat.pow 2 (8 * width - 1) : Int) ≤ n ∧ n < Nat.pow 2 (8 * width - 1) := by
  simp [fits]

theorem fits_toInt32 (n : Int32) : fits 4 n.toInt :=
  fits_iff.mpr ⟨n.le_toInt, n.toInt_lt⟩

theorem fits_toInt64 (n : Int64) : fits 8 n.toInt :=
  fits_iff.mpr ⟨n.le_toInt, n.toInt_lt⟩

theorem fits_of_le (hle : width ≤ width') (h : fits width n) : fits width' n := by
  have hpow : Nat.pow 2 (8 * width - 1) ≤ Nat.pow 2 (8 * width' - 1) :=
    Nat.pow_le_pow_right (by omega) (by omega)
  rw [fits_iff] at h ⊢
  omega

theorem toInt_ofInt32 (h : fits 4 n) : (Int32.ofInt n).toInt = n := by
  obtain ⟨hle, hlt⟩ := fits_iff.mp h
  exact Int32.toInt_ofInt_of_le hle hlt

theorem toInt_ofInt64 (h : fits 8 n) : (Int64.ofInt n).toInt = n := by
  obtain ⟨hle, hlt⟩ := fits_iff.mp h
  exact Int64.toInt_ofInt_of_le hle hlt

theorem toInt_toInt32 {m : Int64} (h : fits 4 m.toInt) : m.toInt32.toInt = m.toInt := by
  rw [← Int64.ofInt_toInt m, Int64.toInt32_ofInt, Int64.ofInt_toInt, toInt_ofInt32 h]

end BigEndian

/-! ## Numbers and their columns -/

/-- The width in bytes of an integer type. -/
def ColumnType.intWidth? : ColumnType → Option Nat
  | int2 => some 2
  | int4 => some 4
  | int8 => some 8
  | _ => none

/-- The number that a value of an integer kind holds. -/
def Value.int? : Value → Option Int
  | .int4 n => some n.toInt
  | .int8 n => some n.toInt
  | _ => none

namespace Wire

/-- The number in the width of its column; it is never cut off. -/
def encodeInt (n : Int) (type : ColumnType) : Except EncodeFault Bytes :=
  match type.intWidth? with
  | none => .error .wrongType
  | some width =>
    if BigEndian.fits width n then .ok (BigEndian.ofInt width n) else .error .intOutOfRange

variable {type : ColumnType} {width : Nat} {bytes : Bytes} {n : Int} {v : Value}

theorem encodeInt_eq_ok_iff :
    encodeInt n type = .ok bytes ↔
      ∃ width, type.intWidth? = some width ∧ BigEndian.fits width n ∧
        BigEndian.ofInt width n = bytes := by
  unfold encodeInt
  cases type.intWidth? with
  | none => simp
  | some width => by_cases hfits : BigEndian.fits width n <;> simp [hfits]

theorem encodeInt_of_fits (hwidth : type.intWidth? = some width)
    (hfits : BigEndian.fits width n) : encodeInt n type = .ok (BigEndian.ofInt width n) :=
  encodeInt_eq_ok_iff.mpr ⟨width, hwidth, hfits, rfl⟩

theorem encodeInt_of_not_fits (hwidth : type.intWidth? = some width)
    (hfits : ¬ BigEndian.fits width n) : encodeInt n type = .error .intOutOfRange := by
  simp [encodeInt, hwidth, hfits]

/-- A check for room comes before the bytes are written. -/
theorem narrow_bind (width : Nat) (n : Int) (bytes : Int → Bytes) :
    (do checked type (bytes (← narrow width n)) type) =
      if BigEndian.fits width n then .ok (bytes n) else .error .intOutOfRange := by
  unfold narrow
  split
  · exact if_pos rfl
  · rfl

theorem encodeInt4_eq (n : Int32) (type : ColumnType) :
    encodeInt4 n type = encodeInt n.toInt type := by
  have hfits : BigEndian.fits 4 n.toInt := BigEndian.fits_toInt32 n
  cases type with
  | int2 => exact narrow_bind 2 n.toInt (BigEndian.ofInt 2)
  | int4 => exact (encodeInt_of_fits rfl hfits).symm
  | int8 =>
    rw [encodeInt4, n.toInt_toInt64]
    exact (encodeInt_of_fits rfl (BigEndian.fits_of_le (by omega) hfits)).symm
  | _ => rfl

theorem encodeInt8_eq (n : Int64) (type : ColumnType) :
    encodeInt8 n type = encodeInt n.toInt type := by
  cases type with
  | int2 => exact narrow_bind 2 n.toInt (BigEndian.ofInt 2)
  | int4 => exact narrow_bind 4 n.toInt (BigEndian.ofInt 4)
  | int8 => exact (encodeInt_of_fits rfl (BigEndian.fits_toInt64 n)).symm
  | _ => rfl

/-- What a column makes of an integer depends on the number alone. -/
theorem encode_of_int? (hv : v.int? = some n) : encode type v = some <$> encodeInt n type := by
  cases v with
  | int4 m =>
    cases hv
    rw [encode, encodeInt4_eq]
  | int8 m =>
    cases hv
    rw [encode, encodeInt8_eq]
  | _ => cases hv

end Wire

end TableMapper
