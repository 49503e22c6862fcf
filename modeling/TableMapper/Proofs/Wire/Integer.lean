import Mathlib.Tactic.Positivity
import Mathlib.Tactic.Ring
import TableMapper.Proofs.Wire.Coercion

/-!
# Integers and their columns

An integer goes to a column of an integer type exactly when it is in the range of that type. It is
written in two's complement and never cut off, and the width it was held in before makes no
difference. What is written is read as the same number in every type that has room for it.

## Main definitions

* `BigEndian.InRange` — the signed integers of so many bits.
* `BigEndian.Spells` — the bytes of an integer, from the highest to the lowest.
* `Wire.integerColumns` — the column types that take integers, and their widths.
-/

namespace TableMapper

/-! ## Two's complement -/

namespace BigEndian

variable {width : Nat} {n : Int}

/-- `n` is in the range of signed integers of `bits` bits. -/
def InRange (bits : Nat) (n : Int) : Prop := -2 ^ (bits - 1) ≤ n ∧ n < 2 ^ (bits - 1)

instance (bits : Nat) (n : Int) : Decidable (InRange bits n) :=
  inferInstanceAs (Decidable (_ ∧ _))

/-- The bytes are `n` in two's complement: the byte with `k` others behind it is the digit of `n`
at `256 ^ k`, where division rounds down. -/
def Spells (width : Nat) (n : Int) (bytes : Bytes) : Prop :=
  bytes.map (fun b => (b.toNat : Int)) = (List.range width).reverse.map fun k => n / 256 ^ k % 256

theorem fits_iff_inRange : fits width n ↔ InRange (8 * width) n := by
  simp [fits_iff, InRange]

theorem map_toNat_ofNat (width m : Nat) :
    (ofNat width m).map UInt8.toNat =
      (List.range width).reverse.map fun k => m / 256 ^ k % 256 := by
  induction width with
  | zero => rfl
  | succ width ih => simp [ofNat, List.range_succ, ih]

/-- The digits of a remainder modulo a power of 256 are those of the number. -/
theorem emod_pow_ediv_emod {k : Nat} (n : Int) (h : k < width) :
    n % 256 ^ width / 256 ^ k % 256 = n / 256 ^ k % 256 := by
  obtain ⟨j, rfl⟩ := Nat.exists_eq_add_of_lt h
  have hrest : n % 256 ^ (k + j + 1) =
      n + 256 ^ k * (256 * -(256 ^ j * (n / 256 ^ (k + j + 1)))) := by
    rw [Int.emod_def]
    ring
  rw [hrest, Int.add_mul_ediv_left _ _ (by positivity), Int.add_mul_emod_self_left]

theorem spells_ofInt (width : Nat) (n : Int) : Spells width n (ofInt width n) := by
  have hdigits := congrArg (List.map Int.ofNat)
    (map_toNat_ofNat width (n % (256 ^ width : Nat)).toNat)
  have hnonneg : 0 ≤ n % 256 ^ width := Int.emod_nonneg n (by positivity)
  simp only [List.map_map] at hdigits
  refine hdigits.trans (List.map_congr_left fun k hk => ?_)
  have hlt : k < width := by simpa using hk
  simpa [max_eq_left hnonneg] using emod_pow_ediv_emod n hlt

end BigEndian

/-! ## Columns of integers -/

namespace Wire

open BigEndian

/-- The column types that take integers, with their widths in bits. -/
def integerColumns : List (ColumnType × Nat) := [(.int2, 16), (.int4, 32), (.int8, 64)]

variable {type : ColumnType} {bits width : Nat} {n : Int} {v w : Value} {bytes : Bytes}

theorem mem_integerColumns_iff :
    (type, bits) ∈ integerColumns ↔ ∃ width, type.intWidth? = some width ∧ bits = 8 * width := by
  cases type <;> simp [integerColumns, ColumnType.intWidth?]

theorem encodeInt_of_not_mem (h : type ∉ integerColumns.map Prod.fst) :
    encodeInt n type = .error .wrongType := by
  cases hwidth : type.intWidth? with
  | none => simp [encodeInt, hwidth]
  | some width =>
    have hcolumn := mem_integerColumns_iff.mpr ⟨width, hwidth, rfl⟩
    exact absurd (List.mem_map_of_mem hcolumn) h

/-! ## Reading the number -/

theorem exists_toInt_iff : (∃ m : Int32, m.toInt = n) ↔ InRange 32 n := by
  have hrange : fits 4 n ↔ InRange 32 n := fits_iff_inRange
  rw [← hrange]
  constructor
  · rintro ⟨m, rfl⟩
    exact fits_toInt32 m
  · exact fun h => ⟨Int32.ofInt n, toInt_ofInt32 h⟩

/-- A number is read as the 32-bit integer that is equal to it. -/
theorem decode_int4_eq_some_iff {m : Int32} (hw : w.int? = some n) :
    ValueType.int4.decode w = some m ↔ m.toInt = n := by
  refine ⟨fun h => ?_, fun h => decode_int4_of_int? (by rw [hw, h])⟩
  cases w with
  | int4 k =>
    obtain rfl : k.toInt = n := by simpa [Value.int?] using hw
    exact congrArg Int32.toInt (Option.some.inj h).symm
  | int8 k =>
    obtain rfl : k.toInt = n := by simpa [Value.int?] using hw
    obtain ⟨hfits, rfl⟩ : fits 4 k.toInt ∧ k.toInt32 = m := by simpa [ValueType.decode] using h
    exact toInt_toInt32 hfits
  | _ => cases hw

theorem exists_decode_int8 (hw : w.int? = some n) :
    ∃ m : Int64, ValueType.int8.decode w = some m ∧ m.toInt = n := by
  cases w with
  | int4 k => exact ⟨k.toInt64, rfl, by simpa [Value.int?] using hw⟩
  | int8 k => exact ⟨k, rfl, by simpa [Value.int?] using hw⟩
  | _ => cases hw

/-- The number is read from the value: as a 64-bit integer, and as a 32-bit integer if it is one. -/
structure ReadsAs (w : Value) (n : Int) : Prop where
  int8 : ∃ m : Int64, ValueType.int8.decode w = some m ∧ m.toInt = n
  int4 : ∀ m : Int32, ValueType.int4.decode w = some m ↔ m.toInt = n
  int4_iff : (∃ m, ValueType.int4.decode w = some m) ↔ InRange 32 n

theorem readsAs_of_int? (hw : w.int? = some n) : ReadsAs w n where
  int8 := exists_decode_int8 hw
  int4 _ := decode_int4_eq_some_iff hw
  int4_iff := by simp [decode_int4_eq_some_iff hw, exists_toInt_iff]

/-- In the width of its column, a number is written as it is and read back. -/
theorem exists_encode_of_fits (hv : v.int? = some n) (hwidth : type.intWidth? = some width)
    (hfits : fits width n) :
    ∃ bytes, encode type v = .ok (some bytes) ∧ Spells width n bytes ∧ toInt bytes = n ∧
      ∃ w, decode type (some bytes) = .ok w ∧ ReadsAs w n := by
  have hencode : encodeInt n type = .ok (ofInt width n) := encodeInt_of_fits hwidth hfits
  obtain ⟨w, hdecode, hsurvives⟩ := survives_int hv hencode
  refine ⟨ofInt width n, ?_, spells_ofInt width n, ?_, w, hdecode,
    readsAs_of_int? (hsurvives.int?_eq hv)⟩
  · rw [encode_of_int? hv, hencode]
    rfl
  · obtain ⟨k, rfl⟩ : ∃ k, width = k + 1 := by cases type <;> cases hwidth <;> exact ⟨_, rfl⟩
    exact toInt_ofInt hfits

/-- An integer of either width is taken by a column of an integer type if it is in the range of the
type, and then all of it is written and read back; otherwise it is out of range and nothing is
written. No other column takes it. -/
theorem integers_never_wrap {v : Value} {n : Int} (hv : v.int? = some n) :
    (∀ type bits, (type, bits) ∈ integerColumns →
      ((∃ cell, encode type v = .ok cell) ↔ InRange bits n) ∧
      (InRange bits n → ∃ bytes, encode type v = .ok (some bytes) ∧ Spells (bits / 8) n bytes ∧
        toInt bytes = n ∧ ∃ w, decode type (some bytes) = .ok w ∧ ReadsAs w n) ∧
      (¬ InRange bits n → encode type v = .error .intOutOfRange)) ∧
    (∀ type, type ∉ integerColumns.map Prod.fst → encode type v = .error .wrongType) ∧
    ∀ type w, w.int? = some n → encode type w = encode type v := by
  refine ⟨fun type bits hcolumn => ?_, fun type hcolumn => ?_, fun type w hw => ?_⟩
  · obtain ⟨width, hwidth, rfl⟩ := mem_integerColumns_iff.mp hcolumn
    rw [← fits_iff_inRange, Nat.mul_div_cancel_left width (by decide)]
    have hwritten := exists_encode_of_fits hv hwidth
    have hrefused : ¬ fits width n → encode type v = .error .intOutOfRange := fun h => by
      rw [encode_of_int? hv, encodeInt_of_not_fits hwidth h]
      rfl
    refine ⟨⟨?_, fun h => ?_⟩, hwritten, hrefused⟩
    · rintro ⟨cell, hcell⟩
      by_contra h
      cases (hrefused h).symm.trans hcell
    · obtain ⟨bytes, hbytes, -⟩ := hwritten h
      exact ⟨some bytes, hbytes⟩
  · rw [encode_of_int? hv, encodeInt_of_not_mem hcolumn]
    rfl
  · rw [encode_of_int? hv, encode_of_int? hw]

/-- The least 16-bit integer, the one below it, and the first one that 32 bits do not hold. -/
theorem integers_never_wrap_limits :
    (encode .int2 (.int8 (-32768)) = .ok (some [128, 0]) ∧ Spells 2 (-32768) [128, 0]) ∧
    encode .int2 (.int8 (-32768)) = encode .int2 (.int4 (-32768)) ∧
    encode .int2 (.int4 (-32769)) = .error .intOutOfRange ∧
    (∃ bytes w, encode .int8 (.int8 2147483648) = .ok (some bytes) ∧
      decode .int8 (some bytes) = .ok w ∧ ReadsAs w 2147483648 ∧
      ¬ ∃ m, ValueType.int4.decode w = some m) ∧
    encode .text (.int4 7) = .error .wrongType := by
  obtain ⟨hleast, -, hheld⟩ := integers_never_wrap (v := .int8 (-32768)) rfl
  obtain ⟨hbelow, -, -⟩ := integers_never_wrap (v := .int4 (-32769)) rfl
  obtain ⟨hlarge, -, -⟩ := integers_never_wrap (v := .int8 2147483648) rfl
  obtain ⟨-, hother, -⟩ := integers_never_wrap (v := .int4 7) rfl
  have hint2 : encode .int2 (.int8 (-32768)) = .ok (some [128, 0]) := rfl
  obtain ⟨bytes, hbytes, hspells, -⟩ := (hleast .int2 16 (by decide)).2.1 (by decide)
  obtain ⟨bytes', hbytes', -, -, w, hw, hreads⟩ := (hlarge .int8 64 (by decide)).2.1 (by decide)
  cases hint2.symm.trans hbytes
  refine ⟨⟨hint2, hspells⟩, (hheld .int2 (.int4 (-32768)) rfl).symm,
    (hbelow .int2 16 (by decide)).2.2 (by decide), ⟨bytes', w, hbytes', hw, hreads, ?_⟩,
    hother .text (by decide)⟩
  rw [hreads.int4_iff]
  decide

end Wire

end TableMapper
