import TableMapper.Hex

/-!
# Big-endian integers

Integers as a fixed number of bytes, the most significant byte first, negative ones in two's
complement.

## Main definitions

* `BigEndian.fits` — whether an integer has a signed form of that many bytes.
* `BigEndian.ofNat`, `BigEndian.toNat` — unsigned integers.
* `BigEndian.ofInt`, `BigEndian.toInt` — signed integers.
-/

namespace TableMapper

namespace BigEndian

/-- Whether `n` is in the range of signed integers of `width` bytes. -/
def fits (width : Nat) (n : Int) : Bool :=
  -(Nat.pow 2 (8 * width - 1) : Int) ≤ n && n < Nat.pow 2 (8 * width - 1)

/-- The last `width` bytes of `n`. -/
def ofNat : Nat → Nat → Bytes
  | 0, _ => []
  | width + 1, n => UInt8.ofNat (n / Nat.pow 256 width) :: ofNat width n

def toNat : Bytes → Nat
  | [] => 0
  | b :: rest => b.toNat * Nat.pow 256 rest.length + toNat rest

/-- Two's complement in `width` bytes. -/
def ofInt (width : Nat) (n : Int) : Bytes :=
  ofNat width (n % Nat.pow 256 width).toNat

/-- Two's complement in as many bytes as there are. -/
def toInt (bytes : Bytes) : Int :=
  Int.bmod (toNat bytes) (Nat.pow 256 bytes.length)

@[simp] theorem length_ofNat (width n : Nat) : (ofNat width n).length = width := by
  induction width with
  | zero => rfl
  | succ width ih => simp [ofNat, ih]

@[simp] theorem length_ofInt (width : Nat) (n : Int) : (ofInt width n).length = width :=
  length_ofNat _ _

/-- Reading gives back as much of the number as `width` bytes hold. -/
theorem toNat_ofNat (width n : Nat) : toNat (ofNat width n) = n % Nat.pow 256 width := by
  induction width with
  | zero => simp [ofNat, toNat, Nat.mod_one]
  | succ width ih =>
    have byte : (UInt8.ofNat (n / 256 ^ width)).toNat = n / 256 ^ width % 256 := rfl
    simp only [Nat.pow_eq] at ih ⊢
    rw [ofNat, toNat, length_ofNat, ih, Nat.pow_eq, byte, Nat.mod_pow_succ, Nat.mul_comm,
      Nat.add_comm]

/-- An integer that fits is read back. -/
theorem toInt_ofInt {width : Nat} {n : Int} (h : fits (width + 1) n) :
    toInt (ofInt (width + 1) n) = n := by
  have bounds : -(2 ^ (8 * width + 7) : Nat) ≤ n ∧ n < (2 ^ (8 * width + 7) : Nat) := by
    simpa [fits, Nat.mul_succ] using h
  have power : 256 ^ (width + 1) = 2 * 2 ^ (8 * width + 7) := by
    rw [show 256 = 2 ^ 8 from rfl, ← Nat.pow_mul, ← Nat.pow_succ']
    congr 1
  have positive : 0 < 256 ^ (width + 1) := Nat.pow_pos (by decide)
  have nonneg : 0 ≤ n % (256 ^ (width + 1) : Nat) := Int.emod_nonneg n (by omega)
  rw [toInt, ofInt, toNat_ofNat, length_ofNat]
  simp only [Nat.pow_eq]
  rw [Int.natCast_emod, Int.toNat_of_nonneg nonneg, Int.emod_emod, Int.emod_bmod, power]
  apply Int.bmod_eq_of_le <;> omega

end BigEndian

end TableMapper
