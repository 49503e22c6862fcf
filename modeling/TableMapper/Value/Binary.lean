/-!
# Binary floating-point numbers

A floating-point number is its interchange bit pattern: a sign bit, a biased exponent and a
fraction. Comparison, widening and narrowing are exact integer arithmetic on these fields.

## Main definitions

* `Binary32`, `Binary64` — the 32-bit and the 64-bit format.
* `Binary32.widen` — the 64-bit number with the same value.
* `Binary64.narrow` — the nearest 32-bit number; of two equally near ones the one with an even
  fraction.
-/

namespace TableMapper

structure Binary32 where
  bits : UInt32

structure Binary64 where
  bits : UInt64

/-- The quotient rounded to the nearest integer, a half to the even neighbour. -/
def divNearestEven (n d : Nat) : Nat :=
  let q := n / d
  let r := n % d
  if d < 2 * r ∨ (2 * r = d ∧ q % 2 = 1) then q + 1 else q

namespace Binary32

def sign (x : Binary32) : Nat := x.bits.toNat / Nat.pow 2 31

def exponent (x : Binary32) : Nat := x.bits.toNat / Nat.pow 2 23 % Nat.pow 2 8

def fraction (x : Binary32) : Nat := x.bits.toNat % Nat.pow 2 23

def ofFields (sign exponent fraction : Nat) : Binary32 :=
  ⟨UInt32.ofNat (sign * Nat.pow 2 31 + exponent * Nat.pow 2 23 + fraction)⟩

end Binary32

namespace Binary64

def sign (x : Binary64) : Nat := x.bits.toNat / Nat.pow 2 63

def exponent (x : Binary64) : Nat := x.bits.toNat / Nat.pow 2 52 % Nat.pow 2 11

def fraction (x : Binary64) : Nat := x.bits.toNat % Nat.pow 2 52

def ofFields (sign exponent fraction : Nat) : Binary64 :=
  ⟨UInt64.ofNat (sign * Nat.pow 2 63 + exponent * Nat.pow 2 52 + fraction)⟩

def isNaN (x : Binary64) : Bool := x.exponent == 2047 && x.fraction != 0

def isZero (x : Binary64) : Bool := x.exponent == 0 && x.fraction == 0

/-- Comparison of numbers, not of patterns: a NaN differs from everything, itself included, and
the two zeros are equal. -/
def beq (x y : Binary64) : Bool :=
  !x.isNaN && !y.isNaN && (x.isZero && y.isZero || x.bits == y.bits)

instance : BEq Binary64 := ⟨beq⟩

end Binary64

/-! ## Conversion between the formats -/

/-- The 64-bit number with the same value. A NaN keeps its sign and payload and becomes quiet. -/
def Binary32.widen (x : Binary32) : Binary64 :=
  if x.exponent = 255 then
    if x.fraction = 0 then .ofFields x.sign 2047 0
    else .ofFields x.sign 2047 (x.fraction * Nat.pow 2 29 ||| Nat.pow 2 51)
  else if x.exponent = 0 then
    if x.fraction = 0 then .ofFields x.sign 0 0
    else
      let top := x.fraction.log2
      .ofFields x.sign (top + 874) ((x.fraction - Nat.pow 2 top) * Nat.pow 2 (52 - top))
  else .ofFields x.sign (x.exponent + 896) (x.fraction * Nat.pow 2 29)

/-- The pattern, without its sign, of the 32-bit number nearest to `significand * 2 ^ (e - 1075)`,
where `e` is the biased exponent, at least one. Below `e = 897` the result is subnormal and its
unit is `2 ^ (-149)`; from there on the unit grows with the exponent. A sum past the largest
exponent is infinity. -/
def Binary64.narrowMagnitude (e significand : Nat) : Nat :=
  let unit := if 897 ≤ e then Nat.pow 2 29 else Nat.pow 2 (926 - e)
  min ((e - 897) * Nat.pow 2 23 + divNearestEven significand unit) (255 * Nat.pow 2 23)

/-- The nearest 32-bit number, a half to the even neighbour, infinity on overflow. A NaN keeps its
sign and the top of its payload and becomes quiet. -/
def Binary64.narrow (x : Binary64) : Binary32 :=
  if x.exponent = 2047 then
    if x.fraction = 0 then .ofFields x.sign 255 0
    else .ofFields x.sign 255 (x.fraction / Nat.pow 2 29 ||| Nat.pow 2 22)
  else if x.exponent = 0 then
    ⟨UInt32.ofNat (x.sign * Nat.pow 2 31 + narrowMagnitude 1 x.fraction)⟩
  else
    ⟨UInt32.ofNat (x.sign * Nat.pow 2 31 + narrowMagnitude x.exponent (Nat.pow 2 52 + x.fraction))⟩

end TableMapper
