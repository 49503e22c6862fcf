/-!
# Hexadecimal digits

## Main definitions

* `Bytes` — raw bytes, in order.
* `Hex.parse?` — the bytes that a text of digits of either case spells.
* `Hex.write` — the lowercase digits of bytes, two for each.
-/

namespace TableMapper

abbrev Bytes := List UInt8

namespace Hex

def digit? (c : Char) : Option Nat :=
  if '0' ≤ c ∧ c ≤ '9' then some (c.toNat - '0'.toNat)
  else if 'a' ≤ c ∧ c ≤ 'f' then some (c.toNat - 'a'.toNat + 10)
  else if 'A' ≤ c ∧ c ≤ 'F' then some (c.toNat - 'A'.toNat + 10)
  else none

/-- Two digits for each byte, the high one first. -/
def parse? : List Char → Option Bytes
  | [] => some []
  | [_] => none
  | high :: low :: rest => do
    let h ← digit? high
    let l ← digit? low
    let bytes ← parse? rest
    return UInt8.ofNat (16 * h + l) :: bytes

def write (bytes : Bytes) : List Char :=
  bytes.flatMap fun b => [Nat.digitChar (b.toNat / 16), Nat.digitChar (b.toNat % 16)]

end Hex

end TableMapper
