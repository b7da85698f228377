import ClineProxy.JsonValue
import Mathlib.Data.Rat.Cast.Order

/-! The exact values of JSON numbers. -/

namespace Json

/-- The value of a finite binary64 word. -/
def floatValue (bits : UInt64) : ℚ :=
  let exponent : Nat := bits.toNat / 2 ^ 52 % 2 ^ 11
  let fraction : Nat := bits.toNat % 2 ^ 52
  let magnitude : ℚ :=
    if exponent = 0 then fraction / 2 ^ 1074
    else (2 ^ 52 + fraction) * 2 ^ exponent / 2 ^ 1075
  if 2 ^ 63 ≤ bits.toNat then -magnitude else magnitude

example : (floatValue 0x3FE0000000000000, floatValue 0xC008000000000000) = (1 / 2, -3) := by
  decide +kernel

def Number.toRat : Number → ℚ
  | .posInt value => value.toNat
  | .negInt value => value.toInt
  | .float bits => floatValue bits

def Value.numeric : Value → Option ℚ
  | .number value => some value.toRat
  | _ => none

theorem Value.numeric_of_asU64 {value : Value} {bound : UInt64}
    (read : value.asU64 = some bound) : value.numeric = some (bound.toNat : ℚ) := by
  cases value with
  | number held =>
      cases held with
      | posInt given =>
          cases read
          rfl
      | negInt | float => cases read
  | null | bool | string | array | object => cases read

end Json
