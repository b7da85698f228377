import Mathlib.Data.UInt

/-! Saturating arithmetic of 64-bit words. -/

namespace Saturating

def top : UInt64 := 18446744073709551615

theorem toNat_top : top.toNat = 18446744073709551615 := rfl

def add (first second : UInt64) : UInt64 :=
  if first.toNat + second.toNat < 2 ^ 64 then first + second else top

def sub (first second : UInt64) : UInt64 := if second ≤ first then first - second else 0

def mul (first second : UInt64) : UInt64 :=
  if first.toNat * second.toNat < 2 ^ 64 then first * second else top

variable (first second : UInt64)

theorem toNat_add :
    (add first second).toNat = min (first.toNat + second.toNat) (2 ^ 64 - 1) := by
  rw [add]
  split
  next fits =>
    rw [UInt64.toNat_add, Nat.mod_eq_of_lt fits]
    omega
  next past =>
    rw [toNat_top]
    omega

theorem toNat_sub : (sub first second).toNat = first.toNat - second.toNat := by
  rw [sub]
  split
  next below => exact UInt64.toNat_sub_of_le _ _ below
  next above =>
    rw [UInt64.not_le, UInt64.lt_iff_toNat_lt] at above
    rw [Nat.sub_eq_zero_of_le (Nat.le_of_lt above)]
    rfl

theorem toNat_mul :
    (mul first second).toNat = min (first.toNat * second.toNat) (2 ^ 64 - 1) := by
  rw [mul]
  split
  next fits =>
    rw [UInt64.toNat_mul, Nat.mod_eq_of_lt fits]
    omega
  next past =>
    rw [toNat_top]
    omega

end Saturating
