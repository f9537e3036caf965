import Mathlib.Algebra.Order.Group.Nat
import Mathlib.Tactic.Common

/-!
# Little-endian numbers

A number as a fixed count of bytes, the least significant first, and the number that
bytes stand for.
-/

namespace ValkeyGlide.Foundation

def toLeBytes : Nat → Nat → List UInt8
  | 0, _ => []
  | width + 1, number => UInt8.ofNat number :: toLeBytes width (number / 256)

def fromLeBytes : List UInt8 → Nat
  | [] => 0
  | byte :: rest => byte.toNat + 256 * fromLeBytes rest

@[simp] theorem length_toLeBytes (width number : Nat) : (toLeBytes width number).length = width := by
  induction width generalizing number with
  | zero => rfl
  | succ width ih => simp [toLeBytes, ih]

theorem fromLeBytes_toLeBytes {width number : Nat} (hlt : number < 256 ^ width) :
    fromLeBytes (toLeBytes width number) = number := by
  induction width generalizing number with
  | zero => exact (Nat.lt_one_iff.mp hlt).symm
  | succ width ih =>
    have hrest : number / 256 < 256 ^ width := by
      rw [Nat.pow_succ] at hlt
      exact Nat.div_lt_of_lt_mul (Nat.mul_comm _ _ ▸ hlt)
    have hbyte : (UInt8.ofNat number).toNat = number % 256 := UInt8.toNat_ofNat'
    simp only [toLeBytes, fromLeBytes, ih hrest, hbyte]
    exact Nat.mod_add_div number 256

end ValkeyGlide.Foundation
