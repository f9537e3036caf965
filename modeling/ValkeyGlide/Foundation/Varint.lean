import Mathlib.Data.List.Infix

/-!
# Numbers of seven bits a byte

The lowest seven bits come first, and every byte but the last has its highest bit set.
-/

namespace ValkeyGlide.Foundation

def encodeVarint (number : Nat) : List UInt8 :=
  if number < 128 then [UInt8.ofNat number]
  else UInt8.ofNat (number % 128 + 128) :: encodeVarint (number / 128)

def decodeVarint : List UInt8 → Option (Nat × Nat)
  | [] => none
  | byte :: rest =>
    if byte.toNat < 128 then some (byte.toNat, 1)
    else (decodeVarint rest).map fun (high, count) => (byte.toNat - 128 + 128 * high, count + 1)

theorem toNat_low {number : Nat} (hlow : number < 128) : (UInt8.ofNat number).toNat = number := by
  rw [UInt8.toNat_ofNat']
  omega

theorem toNat_high (number : Nat) :
    (UInt8.ofNat (number % 128 + 128)).toNat = number % 128 + 128 := by
  rw [UInt8.toNat_ofNat']
  omega

theorem encodeVarint_ne_nil (number : Nat) : encodeVarint number ≠ [] := by
  rw [encodeVarint]
  split_ifs <;> exact List.cons_ne_nil _ _

theorem decodeVarint_encodeVarint (number : Nat) (rest : List UInt8) :
    decodeVarint (encodeVarint number ++ rest) = some (number, (encodeVarint number).length) := by
  fun_induction encodeVarint number with
  | case1 number hlow =>
    rw [List.singleton_append, decodeVarint, toNat_low hlow, if_pos hlow]
    rfl
  | case2 number hhigh ih =>
    rw [List.cons_append, decodeVarint, toNat_high, if_neg (by omega), ih, Option.map_some]
    simp only [Option.some.injEq, Prod.mk.injEq, List.length_cons, and_true]
    omega

theorem decodeVarint_incomplete (number : Nat) {start : List UInt8}
    (hpart : start <+: encodeVarint number) (hne : start ≠ encodeVarint number) :
    decodeVarint start = none := by
  induction number using Nat.strongRecOn generalizing start with
  | ind number ih =>
    cases start with
    | nil => rfl
    | cons byte rest =>
      rw [encodeVarint] at hpart hne
      split_ifs at hpart hne with hlow
      · obtain ⟨rfl, hrest⟩ := List.cons_prefix_cons.mp hpart
        exact absurd (congrArg _ (List.prefix_nil.mp hrest)) hne
      · obtain ⟨rfl, hrest⟩ := List.cons_prefix_cons.mp hpart
        have hnone := ih (number / 128) (by omega) hrest fun heq => hne (congrArg _ heq)
        rw [decodeVarint, toNat_high, if_neg (by omega), hnone, Option.map_none]

end ValkeyGlide.Foundation
