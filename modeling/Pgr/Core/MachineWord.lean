import Mathlib

/-!
# Sums and differences of machine words

What a program computes on words of 64 bits depends on how it was built: with overflow
checks a sum that does not fit and a difference below zero stop it, without them both
wrap around.  Where neither happens the two builds agree with the natural numbers.
-/

namespace Pgr.MachineWord

variable (checks : Bool) {left right : UInt64}

def add (left right : UInt64) : Option UInt64 :=
  if checks = true ∧ 2 ^ 64 ≤ left.toNat + right.toNat then none else some (left + right)

def sub (left right : UInt64) : Option UInt64 :=
  if checks = true ∧ left < right then none else some (left - right)

theorem add_eq (hfits : left.toNat + right.toNat < 2 ^ 64) :
    add checks left right = some (left + right) ∧
      (left + right).toNat = left.toNat + right.toNat := by
  constructor
  · exact if_neg fun hover => absurd hfits (not_lt_of_ge hover.2)
  · rw [UInt64.toNat_add, Nat.mod_eq_of_lt hfits]

theorem sub_eq (hle : right ≤ left) :
    sub checks left right = some (left - right) ∧
      (left - right).toNat = left.toNat - right.toNat := by
  constructor
  · exact if_neg fun hbelow => absurd hbelow.2 (UInt64.not_lt.mpr hle)
  · exact UInt64.toNat_sub_of_le left right hle

/-- A sum that wraps around ends below both of its terms. -/
theorem add_of_overflow {sum : UInt64} (hover : 2 ^ 64 ≤ left.toNat + right.toNat)
    (hsum : add checks left right = some sum) :
    checks = false ∧ sum.toNat + 2 ^ 64 = left.toNat + right.toNat := by
  rw [add] at hsum
  split_ifs at hsum with hchecks
  have hunchecked : checks = false := by
    by_contra hchecked
    exact hchecks ⟨Bool.eq_true_of_not_eq_false hchecked, hover⟩
  have hleft := left.toNat_lt
  have hright := right.toNat_lt
  refine ⟨hunchecked, ?_⟩
  rw [← Option.some.inj hsum, UInt64.toNat_add, Nat.mod_eq_sub_mod hover,
    Nat.mod_eq_of_lt (by omega)]
  omega

theorem toNat_min : (min left right).toNat = min left.toNat right.toNat := by
  change (if left ≤ right then left else right).toNat = min left.toNat right.toNat
  split_ifs with hle
  · have hle' : left.toNat ≤ right.toNat := UInt64.le_iff_toNat_le.mp hle
    rw [min_eq_left hle']
  · have hge : right.toNat ≤ left.toNat := by
      rw [UInt64.le_iff_toNat_le, not_le] at hle
      exact hle.le
    rw [min_eq_right hge]

end Pgr.MachineWord
