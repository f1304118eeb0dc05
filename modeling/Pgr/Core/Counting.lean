import Mathlib

/-!
# Counting the members of a family

The number of indices whose value has a property, and how it changes when the
value at one index does.
-/

namespace Pgr.Counting

variable {ι A : Type*} [Fintype ι]

def countIf (P : A → Prop) [DecidablePred P] (f : ι → A) : ℕ :=
  (Finset.univ.filter fun i => P (f i)).card

variable {P Q : A → Prop} [DecidablePred P] [DecidablePred Q] {f : ι → A} {i : ι} {a : A}

theorem countIf_eq_zero_iff : countIf P f = 0 ↔ ∀ i, ¬P (f i) := by
  simp [countIf, Finset.filter_eq_empty_iff]

theorem countIf_pos (hi : P (f i)) : 0 < countIf P f :=
  Finset.card_pos.mpr ⟨i, by simpa using hi⟩

theorem countIf_congr {g : ι → A} (hfg : ∀ i, P (f i) ↔ Q (g i)) :
    countIf P f = countIf Q g := by
  rw [countIf, countIf]
  congr 1
  ext i
  simp [hfg i]

theorem countIf_le_one (hother : ∀ j, j ≠ i → ¬P (f j)) : countIf P f ≤ 1 := by
  apply Finset.card_le_one.mpr
  intro j hj k hk
  have honly : ∀ m, P (f m) → m = i := fun m hm => by
    by_contra hne
    exact hother m hne hm
  rw [honly j (by simpa using hj), honly k (by simpa using hk)]

theorem one_lt_countIf {j : ι} (hne : j ≠ i) (hj : P (f j)) (hi : P (f i)) : 1 < countIf P f :=
  Finset.one_lt_card.mpr ⟨j, by simpa using hj, i, by simpa using hi, hne⟩

/-- The balance of the count when the value at one index changes. -/
theorem countIf_update [DecidableEq ι] :
    countIf P (Function.update f i a) + (if P (f i) then 1 else 0) =
      countIf P f + if P a then 1 else 0 := by
  have hrest : ∑ j ∈ Finset.univ.erase i, (if P (Function.update f i a j) then 1 else 0) =
      ∑ j ∈ Finset.univ.erase i, if P (f j) then 1 else 0 := by
    refine Finset.sum_congr rfl fun j hj => ?_
    rw [Function.update_of_ne (Finset.ne_of_mem_erase hj)]
  rw [countIf, countIf, Finset.card_filter, Finset.card_filter,
    ← Finset.add_sum_erase _ _ (Finset.mem_univ i), hrest, Function.update_self,
    ← Finset.add_sum_erase Finset.univ (fun j => if P (f j) then 1 else 0) (Finset.mem_univ i)]
  omega

theorem countIf_update_same [DecidableEq ι] (hsame : P a ↔ P (f i)) :
    countIf P (Function.update f i a) = countIf P f :=
  countIf_congr fun j => by
    by_cases hj : j = i
    · subst hj
      rw [Function.update_self, hsame]
    · rw [Function.update_of_ne hj]

theorem countIf_update_gain [DecidableEq ι] (hbefore : ¬P (f i)) (hafter : P a) :
    countIf P (Function.update f i a) = countIf P f + 1 := by
  have hcount := countIf_update (P := P) (f := f) (i := i) (a := a)
  rwa [if_neg hbefore, if_pos hafter] at hcount

theorem countIf_update_loss [DecidableEq ι] (hbefore : P (f i)) (hafter : ¬P a) :
    countIf P (Function.update f i a) + 1 = countIf P f := by
  have hcount := countIf_update (P := P) (f := f) (i := i) (a := a)
  rwa [if_pos hbefore, if_neg hafter] at hcount

end Pgr.Counting
