import Pgr.Extension.RingInvariant

/-!
# Who owns a message of the ring

What `ring_push` has reserved and `ring_pop` has not taken is ready, or its backend is
still in `ring_push`.  A pop that finds nothing has met such a backend, or the ring is
empty.
-/

namespace Pgr.RingOwned

open Pgr.Ring Pgr.RingInvariant Pgr.Transition

section Owned

variable {ι : Type} [DecidableEq ι] {bufSize : UInt32} {s s' : Ring.State ι} {k : ℕ}

/-- A backend is still in `ring_push` with the message. -/
def IsPushing (s : Ring.State ι) (k : ℕ) : Prop :=
  ∃ i push, (s.producers i).push? = some push ∧ push.index = k

/-- A message that is not ready belongs to a backend that is still in `ring_push`. -/
def Owned (s : Ring.State ι) : Prop :=
  ∀ k, released s ≤ k → k < s.accepted.length →
    (s.ring.hdrs (k % ringHeaderSize)).ready = true ∨ IsPushing s k

theorem IsPushing.update {producer : Producer} {i : ι} (hpushing : IsPushing s k)
    (hself : ∀ push, (s.producers i).push? = some push → producer.push? = some push)
    (after : Ring.State ι) (hafter : after.producers = Function.update s.producers i producer) :
    IsPushing after k := by
  obtain ⟨j, push, hpush, hindex⟩ := hpushing
  refine ⟨j, push, ?_, hindex⟩
  rw [hafter]
  by_cases hj : j = i
  · rw [hj, Function.update_self]
    rw [hj] at hpush
    exact hself push hpush
  · rwa [Function.update_of_ne hj]

/-- A backend that goes on, and the others. -/
theorem Owned.goOn {producer : Producer} {i : ι} {data : ℕ → UInt8} (howned : Owned s)
    (hself : ∀ push, (s.producers i).push? = some push → producer.push? = some push) :
    Owned { s with
      ring := { s.ring with data := data }
      producers := Function.update s.producers i producer } := by
  intro k hreleased hk
  rcases howned k hreleased hk with hready | hpushing
  · exact .inl hready
  · exact .inr (hpushing.update hself _ rfl)

theorem owned_reserve {i : ι} {msg : Message} (howned : Owned s)
    (hidle : s.producers i = .idle) :
    Owned { s with
      ring := s.ring.reserve msg.len
      producers := Function.update s.producers i
        (.reserved ⟨slotOf s.ring.hhead, s.ring.dhead, msg, s.accepted.length⟩)
      accepted := s.accepted ++ [msg] } := by
  intro k hreleased hk
  by_cases hold : k < s.accepted.length
  · rcases howned k hreleased hold with hready | hpushing
    · left
      change ((s.ring.reserve msg.len).hdrs (k % ringHeaderSize)).ready = true
      rwa [ready_reserve]
    · right
      apply hpushing.update _ _ rfl
      intro push hpush
      rw [hidle] at hpush
      cases hpush
  · have hnew : k = s.accepted.length := by
      rw [List.length_append, List.length_singleton] at hk
      exact Nat.le_antisymm (Nat.le_of_lt_succ hk) (not_lt.mp hold)
    refine .inr ⟨i, ⟨slotOf s.ring.hhead, s.ring.dhead, msg, s.accepted.length⟩, ?_, hnew.symm⟩
    change (Function.update s.producers i _ i).push? = _
    rw [Function.update_self]
    rfl

theorem owned_setReady {i : ι} {push : Push} (howned : Owned s) (hinv : Inv s)
    (hcopied : s.producers i = .copied push) :
    Owned { s with
      ring := s.ring.setReady push.h true
      producers := Function.update s.producers i .idle } := by
  have hpush : (s.producers i).push? = some push := by rw [hcopied]; rfl
  have hat := hinv.pushes.at_index i push hpush
  intro k hreleased hk
  by_cases hslot : k % ringHeaderSize = push.h
  · left
    change ((s.ring.setReady push.h true).hdrs (k % ringHeaderSize)).ready = true
    rw [hslot, ready_setReady_self]
  · rcases howned k hreleased hk with hready | ⟨j, other, hother, hindex⟩
    · left
      change ((s.ring.setReady push.h true).hdrs (k % ringHeaderSize)).ready = true
      rwa [ready_setReady_of_ne hslot]
    · right
      have hj : j ≠ i := by
        rintro rfl
        cases hpush.symm.trans hother
        exact hslot (by rw [← hindex, hat.h])
      refine ⟨j, other, ?_, hindex⟩
      change (Function.update s.producers i _ j).push? = _
      rwa [Function.update_of_ne hj]

omit [DecidableEq ι] in
theorem owned_clearReady {pop : Pop} (howned : Owned s) (hinv : Inv s)
    (hcopied : s.consumer = .copied pop) :
    Owned { s with
      ring := s.ring.setReady (slotOf pop.t) false
      consumer := .cleared pop } := by
  have hreleased : released s = tail s := by simp [released, tail, hcopied]
  have hpopOf := hinv.popOf
  rw [hcopied] at hpopOf
  obtain ⟨msg, hat, -⟩ := hpopOf
  have hslotTail : slotOf pop.t = tail s % ringHeaderSize := by rw [hat.t, slotOf_ofNat]
  have hheaders := hinv.counters.headers
  intro k hk hlt
  change tail s + 1 ≤ k at hk
  change k < s.accepted.length at hlt
  have hslot : k % ringHeaderSize ≠ slotOf pop.t := by
    intro heq
    have hsame := slot_injective (tail s) ⟨by omega, by omega⟩ ⟨le_rfl, by omega⟩
      (heq.trans hslotTail)
    omega
  rcases howned k (hreleased ▸ (Nat.le_succ _).trans hk) hlt with hready | hpushing
  · left
    change ((s.ring.setReady (slotOf pop.t) false).hdrs (k % ringHeaderSize)).ready = true
    rwa [ready_setReady_of_ne hslot]
  · exact .inr hpushing

theorem owned_step (howned : Owned s) (hinv : Inv s) (l : Ring.Label ι)
    (hstep : Ring.step bufSize s l = some s') : Owned s' := by
  cases l with
  | reserve i msg =>
      rw [Ring.step] at hstep
      split at hstep
      next hidle =>
        split_ifs at hstep <;> cases hstep
        · exact howned
        · exact owned_reserve howned hidle
      next => cases hstep
  | pushFirst i =>
      rw [Ring.step] at hstep
      split at hstep <;> cases hstep
      next hreserved =>
        apply howned.goOn
        intro push hpush
        rw [hreserved] at hpush
        exact hpush
  | pushRest i =>
      rw [Ring.step] at hstep
      split at hstep <;> cases hstep
      next hcopied =>
        apply howned.goOn
        intro push hpush
        rw [hcopied] at hpush
        exact hpush
  | setReady i =>
      rw [Ring.step] at hstep
      split at hstep <;> cases hstep
      next hcopied => exact owned_setReady howned hinv hcopied
  | testReady =>
      rw [Ring.step] at hstep
      split at hstep
      next hidle =>
        simp only at hstep
        split_ifs at hstep <;> cases hstep
        · have hreleased : released s = s.popped.length := by simp [released, hidle]
          intro k hk
          exact howned k (hreleased ▸ hk)
        · exact howned
      next => cases hstep
  | popFirst =>
      rw [Ring.step] at hstep
      split at hstep <;> cases hstep
      next hfound =>
        have hreleased : released s = s.popped.length := by simp [released, hfound]
        intro k hk
        exact howned k (hreleased ▸ hk)
  | popRest =>
      rw [Ring.step] at hstep
      split at hstep <;> cases hstep
      next hfirst =>
        have hreleased : released s = s.popped.length := by simp [released, hfirst]
        intro k hk
        exact howned k (hreleased ▸ hk)
  | clearReady =>
      rw [Ring.step] at hstep
      split at hstep <;> cases hstep
      next hcopied => exact owned_clearReady howned hinv hcopied
  | setDtail =>
      rw [Ring.step] at hstep
      split at hstep <;> cases hstep
      next hcleared =>
        have hreleased : released s = s.popped.length + 1 := by simp [released, hcleared]
        intro k hk
        exact howned k (hreleased ▸ hk)
  | setHtail =>
      rw [Ring.step] at hstep
      split at hstep <;> cases hstep
      next hfreed =>
        have hreleased : released s = s.popped.length + 1 := by simp [released, hfreed]
        intro k hk
        simp only [released, List.length_append, List.length_singleton] at hk
        exact howned k (hreleased ▸ hk)

omit [DecidableEq ι] in
/-- A pop that finds nothing has found a message that is not ready, if any. -/
theorem isPushing_of_testReady (hinv : Inv s) (howned : Owned s)
    (hfits : ∀ msg ∈ s.accepted, msg.len ≤ bufSize) (hidle : s.consumer = .idle)
    (hfails : ¬((s.ring.hdrs (slotOf s.ring.htail)).ready &&
      (s.ring.hdrs (slotOf s.ring.htail)).len ≤ bufSize) = true)
    (hleft : s.popped.length < s.accepted.length) : IsPushing s s.popped.length := by
  have hreleased : released s = s.popped.length := by simp [released, hidle]
  have hslot : slotOf s.ring.htail = s.popped.length % ringHeaderSize := by
    rw [hinv.counters.htail, slotOf_ofNat, tail]
  rcases howned s.popped.length hreleased.le hleft with hready | hpushing
  · have hmsg := List.getElem?_eq_getElem hleft
    have hlen := (hinv.headers.at_index s.popped.length _ le_rfl hmsg).2
    refine absurd ?_ hfails
    rw [hslot, hready, hlen, Bool.true_and]
    exact decide_eq_true (hfits _ (List.getElem_mem hleft))
  · exact hpushing

theorem owned_of_reachable {data : ℕ → UInt8}
    (hreachable : Reachable (step bufSize) (State.init data) s) : Owned s := by
  have hboth : Inv s ∧ Owned s := by
    apply hreachable.invariant
    · exact ⟨inv_init data, fun k _ hk => absurd hk (Nat.not_lt_zero k)⟩
    · rintro s l s' ⟨hinv, howned⟩ hstep
      exact ⟨inv_step hinv l hstep, owned_step howned hinv l hstep⟩
  exact hboth.2

end Owned

end Pgr.RingOwned
