import Pgr.Extension.RingOwned

/-!
# The sleep of a channel worker

`channel_push` of `channel.c` puts a message into the ring and sets the latch of the worker,
if there is one.  `channel_worker_main` empties the ring, resets its latch, looks at the ring
once more and waits for the latch.  The steps of the ring are those of `ring.c`; here a
backend has the steps of `channel_wakeup` behind them, and the worker has those of its loop.
What it writes to its file is left out.

Workers are numbered: a backend may set the latch of a worker that is gone.
-/

namespace Pgr.Latch

open Pgr.Ring Pgr.RingInvariant Pgr.RingOwned Pgr.Transition

/-- Where a backend is in `channel_wakeup`.  The number of its message, if the ring has taken
it, is not read by the code. -/
inductive Signal where
  | idle
  /-- Before it reads the pointer to the latch. -/
  | reading (index : Option ℕ)
  /-- Before `SetLatch`. -/
  | setting (index : Option ℕ) (worker : ℕ)
  deriving DecidableEq

/-- Where `write_events` was called. -/
inductive Drain where
  /-- At the top of the loop, before the file of a stopped channel is closed. -/
  | stopped
  | first
  /-- Behind `ResetLatch`. -/
  | second
  /-- Behind the loop. -/
  | last
  deriving DecidableEq

inductive WorkerPc where
  | gone
  | top
  /-- In `write_events`, and whether it has popped a message. -/
  | draining (drain : Drain) (popped : Bool)
  | testing
  | resetting
  | waiting
  deriving DecidableEq

structure State (ι : Type) where
  ring : Ring.State ι
  signals : ι → Signal
  pc : WorkerPc
  /-- The worker that was started last. -/
  worker : ℕ
  /-- Whether the pointer to its latch is set. -/
  registered : Bool
  latch : Bool
  running : Bool

inductive Label (ι : Type) where
  | ring (label : Ring.Label ι)
  | readLatch (i : ι)
  | setLatch (i : ι)
  | setRunning (running : Bool)
  | register (latch : Bool)
  | top (drain : Drain)
  | test
  | reset
  | wait (timedOut : Bool)
  /-- The worker process ends by an error. -/
  | die

/-- The party that takes a step of the ring, if it is a backend. -/
def backend? {ι : Type} : Ring.Label ι → Option ι
  | .reserve i _ | .pushFirst i | .pushRest i | .setReady i => some i
  | .testReady | .popFirst | .popRest | .clearReady | .setDtail | .setHtail => none

/-- What `write_events` is followed by. -/
def Drain.next (popped : Bool) : Drain → WorkerPc
  | .stopped => .draining .first false
  | .first => if popped then .top else .testing
  | .second => if popped then .top else .waiting
  | .last => .gone

section Step

variable {ι : Type}

/-- What `channel_push` does behind a step of `ring_push`. -/
def signalBehind (s : Ring.State ι) : Ring.Label ι → Signal
  | .reserve _ msg => if s.ring.hasNoRoom msg.len then .reading none else .idle
  | .setReady i => .reading ((s.producers i).push?.map Push.index)
  | _ => .idle

/-- A pop that finds nothing ends `write_events`. -/
def pcBehind (after : Ring.State ι) (drain : Drain) (popped : Bool) : Ring.Label ι → WorkerPc
  | .testReady =>
      match after.consumer with
      | .idle => drain.next popped
      | _ => .draining drain true
  | _ => .draining drain popped

variable [DecidableEq ι] (bufSize : UInt32)

def ringStep (s : State ι) (label : Ring.Label ι) : Option (State ι) :=
  match backend? label with
  | some i =>
      if s.signals i = .idle then
        (Ring.step bufSize s.ring label).map fun ring =>
          { s with
            ring := ring
            signals := Function.update s.signals i (signalBehind s.ring label) }
      else none
  | none =>
      match s.pc with
      | .draining drain popped =>
          (Ring.step bufSize s.ring label).map fun ring =>
            { s with ring := ring, pc := pcBehind ring drain popped label }
      | _ => none

def Consumer.isIdle : Consumer → Bool
  | .idle => true
  | _ => false

def step (s : State ι) : Label ι → Option (State ι)
  | .ring label => ringStep bufSize s label
  | .readLatch i =>
      match s.signals i with
      | .reading index =>
          let signal : Signal := if s.registered then .setting index s.worker else .idle
          some { s with signals := Function.update s.signals i signal }
      | _ => none
  | .setLatch i =>
      match s.signals i with
      | .setting _ worker =>
          some { s with
            signals := Function.update s.signals i .idle
            latch := s.latch || worker = s.worker }
      | _ => none
  | .setRunning running => some { s with running := running }
  | .register latch =>
      if s.pc = .gone then
        some { s with pc := .top, worker := s.worker + 1, registered := true, latch := latch }
      else none
  | .top drain =>
      if s.pc = .top ∧ drain ≠ .second ∧ (drain = .stopped → s.running = false) then
        some { s with pc := .draining drain false }
      else none
  | .test =>
      if s.pc = .testing then
        if s.running then some { s with pc := .resetting }
        else some { s with pc := .gone, registered := false }
      else none
  | .reset =>
      if s.pc = .resetting then some { s with latch := false, pc := .draining .second false }
      else none
  | .wait timedOut =>
      if s.pc = .waiting ∧ (s.latch = true ∨ timedOut = true) then some { s with pc := .top }
      else none
  | .die =>
      if Consumer.isIdle s.ring.consumer then some { s with pc := .gone, registered := false }
      else none

def State.init (data : ℕ → UInt8) : State ι where
  ring := Ring.State.init data
  signals := fun _ => .idle
  pc := .gone
  worker := 0
  registered := false
  latch := false
  running := false

end Step

/-! ## The invariant -/

section Sleep

variable {ι : Type} [DecidableEq ι] {bufSize : UInt32} {s s' : State ι} {k : ℕ}

/-- The backend of the message has yet to set the latch of the worker. -/
def WillSignal (s : State ι) (k : ℕ) : Prop :=
  IsPushing s.ring k ∨
    ∃ i, s.signals i = .reading (some k) ∨ s.signals i = .setting (some k) s.worker

/-- The worker sleeps and nobody has set its latch. -/
def IsAsleep (s : State ι) : Prop :=
  s.pc = .waiting ∧ s.latch = false

structure SleepInv (bufSize : UInt32) (s : State ι) : Prop where
  ring : Inv s.ring
  owned : Owned s.ring
  fits : ∀ msg ∈ s.ring.accepted, msg.len ≤ bufSize
  registered : s.pc ≠ .gone → s.registered = true
  asleep : IsAsleep s → s.ring.popped.length < s.ring.accepted.length →
    WillSignal s s.ring.popped.length

/-- The message of a push fits into the buffer of the worker. -/
def MessageFits (bufSize : UInt32) (_ : State ι) : Label ι → Prop
  | .ring (.reserve _ msg) => msg.len ≤ bufSize
  | _ => True

omit [DecidableEq ι] in
theorem sleepInv_init (data : ℕ → UInt8) :
    SleepInv bufSize (State.init data : State ι) where
  ring := inv_init data
  owned _ _ hk := absurd hk (Nat.not_lt_zero _)
  fits := List.forall_mem_nil _
  registered hpc := absurd rfl hpc
  asleep := by rintro ⟨⟨⟩, -⟩

/-- Another backend's message stays where it is. -/
theorem WillSignal.other {i : ι} {signal : Signal} (hwill : WillSignal s k)
    (hidle : s.signals i = .idle) (ring : Ring.State ι)
    (hpushing : IsPushing s.ring k → IsPushing ring k ∨ signal = .reading (some k)) :
    WillSignal { s with ring := ring, signals := Function.update s.signals i signal } k := by
  rcases hwill with hpush | ⟨j, hsignal⟩
  · rcases hpushing hpush with hstays | hreads
    · exact .inl hstays
    · refine .inr ⟨i, .inl ?_⟩
      change Function.update s.signals i signal i = _
      rw [Function.update_self, hreads]
  · have hj : j ≠ i := by
      rintro rfl
      rw [hidle] at hsignal
      rcases hsignal with hsignal | hsignal <;> cases hsignal
    refine .inr ⟨j, ?_⟩
    change Function.update s.signals i signal j = _ ∨ Function.update s.signals i signal j = _
    rwa [Function.update_of_ne hj]

/-- A backend that goes on with the message it has, if any. -/
theorem WillSignal.goOn {i : ι} {producer : Producer} (hwill : WillSignal s k)
    (hidle : s.signals i = .idle) (signal : Signal) (ring : Ring.State ι)
    (hself : ∀ push, (s.ring.producers i).push? = some push → producer.push? = some push)
    (hring : ring.producers = Function.update s.ring.producers i producer) :
    WillSignal { s with ring := ring, signals := Function.update s.signals i signal } k :=
  hwill.other hidle ring fun hpushing => .inl (hpushing.update hself ring hring)

/-- A step of a backend in `ring_push` pops nothing, and leaves a message of which the worker
will hear. -/
theorem willSignal_of_backend {label : Ring.Label ι} {i : ι} {ring : Ring.State ι}
    (hbackend : backend? label = some i) (hidle : s.signals i = .idle)
    (hstep : Ring.step bufSize s.ring label = some ring) :
    ring.popped = s.ring.popped ∧
      ((s.ring.popped.length < s.ring.accepted.length → WillSignal s s.ring.popped.length) →
        s.ring.popped.length < ring.accepted.length →
          WillSignal { s with
            ring := ring
            signals := Function.update s.signals i (signalBehind s.ring label) }
            s.ring.popped.length) := by
  cases label with
  | reserve j msg =>
      cases hbackend
      rw [Ring.step] at hstep
      split at hstep
      next hproducer =>
        have hself {producer : Producer} : ∀ push, (s.ring.producers i).push? = some push →
            producer.push? = some push := by
          intro push hpush
          rw [hproducer] at hpush
          cases hpush
        split_ifs at hstep <;> cases hstep
        · exact ⟨rfl, fun hwill hleft => (hwill hleft).other hidle _ .inl⟩
        · refine ⟨rfl, fun hwill hleft => ?_⟩
          by_cases hold : s.ring.popped.length < s.ring.accepted.length
          · exact (hwill hold).goOn hidle _ _ hself rfl
          · have hnew : s.ring.accepted.length = s.ring.popped.length := by
              rw [List.length_append, List.length_singleton] at hleft
              exact Nat.le_antisymm (not_lt.mp hold) (Nat.le_of_lt_succ hleft)
            refine .inl ⟨i, ⟨slotOf s.ring.ring.hhead, s.ring.ring.dhead, msg,
              s.ring.accepted.length⟩, ?_, hnew⟩
            change (Function.update s.ring.producers i _ i).push? = _
            rw [Function.update_self]
            rfl
      next => cases hstep
  | pushFirst j =>
      cases hbackend
      rw [Ring.step] at hstep
      split at hstep <;> cases hstep
      next hreserved =>
        refine ⟨rfl, fun hwill hleft => (hwill hleft).goOn hidle _ _ ?_ rfl⟩
        intro push hpush
        rw [hreserved] at hpush
        exact hpush
  | pushRest j =>
      cases hbackend
      rw [Ring.step] at hstep
      split at hstep <;> cases hstep
      next hcopied =>
        refine ⟨rfl, fun hwill hleft => (hwill hleft).goOn hidle _ _ ?_ rfl⟩
        intro push hpush
        rw [hcopied] at hpush
        exact hpush
  | setReady j =>
      cases hbackend
      rw [Ring.step] at hstep
      split at hstep <;> cases hstep
      next push hcopied =>
        refine ⟨rfl, fun hwill hleft => (hwill hleft).other hidle _ ?_⟩
        rintro ⟨j, other, hother, hindex⟩
        by_cases hj : j = i
        · -- The message is ready now, and its backend is about to read the pointer.
          right
          rw [hj, hcopied] at hother
          cases hother
          rw [signalBehind, hcopied, ← hindex]
          rfl
        · refine .inl ⟨j, other, ?_, hindex⟩
          change (Function.update s.ring.producers i _ j).push? = _
          rwa [Function.update_of_ne hj]
  | testReady | popFirst | popRest | clearReady | setDtail | setHtail => cases hbackend

omit [DecidableEq ι] in
/-- Only the second look at the ring is followed by sleep, when it has found nothing. -/
theorem of_pcBehind_waiting {label : Ring.Label ι} {ring : Ring.State ι} {drain : Drain}
    {popped : Bool} (hwaiting : pcBehind ring drain popped label = .waiting) :
    label = .testReady ∧ ring.consumer = .idle := by
  cases label with
  | testReady =>
      refine ⟨rfl, ?_⟩
      rw [pcBehind] at hwaiting
      cases hconsumer : ring.consumer with
      | idle => rfl
      | found | copiedFirst | copied | cleared | freed =>
          simp only [hconsumer] at hwaiting
          cases hwaiting
  | reserve | pushFirst | pushRest | setReady | popFirst | popRest | clearReady | setDtail
  | setHtail => cases hwaiting

theorem accepted_step {label : Ring.Label ι} {ring : Ring.State ι}
    (hfits : ∀ msg ∈ s.ring.accepted, msg.len ≤ bufSize)
    (hlabel : MessageFits bufSize s (.ring label))
    (hstep : Ring.step bufSize s.ring label = some ring) :
    ∀ msg ∈ ring.accepted, msg.len ≤ bufSize := by
  cases label with
  | reserve i msg =>
      rw [Ring.step] at hstep
      split at hstep
      · split_ifs at hstep <;> cases hstep
        · exact hfits
        · intro other hother
          rcases List.mem_append.mp hother with hold | hnew
          · exact hfits other hold
          · rw [List.mem_singleton.mp hnew]
            exact hlabel
      · cases hstep
  | testReady =>
      rw [Ring.step] at hstep
      split at hstep
      · simp only at hstep
        split_ifs at hstep <;> cases hstep <;> exact hfits
      · cases hstep
  | pushFirst | pushRest | setReady | popFirst | popRest | clearReady | setDtail | setHtail =>
      rw [Ring.step] at hstep
      split at hstep <;> cases hstep
      exact hfits

theorem sleepInv_ringStep {label : Ring.Label ι} (hinv : SleepInv bufSize s)
    (hfits : MessageFits bufSize s (.ring label))
    (hstep : ringStep bufSize s label = some s') : SleepInv bufSize s' := by
  rw [ringStep] at hstep
  cases hbackend : backend? label with
  | some i =>
      simp only [hbackend] at hstep
      split_ifs at hstep with hidle
      obtain ⟨ring, hring, rfl⟩ := Option.map_eq_some_iff.mp hstep
      obtain ⟨hpopped, hwill⟩ := willSignal_of_backend hbackend hidle hring
      refine ⟨inv_step hinv.ring _ hring, owned_step hinv.owned hinv.ring _ hring,
        accepted_step hinv.fits hfits hring, hinv.registered, fun hasleep hleft => ?_⟩
      simp only [hpopped] at hleft ⊢
      exact hwill (hinv.asleep hasleep) hleft
  | none =>
      simp only [hbackend] at hstep
      split at hstep
      · next drain popped hpc =>
          obtain ⟨ring, hring, rfl⟩ := Option.map_eq_some_iff.mp hstep
          refine ⟨inv_step hinv.ring _ hring, owned_step hinv.owned hinv.ring _ hring,
            accepted_step hinv.fits hfits hring, fun _ => hinv.registered (by simp [hpc]), ?_⟩
          rintro ⟨hwaiting, -⟩ hleft
          obtain ⟨rfl, hconsumer⟩ := of_pcBehind_waiting hwaiting
          rw [Ring.step] at hring
          split at hring
          · next hidle =>
              simp only at hring
              split_ifs at hring with hready <;> cases hring
              · cases hconsumer
              · exact .inl (isPushing_of_testReady hinv.ring hinv.owned hinv.fits hidle hready
                  hleft)
          · cases hring
      · cases hstep

/-- A step of `channel_wakeup`, of which the worker may hear. -/
theorem WillSignal.wakeup {i : ι} {signal : Signal} (hwill : WillSignal s k) (latch : Bool)
    (hself : s.signals i = .reading (some k) ∨ s.signals i = .setting (some k) s.worker →
      signal = .setting (some k) s.worker) :
    WillSignal { s with signals := Function.update s.signals i signal, latch := latch } k := by
  rcases hwill with hpushing | ⟨j, hsignal⟩
  · exact .inl hpushing
  · refine .inr ⟨j, ?_⟩
    change Function.update s.signals i signal j = _ ∨ Function.update s.signals i signal j = _
    by_cases hj : j = i
    · rw [hj] at hsignal ⊢
      rw [Function.update_self]
      exact .inr (hself hsignal)
    · rwa [Function.update_of_ne hj]

theorem sleepInv_step {label : Label ι} (hinv : SleepInv bufSize s)
    (hfits : MessageFits bufSize s label) (hstep : step bufSize s label = some s') :
    SleepInv bufSize s' := by
  cases label with
  | ring label => exact sleepInv_ringStep hinv hfits hstep
  | readLatch i =>
      simp only [step] at hstep
      split at hstep
      · next index hreading =>
          cases hstep
          refine ⟨hinv.ring, hinv.owned, hinv.fits, hinv.registered, fun hasleep hleft => ?_⟩
          have hregistered : s.registered = true := hinv.registered fun hgone => by
            cases hgone.symm.trans hasleep.1
          apply (hinv.asleep hasleep hleft).wakeup s.latch
          rintro (hsignal | hsignal)
          · rw [hreading] at hsignal
            cases hsignal
            rw [if_pos hregistered]
          · cases hreading.symm.trans hsignal
      · cases hstep
  | setLatch i =>
      simp only [step] at hstep
      split at hstep
      · next index worker hsetting =>
          cases hstep
          refine ⟨hinv.ring, hinv.owned, hinv.fits, hinv.registered, ?_⟩
          rintro ⟨hwaiting, hlatch⟩ hleft
          obtain ⟨hunset, hother⟩ := Bool.or_eq_false_iff.mp hlatch
          apply (hinv.asleep ⟨hwaiting, hunset⟩ hleft).wakeup
          rintro (hsignal | hsignal)
          · cases hsetting.symm.trans hsignal
          · -- The latch of this worker would be set now.
            cases hsetting.symm.trans hsignal
            exact absurd rfl (of_decide_eq_false hother)
      · cases hstep
  | setRunning running =>
      cases hstep
      exact ⟨hinv.ring, hinv.owned, hinv.fits, hinv.registered, hinv.asleep⟩
  | register latch =>
      simp only [step] at hstep
      split_ifs at hstep with hpc
      cases hstep
      exact ⟨hinv.ring, hinv.owned, hinv.fits, fun _ => rfl, by rintro ⟨⟨⟩, -⟩⟩
  | top drain =>
      simp only [step] at hstep
      split_ifs at hstep with hpc
      cases hstep
      exact ⟨hinv.ring, hinv.owned, hinv.fits, fun _ => hinv.registered (by simp [hpc.1]),
        by rintro ⟨⟨⟩, -⟩⟩
  | test =>
      simp only [step] at hstep
      split_ifs at hstep with hpc hrunning
      · cases hstep
        exact ⟨hinv.ring, hinv.owned, hinv.fits, fun _ => hinv.registered (by simp [hpc]),
          by rintro ⟨⟨⟩, -⟩⟩
      · cases hstep
        exact ⟨hinv.ring, hinv.owned, hinv.fits, fun h => absurd rfl h, by rintro ⟨⟨⟩, -⟩⟩
  | reset =>
      simp only [step] at hstep
      split_ifs at hstep with hpc
      cases hstep
      exact ⟨hinv.ring, hinv.owned, hinv.fits, fun _ => hinv.registered (by simp [hpc]),
        by rintro ⟨⟨⟩, -⟩⟩
  | wait timedOut =>
      simp only [step] at hstep
      split_ifs at hstep with hpc
      cases hstep
      exact ⟨hinv.ring, hinv.owned, hinv.fits, fun _ => hinv.registered (by simp [hpc.1]),
        by rintro ⟨⟨⟩, -⟩⟩
  | die =>
      simp only [step] at hstep
      split_ifs at hstep
      cases hstep
      exact ⟨hinv.ring, hinv.owned, hinv.fits, fun h => absurd rfl h, by rintro ⟨⟨⟩, -⟩⟩

/-- No message is slept through.  Whatever the backends and the worker do, a worker that
waits for a latch that is not set has popped every message, unless the backend of the first
one that is left is still in `channel_push`. -/
theorem sleeping_worker_has_popped {data : ℕ → UInt8}
    (hreaches : Reaches (step bufSize) (MessageFits bufSize) (State.init data) s)
    (hwaiting : s.pc = .waiting) (hunset : s.latch = false) :
    s.ring.popped = s.ring.accepted.map Message.bytes ∨
      WillSignal s s.ring.popped.length := by
  have hinv : SleepInv bufSize s := by
    apply hreaches.invariant (sleepInv_init data)
    exact fun s label s' hinv hfits hstep => sleepInv_step hinv hfits hstep
  by_cases hleft : s.ring.popped.length < s.ring.accepted.length
  · exact .inr (hinv.asleep ⟨hwaiting, hunset⟩ hleft)
  · left
    apply hinv.ring.popped.eq_of_length
    apply Nat.le_antisymm hinv.ring.popped.length_le
    rw [List.length_map]
    exact not_lt.mp hleft

end Sleep

/-! ## An example -/

/-- A worker goes to sleep while a backend is between its message and the latch. -/
def pushBehindSleep : List (Label Unit) :=
  [.setRunning true, .register false, .top .first, .ring .testReady, .test, .reset,
    .ring .testReady, .ring (.reserve () ⟨[81, 5], by decide⟩), .ring (.pushFirst ()),
    .ring (.pushRest ()), .ring (.setReady ())]

instance {ι : Type} (bufSize : UInt32) (s : State ι) (label : Label ι) :
    Decidable (MessageFits bufSize s label) :=
  match label with
  | .ring (.reserve _ msg) => inferInstanceAs (Decidable (msg.len ≤ bufSize))
  | .ring (.pushFirst _) | .ring (.pushRest _) | .ring (.setReady _) | .ring .testReady
  | .ring .popFirst | .ring .popRest | .ring .clearReady | .ring .setDtail | .ring .setHtail
  | .readLatch _ | .setLatch _ | .setRunning _ | .register _ | .top _ | .test | .reset | .wait _
  | .die => isTrue trivial

theorem sleeping_worker_has_popped_behind : ∃ s : State Unit,
    Reaches (step 1048576) (MessageFits 1048576) (State.init fun _ => 0) s ∧
      s.pc = .waiting ∧ s.ring.accepted.length = 1 ∧ s.ring.popped = [] ∧
        WillSignal s 0 := by
  have hrun : ∃ s : State Unit, runWhile (step 1048576) (MessageFits 1048576)
      (State.init fun _ => 0) pushBehindSleep = some s ∧ s.pc = .waiting ∧ s.latch = false ∧
        s.ring.accepted.length = 1 ∧ s.ring.popped = [] := ⟨_, rfl, rfl, rfl, rfl, rfl⟩
  obtain ⟨s, hs, hwaiting, hunset, haccepted, hpopped⟩ := hrun
  have hreaches := reaches_of_runWhile hs
  refine ⟨s, hreaches, hwaiting, haccepted, hpopped, ?_⟩
  rcases sleeping_worker_has_popped hreaches hwaiting hunset with hall | hwill
  · rw [hpopped] at hall
    rw [List.map_eq_nil_iff.mp hall.symm] at haccepted
    cases haccepted
  · rwa [hpopped] at hwill

end Pgr.Latch
