import Pgr.Core.Transition

/-!
# Registration of the channel worker

`channel_start`, `channel_stop` and `channel_ensure_worker` of `channel.c`
against the workers they start; `capture_start` makes the same calls in the same
order.  `worker_pid` is 0 when nobody drains the ring,
-1 while a start is registering a worker, and the pid of the worker from its
start to its release.  A section under the channel's lock is one step, and so is
every access to `running`, which the lock does not guard.  The pid of a process
is not given to another one while it lives.
-/

namespace Pgr.Registration

open Pgr.Transition

/-- How far a backend is in `channel_start` or `channel_stop`. -/
inductive CallPc where
  | idle
  | called
  /-- Behind `channel_publish`. -/
  | published
  /-- The reservation is made, the worker not registered. -/
  | reserved
  /-- The registration has failed. -/
  | failing
  /-- `running` is taken back, the reservation is not. -/
  | rollingBack
  | waking
  /-- In `channel_stop`, behind the test of `running`. -/
  | stopping
  deriving DecidableEq

/-- `channel_start` has been called and has not returned. -/
def CallPc.isStarting : CallPc → Bool
  | .called | .published | .reserved | .failing | .rollingBack | .waking => true
  | .idle | .stopping => false

/-- The reservation is this call's. -/
def CallPc.isReserving : CallPc → Bool
  | .reserved | .failing | .rollingBack => true
  | .idle | .called | .published | .waking | .stopping => false

inductive ProcessPc where
  | absent
  /-- The worker runs and has not set `worker_pid`. -/
  | spawned
  | serving
  /-- Out of the loop by a signal, still registered. -/
  | dying
  /-- Released by `worker_try_exit`. -/
  | leaving
  deriving DecidableEq

/-- Between setting `worker_pid` and releasing it. -/
def ProcessPc.isRegistered : ProcessPc → Bool
  | .serving | .dying => true
  | .absent | .spawned | .leaving => false

structure State (ι : Type) where
  running : Bool
  workerPid : ℤ
  calls : ι → CallPc
  processes : ℕ → ProcessPc

inductive Label (ι : Type) where
  | call (i : ι)
  | publish (i : ι)
  | ensureWorker (i : ι)
  | register (i : ι) (pid : Option ℕ)
  | clearRunning (i : ι)
  | rollBack (i : ι)
  | wakeup (i : ι)
  | stop (i : ι)
  | stopRunning (i : ι)
  | workerStart (pid : ℕ)
  | workerLost (pid : ℕ)
  | workerTryExit (pid : ℕ)
  | workerSignal (pid : ℕ)
  | workerCleanup (pid : ℕ)

section Step

variable {ι : Type} [DecidableEq ι]

def State.setCall (s : State ι) (i : ι) (pc : CallPc) : State ι :=
  { s with calls := Function.update s.calls i pc }

def State.setProcess (s : State ι) (pid : ℕ) (pc : ProcessPc) : State ι :=
  { s with processes := Function.update s.processes pid pc }

def step (s : State ι) : Label ι → Option (State ι)
  | .call i => if s.calls i = .idle then some (s.setCall i .called) else none
  | .publish i =>
      if s.calls i = .called then some { s.setCall i .published with running := true } else none
  | .ensureWorker i =>
      if s.calls i = .published then
        if s.workerPid = 0 then some { s.setCall i .reserved with workerPid := -1 }
        else some (s.setCall i .waking)
      else none
  | .register i (some pid) =>
      if s.calls i = .reserved ∧ 0 < pid ∧ s.processes pid = .absent then
        some ((s.setCall i .waking).setProcess pid .spawned)
      else none
  | .register i none => if s.calls i = .reserved then some (s.setCall i .failing) else none
  | .clearRunning i =>
      if s.calls i = .failing then some { s.setCall i .rollingBack with running := false }
      else none
  | .rollBack i =>
      if s.calls i = .rollingBack then some { s.setCall i .idle with workerPid := 0 } else none
  | .wakeup i => if s.calls i = .waking then some (s.setCall i .idle) else none
  | .stop i => if s.calls i = .idle ∧ s.running then some (s.setCall i .stopping) else none
  | .stopRunning i =>
      if s.calls i = .stopping then some { s.setCall i .idle with running := false } else none
  | .workerStart pid =>
      if s.processes pid = .spawned then
        some { s.setProcess pid .serving with workerPid := (pid : ℤ) }
      else none
  | .workerLost pid =>
      if s.processes pid = .spawned then some (s.setProcess pid .absent) else none
  | .workerTryExit pid =>
      if s.processes pid = .serving then
        if s.running = false then some { s.setProcess pid .leaving with workerPid := 0 }
        else some s
      else none
  | .workerSignal pid =>
      if s.processes pid = .serving then some (s.setProcess pid .dying) else none
  | .workerCleanup pid =>
      if s.processes pid = .leaving ∨ s.processes pid = .dying then
        some { s.setProcess pid .absent with
          workerPid := if s.workerPid = (pid : ℤ) then 0 else s.workerPid }
      else none

def State.init : State ι where
  running := false
  workerPid := 0
  calls := fun _ => .idle
  processes := fun _ => .absent

end Step

section Updates

variable {ι : Type} [DecidableEq ι] (s : State ι)

@[simp]
theorem calls_setCall (i j : ι) (pc : CallPc) :
    (s.setCall i pc).calls j = if j = i then pc else s.calls j := by
  by_cases hj : j = i
  · subst hj
    rw [if_pos rfl]
    exact Function.update_self ..
  · rw [if_neg hj]
    exact Function.update_of_ne hj ..

omit [DecidableEq ι] in
@[simp]
theorem processes_setProcess (pid other : ℕ) (pc : ProcessPc) :
    (s.setProcess pid pc).processes other = if other = pid then pc else s.processes other := by
  by_cases hother : other = pid
  · subst hother
    rw [if_pos rfl]
    exact Function.update_self ..
  · rw [if_neg hother]
    exact Function.update_of_ne hother ..

@[simp]
theorem processes_setCall (i : ι) (pc : CallPc) : (s.setCall i pc).processes = s.processes := rfl

omit [DecidableEq ι] in
@[simp]
theorem calls_setProcess (pid : ℕ) (pc : ProcessPc) : (s.setProcess pid pc).calls = s.calls := rfl

@[simp]
theorem workerPid_setCall (i : ι) (pc : CallPc) : (s.setCall i pc).workerPid = s.workerPid := rfl

omit [DecidableEq ι] in
@[simp]
theorem workerPid_setProcess (pid : ℕ) (pc : ProcessPc) :
    (s.setProcess pid pc).workerPid = s.workerPid := rfl

end Updates

/-! ## One consumer -/

/-- Who holds the registration: nobody, a call that has reserved it, the worker it
has registered, a worker that never came up, or a worker that serves. -/
inductive Holder (ι : Type) where
  | free
  | call (i : ι)
  | spawned (pid : ℕ)
  | lost
  | worker (pid : ℕ)

def Holder.workerPid {ι : Type} : Holder ι → ℤ
  | .free => 0
  | .call _ | .spawned _ | .lost => -1
  | .worker pid => pid

section Invariant

variable {ι : Type}

/-- The registration has the given holder and no other. -/
structure HeldBy (s : State ι) (holder : Holder ι) : Prop where
  workerPid : s.workerPid = holder.workerPid
  calls : ∀ i, (s.calls i).isReserving = true ↔ holder = .call i
  spawned : ∀ pid, s.processes pid = .spawned ↔ holder = .spawned pid
  registered : ∀ pid, (s.processes pid).isRegistered = true ↔ holder = .worker pid
  positive : ∀ pid, s.processes pid ≠ .absent → 0 < pid

variable [DecidableEq ι] {s s' : State ι} {holder : Holder ι} {i : ι} {pid : ℕ}

omit [DecidableEq ι] in
theorem heldBy_init : HeldBy (State.init : State ι) .free :=
  ⟨rfl, fun _ => by simp [State.init, CallPc.isReserving], fun _ => by simp [State.init],
    fun _ => by simp [State.init, ProcessPc.isRegistered], fun _ hne => absurd rfl hne⟩

omit [DecidableEq ι] in
theorem HeldBy.setRunning (hheld : HeldBy s holder) (running : Bool) :
    HeldBy { s with running := running } holder :=
  ⟨hheld.workerPid, hheld.calls, hheld.spawned, hheld.registered, hheld.positive⟩

/-- A call goes on without taking or giving up the reservation. -/
theorem HeldBy.setCall {pc : CallPc} (hheld : HeldBy s holder)
    (hsame : pc.isReserving = (s.calls i).isReserving) : HeldBy (s.setCall i pc) holder where
  workerPid := hheld.workerPid
  calls j := by
    rw [calls_setCall, ← hheld.calls j]
    split_ifs with hj
    · rw [hj, hsame]
    · rfl
  spawned := hheld.spawned
  registered := hheld.registered
  positive := hheld.positive

omit [DecidableEq ι] in
/-- Nobody is registered when `worker_pid` is 0. -/
theorem HeldBy.eq_free (hheld : HeldBy s holder) (hzero : s.workerPid = 0) : holder = .free := by
  have hpid := hheld.workerPid
  cases holder with
  | free => rfl
  | call j => simp [Holder.workerPid, hzero] at hpid
  | spawned pid => simp [Holder.workerPid, hzero] at hpid
  | lost => simp [Holder.workerPid, hzero] at hpid
  | worker pid =>
      have hregistered := (hheld.registered pid).mpr rfl
      have hexists : s.processes pid ≠ .absent := by
        intro habsent
        simp [habsent, ProcessPc.isRegistered] at hregistered
      have hpositive := hheld.positive pid hexists
      rw [hzero] at hpid
      simp only [Holder.workerPid] at hpid
      omega

theorem HeldBy.reserve (hheld : HeldBy s holder) (hzero : s.workerPid = 0) :
    HeldBy { s.setCall i .reserved with workerPid := -1 } (.call i) := by
  obtain rfl := hheld.eq_free hzero
  constructor
  · rfl
  · intro j
    rw [calls_setCall]
    split_ifs with hj
    · simp [hj, CallPc.isReserving]
    · rw [hheld.calls j]
      simp [Ne.symm hj]
  · exact fun other => (hheld.spawned other).trans (by simp)
  · exact fun other => (hheld.registered other).trans (by simp)
  · exact hheld.positive

theorem HeldBy.register (hheld : HeldBy s holder) (hcall : s.calls i = .reserved)
    (hpid : 0 < pid) :
    HeldBy ((s.setCall i .waking).setProcess pid .spawned) (.spawned pid) := by
  have hholder := (hheld.calls i).mp (by rw [hcall]; rfl)
  subst hholder
  constructor
  · exact hheld.workerPid
  · intro j
    rw [calls_setProcess, calls_setCall]
    split_ifs with hj
    · simp [CallPc.isReserving]
    · rw [hheld.calls j]
      simp [Ne.symm hj]
  · intro other
    rw [processes_setProcess]
    split_ifs with hother
    · simp [hother]
    · exact (hheld.spawned other).trans (by simp [Ne.symm hother])
  · intro other
    rw [processes_setProcess]
    split_ifs with hother
    · simp [ProcessPc.isRegistered]
    · exact (hheld.registered other).trans (by simp)
  · intro other
    rw [processes_setProcess]
    split_ifs with hother
    · exact fun _ => hother ▸ hpid
    · exact hheld.positive other

theorem HeldBy.rollBack (hheld : HeldBy s holder) (hcall : s.calls i = .rollingBack) :
    HeldBy { s.setCall i .idle with workerPid := 0 } .free := by
  have hholder := (hheld.calls i).mp (by rw [hcall]; rfl)
  subst hholder
  constructor
  · rfl
  · intro j
    rw [calls_setCall]
    split_ifs with hj
    · simp [CallPc.isReserving]
    · rw [hheld.calls j]
      simp [Ne.symm hj]
  · exact fun other => (hheld.spawned other).trans (by simp)
  · exact fun other => (hheld.registered other).trans (by simp)
  · exact hheld.positive

omit [DecidableEq ι] in
/-- A process moves on, and the registration with it. -/
theorem HeldBy.setProcess {pc : ProcessPc} {after : Holder ι} {workerPid : ℤ}
    (hheld : HeldBy s holder) (hexists : s.processes pid ≠ .absent)
    (hpid : workerPid = after.workerPid)
    (hcalls : ∀ j, holder = .call j ↔ after = .call j)
    (hspawned : pc = .spawned ↔ after = .spawned pid)
    (hregistered : pc.isRegistered = true ↔ after = .worker pid)
    (hothers : ∀ other, other ≠ pid → (holder = .spawned other ↔ after = .spawned other) ∧
      (holder = .worker other ↔ after = .worker other)) :
    HeldBy { s.setProcess pid pc with workerPid := workerPid } after where
  workerPid := hpid
  calls j := (hheld.calls j).trans (hcalls j)
  spawned other := by
    rw [processes_setProcess]
    split_ifs with hother
    · rw [hother, hspawned]
    · exact (hheld.spawned other).trans (hothers other hother).1
  registered other := by
    rw [processes_setProcess]
    split_ifs with hother
    · rw [hother, hregistered]
    · exact (hheld.registered other).trans (hothers other hother).2
  positive other := by
    rw [processes_setProcess]
    split_ifs with hother
    · exact fun _ => hother ▸ hheld.positive pid hexists
    · exact hheld.positive other

omit [DecidableEq ι] in
theorem HeldBy.workerStart (hheld : HeldBy s holder) (hprocess : s.processes pid = .spawned) :
    HeldBy { s.setProcess pid .serving with workerPid := (pid : ℤ) } (.worker pid) := by
  have hholder := (hheld.spawned pid).mp hprocess
  subst hholder
  apply hheld.setProcess
  · simp [hprocess]
  · rfl
  · simp
  · simp
  · simp [ProcessPc.isRegistered]
  · intro other hother
    simp [Ne.symm hother]

omit [DecidableEq ι] in
theorem HeldBy.workerLost (hheld : HeldBy s holder) (hprocess : s.processes pid = .spawned) :
    HeldBy (s.setProcess pid .absent) .lost := by
  have hholder := (hheld.spawned pid).mp hprocess
  subst hholder
  apply hheld.setProcess
  · simp [hprocess]
  · exact hheld.workerPid
  · simp
  · simp
  · simp [ProcessPc.isRegistered]
  · intro other hother
    simp [Ne.symm hother]

omit [DecidableEq ι] in
/-- The registration is released by the worker that has it. -/
theorem HeldBy.release {pc : ProcessPc} (hheld : HeldBy s holder)
    (hprocess : (s.processes pid).isRegistered = true) (hpc : pc = .leaving ∨ pc = .absent) :
    HeldBy { s.setProcess pid pc with workerPid := 0 } .free := by
  have hholder := (hheld.registered pid).mp hprocess
  subst hholder
  apply hheld.setProcess
  · intro habsent
    simp [habsent, ProcessPc.isRegistered] at hprocess
  · rfl
  · simp
  · rcases hpc with rfl | rfl <;> simp
  · rcases hpc with rfl | rfl <;> simp [ProcessPc.isRegistered]
  · intro other hother
    simp [Ne.symm hother]

omit [DecidableEq ι] in
theorem HeldBy.workerSignal (hheld : HeldBy s holder) (hprocess : s.processes pid = .serving) :
    HeldBy (s.setProcess pid .dying) holder := by
  have hholder := (hheld.registered pid).mp (by rw [hprocess]; rfl)
  subst hholder
  apply hheld.setProcess
  · simp [hprocess]
  · exact hheld.workerPid
  · simp
  · simp
  · simp [ProcessPc.isRegistered]
  · intro other hother
    simp

omit [DecidableEq ι] in
/-- A worker that has released the registration does not find its pid there again. -/
theorem HeldBy.ne_of_leaving (hheld : HeldBy s holder) (hprocess : s.processes pid = .leaving) :
    s.workerPid ≠ pid := by
  have hpositive : 0 < pid := hheld.positive pid (by simp [hprocess])
  intro hpid
  rw [hheld.workerPid] at hpid
  cases holder with
  | free | call | spawned | lost =>
      simp only [Holder.workerPid] at hpid
      omega
  | worker other =>
      obtain rfl : other = pid := Int.ofNat_inj.mp hpid
      have hregistered := (hheld.registered other).mpr rfl
      simp [hprocess, ProcessPc.isRegistered] at hregistered

omit [DecidableEq ι] in
theorem HeldBy.leave (hheld : HeldBy s holder) (hprocess : s.processes pid = .leaving) :
    HeldBy (s.setProcess pid .absent) holder := by
  have hspawned : holder ≠ .spawned pid := fun h => by
    simpa [hprocess] using (hheld.spawned pid).mpr h
  have hworker : holder ≠ .worker pid := fun h => by
    simpa [hprocess, ProcessPc.isRegistered] using (hheld.registered pid).mpr h
  apply hheld.setProcess
  · simp [hprocess]
  · exact hheld.workerPid
  · simp
  · simp [hspawned]
  · simp [hworker, ProcessPc.isRegistered]
  · intro other hother
    simp

theorem step_workerCleanup (hl : step s (.workerCleanup pid) = some s') :
    (s.processes pid = .leaving ∨ s.processes pid = .dying) ∧
      s' = { s.setProcess pid .absent with
        workerPid := if s.workerPid = (pid : ℤ) then 0 else s.workerPid } := by
  rw [step] at hl
  by_cases hprocess : s.processes pid = .leaving ∨ s.processes pid = .dying
  · rw [if_pos hprocess] at hl
    exact ⟨hprocess, (Option.some.inj hl).symm⟩
  · rw [if_neg hprocess] at hl
    nomatch hl

/-- Every step keeps the registration with one holder. -/
theorem heldBy_step {l : Label ι} (hheld : HeldBy s holder) (hl : step s l = some s') :
    ∃ after, HeldBy s' after := by
  cases l with
  | call i | wakeup i | stop i =>
      simp only [step] at hl
      split_ifs at hl with hcall
      obtain rfl := Option.some.inj hl
      exact ⟨holder, hheld.setCall (by simp [hcall, CallPc.isReserving])⟩
  | publish i | clearRunning i | stopRunning i =>
      simp only [step] at hl
      split_ifs at hl with hcall
      obtain rfl := Option.some.inj hl
      exact ⟨holder, (hheld.setCall (by rw [hcall]; rfl)).setRunning _⟩
  | ensureWorker i =>
      simp only [step] at hl
      split_ifs at hl with hcall hzero
      · obtain rfl := Option.some.inj hl
        exact ⟨_, hheld.reserve hzero⟩
      · obtain rfl := Option.some.inj hl
        exact ⟨holder, hheld.setCall (by rw [hcall]; rfl)⟩
  | register i registered =>
      cases registered with
      | none =>
          simp only [step] at hl
          split_ifs at hl with hcall
          obtain rfl := Option.some.inj hl
          exact ⟨holder, hheld.setCall (by rw [hcall]; rfl)⟩
      | some pid =>
          simp only [step] at hl
          split_ifs at hl with hguard
          obtain ⟨hcall, hpositive, -⟩ := hguard
          obtain rfl := Option.some.inj hl
          exact ⟨_, hheld.register hcall hpositive⟩
  | rollBack i =>
      simp only [step] at hl
      split_ifs at hl with hcall
      obtain rfl := Option.some.inj hl
      exact ⟨_, hheld.rollBack hcall⟩
  | workerStart pid =>
      simp only [step] at hl
      split_ifs at hl with hprocess
      obtain rfl := Option.some.inj hl
      exact ⟨_, hheld.workerStart hprocess⟩
  | workerLost pid =>
      simp only [step] at hl
      split_ifs at hl with hprocess
      obtain rfl := Option.some.inj hl
      exact ⟨_, hheld.workerLost hprocess⟩
  | workerTryExit pid =>
      simp only [step] at hl
      split_ifs at hl with hprocess hrunning
      · obtain rfl := Option.some.inj hl
        exact ⟨_, hheld.release (by rw [hprocess]; rfl) (.inl rfl)⟩
      · obtain rfl := Option.some.inj hl
        exact ⟨holder, hheld⟩
  | workerSignal pid =>
      simp only [step] at hl
      split_ifs at hl with hprocess
      obtain rfl := Option.some.inj hl
      exact ⟨_, hheld.workerSignal hprocess⟩
  | workerCleanup pid =>
      obtain ⟨hprocess, rfl⟩ := step_workerCleanup hl
      rcases hprocess with hleaving | hdying
      · rw [if_neg (hheld.ne_of_leaving hleaving)]
        exact ⟨holder, hheld.leave hleaving⟩
      · have hregistered : (s.processes pid).isRegistered = true := by rw [hdying]; rfl
        have hpid : s.workerPid = pid :=
          hheld.workerPid.trans (congrArg Holder.workerPid ((hheld.registered pid).mp hregistered))
        rw [if_pos hpid]
        exact ⟨_, hheld.release hregistered (.inr rfl)⟩

theorem reachable_heldBy (hreachable : Reachable step (State.init : State ι) s) :
    ∃ holder, HeldBy s holder := by
  apply Reachable.invariant hreachable
  · exact ⟨_, heldBy_init⟩
  · intro s l s' hinv hl
    obtain ⟨holder, hheld⟩ := hinv
    exact heldBy_step hheld hl

/-- At most one worker has set `worker_pid` and not released it, and the exit of a
worker leaves the registration of every other one as it is. -/
theorem reachable_oneConsumer (hreachable : Reachable step (State.init : State ι) s) :
    (∀ pid other, (s.processes pid).isRegistered = true →
        (s.processes other).isRegistered = true → pid = other) ∧
      ∀ pid after, step s (.workerCleanup pid) = some after →
        (s.workerPid = -1 → after.workerPid = -1) ∧
        ∀ other, other ≠ pid → (s.processes other).isRegistered = true →
          after.workerPid = other ∧ (after.processes other).isRegistered = true := by
  obtain ⟨holder, hheld⟩ := reachable_heldBy hreachable
  constructor
  · intro pid other hpid hother
    have hholder := (hheld.registered pid).mp hpid
    rw [(hheld.registered other).mp hother] at hholder
    exact (Holder.worker.inj hholder).symm
  · intro pid after hcleanup
    obtain ⟨-, rfl⟩ := step_workerCleanup hcleanup
    constructor
    · intro hreserved
      simp [hreserved]
    · intro other hne hother
      have hholder := (hheld.registered other).mp hother
      have hworker : s.workerPid = other := by rw [hheld.workerPid, hholder]; rfl
      have hpid : (other : ℤ) ≠ pid := fun h => hne (Int.ofNat_inj.mp h)
      simp [hworker, hpid, hne, hother]

end Invariant

/-- A worker releases the registration after a stop, and the next one serves when it exits. -/
theorem oneConsumer_successor :
    ∃ s : State (Fin 1), Reachable step State.init s ∧
      (s.processes 7).isRegistered = false ∧ (s.processes 8).isRegistered = true ∧
      ∀ after, step s (.workerCleanup 7) = some after → after.workerPid = 8 := by
  have hrun : (run step (State.init : State (Fin 1))
      [.call 0, .publish 0, .ensureWorker 0, .register 0 (some 7), .wakeup 0, .workerStart 7,
        .stop 0, .stopRunning 0, .workerTryExit 7, .call 0, .publish 0, .ensureWorker 0,
        .register 0 (some 8), .workerStart 8]).map
      (fun s => ((s.processes 7).isRegistered, (s.processes 8).isRegistered)) =
        some (false, true) := by
    decide +kernel
  obtain ⟨s, hs, hprocesses⟩ := Option.map_eq_some_iff.mp hrun
  obtain ⟨hseven, height⟩ := Prod.mk.inj hprocesses
  have hreachable := reachable_of_run hs
  refine ⟨s, hreachable, hseven, height, ?_⟩
  intro after hcleanup
  exact ((reachable_oneConsumer hreachable).2 7 after hcleanup).2 8 (by decide) height |>.1

/-! ## A worker for a running channel -/

section Running

variable {ι : Type}

/-- The call has yet to look at `worker_pid`. -/
def CallPc.isEnsuring : CallPc → Bool
  | .called | .published => true
  | .idle | .reserved | .failing | .rollingBack | .waking | .stopping => false

/-- A worker is killed or never comes up. -/
def Label.isWorkerFailure : Label ι → Bool
  | .workerLost _ | .workerSignal _ => true
  | _ => false

/-- A reservation is rolled back when the channel does not run, or when some start
still looks at `worker_pid`. -/
def rollsBackInTime (s : State ι) : Label ι → Prop
  | .rollBack _ => s.running = false ∨ ∃ j, (s.calls j).isEnsuring = true
  | _ => True

/-- A running channel has a worker or a start that will look for one. -/
structure Served (s : State ι) : Prop where
  running : s.running = true → s.workerPid ≠ 0 ∨ ∃ j, (s.calls j).isEnsuring = true
  processes : ∀ pid, s.processes pid ≠ .dying

variable [DecidableEq ι] {s s' : State ι}

omit [DecidableEq ι] in
theorem served_init : Served (State.init : State ι) :=
  ⟨fun hrunning => by simp [State.init] at hrunning, fun _ => by simp [State.init]⟩

/-- A call that moves on leaves the others to look at `worker_pid`. -/
theorem exists_isEnsuring_setCall {i : ι} {pc : CallPc}
    (hexists : ∃ j, (s.calls j).isEnsuring = true)
    (hkeeps : (s.calls i).isEnsuring = true → pc.isEnsuring = true) :
    ∃ j, ((s.setCall i pc).calls j).isEnsuring = true := by
  obtain ⟨j, hj⟩ := hexists
  refine ⟨j, ?_⟩
  rw [calls_setCall]
  split_ifs with hji
  · exact hkeeps (hji ▸ hj)
  · exact hj

theorem Served.setCall {i : ι} {pc : CallPc} (hserved : Served s)
    (hkeeps : (s.calls i).isEnsuring = true → pc.isEnsuring = true) : Served (s.setCall i pc) where
  running hrunning := (hserved.running hrunning).imp_right fun hexists =>
    exists_isEnsuring_setCall hexists hkeeps
  processes := hserved.processes

omit [DecidableEq ι] in
theorem Served.setProcess {pid : ℕ} {pc : ProcessPc} (hserved : Served s) (hpc : pc ≠ .dying)
    {workerPid : ℤ} (hpid : s.running = true → workerPid ≠ 0 ∨ workerPid = s.workerPid) :
    Served { s.setProcess pid pc with workerPid := workerPid } where
  running hrunning := by
    rcases hpid hrunning with hne | heq
    · exact .inl hne
    · rw [heq]
      exact hserved.running hrunning
  processes other := by
    rw [processes_setProcess]
    split_ifs with hother
    · exact hpc
    · exact hserved.processes other

theorem served_step {l : Label ι} (hheld : ∃ holder, HeldBy s holder) (hserved : Served s)
    (hfailure : l.isWorkerFailure = false) (hintime : rollsBackInTime s l)
    (hl : step s l = some s') : Served s' := by
  obtain ⟨holder, hheld⟩ := hheld
  cases l with
  | call i =>
      simp only [step] at hl
      split_ifs at hl with hcall
      obtain rfl := Option.some.inj hl
      exact hserved.setCall fun _ => rfl
  | publish i =>
      simp only [step] at hl
      split_ifs at hl with hcall
      obtain rfl := Option.some.inj hl
      refine ⟨fun _ => .inr ⟨i, ?_⟩, hserved.processes⟩
      simp [CallPc.isEnsuring]
  | ensureWorker i =>
      simp only [step] at hl
      split_ifs at hl with hcall hzero
      · obtain rfl := Option.some.inj hl
        exact ⟨fun _ => .inl (by simp), hserved.processes⟩
      · obtain rfl := Option.some.inj hl
        exact ⟨fun _ => .inl hzero, hserved.processes⟩
  | register i registered =>
      cases registered with
      | none =>
          simp only [step] at hl
          split_ifs at hl with hcall
          obtain rfl := Option.some.inj hl
          exact hserved.setCall fun h => by simp [hcall, CallPc.isEnsuring] at h
      | some pid =>
          simp only [step] at hl
          split_ifs at hl with hguard
          obtain rfl := Option.some.inj hl
          have hcall : Served (s.setCall i .waking) :=
            hserved.setCall fun h => by simp [hguard.1, CallPc.isEnsuring] at h
          exact hcall.setProcess (by simp) fun _ => .inr rfl
  | clearRunning i =>
      simp only [step] at hl
      split_ifs at hl with hcall
      obtain rfl := Option.some.inj hl
      exact ⟨fun hrunning => absurd hrunning (by simp), hserved.processes⟩
  | rollBack i =>
      simp only [step] at hl
      split_ifs at hl with hcall
      obtain rfl := Option.some.inj hl
      refine ⟨fun hrunning => .inr ?_, hserved.processes⟩
      rcases hintime with hstopped | hexists
      · exact absurd (hstopped.symm.trans hrunning) (by simp)
      · exact exists_isEnsuring_setCall hexists fun h => by simp [hcall, CallPc.isEnsuring] at h
  | wakeup i =>
      simp only [step] at hl
      split_ifs at hl with hcall
      obtain rfl := Option.some.inj hl
      exact hserved.setCall fun h => by simp [hcall, CallPc.isEnsuring] at h
  | stop i =>
      simp only [step] at hl
      split_ifs at hl with hcall
      obtain rfl := Option.some.inj hl
      exact hserved.setCall fun h => by simp [hcall.1, CallPc.isEnsuring] at h
  | stopRunning i =>
      simp only [step] at hl
      split_ifs at hl with hcall
      obtain rfl := Option.some.inj hl
      exact ⟨fun hrunning => absurd hrunning (by simp), hserved.processes⟩
  | workerStart pid =>
      simp only [step] at hl
      split_ifs at hl with hprocess
      obtain rfl := Option.some.inj hl
      have hpositive : 0 < pid := hheld.positive pid (by simp [hprocess])
      exact hserved.setProcess (by simp) fun _ => .inl (by omega)
  | workerLost pid | workerSignal pid => nomatch hfailure
  | workerTryExit pid =>
      simp only [step] at hl
      split_ifs at hl with hprocess hrunning
      · obtain rfl := Option.some.inj hl
        exact hserved.setProcess (by simp) fun h => by simp [hrunning] at h
      · obtain rfl := Option.some.inj hl
        exact hserved
  | workerCleanup pid =>
      obtain ⟨hprocess, rfl⟩ := step_workerCleanup hl
      rcases hprocess with hleaving | hdying
      · rw [if_neg (hheld.ne_of_leaving hleaving)]
        exact hserved.setProcess (by simp) fun _ => .inr rfl
      · exact absurd hdying (hserved.processes pid)

/-- When no worker fails and each reservation is rolled back in time, a running channel
that no start is busy with has a worker. -/
theorem running_hasWorker
    (hreaches : Reaches step (fun s l => l.isWorkerFailure = false ∧ rollsBackInTime s l)
      (State.init : State ι) s)
    (hrunning : s.running = true) (hcalls : ∀ i, (s.calls i).isStarting = false) :
    s.workerPid ≠ 0 := by
  have hinvariant : (∃ holder, HeldBy s holder) ∧ Served s := by
    apply hreaches.invariant
    · exact ⟨⟨_, heldBy_init⟩, served_init⟩
    · intro s l s' hinv hcond hl
      obtain ⟨hheld, hserved⟩ := hinv
      exact ⟨hheld.elim fun _ h => heldBy_step h hl,
        served_step hheld hserved hcond.1 hcond.2 hl⟩
  rcases hinvariant.2.running hrunning with hne | ⟨j, hj⟩
  · exact hne
  · have hidle := hcalls j
    cases hcall : s.calls j <;> simp [hcall, CallPc.isEnsuring, CallPc.isStarting] at hj hidle

end Running

instance {ι : Type} [Fintype ι] (s : State ι) (l : Label ι) : Decidable (rollsBackInTime s l) :=
  match l with
  | .rollBack _ => inferInstanceAs (Decidable (s.running = false ∨ ∃ j, (s.calls j).isEnsuring = true))
  | .call _ | .publish _ | .ensureWorker _ | .register _ _ | .clearRunning _ | .wakeup _ | .stop _
  | .stopRunning _ | .workerStart _ | .workerLost _ | .workerTryExit _ | .workerSignal _
  | .workerCleanup _ => isTrue trivial

/-- A second start sees the reservation, and a failed registration is rolled back
before a third one. -/
theorem running_hasWorker_rollBack :
    ∃ s : State (Fin 2), Reachable step State.init s ∧ s.running = true ∧ s.workerPid ≠ 0 := by
  have hrun : (runWhile step (fun s l => l.isWorkerFailure = false ∧ rollsBackInTime s l)
      (State.init : State (Fin 2))
      [.call 0, .publish 0, .ensureWorker 0, .register 0 none, .call 1, .clearRunning 0,
        .publish 1, .rollBack 0, .ensureWorker 1, .register 1 (some 7), .wakeup 1,
        .workerStart 7]).map
      (fun s => (s.running, (s.calls 0).isStarting, (s.calls 1).isStarting)) =
        some (true, false, false) := by
    decide +kernel
  obtain ⟨s, hs, hvalues⟩ := Option.map_eq_some_iff.mp hrun
  simp only [Prod.mk.injEq] at hvalues
  obtain ⟨hrunning, hzero, hone⟩ := hvalues
  have hreaches := reaches_of_runWhile hs
  have hcalls : ∀ i, (s.calls i).isStarting = false := Fin.forall_fin_two.mpr ⟨hzero, hone⟩
  exact ⟨s, hreaches.mono fun _ _ _ => trivial, hrunning,
    running_hasWorker hreaches hrunning hcalls⟩

/-- The second start finds the reservation of the first and returns; then the first
one, whose registration has failed, takes the reservation back. -/
theorem running_withoutWorker :
    ∃ s : State (Fin 2), Reaches step (fun _ l => l.isWorkerFailure = false) State.init s ∧
      s.running = true ∧ (∀ i, (s.calls i).isStarting = false) ∧ s.workerPid = 0 := by
  have hrun : (runWhile step (fun _ l => l.isWorkerFailure = false) (State.init : State (Fin 2))
      [.call 0, .publish 0, .ensureWorker 0, .register 0 none, .clearRunning 0, .call 1,
        .publish 1, .ensureWorker 1, .wakeup 1, .rollBack 0]).map
      (fun s => (s.running, s.workerPid, (s.calls 0).isStarting, (s.calls 1).isStarting)) =
        some (true, 0, false, false) := by
    decide +kernel
  obtain ⟨s, hs, hvalues⟩ := Option.map_eq_some_iff.mp hrun
  simp only [Prod.mk.injEq] at hvalues
  obtain ⟨hrunning, hpid, hzero, hone⟩ := hvalues
  exact ⟨s, reaches_of_runWhile hs, hrunning, Fin.forall_fin_two.mpr ⟨hzero, hone⟩, hpid⟩

end Pgr.Registration
