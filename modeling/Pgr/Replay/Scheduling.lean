import Pgr.Replay.Dispatch

/-!
# No client is forgotten

Between two handlers every client that has a command to send and is not waiting
for an answer has a timer, and that timer is not later than the command.  A timer
is lost only when it is popped, and then its client is dispatched until it is
blocked, has nothing left, or has a new timer.
-/

namespace Pgr.Scheduling

open Pgr.Capture Pgr.Proto Pgr.Manager Pgr.Client Pgr.Loop Pgr.Loop.ReplayLoop Pgr.Transition
  Pgr.Dispatch

variable {loop loop' : ReplayLoop} {id other : ClientId} {slot : Slot} {now : ℕ}

/-- The heap has an entry for the client that is not later than `head`. -/
def HasTimer (loop : ReplayLoop) (id : ClientId) (head : ConnCommand) : Prop :=
  ∃ key, (key, id) ∈ loop.timers ∧ key ≤ head.ts

def ScheduledAt (loop : ReplayLoop) (id : ClientId) : Prop :=
  ∀ slot head queue, loop.slots.lookup id = some slot → slot.blocked = false →
    slot.queue = head :: queue → HasTimer loop id head

def Scheduled (loop : ReplayLoop) : Prop :=
  ∀ id, ScheduledAt loop id

/-! ## Timers -/

theorem mem_pushTimer {entry timer : ℕ × ClientId} :
    timer ∈ (loop.pushTimer entry).timers ↔ timer = entry ∨ timer ∈ loop.timers :=
  List.mem_orderedInsert _

/-- A slot stays scheduled as long as it does not change and no timer is lost. -/
theorem ScheduledAt.mono (hscheduled : ScheduledAt loop id)
    (hslot : loop'.slots.lookup id = loop.slots.lookup id)
    (htimers : ∀ timer ∈ loop.timers, timer.2 = id → timer ∈ loop'.timers) :
    ScheduledAt loop' id := by
  intro slot head queue hlookup hblocked hqueue
  rw [hslot] at hlookup
  obtain ⟨key, hkey, hle⟩ := hscheduled slot head queue hlookup hblocked hqueue
  exact ⟨key, htimers _ hkey rfl, hle⟩

/-! ## Dispatching -/

/-- What `try_dispatch` leaves behind: its client is scheduled, and the others keep
their slots and timers. -/
structure Settled (id : ClientId) (loop loop' : ReplayLoop) : Prop where
  self : ScheduledAt loop' id
  other : ∀ other, other ≠ id → loop'.slots.lookup other = loop.slots.lookup other
  timers : ∀ timer ∈ loop.timers, timer ∈ loop'.timers

theorem settled_of_unscheduled (hself : ScheduledAt loop id) : Settled id loop loop where
  self := hself
  other _ _ := rfl
  timers _ htimer := htimer

theorem Dispatched.settled (hdispatched : Dispatched id now loop loop') :
    Settled id loop loop' := by
  induction hdispatched with
  | absent hslot =>
      apply settled_of_unscheduled
      intro slot head queue hlookup
      cases hslot.symm.trans hlookup
  | blocked hslot hblocked =>
      apply settled_of_unscheduled
      intro slot head queue hlookup hunblocked
      cases hslot.symm.trans hlookup
      cases hblocked.symm.trans hunblocked
  | drained hslot hqueue =>
      apply settled_of_unscheduled
      intro slot head queue hlookup _ hsome
      cases hslot.symm.trans hlookup
      cases hqueue.symm.trans hsome
  | @waits loop slot head queue hslot hqueue hdue =>
      obtain ⟨shift, -, hrebased⟩ := rebased_eq slot head loop
      rw [hrebased]
      refine ⟨?_, fun other hother => lookup_setSlot_ne hother, fun timer htimer =>
        mem_pushTimer.mpr (.inr htimer)⟩
      intro found first rest hlookup _ hfirst
      cases lookup_setSlot.symm.trans hlookup
      cases hqueue.symm.trans hfirst
      exact ⟨head.ts, mem_pushTimer.mpr (.inl rfl), le_refl _⟩
  | @turn loop last slot head queue hslot hblocked hqueue hrest ih =>
      obtain ⟨after, gone, -, hbecomes⟩ := turn_spec loop id slot head queue
      obtain ⟨shift, -, hrebased⟩ := rebased_eq slot head loop
      have htimers : (loop.rebased slot head).timers = loop.timers := by rw [hrebased]
      have hslots : (loop.rebased slot head).slots = loop.slots := by rw [hrebased]
      refine ⟨ih.self, fun other hother => ?_, fun timer htimer => ih.timers timer ?_⟩
      · rw [ih.other other hother, hbecomes.other other hother, hslots]
      · rwa [hbecomes.timers, htimers]

/-- Whatever the slot of `id` is, dispatching it schedules it. -/
theorem scheduled_tryDispatch (hloop : ∀ other, other ≠ id → ScheduledAt loop other) :
    Scheduled (loop.tryDispatch id now) := by
  have hsettled := Dispatched.settled (dispatched_tryDispatch loop id now)
  intro other
  by_cases hother : other = id
  · rw [hother]
    exact hsettled.self
  · exact (hloop other hother).mono (hsettled.other other hother)
      fun timer htimer _ => hsettled.timers timer htimer

theorem scheduled_dispatchTimers {rounds : ℕ} (hloop : Scheduled loop) :
    Scheduled (dispatchTimers now rounds loop) := by
  apply dispatchTimers_invariant _ hloop
  intro loop ts id timers hscheduled htimers _
  apply scheduled_tryDispatch
  intro other hother
  refine (hscheduled other).mono rfl fun timer htimer hid => ?_
  rw [htimers] at htimer
  cases htimer with
  | head => exact absurd hid.symm hother
  | tail _ hmem => exact hmem

/-! ## Taking commands -/

/-- `schedule` only adds a timer. -/
theorem schedule_eq (loop : ReplayLoop) (id : ClientId) :
    loop.schedule id = loop ∨ ∃ key, loop.schedule id = loop.pushTimer (key, id) := by
  rw [schedule]
  cases hslot : loop.slots.lookup id with
  | none => exact .inl rfl
  | some slot =>
      by_cases hblocked : slot.blocked = true
      · exact .inl (by simp only [hblocked, if_true])
      · simp only [hblocked]
        cases hqueue : slot.queue with
        | nil => exact .inl rfl
        | cons head queue => exact .inr ⟨_, rfl⟩

theorem slots_schedule (loop : ReplayLoop) (id : ClientId) :
    (loop.schedule id).slots = loop.slots := by
  obtain hsame | ⟨key, hpushed⟩ := schedule_eq loop id
  · rw [hsame]
  · rw [hpushed]
    rfl

theorem timers_schedule {timer : ℕ × ClientId} (htimer : timer ∈ loop.timers) :
    timer ∈ (loop.schedule id).timers := by
  obtain hsame | ⟨key, hpushed⟩ := schedule_eq loop id
  · rwa [hsame]
  · rw [hpushed]
    exact mem_pushTimer.mpr (.inr htimer)

theorem scheduledAt_schedule (loop : ReplayLoop) (id : ClientId) :
    ScheduledAt (loop.schedule id) id := by
  intro slot head queue hlookup hblocked hqueue
  rw [slots_schedule] at hlookup
  have hpushed : loop.schedule id =
      loop.pushTimer (if slot.burst then 0 else head.ts, id) := by
    rw [schedule, hlookup]
    simp only [hblocked, hqueue]
    rfl
  rw [hpushed]
  refine ⟨_, mem_pushTimer.mpr (.inl rfl), ?_⟩
  split_ifs with hburst
  · exact Nat.zero_le _
  · exact le_refl _

/-- A command is added at the end of a queue: the timer of the head stays, and a new
head is scheduled. -/
theorem scheduled_pushBack {cmd : ConnCommand} (hloop : Scheduled loop)
    (hslot : loop.slots.lookup id = some slot ∨ slot.queue = []) :
    Scheduled (loop.pushBack id cmd slot) := by
  obtain ⟨slot', hslot'⟩ : ∃ slot', { slot with queue := slot.queue ++ [cmd] } = slot' :=
    ⟨_, rfl⟩
  have hother : ∀ other, other ≠ id → ScheduledAt (loop.setSlot id slot') other :=
    fun other hother => (hloop other).mono (lookup_setSlot_ne hother) fun _ htimer _ => htimer
  rw [pushBack, hslot']
  cases hqueue : slot.queue with
  | nil =>
      have hone : slot'.queue.length = 1 := by
        rw [← hslot', hqueue]
        rfl
      rw [if_pos hone]
      intro other
      by_cases hid : other = id
      · rw [hid]
        exact scheduledAt_schedule _ _
      · refine (hother other hid).mono ?_ fun _ htimer _ => timers_schedule htimer
        rw [slots_schedule]
  | cons head queue =>
      have hmore : slot'.queue.length ≠ 1 := by
        rw [← hslot', hqueue]
        simp
      rw [if_neg hmore]
      intro other
      by_cases hid : other = id
      · rw [hid]
        intro found first rest hlookup hblocked hfirst
        cases lookup_setSlot.symm.trans hlookup
        rw [← hslot', hqueue] at hfirst
        cases hfirst
        have hold : loop.slots.lookup id = some slot :=
          hslot.resolve_right (by rw [hqueue]; exact List.cons_ne_nil _ _)
        rw [← hslot'] at hblocked
        exact hloop id slot head queue hold hblocked hqueue
      · exact hother other hid

theorem keptByPush_scheduled : KeptByPush Scheduled where
  inputs _ _ _ _ _ _ hloop := hloop
  push _ _ _ _ hloop hslot := by
    apply scheduled_pushBack hloop
    obtain hsome | ⟨-, hnew⟩ := hslot
    · exact .inl hsome
    · exact .inr (by rw [hnew]; rfl)

/-! ## Readiness events -/

theorem Becomes.scheduledAt {after : Option Slot} {gone : List Connection}
    (hbecomes : Becomes id after gone loop loop') (hloop : Scheduled loop) (hother : other ≠ id) :
    ScheduledAt loop' other := by
  apply (hloop other).mono (hbecomes.other other hother)
  intro timer htimer _
  rwa [hbecomes.timers]

theorem Becomes.scheduled {gone : List Connection} (hbecomes : Becomes id none gone loop loop')
    (hloop : Scheduled loop) : Scheduled loop' := by
  intro other
  by_cases hid : other = id
  · intro slot head queue hlookup
    rw [hid, hbecomes.self] at hlookup
    cases hlookup
  · exact Becomes.scheduledAt hbecomes hloop hid

variable (md5Hex : List UInt8 → String) (catchup : ℕ → ℕ)

theorem scheduled_handleEvent {event : Event} (hloop : Scheduled loop)
    (hevent : loop.handleEvent md5Hex catchup now event = some loop') : Scheduled loop' := by
  obtain ⟨shift, lastTick, -, hhandled⟩ := handleEvent_spec md5Hex catchup hevent
  cases hhandled with
  | ignored => exact hloop
  | failed htoken hslot hbecomes => exact Becomes.scheduled hbecomes hloop
  | served htoken hslot hconn hconnected hserved hafter =>
      obtain ⟨-, hbecomes⟩ | ⟨-, middle, hbecomes, hloop'⟩ := hafter
      · exact Becomes.scheduled hbecomes hloop
      · rw [hloop']
        exact scheduled_tryDispatch fun other hother =>
          Becomes.scheduledAt hbecomes hloop hother

theorem scheduled_step {call : Call} (hloop : Scheduled loop)
    (hstep : step md5Hex catchup loop call = some loop') : Scheduled loop' := by
  cases call with
  | pull senderGone now clock =>
      cases hstep
      exact keptByPush_scheduled.pull hloop
  | handleEvent now event net =>
      have hnet : Scheduled { loop with net := net } := hloop
      exact scheduled_handleEvent md5Hex catchup hnet hstep
  | dispatchReady now net =>
      cases hstep
      rw [dispatchReady]
      obtain ⟨shift, lastTick, -, hticked⟩ := catchUp_eq catchup now { loop with net := net }
      rw [hticked]
      exact scheduled_dispatchTimers hloop
  | finishClients =>
      rw [step] at hstep
      split_ifs at hstep with hfinish
      cases hstep
      exact keptByPush_scheduled.finishClients hloop

/-! ## Slots that become unblocked -/

/-- What has become of a slot that was due to be dispatched. -/
def DispatchedOrTimed (loop' : ReplayLoop) (id : ClientId) (slot slot' : Slot) : Prop :=
  slot'.queue <:+ slot.queue ∧ ∀ head queue, slot.queue = head :: queue →
    slot'.queue.length < slot.queue.length ∨ HasTimer loop' id head

theorem Dispatched.eq_of_absent (hdispatched : Dispatched id now loop loop')
    (hslot : loop.slots.lookup id = none) : loop' = loop := by
  cases hdispatched with
  | absent _ => rfl
  | blocked hlookup _ => rfl
  | drained hlookup _ => rfl
  | waits hlookup _ _ => cases hslot.symm.trans hlookup
  | turn hlookup _ _ _ => cases hslot.symm.trans hlookup

theorem Dispatched.suffix (hdispatched : Dispatched id now loop loop')
    (hslot : loop.slots.lookup id = some slot) {slot' : Slot}
    (hslot' : loop'.slots.lookup id = some slot') : slot'.queue <:+ slot.queue := by
  induction hdispatched generalizing slot with
  | absent hlookup => cases hlookup.symm.trans hslot
  | blocked hlookup _ =>
      cases hslot.symm.trans hslot'
      exact List.suffix_refl _
  | drained hlookup _ =>
      cases hslot.symm.trans hslot'
      exact List.suffix_refl _
  | waits hlookup _ _ =>
      cases hlookup.symm.trans hslot
      cases lookup_setSlot.symm.trans hslot'
      exact List.suffix_refl _
  | @turn loop last current head queue hlookup hblocked hqueue hrest ih =>
      cases hlookup.symm.trans hslot
      obtain ⟨after, gone, hexecuted, hbecomes⟩ := turn_spec loop id current head queue
      cases hafter : after with
      | none =>
          rw [hafter] at hbecomes
          rw [Dispatched.eq_of_absent hrest hbecomes.self, hbecomes.self] at hslot'
          cases hslot'
      | some middle =>
          rw [hafter] at hbecomes
          have hmiddle := ih hbecomes.self hslot'
          rw [queue_of_executed hexecuted hafter] at hmiddle
          rw [hqueue]
          exact hmiddle.trans (List.suffix_cons head queue)

/-- An unblocked slot is dispatched, or waits for its new timer. -/
theorem Dispatched.dispatchedOrTimed (hdispatched : Dispatched id now loop loop')
    (hslot : loop.slots.lookup id = some slot) {slot' : Slot}
    (hslot' : loop'.slots.lookup id = some slot') (hblocked' : slot'.blocked = false) :
    DispatchedOrTimed loop' id slot slot' := by
  refine ⟨Dispatched.suffix hdispatched hslot hslot', fun head queue hqueue => ?_⟩
  cases hdispatched with
  | absent hlookup => cases hlookup.symm.trans hslot
  | blocked hlookup hblocked =>
      cases hlookup.symm.trans hslot'
      cases hblocked.symm.trans hblocked'
  | drained hlookup hempty =>
      cases hlookup.symm.trans hslot
      cases hempty.symm.trans hqueue
  | waits hlookup hfirst _ =>
      cases hlookup.symm.trans hslot
      cases hfirst.symm.trans hqueue
      exact .inr ⟨head.ts, mem_pushTimer.mpr (.inl rfl), le_refl _⟩
  | @turn _ _ _ first rest hlookup hblocked hfirst hrest =>
      cases hlookup.symm.trans hslot
      obtain ⟨after, gone, hexecuted, hbecomes⟩ := turn_spec loop id slot first rest
      cases hafter : after with
      | none =>
          rw [hafter] at hbecomes
          rw [Dispatched.eq_of_absent hrest hbecomes.self, hbecomes.self] at hslot'
          cases hslot'
      | some middle =>
          rw [hafter] at hbecomes
          have hsuffix := (Dispatched.suffix hrest hbecomes.self hslot').length_le
          rw [queue_of_executed hexecuted hafter] at hsuffix
          rw [hfirst]
          exact .inl (Nat.lt_succ_of_le hsuffix)

def BlockedAt (id : ClientId) (loop : ReplayLoop) : Prop :=
  ∃ slot, loop.slots.lookup id = some slot ∧ slot.blocked = true

theorem slots_pushBack {cmd : ConnCommand} : (loop.pushBack id cmd slot).slots =
    (loop.setSlot id { slot with queue := slot.queue ++ [cmd] }).slots := by
  rw [pushBack]
  dsimp only
  split_ifs with hone
  · rw [slots_schedule]
  · rfl

/-- A blocked slot stays blocked while commands arrive. -/
theorem keptByPush_blockedAt (id : ClientId) : KeptByPush (BlockedAt id) where
  inputs _ _ _ _ _ _ hloop := hloop
  push loop other cmd slot hloop hslot := by
    obtain ⟨found, hfound, hblocked⟩ := hloop
    by_cases hid : id = other
    · subst hid
      obtain hsome | ⟨hnone, -⟩ := hslot
      · cases hsome.symm.trans hfound
        refine ⟨{ slot with queue := slot.queue ++ [cmd] }, ?_, hblocked⟩
        rw [slots_pushBack, lookup_setSlot]
      · cases hnone.symm.trans hfound
    · refine ⟨found, ?_, hblocked⟩
      rw [slots_pushBack, lookup_setSlot_ne hid, hfound]

theorem blockedAt_tryDispatch (hloop : BlockedAt id loop) :
    BlockedAt id (loop.tryDispatch other now) := by
  obtain ⟨slot, hslot, hblocked⟩ := hloop
  have hdispatched := dispatched_tryDispatch loop other now
  obtain ⟨last, hlast⟩ : ∃ last, loop.tryDispatch other now = last := ⟨_, rfl⟩
  rw [hlast] at hdispatched ⊢
  by_cases hid : id = other
  · subst hid
    cases hdispatched with
    | absent hlookup => cases hlookup.symm.trans hslot
    | blocked hlookup _ => exact ⟨slot, hslot, hblocked⟩
    | drained hlookup _ => exact ⟨slot, hslot, hblocked⟩
    | waits hlookup _ _ =>
        cases hlookup.symm.trans hslot
        exact ⟨lookedAt slot, lookup_setSlot, hblocked⟩
    | turn hlookup hunblocked _ _ =>
        cases hlookup.symm.trans hslot
        cases hblocked.symm.trans hunblocked
  · exact ⟨slot, by rw [(Dispatched.settled hdispatched).other id hid, hslot], hblocked⟩

theorem blockedAt_dispatchReady (hloop : BlockedAt id loop) :
    BlockedAt id (loop.dispatchReady catchup now) := by
  rw [dispatchReady]
  obtain ⟨shift, lastTick, -, hticked⟩ := catchUp_eq catchup now loop
  rw [hticked]
  refine dispatchTimers_invariant (fun loop ts other timers hinv _ _ => ?_) hloop
  have hpopped : BlockedAt id { loop with timers := timers } := hinv
  exact blockedAt_tryDispatch hpopped

/-- Only an event unblocks a slot, and it dispatches that slot before it returns. -/
theorem dispatchedOrTimed_of_handleEvent {event : Event}
    (hevent : loop.handleEvent md5Hex catchup now event = some loop')
    (hslot : loop.slots.lookup id = some slot) (hblocked : slot.blocked = true) {slot' : Slot}
    (hslot' : loop'.slots.lookup id = some slot') (hblocked' : slot'.blocked = false) :
    DispatchedOrTimed loop' id slot slot' := by
  obtain ⟨shift, lastTick, -, hhandled⟩ := handleEvent_spec md5Hex catchup hevent
  cases hhandled with
  | ignored =>
      cases hslot.symm.trans hslot'
      cases hblocked.symm.trans hblocked'
  | @failed served found htoken hfound _ hbecomes =>
      by_cases hid : id = served
      · subst hid
        cases hbecomes.self.symm.trans hslot'
      · rw [hbecomes.other id hid] at hslot'
        cases hslot.symm.trans hslot'
        cases hblocked.symm.trans hblocked'
  | @served served found conn conn₀ htoken hfound hconn hconnected conn' middleSlot hserved _
      hafter =>
      by_cases hid : id = served
      · subst hid
        cases hfound.symm.trans hslot
        obtain ⟨-, hbecomes⟩ | ⟨-, middle, hbecomes, hloop'⟩ := hafter
        · cases hbecomes.self.symm.trans hslot'
        · have hdispatched := dispatched_tryDispatch middle id now
          rw [← hloop'] at hdispatched
          have hdone :=
            Dispatched.dispatchedOrTimed hdispatched hbecomes.self hslot' hblocked'
          rwa [DispatchedOrTimed, hserved.queue] at hdone
      · have hsame : loop'.slots.lookup id = loop.slots.lookup id := by
          obtain ⟨-, hbecomes⟩ | ⟨-, middle, hbecomes, hloop'⟩ := hafter
          · exact hbecomes.other id hid
          · have hsettled := Dispatched.settled (dispatched_tryDispatch middle served now)
            rw [hloop', hsettled.other id hid, hbecomes.other id hid]
        rw [hsame, hslot] at hslot'
        cases hslot'
        cases hblocked.symm.trans hblocked'

theorem dispatchedOrTimed_of_step {call : Call}
    (hstep : step md5Hex catchup loop call = some loop')
    (hslot : loop.slots.lookup id = some slot) (hblocked : slot.blocked = true) {slot' : Slot}
    (hslot' : loop'.slots.lookup id = some slot') (hblocked' : slot'.blocked = false) :
    DispatchedOrTimed loop' id slot slot' := by
  have hloop : BlockedAt id loop := ⟨slot, hslot, hblocked⟩
  -- No other handler unblocks a slot.
  have hstays (hloop' : BlockedAt id loop') : DispatchedOrTimed loop' id slot slot' := by
    obtain ⟨found, hfound, hstill⟩ := hloop'
    cases hfound.symm.trans hslot'
    cases hstill.symm.trans hblocked'
  cases call with
  | pull senderGone now clock =>
      cases hstep
      exact hstays ((keptByPush_blockedAt id).pull hloop)
  | handleEvent now event net =>
      have hnet : ({ loop with net := net } : ReplayLoop).slots.lookup id = some slot := hslot
      exact dispatchedOrTimed_of_handleEvent md5Hex catchup hstep hnet hblocked hslot' hblocked'
  | dispatchReady now net =>
      cases hstep
      have hnet : BlockedAt id { loop with net := net } := hloop
      exact hstays (blockedAt_dispatchReady catchup hnet)
  | finishClients =>
      rw [step] at hstep
      split_ifs at hstep with hfinish
      cases hstep
      exact hstays ((keptByPush_blockedAt id).finishClients hloop)

/-! ## Runs -/

/-- Between two handlers of any run every client with a command and no answer to
wait for has a timer that is not later than the command.  And a handler that
unblocks a client takes commands from its queue, or leaves it such a timer. -/
theorem scheduled_of_reachable {config : ReplayConfig} {rx : List ConnCommand}
    (hreachable : Reachable (step md5Hex catchup) (ReplayLoop.new config rx) loop) :
    Scheduled loop ∧
      ∀ call loop', step md5Hex catchup loop call = some loop' → ∀ id slot slot',
        loop.slots.lookup id = some slot → slot.blocked = true →
          loop'.slots.lookup id = some slot' → slot'.blocked = false →
            DispatchedOrTimed loop' id slot slot' := by
  constructor
  · apply hreachable.invariant
    · intro id slot head queue hslot
      cases hslot
    · intro loop call loop' hloop hstep
      exact scheduled_step md5Hex catchup hloop hstep
  · intro call loop' hstep id slot slot' hslot hblocked hslot' hblocked'
    exact dispatchedOrTimed_of_step md5Hex catchup hstep hslot hblocked hslot' hblocked'

/-- A client that connects and has a sync to send at 10. -/
def connected : List Call :=
  [.pull true 0 [0, 0], .dispatchReady 0 ⟨[], []⟩]

/-- The server answers the startup. -/
def answered (now : ℕ) : Call :=
  .handleEvent now
    ⟨some 7, true, false, .connected, [.data [bReadyForQuery, 0, 0, 0, 5, 0x49]]⟩ ⟨[], []⟩

def syncAtTen : List ConnCommand :=
  [ConnCommand.connect 7 0, ConnCommand.send 7 10 fSync [fSync, 0, 0, 0, 4]]

/-- The answer at 5 leaves the sync and a timer for it. -/
theorem scheduled_of_reachable_answered : ∃ loop loop' slot slot' head,
    run (step (fun _ => "") fun ticks => ticks)
        (ReplayLoop.new ⟨"u", none, "d", "pgr"⟩ syncAtTen) connected = some loop ∧
      step (fun _ => "") (fun ticks => ticks) loop (answered 5) = some loop' ∧
      loop.slots.lookup 7 = some slot ∧ slot.blocked = true ∧
      loop'.slots.lookup 7 = some slot' ∧ slot'.blocked = false ∧
      DispatchedOrTimed loop' 7 slot slot' ∧ slot'.queue = [head] ∧ head.ts = 10 ∧
      HasTimer loop' 7 head := by
  have hvalues : ((run (step (fun _ => "") fun ticks => ticks)
      (ReplayLoop.new ⟨"u", none, "d", "pgr"⟩ syncAtTen) connected).bind fun loop =>
        (step (fun _ => "") (fun ticks => ticks) loop (answered 5)).bind fun loop' =>
          (loop.slots.lookup 7).bind fun slot => (loop'.slots.lookup 7).map fun slot' =>
            (slot.blocked, slot'.blocked, slot'.queue.map ConnCommand.ts)) =
      some (true, false, [10]) := by
    decide +kernel
  obtain ⟨loop, hrun, hvalues⟩ := Option.bind_eq_some_iff.mp hvalues
  obtain ⟨loop', hstep, hvalues⟩ := Option.bind_eq_some_iff.mp hvalues
  obtain ⟨slot, hslot, hvalues⟩ := Option.bind_eq_some_iff.mp hvalues
  obtain ⟨slot', hslot', hvalues⟩ := Option.map_eq_some_iff.mp hvalues
  simp only [Prod.mk.injEq] at hvalues
  obtain ⟨hblocked, hblocked', htimes⟩ := hvalues
  obtain ⟨head, hqueue, hhead⟩ := List.map_eq_singleton_iff.mp htimes
  have hreachable := reachable_of_run hrun
  have hunblocks := (scheduled_of_reachable _ _ hreachable).2 _ _ hstep 7 _ _ hslot hblocked
    hslot' hblocked'
  have htimed := (scheduled_of_reachable _ _ (hreachable.tail trivial hstep)).1 7 _ _ _ hslot'
    hblocked' hqueue
  exact ⟨loop, loop', slot, slot', head, hrun, hstep, hslot, hblocked, hslot', hblocked',
    hunblocks, hqueue, hhead, htimed⟩

end Pgr.Scheduling
