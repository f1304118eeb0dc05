import Pgr.Replay.Dispatch

/-!
# The arithmetic of the clock

The loop adds and subtracts times as 64-bit integers.  Here the sums of
`dispatch_ready`, `try_dispatch`, `next_timeout` and `pull` are made again with a
check, in runs whose clock does not go back, and they all stay in range: the shift
is never ahead of the clock, and no command is queued far ahead of it.
-/

namespace Pgr.Clock

open Pgr.Capture Pgr.Proto Pgr.Manager Pgr.Client Pgr.Loop Pgr.Loop.ReplayLoop Pgr.Transition
  Pgr.Dispatch

/-- A checked addition of two `u64`. -/
def addU64 (left right : ℕ) : Option ℕ :=
  if left + right < 2 ^ 64 then some (left + right) else none

/-- A checked subtraction of two `u64`. -/
def subU64 (left right : ℕ) : Option ℕ :=
  if right ≤ left then some (left - right) else none

/-- A command that is dispatched, with the shift in force. -/
structure Dispatch where
  cmd : ConnCommand
  burst : Bool
  shift : ℕ

/-! ## The checked functions -/

/-- When a command is due: at once in a burst. -/
def dueAt (now : ℕ) (burst : Bool) (ts shift : ℕ) : Option ℕ :=
  if burst then some now else addU64 ts shift

/-- The rounds of `try_dispatch`, with the lag of each command. -/
def dispatchRoundsChecked (id : ClientId) (now : ℕ) :
    (rounds : ℕ) → ReplayLoop → Option (ReplayLoop × List Dispatch)
  | 0, loop => some (loop, [])
  | rounds + 1, loop =>
      match loop.slots.lookup id with
      | none => some (loop, [])
      | some slot =>
          if slot.blocked then some (loop, [])
          else
            match slot.queue with
            | [] => some (loop, [])
            | head :: queue => do
                let loop := loop.rebased slot head
                let slot := { slot with rebase := slot.rebase && slot.burst }
                let due ← dueAt now slot.burst head.ts loop.shift
                if due > now then some ((loop.setSlot id slot).pushTimer (head.ts, id), [])
                else do
                  let _lag ← subU64 now due
                  let (last, dispatches) ← dispatchRoundsChecked id now rounds
                    ((loop.setSlot id { slot with queue := queue }).execute id head)
                  some (last, ⟨head, slot.burst, loop.shift⟩ :: dispatches)

def tryDispatchChecked (id : ClientId) (now : ℕ) (loop : ReplayLoop) :
    Option (ReplayLoop × List Dispatch) :=
  dispatchRoundsChecked id now (loop.queueLength id + 1) loop

def dispatchTimersChecked (now : ℕ) :
    (rounds : ℕ) → ReplayLoop → Option (ReplayLoop × List Dispatch)
  | 0, loop => some (loop, [])
  | rounds + 1, loop =>
      match loop.timers with
      | [] => some (loop, [])
      | (ts, id) :: timers => do
          let due ← addU64 ts loop.shift
          if due > now then if ts = 0 then none else some (loop, [])
          else do
            let (middle, first) ← tryDispatchChecked id now { loop with timers := timers }
            let (last, rest) ← dispatchTimersChecked now rounds middle
            some (last, first ++ rest)

variable (md5Hex : List UInt8 → String) (catchup slowed : ℕ → ℕ)

def dispatchReadyChecked (now : ℕ) (loop : ReplayLoop) : Option (ReplayLoop × List Dispatch) :=
  let loop := loop.catchUp catchup now
  dispatchTimersChecked now loop.timers.length loop

def serveConnChecked (id : ClientId) (now : ℕ) (reads : List ReadAnswer) (slot : Slot)
    (conn : Connection) (loop : ReplayLoop) : Option (ReplayLoop × List Dispatch) := do
  let conn ← readConn md5Hex reads conn
  let flushed := flushConn loop.net.writes conn
  let loop := { loop with net := { loop.net with writes := flushed.2 } }
  let conn := flushed.1
  let slot :=
    if conn.client.rfq then
      { slot with
        conn := some { conn with client := { conn.client with rfq := false } }
        awaiting := false
        rebase := true
        readyAt := now }
    else { slot with conn := some conn }
  let loop := loop.setSlot id slot
  if loop.isDead id then some (loop.removeIfDead id, []) else tryDispatchChecked id now loop

def handleEventChecked (now : ℕ) (event : Event) (loop : ReplayLoop) :
    Option (ReplayLoop × List Dispatch) :=
  match event.token with
  | none => some (loop, [])
  | some id =>
      let loop := loop.catchUp catchup now
      match loop.slots.lookup id with
      | none => some (loop, [])
      | some slot =>
          match slot.conn with
          | none => some (loop, [])
          | some conn =>
              if conn.connected then serveConnChecked md5Hex id now event.reads slot conn loop
              else
                match event.connecting with
                | .waiting => some (loop, [])
                | .failed => some (loop.dropSlot id, [])
                | .connected =>
                    serveConnChecked md5Hex id now event.reads slot
                      { conn with connected := true } loop

/-- A step with the commands it dispatches; `none` also where a sum overflows, a lag
is negative or a timer of a burst is not due. -/
def stepChecked (loop : ReplayLoop) : Call → Option (ReplayLoop × List Dispatch)
  | .pull senderGone now clock => some (loop.pull senderGone now clock, [])
  | .handleEvent now event net =>
      handleEventChecked md5Hex catchup now event { loop with net := net }
  | .dispatchReady now net => dispatchReadyChecked catchup now { loop with net := net }
  | .finishClients =>
      if loop.rxClosed ∧ loop.lookahead = none ∧ ¬loop.ended then some (loop.finishClients, [])
      else none

/-- The wait for the first timer. -/
def timerWait (now shift : ℕ) : List (ℕ × ClientId) → Option (Option ℕ)
  | [] => some none
  | (ts, _) :: _ => do
      let due ← addU64 ts shift
      some (some (slowed (due - now)))

/-- `next_timeout`; what it subtracts, it subtracts with saturation. -/
def nextTimeoutChecked (now : ℕ) (loop : ReplayLoop) : Option (Option ℕ) := do
  let timer ← timerWait slowed now loop.shift loop.timers
  let ahead := loop.lookahead.map fun cmd => cmd.ts - horizonUs - now
  let idle := if loop.rxClosed then none else some idlePollUs
  some (Option.merge min (Option.merge min timer ahead) idle)

/-! ## Times in range -/

/-- What holds between two handlers when the clock has been read as `now`. -/
structure Timely (now : ℕ) (loop : ReplayLoop) : Prop where
  shift : loop.shift ≤ now
  queue : ∀ id slot, loop.slots.lookup id = some slot →
    ∀ cmd ∈ slot.queue, cmd.ts ≤ now + horizonUs
  readyAt : ∀ id slot, loop.slots.lookup id = some slot → slot.readyAt ≤ now
  timers : ∀ timer ∈ loop.timers, timer.1 ≤ now + horizonUs
  lastTs : loop.lastTs ≤ now + horizonUs

theorem Timely.mono {now later : ℕ} {loop : ReplayLoop} (htimely : Timely now loop)
    (hlater : now ≤ later) : Timely later loop where
  shift := htimely.shift.trans hlater
  queue id slot hslot cmd hcmd :=
    (htimely.queue id slot hslot cmd hcmd).trans (Nat.add_le_add_right hlater _)
  readyAt id slot hslot := (htimely.readyAt id slot hslot).trans hlater
  timers timer htimer := (htimely.timers timer htimer).trans (Nat.add_le_add_right hlater _)
  lastTs := htimely.lastTs.trans (Nat.add_le_add_right hlater _)

variable {loop : ReplayLoop} {id : ClientId} {slot : Slot} {now : ℕ}

/-- The sum of a time and the shift, at any later reading of the clock. -/
theorem addU64_eq_some {ts shift : ℕ} (hts : ts ≤ now + horizonUs) (hshift : shift ≤ now)
    (hnow : now < 2 ^ 62) : addU64 ts shift = some (ts + shift) := by
  apply if_pos
  rw [horizonUs] at hts
  omega

theorem subU64_eq_some {left right : ℕ} (hle : right ≤ left) :
    subU64 left right = some (left - right) :=
  if_pos hle

/-- A rebase makes the shift no longer than the clock. -/
theorem Timely.rebased (htimely : Timely now loop) (hslot : loop.slots.lookup id = some slot)
    (head : ConnCommand) : Timely now (loop.rebased slot head) := by
  rw [ReplayLoop.rebased]
  split_ifs with hrebase
  · have hready := htimely.readyAt id slot hslot
    exact { htimely with shift := max_le htimely.shift ((Nat.sub_le _ _).trans hready) }
  · exact htimely

theorem Timely.setSlot (htimely : Timely now loop)
    (hqueue : ∀ cmd ∈ slot.queue, cmd.ts ≤ now + horizonUs) (hready : slot.readyAt ≤ now) :
    Timely now (loop.setSlot id slot) where
  shift := htimely.shift
  queue other found hfound := by
    by_cases hother : other = id
    · subst hother
      cases lookup_setSlot.symm.trans hfound
      exact hqueue
    · rw [lookup_setSlot_ne hother] at hfound
      exact htimely.queue other found hfound
  readyAt other found hfound := by
    by_cases hother : other = id
    · subst hother
      cases lookup_setSlot.symm.trans hfound
      exact hready
    · rw [lookup_setSlot_ne hother] at hfound
      exact htimely.readyAt other found hfound
  timers := htimely.timers
  lastTs := htimely.lastTs

theorem Timely.pushTimer (htimely : Timely now loop) {timer : ℕ × ClientId}
    (htimer : timer.1 ≤ now + horizonUs) : Timely now (loop.pushTimer timer) where
  shift := htimely.shift
  queue := htimely.queue
  readyAt := htimely.readyAt
  timers other hother := by
    obtain hsame | hmem := (List.mem_orderedInsert _).mp hother
    · rw [hsame]
      exact htimer
    · exact htimely.timers other hmem
  lastTs := htimely.lastTs

/-- Only the slot of `id` changes. -/
theorem Timely.becomes {after : Option Slot} {gone : List Connection} {loop' : ReplayLoop}
    (htimely : Timely now loop) (hbecomes : Becomes id after gone loop loop')
    (hafter : ∀ slot, after = some slot →
      (∀ cmd ∈ slot.queue, cmd.ts ≤ now + horizonUs) ∧ slot.readyAt ≤ now) :
    Timely now loop' where
  shift := by
    rw [hbecomes.shift]
    exact htimely.shift
  queue other found hfound := by
    by_cases hother : other = id
    · subst hother
      exact (hafter found (hbecomes.self.symm.trans hfound)).1
    · rw [hbecomes.other other hother] at hfound
      exact htimely.queue other found hfound
  readyAt other found hfound := by
    by_cases hother : other = id
    · subst hother
      exact (hafter found (hbecomes.self.symm.trans hfound)).2
    · rw [hbecomes.other other hother] at hfound
      exact htimely.readyAt other found hfound
  timers := by
    rw [hbecomes.timers]
    exact htimely.timers
  lastTs := by
    rw [hbecomes.lastTs]
    exact htimely.lastTs

theorem Timely.dropped {gone : List Connection} {loop' : ReplayLoop} (htimely : Timely now loop)
    (hbecomes : Becomes id none gone loop loop') : Timely now loop' := by
  apply htimely.becomes hbecomes
  intro slot hnone
  cases hnone

/-- The execution of a command leaves the queue behind it and the time of the answer
as they are. -/
theorem Timely.turn (htimely : Timely now loop) {head : ConnCommand} {queue : List ConnCommand}
    (hslot : loop.slots.lookup id = some slot) (hqueue : slot.queue = head :: queue) :
    Timely now (((loop.rebased slot head).setSlot id
      { lookedAt slot with queue := queue }).execute id head) := by
  obtain ⟨after, gone, hexecuted, hbecomes⟩ := turn_spec loop id slot head queue
  apply (htimely.rebased hslot head).becomes hbecomes
  intro found hfound
  rw [queue_of_executed hexecuted hfound, readyAt_of_executed hexecuted hfound]
  refine ⟨fun cmd hcmd => htimely.queue id slot hslot cmd ?_, htimely.readyAt id slot hslot⟩
  rw [hqueue]
  exact List.mem_cons_of_mem head hcmd

/-- A command that is not part of a burst is not dispatched before its time. -/
def NotEarly (now : ℕ) (dispatches : List Dispatch) : Prop :=
  ∀ dispatch ∈ dispatches, dispatch.burst = false → dispatch.cmd.ts + dispatch.shift ≤ now

theorem notEarly_nil (now : ℕ) : NotEarly now [] :=
  fun _ hdispatch => absurd hdispatch List.not_mem_nil

section Head

variable {head : ConnCommand} {queue : List ConnCommand} (now rounds : ℕ)
  (hslot : loop.slots.lookup id = some slot) (hblocked : slot.blocked = false)
  (hqueue : slot.queue = head :: queue)
include hslot hblocked hqueue

theorem dispatchRounds_head :
    dispatchRounds id now (rounds + 1) loop =
      if (if slot.burst then now else head.ts + (loop.rebased slot head).shift) > now then
        ((loop.rebased slot head).setSlot id (lookedAt slot)).pushTimer (head.ts, id)
      else dispatchRounds id now rounds
        (((loop.rebased slot head).setSlot id { lookedAt slot with queue := queue }).execute
          id head) := by
  simp only [dispatchRounds, hslot, hblocked, hqueue, lookedAt]
  rfl

theorem dispatchRoundsChecked_head :
    dispatchRoundsChecked id now (rounds + 1) loop =
      (dueAt now slot.burst head.ts (loop.rebased slot head).shift).bind fun due =>
        if due > now then
          some (((loop.rebased slot head).setSlot id (lookedAt slot)).pushTimer (head.ts, id), [])
        else (subU64 now due).bind fun _ =>
          (dispatchRoundsChecked id now rounds (((loop.rebased slot head).setSlot id
            { lookedAt slot with queue := queue }).execute id head)).bind fun next =>
              some (next.1, ⟨head, slot.burst, (loop.rebased slot head).shift⟩ :: next.2) := by
  simp only [dispatchRoundsChecked, hslot, hblocked, hqueue, lookedAt]
  rfl

end Head

theorem dispatchRoundsChecked_spec (hnow : now < 2 ^ 62) {rounds : ℕ}
    (htimely : Timely now loop) :
    ∃ dispatches, dispatchRoundsChecked id now rounds loop =
        some (dispatchRounds id now rounds loop, dispatches) ∧
      NotEarly now dispatches ∧ Timely now (dispatchRounds id now rounds loop) := by
  have hidle := notEarly_nil now
  induction rounds generalizing loop with
  | zero => exact ⟨[], rfl, hidle, htimely⟩
  | succ rounds ih =>
      cases hslot : loop.slots.lookup id with
      | none =>
          simp only [dispatchRoundsChecked, dispatchRounds, hslot]
          exact ⟨[], rfl, hidle, htimely⟩
      | some slot =>
          by_cases hblocked : slot.blocked = true
          · simp only [dispatchRoundsChecked, dispatchRounds, hslot, hblocked, if_true]
            exact ⟨[], rfl, hidle, htimely⟩
          · have hunblocked := eq_false_of_ne_true hblocked
            cases hqueue : slot.queue with
            | nil =>
                simp only [dispatchRoundsChecked, dispatchRounds, hslot, hblocked, hqueue]
                exact ⟨[], rfl, hidle, htimely⟩
            | cons head queue =>
                have hrebased := htimely.rebased hslot head
                have hhead : head.ts ≤ now + horizonUs :=
                  htimely.queue id slot hslot head (by rw [hqueue]; exact List.mem_cons_self)
                have hsum := addU64_eq_some hhead hrebased.shift hnow
                have hlooked : Timely now ((loop.rebased slot head).setSlot id (lookedAt slot)) :=
                  hrebased.setSlot (htimely.queue id slot hslot) (htimely.readyAt id slot hslot)
                obtain ⟨dispatches, hchecked, hearly, hlast⟩ := ih (htimely.turn hslot hqueue)
                rw [dispatchRounds_head now rounds hslot hunblocked hqueue,
                  dispatchRoundsChecked_head now rounds hslot hunblocked hqueue, hchecked]
                cases hburst : slot.burst with
                | true =>
                    refine ⟨⟨head, true, (loop.rebased slot head).shift⟩ :: dispatches, ?_, ?_, ?_⟩
                    · simp [dueAt, subU64]
                    · exact List.forall_mem_cons.mpr ⟨by rintro ⟨⟩, hearly⟩
                    · simpa using hlast
                | false =>
                    rw [dueAt, if_neg (by decide), hsum]
                    by_cases hdue : head.ts + (loop.rebased slot head).shift > now
                    · refine ⟨[], ?_, hidle, ?_⟩
                      · simp [hdue]
                      · simpa [hdue] using hlooked.pushTimer hhead
                    · have hle := not_lt.mp hdue
                      refine ⟨⟨head, false, (loop.rebased slot head).shift⟩ :: dispatches,
                        ?_, ?_, ?_⟩
                      · simp [hdue, subU64_eq_some hle]
                      · exact List.forall_mem_cons.mpr ⟨fun _ => hle, hearly⟩
                      · simpa [hdue] using hlast

theorem tryDispatchChecked_spec (hnow : now < 2 ^ 62) (id : ClientId) (htimely : Timely now loop) :
    ∃ dispatches, tryDispatchChecked id now loop =
        some (loop.tryDispatch id now, dispatches) ∧
      NotEarly now dispatches ∧ Timely now (loop.tryDispatch id now) :=
  dispatchRoundsChecked_spec hnow htimely

theorem dispatchTimersChecked_spec (hnow : now < 2 ^ 62) {rounds : ℕ}
    (htimely : Timely now loop) :
    ∃ dispatches, dispatchTimersChecked now rounds loop =
        some (dispatchTimers now rounds loop, dispatches) ∧
      NotEarly now dispatches ∧ Timely now (dispatchTimers now rounds loop) := by
  have hidle := notEarly_nil now
  induction rounds generalizing loop with
  | zero => exact ⟨[], rfl, hidle, htimely⟩
  | succ rounds ih =>
      rw [dispatchTimersChecked, dispatchTimers]
      cases htimers : loop.timers with
      | nil => exact ⟨[], rfl, hidle, htimely⟩
      | cons timer timers =>
          obtain ⟨ts, id⟩ := timer
          have hts : ts ≤ now + horizonUs :=
            htimely.timers (ts, id) (by rw [htimers]; exact List.mem_cons_self)
          have hpopped : Timely now { loop with timers := timers } :=
            { htimely with
              timers := fun other hother => htimely.timers other (by
                rw [htimers]
                exact List.mem_cons_of_mem _ hother) }
          obtain ⟨first, hfirst, hearly, hmiddle⟩ := tryDispatchChecked_spec hnow id hpopped
          obtain ⟨rest, hrest, hlater, hlast⟩ := ih hmiddle
          simp only [addU64_eq_some hts htimely.shift hnow, Option.bind_eq_bind, Option.bind_some]
          split_ifs with hdue hzero
          · rw [hzero, Nat.zero_add] at hdue
            exact absurd htimely.shift (not_le.mpr hdue)
          · exact ⟨[], rfl, hidle, htimely⟩
          · refine ⟨first ++ rest, ?_, ?_, hlast⟩
            · rw [hfirst, Option.bind_some, hrest, Option.bind_some]
            · exact fun dispatch hdispatch => (List.mem_append.mp hdispatch).elim
                (hearly dispatch) (hlater dispatch)

theorem Timely.catchUp (htimely : Timely now loop) (later : ℕ) :
    Timely now (loop.catchUp catchup later) := by
  obtain ⟨shift, lastTick, hshorter, hticked⟩ := catchUp_eq catchup later loop
  rw [hticked]
  exact { htimely with shift := hshorter.trans htimely.shift }

theorem nextTimeoutChecked_eq (hnow : now < 2 ^ 62) (htimely : Timely now loop) :
    nextTimeoutChecked slowed now loop = some (loop.nextTimeout slowed now) := by
  rw [nextTimeoutChecked, nextTimeout]
  cases htimers : loop.timers with
  | nil => rfl
  | cons timer timers =>
      have hts : timer.1 ≤ now + horizonUs :=
        htimely.timers timer (by rw [htimers]; exact List.mem_cons_self)
      rw [timerWait, addU64_eq_some hts htimely.shift hnow]
      rfl

/-! ## Taking commands -/

theorem Timely.schedule (htimely : Timely now loop) (id : ClientId) :
    Timely now (loop.schedule id) := by
  rw [ReplayLoop.schedule]
  cases hslot : loop.slots.lookup id with
  | none => exact htimely
  | some slot =>
      by_cases hblocked : slot.blocked = true
      · simp only [hblocked, if_true]
        exact htimely
      · simp only [hblocked]
        cases hqueue : slot.queue with
        | nil => exact htimely
        | cons head queue =>
            have hhead : head.ts ≤ now + horizonUs :=
              htimely.queue id slot hslot head (by rw [hqueue]; exact List.mem_cons_self)
            apply htimely.pushTimer
            dsimp only
            split_ifs with hburst
            · exact Nat.zero_le _
            · exact hhead

theorem Timely.pushBack (htimely : Timely now loop) {cmd : ConnCommand}
    (hcmd : cmd.ts ≤ now + horizonUs)
    (hslot : loop.slots.lookup id = some slot ∨ slot = Slot.new) :
    Timely now (loop.pushBack id cmd slot) := by
  have hqueue : ∀ other ∈ slot.queue, other.ts ≤ now + horizonUs := by
    obtain hsome | hnew := hslot
    · exact htimely.queue id slot hsome
    · rw [hnew]
      exact fun other hother => absurd hother List.not_mem_nil
  have hready : slot.readyAt ≤ now := by
    obtain hsome | hnew := hslot
    · exact htimely.readyAt id slot hsome
    · rw [hnew]
      exact Nat.zero_le _
  have hpushed : Timely now (loop.setSlot id { slot with queue := slot.queue ++ [cmd] }) := by
    refine htimely.setSlot (fun other hother => ?_) hready
    obtain hold | hnew := List.mem_append.mp hother
    · exact hqueue other hold
    · rw [List.mem_singleton.mp hnew]
      exact hcmd
  rw [ReplayLoop.pushBack]
  dsimp only
  split_ifs with hone
  · exact hpushed.schedule id
  · exact hpushed

theorem Timely.enqueue (htimely : Timely now loop) {cmd : ConnCommand}
    (hcmd : cmd.ts ≤ now + horizonUs) : Timely now (loop.enqueue cmd) := by
  rw [ReplayLoop.enqueue]
  cases hslot : loop.slots.lookup cmd.id with
  | some slot => exact htimely.pushBack hcmd (.inl hslot)
  | none =>
      dsimp only
      split_ifs with hkind
      · exact htimely.pushBack hcmd (.inr rfl)
      · exact htimely

/-- The readings of a clock that does not go back. -/
def Readings : (last : ℕ) → List ℕ → Prop
  | _, [] => True
  | last, now :: later => last ≤ now ∧ now < 2 ^ 62 ∧ Readings now later

instance decidableReadings : (last : ℕ) → (clock : List ℕ) → Decidable (Readings last clock)
  | _, [] => inferInstanceAs (Decidable True)
  | last, now :: later =>
      haveI := decidableReadings now later
      inferInstanceAs (Decidable (last ≤ now ∧ now < 2 ^ 62 ∧ Readings now later))

/-- The last of some readings. -/
def latest (last : ℕ) (readings : List ℕ) : ℕ :=
  (last :: readings).getLast (List.cons_ne_nil _ _)

theorem latest_cons (last now : ℕ) (later : List ℕ) :
    latest last (now :: later) = latest now later :=
  List.getLast_cons (List.cons_ne_nil _ _)

theorem le_latest {last : ℕ} {readings : List ℕ} (hreadings : Readings last readings) :
    last ≤ latest last readings := by
  induction readings generalizing last with
  | nil => exact le_rfl
  | cons now later ih =>
      rw [latest_cons]
      exact hreadings.1.trans (ih hreadings.2.2)

theorem Timely.receive {senderGone : Bool} {clock : List ℕ} {last : ℕ}
    (htimely : Timely last loop) (hclock : Readings last clock) :
    Timely (latest last clock) (loop.receive senderGone clock) := by
  induction clock generalizing loop last with
  | nil =>
      rw [ReplayLoop.receive]
      split_ifs with hgone
      · exact { htimely with }
      · exact htimely
  | cons now later ih =>
      obtain ⟨hnow, hbound, hlater⟩ := hclock
      rw [latest_cons, ReplayLoop.receive]
      have hmono := htimely.mono hnow
      have hlast := hmono.mono (le_latest hlater)
      cases hrx : loop.rx with
      | nil =>
          dsimp only
          split_ifs with hgone
          · exact { hlast with }
          · exact hlast
      | cons cmd rx =>
          dsimp only
          split_ifs with hearly
          · exact { hlast with }
          · have hcmd := not_lt.mp hearly
            have hset : Timely now { loop with rx := rx, lastTs := cmd.ts } :=
              { hmono with lastTs := hcmd }
            exact ih (hset.enqueue hcmd) hlater

theorem Timely.pull {senderGone : Bool} {clock : List ℕ} {last : ℕ}
    (htimely : Timely last loop) (hclock : Readings last (now :: clock)) :
    Timely (latest last (now :: clock)) (loop.pull senderGone now clock) := by
  obtain ⟨hnow, hbound, hlater⟩ := hclock
  have hmono := htimely.mono hnow
  rw [ReplayLoop.pull]
  cases hlookahead : loop.lookahead with
  | none => exact htimely.receive ⟨hnow, hbound, hlater⟩
  | some cmd =>
      rw [latest_cons]
      dsimp only
      split_ifs with hearly
      · exact hmono.mono (le_latest hlater)
      · have hcmd := not_lt.mp hearly
        have hset : Timely now { loop with lookahead := none, lastTs := cmd.ts } :=
          { hmono with lastTs := hcmd }
        exact (hset.enqueue hcmd).receive hlater

theorem Timely.finishClients (htimely : Timely now loop) : Timely now loop.finishClients := by
  have hfold : ∀ ids : List ClientId, ∀ loop, Timely now loop →
      Timely now (ids.foldl finishClient loop) := by
    intro ids
    induction ids with
    | nil => exact fun _ hloop => hloop
    | cons id ids ih =>
        intro loop hloop
        apply ih
        rw [finishClient]
        cases hslot : loop.slots.lookup id with
        | none => exact hloop
        | some slot => exact hloop.pushBack hloop.lastTs (.inl hslot)
  exact hfold _ _ { htimely with }

/-! ## Handlers -/

variable {md5Hex catchup}

theorem Timely.removeIfDead (htimely : Timely now loop) (id : ClientId) :
    Timely now (loop.removeIfDead id) := by
  rw [ReplayLoop.removeIfDead]
  split_ifs with hdead
  · cases hslot : loop.slots.lookup id with
    | none =>
        rw [dropSlot, hslot]
        exact htimely
    | some slot => exact htimely.dropped (becomes_dropSlot hslot)
  · exact htimely

theorem serveConnChecked_spec (hnow : now < 2 ^ 62) (htimely : Timely now loop)
    (hslot : loop.slots.lookup id = some slot) {reads : List ReadAnswer} {conn : Connection}
    {loop' : ReplayLoop} (hserve : loop.serveConn md5Hex id now reads slot conn = some loop') :
    ∃ dispatches, serveConnChecked md5Hex id now reads slot conn loop =
        some (loop', dispatches) ∧
      NotEarly now dispatches ∧ Timely now loop' := by
  rw [serveConn] at hserve
  rw [serveConnChecked]
  obtain ⟨middle, hread, hserve⟩ := Option.bind_eq_some_iff.mp hserve
  rw [hread, Option.bind_eq_bind, Option.bind_some]
  obtain ⟨flushed, hflushed⟩ : ∃ flushed, flushConn loop.net.writes middle = flushed := ⟨_, rfl⟩
  simp only [hflushed] at hserve ⊢
  obtain ⟨slot', hslot'⟩ : ∃ slot', (if flushed.1.client.rfq then
      { slot with
        conn := some { flushed.1 with client := { flushed.1.client with rfq := false } }
        awaiting := false
        rebase := true
        readyAt := now }
    else { slot with conn := some flushed.1 }) = slot' := ⟨_, rfl⟩
  have hkept : slot'.queue = slot.queue ∧ slot'.readyAt ≤ now := by
    rw [← hslot']
    split_ifs with hrfq
    · exact ⟨rfl, le_rfl⟩
    · exact ⟨rfl, htimely.readyAt id slot hslot⟩
  simp only [hslot'] at hserve ⊢
  have hset : Timely now
      ({ loop with net := { loop.net with writes := flushed.2 } }.setSlot id slot') := by
    have hflushedLoop : Timely now { loop with net := { loop.net with writes := flushed.2 } } :=
      { htimely with }
    apply hflushedLoop.setSlot
    · rw [hkept.1]
      exact htimely.queue id slot hslot
    · exact hkept.2
  split_ifs at hserve ⊢ with hdead
  · cases hserve
    exact ⟨[], rfl, notEarly_nil now, hset.removeIfDead id⟩
  · cases hserve
    exact tryDispatchChecked_spec hnow id hset

theorem handleEventChecked_spec (hnow : now < 2 ^ 62) (htimely : Timely now loop) {event : Event}
    {loop' : ReplayLoop} (hevent : loop.handleEvent md5Hex catchup now event = some loop') :
    ∃ dispatches, handleEventChecked md5Hex catchup now event loop =
        some (loop', dispatches) ∧
      NotEarly now dispatches ∧ Timely now loop' := by
  have hidle := notEarly_nil now
  have hticked := htimely.catchUp catchup now
  rw [ReplayLoop.handleEvent] at hevent
  rw [handleEventChecked]
  cases htoken : event.token with
  | none =>
      simp only [htoken] at hevent ⊢
      cases hevent
      exact ⟨[], rfl, hidle, htimely⟩
  | some id =>
      simp only [htoken] at hevent ⊢
      cases hslot : (loop.catchUp catchup now).slots.lookup id with
      | none =>
          simp only [hslot] at hevent ⊢
          cases hevent
          exact ⟨[], rfl, hidle, hticked⟩
      | some slot =>
          simp only [hslot] at hevent ⊢
          cases hconn : slot.conn with
          | none =>
              simp only [hconn] at hevent ⊢
              cases hevent
              exact ⟨[], rfl, hidle, hticked⟩
          | some conn =>
              simp only [hconn] at hevent ⊢
              by_cases hconnected : conn.connected = true
              · rw [if_pos hconnected] at hevent ⊢
                exact serveConnChecked_spec hnow hticked hslot hevent
              · rw [if_neg hconnected] at hevent ⊢
                cases hconnecting : event.connecting with
                | waiting =>
                    simp only [hconnecting] at hevent ⊢
                    cases hevent
                    exact ⟨[], rfl, hidle, hticked⟩
                | failed =>
                    simp only [hconnecting] at hevent ⊢
                    cases hevent
                    exact ⟨[], rfl, hidle, hticked.dropped (becomes_dropSlot hslot)⟩
                | connected =>
                    simp only [hconnecting] at hevent ⊢
                    exact serveConnChecked_spec hnow hticked hslot hevent

theorem dispatchReadyChecked_spec (hnow : now < 2 ^ 62) (htimely : Timely now loop) :
    ∃ dispatches, dispatchReadyChecked catchup now loop =
        some (loop.dispatchReady catchup now, dispatches) ∧
      NotEarly now dispatches ∧ Timely now (loop.dispatchReady catchup now) :=
  dispatchTimersChecked_spec hnow (htimely.catchUp catchup now)

/-! ## Runs -/

/-- The clock readings of a call. -/
def readings : Call → List ℕ
  | .pull _ now clock => now :: clock
  | .handleEvent now _ _ | .dispatchReady now _ => [now]
  | .finishClients => []

variable (md5Hex catchup)

/-- A step of the loop that also keeps the last reading of the clock: the clock does
not go back, and it stays below 2^62. -/
def timedStep (s : ReplayLoop × ℕ) (call : Call) : Option (ReplayLoop × ℕ) :=
  if Readings s.2 (readings call) then
    (step md5Hex catchup s.1 call).map fun loop => (loop, latest s.2 (readings call))
  else none

variable {md5Hex catchup}

/-- A step from a state in range does not leave the range, and its checked form does
the same. -/
theorem Timely.step {s s' : ReplayLoop × ℕ} {call : Call} (htimely : Timely s.2 s.1)
    (hstep : timedStep md5Hex catchup s call = some s') :
    ∃ dispatches, stepChecked md5Hex catchup s.1 call = some (s'.1, dispatches) ∧
      NotEarly s'.2 dispatches ∧ Timely s'.2 s'.1 := by
  obtain ⟨loop, last⟩ := s
  rw [timedStep] at hstep
  split_ifs at hstep with hreadings
  obtain ⟨loop', hloop', hs'⟩ := Option.map_eq_some_iff.mp hstep
  rw [← hs']
  cases call with
  | pull senderGone now clock =>
      cases hloop'
      exact ⟨[], rfl, notEarly_nil _, htimely.pull hreadings⟩
  | handleEvent now event net =>
      have hnet : Timely now { loop with net := net } := { htimely.mono hreadings.1 with }
      exact handleEventChecked_spec hreadings.2.1 hnet hloop'
  | dispatchReady now net =>
      cases hloop'
      have hnet : Timely now { loop with net := net } := { htimely.mono hreadings.1 with }
      exact dispatchReadyChecked_spec hreadings.2.1 hnet
  | finishClients =>
      rw [ReplayLoop.step] at hloop'
      split_ifs at hloop' with hended
      cases hloop'
      refine ⟨[], ?_, notEarly_nil _, htimely.finishClients⟩
      rw [stepChecked, if_pos hended]

theorem timely_new (config : ReplayConfig) (rx : List ConnCommand) :
    Timely 0 (ReplayLoop.new config rx) where
  shift := le_rfl
  queue id slot hslot := by
    cases hslot
  readyAt id slot hslot := by
    cases hslot
  timers timer htimer := absurd htimer List.not_mem_nil
  lastTs := Nat.zero_le _

/-- In every run whose clock does not go back, the shift is not ahead of the clock and
no queued command is further ahead of it than the horizon.  So no sum of times
overflows, no lag is negative, a timer of a burst is due, and no other command is
dispatched before its time. -/
theorem clock_inRange {config : ReplayConfig} {rx : List ConnCommand} {s : ReplayLoop × ℕ}
    (hreachable : Reachable (timedStep md5Hex catchup) (ReplayLoop.new config rx, 0) s) :
    s.1.shift ≤ s.2 ∧
      (∀ id slot, s.1.slots.lookup id = some slot →
        ∀ cmd ∈ slot.queue, cmd.ts ≤ s.2 + horizonUs) ∧
      (∀ now, s.2 ≤ now → now < 2 ^ 62 →
        nextTimeoutChecked slowed now s.1 = some (s.1.nextTimeout slowed now) ∧
          ∀ timer ∈ s.1.timers, timer.1 = 0 → timer.1 + s.1.shift ≤ now) ∧
      ∀ call s', timedStep md5Hex catchup s call = some s' →
        ∃ dispatches, stepChecked md5Hex catchup s.1 call = some (s'.1, dispatches) ∧
          NotEarly s'.2 dispatches := by
  have htimely : Timely s.2 s.1 := by
    apply hreachable.invariant (timely_new config rx)
    intro s call s' hs hstep
    obtain ⟨-, -, -, hs'⟩ := hs.step hstep
    exact hs'
  refine ⟨htimely.shift, htimely.queue, fun now hlater hnow => ⟨?_, ?_⟩, ?_⟩
  · exact nextTimeoutChecked_eq slowed hnow (htimely.mono hlater)
  · intro timer htimer hzero
    rw [hzero, Nat.zero_add]
    exact htimely.shift.trans hlater
  · intro call s' hstep
    obtain ⟨dispatches, hchecked, hearly, -⟩ := htimely.step hstep
    exact ⟨dispatches, hchecked, hearly⟩

/-- A client that connects and has two parses and a sync to send behind it. -/
def parsesAndSync : List ConnCommand :=
  [ConnCommand.connect 7 0, ConnCommand.send 7 10 fParse [fParse, 0, 0, 0, 4],
    ConnCommand.send 7 20 fParse [fParse, 0, 0, 0, 4],
    ConnCommand.send 7 30 fSync [fSync, 0, 0, 0, 4]]

/-- The parses are queued and the connection is opened. -/
def connecting : List Call :=
  [.pull false 0 [0, 0], .dispatchReady 0 ⟨[], []⟩]

/-- The server answers the startup after the time of the first parse. -/
def lateAnswer : Call :=
  .handleEvent 15
    ⟨some 7, true, false, .connected, [.data [bReadyForQuery, 0, 0, 0, 5, 0x49]]⟩ ⟨[], []⟩

/-- The answer at 15 raises the shift to 5: the first parse is sent at its shifted time
and the second in the burst behind it.  The sync that is then pulled has a timer at
once. -/
theorem clock_inRange_lateAnswer : ∃ loop answered last dispatches,
    run (timedStep (fun _ => "") fun ticks => ticks)
        (ReplayLoop.new ⟨"u", none, "d", "pgr"⟩ parsesAndSync, 0) connecting = some (loop, 0) ∧
      timedStep (fun _ => "") (fun ticks => ticks) (loop, 0) lateAnswer = some (answered, 15) ∧
      stepChecked (fun _ => "") (fun ticks => ticks) loop lateAnswer =
        some (answered, dispatches) ∧
      (dispatches.map fun dispatch => (dispatch.cmd.ts, dispatch.burst, dispatch.shift)) =
        [(10, false, 5), (20, true, 5)] ∧
      NotEarly 15 dispatches ∧
      run (timedStep (fun _ => "") fun ticks => ticks)
          (ReplayLoop.new ⟨"u", none, "d", "pgr"⟩ parsesAndSync, 0)
          (connecting ++ [lateAnswer, .pull false 16 []]) = some (last, 16) ∧
      last.shift = 5 ∧ last.timers = [(0, 7)] ∧
      nextTimeoutChecked (fun ticks => ticks) 16 last =
        some (last.nextTimeout (fun ticks => ticks) 16) ∧
      ∀ timer ∈ last.timers, timer.1 = 0 → timer.1 + last.shift ≤ 16 := by
  have hanswer : ((run (timedStep (fun _ => "") fun ticks => ticks)
      (ReplayLoop.new ⟨"u", none, "d", "pgr"⟩ parsesAndSync, 0) connecting).bind fun s =>
        (timedStep (fun _ => "") (fun ticks => ticks) s lateAnswer).bind fun s' =>
          (stepChecked (fun _ => "") (fun ticks => ticks) s.1 lateAnswer).map fun checked =>
            (s.2, s'.2, checked.2.map fun dispatch =>
              (dispatch.cmd.ts, dispatch.burst, dispatch.shift))) =
      some (0, 15, [(10, false, 5), (20, true, 5)]) := by
    decide +kernel
  have hpull : ((run (timedStep (fun _ => "") fun ticks => ticks)
      (ReplayLoop.new ⟨"u", none, "d", "pgr"⟩ parsesAndSync, 0)
      (connecting ++ [lateAnswer, .pull false 16 []])).map fun s =>
        (s.2, s.1.shift, s.1.timers)) = some (16, 5, [(0, 7)]) := by
    decide +kernel
  obtain ⟨⟨loop, now⟩, hrun, hanswer⟩ := Option.bind_eq_some_iff.mp hanswer
  obtain ⟨⟨answered, now'⟩, hanswered, hanswer⟩ := Option.bind_eq_some_iff.mp hanswer
  obtain ⟨⟨loop', dispatches⟩, hchecked, hanswer⟩ := Option.map_eq_some_iff.mp hanswer
  obtain ⟨⟨last, now''⟩, hlast, hpull⟩ := Option.map_eq_some_iff.mp hpull
  simp only [Prod.mk.injEq] at hanswer hpull
  obtain ⟨rfl, rfl, hdispatches⟩ := hanswer
  obtain ⟨rfl, hshift, htimers⟩ := hpull
  obtain ⟨dispatches', hchecked', hearly⟩ :=
    (clock_inRange (fun ticks => ticks) (reachable_of_run hrun)).2.2.2 _ _ hanswered
  cases hchecked.symm.trans hchecked'
  obtain ⟨-, -, hrange, -⟩ := clock_inRange (fun ticks => ticks) (reachable_of_run hlast)
  obtain ⟨htimeout, hdue⟩ := hrange 16 le_rfl (by decide)
  exact ⟨loop, answered, last, dispatches, hrun, hanswered, hchecked, hdispatches, hearly, hlast,
    hshift, htimers, htimeout, hdue⟩

end Pgr.Clock
