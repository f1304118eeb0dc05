import Pgr.Replay.HandoffRefines

/-!
# When the loop sleeps

The reading thread does not ring the waker for every command, and `poll` has no limit once
the channel is closed and no timer is set.  As long as the waker works, a loop that sleeps
with nothing ahead of it leaves no more in the channel than has been pushed since the last
ring, so the reading thread never waits for room on a loop that sleeps.  A sleep without a
limit leaves no command that could be dispatched.

The end of the capture is seen by `pull`, and acted on behind the events only.  If the first
`pull` of a round is the one that finds the channel closed, and no timer is set, the sleep
in between has no limit and nobody ends it.
-/

namespace Pgr.Wakeups

open Pgr.Capture Pgr.Manager Pgr.Client Pgr.Loop Pgr.Loop.ReplayLoop Pgr.Transition Pgr.Handoff
open Pgr.HandoffRefines Pgr.Scheduling Pgr.Fidelity

variable {md5Hex : List UInt8 → String} {catchup scaled slowed : ℕ → ℕ}
  {config : ReplayConfig} {base : UInt64} {messages : List CaptureMessage} {s s' : State}

/-! ## The waker -/

def isWaking (manager : Manager) : Bool :=
  match manager.pc with
  | .waking _ => true
  | _ => false

/-- `wake` has set `unwoken` to zero and nothing has been pushed since. -/
def isBehindWake (manager : Manager) : Bool :=
  match manager.pc with
  | .reading | .pushing _ => false
  | .waking _ | .sending .. | .dropping | .done => true

/-- A loop that sleeps on a silent waker with nothing ahead of it. -/
def Asleep (s : State) : Prop :=
  s.pc = .polling ∧ s.bell = false ∧ s.loop.lookahead = none

/-- What such a loop has not taken has been pushed since the last ring. -/
structure Rung (s : State) : Prop where
  below : s.manager.unwoken < wakeBatch
  behind : isBehindWake s.manager = true → s.manager.unwoken = 0
  quiet : s.manager.ok = true → isWaking s.manager = false → Asleep s →
    s.loop.rx.length ≤ s.manager.unwoken

theorem unwoken_wake (behind : Behind) (manager : Manager) :
    (manager.wake behind).unwoken = 0 := by
  rw [Manager.wake]
  split_ifs with hzero
  · exact hzero
  · rfl

theorem isWaking_wake (behind : Behind) (manager : Manager)
    (hwaking : isWaking (manager.wake behind) = false) : manager.unwoken = 0 := by
  rw [Manager.wake] at hwaking
  split_ifs at hwaking with hzero
  · exact hzero
  · cases hwaking

/-- A call of `wake` keeps the invariant. -/
theorem Rung.wake (hrung : Rung s) (behind : Behind) (hwaking : isWaking s.manager = false) :
    Rung { s with manager := s.manager.wake behind } where
  below := by
    change (s.manager.wake behind).unwoken < wakeBatch
    rw [unwoken_wake]
    decide
  behind _ := unwoken_wake behind s.manager
  quiet hok hawake hasleep := by
    have hempty : s.manager.unwoken = 0 := isWaking_wake behind s.manager hawake
    rw [(wake_spec behind s.manager).2.2.2] at hok
    change s.loop.rx.length ≤ (s.manager.wake behind).unwoken
    rw [unwoken_wake, ← hempty]
    exact hrung.quiet hok hwaking hasleep

/-- A step of the reading thread to its next command or event. -/
theorem rung_goOn {after : Manager} (cmds : List ConnCommand)
    (hpc : after.pc = goOn cmds) (hbelow : after.unwoken < wakeBatch)
    (hquiet : after.ok = true → Asleep s → s.loop.rx.length ≤ after.unwoken) :
    Rung { s with manager := after } where
  below := hbelow
  behind hbehind := by
    cases cmds <;> simp [isBehindWake, hpc, goOn] at hbehind
  quiet hok _ hasleep := hquiet hok hasleep

/-- A step of the loop. -/
theorem Rung.turn (hrung : Rung s) (loop : ReplayLoop) (pc : LoopPc) (bell : Bool)
    (hempty : pc = .polling → loop.lookahead = none → loop.rx = []) :
    Rung { s with loop := loop, pc := pc, bell := bell } where
  below := hrung.below
  behind := hrung.behind
  quiet _ _ := by
    rintro ⟨hpc, -, hlookahead⟩
    change loop.rx.length ≤ _
    rw [hempty hpc hlookahead]
    exact Nat.zero_le _

/-- `pull` ends with the channel empty, or with a command ahead. -/
theorem rx_of_pullRound {senderGone : Bool} {now : ℕ} {loop : ReplayLoop}
    (hends : (pullRound senderGone now loop).2 = false)
    (hlookahead : (pullRound senderGone now loop).1.lookahead = none) :
    (pullRound senderGone now loop).1.rx = [] := by
  rw [pullRound] at hends hlookahead ⊢
  cases hahead : loop.lookahead with
  | some cmd =>
      simp only [hahead] at hends hlookahead
      split_ifs at hends with hearly
      rw [if_pos hearly, hahead] at hlookahead
      cases hlookahead
  | none =>
      simp only [hahead] at hends hlookahead ⊢
      cases hrx : loop.rx with
      | nil =>
          dsimp only
          split_ifs <;> first | rfl | exact hrx
      | cons cmd rx =>
          simp only [hrx] at hends hlookahead
          split_ifs at hends with hearly
          rw [if_pos hearly] at hlookahead
          cases hlookahead

theorem rung_step {label : Label} (hrung : Rung s)
    (hstep : Stepped scaled md5Hex catchup s label s') : Rung s' := by
  cases hstep with
  | read hpc =>
      have hwaking : isWaking s.manager = false := by simp [isWaking, hpc]
      rw [Manager.read]
      split_ifs with hok
      · cases s.manager.messages with
        | nil => exact hrung.wake .reader hwaking
        | cons msg messages =>
            exact rung_goOn _ rfl hrung.below fun hgood hasleep =>
              hrung.quiet hgood hwaking hasleep
      · exact hrung.wake .reader hwaking
  | refused hlabel hpc hgone => exact rung_goOn _ rfl hrung.below (by rintro ⟨⟩)
  | @pushed cmd cmds hpc hopen hroom =>
      have hmore (hok : s.manager.ok = true) (hasleep : Asleep s) :
          (s.put cmd).loop.rx.length ≤ s.manager.unwoken + 1 := by
        change (s.loop.rx ++ [cmd]).length ≤ _
        rw [List.length_append, List.length_singleton]
        exact Nat.succ_le_succ (hrung.quiet hok (by simp [isWaking, hpc]) hasleep)
      simp only [Manager.count]
      split_ifs with hbatch
      · -- The batch is full, so the waker is called.
        refine ⟨?_, fun _ => unwoken_wake _ _, fun _ hawake => ?_⟩
        · change Manager.unwoken (Manager.wake _ _) < wakeBatch
          rw [unwoken_wake]
          decide
        · have hzero := isWaking_wake (.batch cmds)
            { s.manager with unwoken := s.manager.unwoken + 1 } hawake
          exact absurd hzero (Nat.succ_ne_zero s.manager.unwoken)
      · exact rung_goOn cmds rfl (not_le.mp hbatch) hmore
  | full hpc hopen hfull => exact hrung.wake _ (by simp [isWaking, hpc])
  | rung works hpc =>
      have hzero : s.manager.unwoken = 0 := hrung.behind (by simp [isBehindWake, hpc])
      refine ⟨hrung.below, fun _ => hzero, fun hok _ hasleep => ?_⟩
      -- A waker that works has been heard by nobody yet.
      have hworks : works = true := Bool.and_elim_right hok
      have hsilent : (s.bell || works) = false := hasleep.2.1
      rw [hworks, Bool.or_true] at hsilent
      cases hsilent
  | @sent cmd cmds hpc hopen hroom =>
      have hzero : s.manager.unwoken = 0 := hrung.behind (by simp [isBehindWake, hpc])
      refine rung_goOn cmds rfl ?_ fun hok hasleep => ?_
      · change s.manager.unwoken + 1 < wakeBatch
        rw [hzero]
        decide
      · change (s.loop.rx ++ [cmd]).length ≤ s.manager.unwoken + 1
        rw [List.length_append, List.length_singleton]
        exact Nat.succ_le_succ (hrung.quiet hok (by simp [isWaking, hpc]) hasleep)
  | dropped hpc =>
      have hzero : s.manager.unwoken = 0 := hrung.behind (by simp [isBehindWake, hpc])
      exact ⟨hrung.below, fun _ => hzero, fun hok _ hasleep =>
        hrung.quiet hok (by simp [isWaking, hpc]) hasleep⟩
  | pulled now hpc =>
      apply hrung.turn
      intro hpolling
      apply rx_of_pullRound
      by_contra hgoes
      rw [if_pos (eq_true_of_ne_false hgoes)] at hpolling
      cases hpolling
  | pulledAgain now hpc =>
      apply hrung.turn
      intro hpolling
      split_ifs at hpolling
  | polled hpc pc bell hnext hbell hwoken =>
      apply hrung.turn
      rintro rfl
      simp at hnext
  | handled hpc hevent =>
      apply hrung.turn
      intro hpolling
      cases hpc.symm.trans hpolling
  | panicked hpc =>
      apply hrung.turn
      rintro ⟨⟩
  | eventsDone hpc =>
      apply hrung.turn
      rintro ⟨⟩
  | dispatched now net hpc =>
      apply hrung.turn
      intro hpolling
      rcases pc_endRound ({ s.loop with net := net }.dispatchReady catchup now)
        with hpulling | hover
      · cases hpulling.symm.trans hpolling
      · cases hover.1.symm.trans hpolling

theorem rung_of_reachable
    (hreachable : Reachable (Handoff.step scaled md5Hex catchup slowed)
      (Handoff.start config base messages) s) : Rung s := by
  apply hreachable.invariant
  · exact ⟨Nat.succ_pos _, fun _ => rfl, fun _ _ _ => Nat.zero_le _⟩
  · exact fun _ _ _ hrung hstep => rung_step hrung (stepped_of_step hstep)

/-- No wake-up is lost.  If no ring has failed, the waker is silent and the loop sleeps with
no command ahead, then the reading thread is about to ring, or less than a batch is in the
channel: there is room for the command of a `send`, and behind the last ring there is
nothing. -/
theorem sleep_leaves_less_than_batch
    (hreachable : Reachable (Handoff.step scaled md5Hex catchup slowed)
      (Handoff.start config base messages) s) (hok : s.manager.ok = true)
    (hpolling : s.pc = .polling) (hsilent : s.bell = false) (hnone : s.loop.lookahead = none) :
    isWaking s.manager = true ∨ s.loop.rx.length < wakeBatch ∧ s.loop.rx.length < queueCap ∧
      (isBehindWake s.manager = true → s.loop.rx = []) := by
  by_cases hwaking : isWaking s.manager = true
  · exact .inl hwaking
  · right
    have hrung := rung_of_reachable hreachable
    have hquiet := hrung.quiet hok (eq_false_of_ne_true hwaking) ⟨hpolling, hsilent, hnone⟩
    have hbatch := hquiet.trans_lt hrung.below
    refine ⟨hbatch, hbatch.trans (by decide), fun hbehind => ?_⟩
    rw [hrung.behind hbehind] at hquiet
    exact List.length_eq_zero_iff.mp (Nat.le_zero.mp hquiet)

/-- The loop has found the channel empty and sleeps, and then a command is pushed. -/
theorem sleep_leaves_less_than_batch_refused : ∃ s,
    Reachable (Handoff.step id (fun _ => "") id id) (Handoff.start ⟨"u", none, "d", "pgr"⟩ 0
      refusedClient) s ∧ s.loop.rx.length = 1 ∧ s.loop.rx.length < queueCap := by
  have hrun : (run (Handoff.step id (fun _ => "") id id) (Handoff.start ⟨"u", none, "d", "pgr"⟩ 0
      refusedClient) [.pull 0, .read, .trySend]).map (fun s =>
        (s.manager.ok, s.pc, s.bell, s.loop.lookahead.isNone, isWaking s.manager,
          s.loop.rx.length)) = some (true, .polling, false, true, false, 1) := by
    decide +kernel
  obtain ⟨s, hs, hvalues⟩ := Option.map_eq_some_iff.mp hrun
  simp only [Prod.mk.injEq] at hvalues
  obtain ⟨hok, hpolling, hsilent, hnone, hwaking, hlength⟩ := hvalues
  have hreachable := reachable_of_run hs
  rcases sleep_leaves_less_than_batch hreachable hok hpolling hsilent
    (Option.isNone_iff_eq_none.mp hnone) with hrings | hless
  · cases hwaking.symm.trans hrings
  · exact ⟨s, hreachable, hlength, hless.2.1⟩

/-! ## Sleeps without a limit -/

theorem nextTimeout_eq_none {now : ℕ} {loop : ReplayLoop}
    (hnone : loop.nextTimeout slowed now = none) :
    loop.timers = [] ∧ loop.rxClosed = true := by
  simp only [nextTimeout] at hnone
  cases htimers : loop.timers with
  | nil =>
      refine ⟨rfl, ?_⟩
      by_contra hopen
      rw [if_neg hopen] at hnone
      cases hlookahead : loop.lookahead <;> simp [htimers, hlookahead, Option.merge] at hnone
  | cons entry timers =>
      cases hlookahead : loop.lookahead <;> cases hclosed : loop.rxClosed <;>
        simp [htimers, hlookahead, hclosed, Option.merge] at hnone

theorem scheduled_of_alone {pushed : List ConnCommand} {loop : ReplayLoop}
    (halone : Alone md5Hex catchup config pushed loop) : Scheduled loop := by
  apply halone.reachable.invariant
  · intro id slot head queue hslot
    cases hslot
  · intro loop call loop' hloop hstep
    exact scheduled_step md5Hex catchup hloop hstep

/-- A sleep without a limit leaves nothing in the channel and no command that could be
dispatched: every client waits for the server or has no command. -/
theorem endless_sleep_leaves_nothing
    (hreachable : Reachable (Handoff.step scaled md5Hex catchup slowed)
      (Handoff.start config base messages) s) {now : ℕ}
    (hendless : s.loop.nextTimeout slowed now = none) :
    s.senderGone = true ∧ s.loop.rx = [] ∧ s.loop.lookahead = none ∧
      ∀ id slot, s.loop.slots.lookup id = some slot → slot.blocked = true ∨ slot.queue = [] := by
  have hlinked := linked_of_reachable hreachable
  obtain ⟨htimers, hclosed⟩ := nextTimeout_eq_none hendless
  obtain ⟨hgone, hrx, hlookahead⟩ := hlinked.closed hclosed
  refine ⟨hgone, hrx, hlookahead, fun id slot hslot => ?_⟩
  by_contra hleft
  obtain ⟨hfree, hqueue⟩ := not_or.mp hleft
  obtain ⟨head, queue, hqueue⟩ := List.exists_cons_of_ne_nil hqueue
  obtain ⟨key, htimer, -⟩ :=
    scheduled_of_alone hlinked.alone id slot head queue hslot (eq_false_of_ne_true hfree) hqueue
  rw [htimers] at htimer
  cases htimer

/-- The client is connecting, and the loop waits for its socket. -/
theorem endless_sleep_leaves_nothing_refused : ∃ s,
    Reachable (Handoff.step id (fun _ => "") id id) (Handoff.start ⟨"u", none, "d", "pgr"⟩ 0
      refusedClient) s ∧ s.loop.nextTimeout id 0 = none ∧ s.loop.slots.keys = [7] ∧
        s.loop.rx = [] := by
  have hrun : (run (Handoff.step id (fun _ => "") id id) (Handoff.start ⟨"u", none, "d", "pgr"⟩ 0
      refusedClient) (refusedRun.dropLast ++ [.dispatchReady 0 ⟨[], [true]⟩])).map (fun s =>
        (s.loop.nextTimeout id 0, s.loop.slots.keys)) = some (none, [7]) := by
    decide +kernel
  obtain ⟨s, hs, hvalues⟩ := Option.map_eq_some_iff.mp hrun
  obtain ⟨hendless, hslots⟩ := Prod.mk.inj hvalues
  have hreachable := reachable_of_run hs
  exact ⟨s, hreachable, hendless, hslots, (endless_sleep_leaves_nothing hreachable hendless).2.1⟩

/-! ## The end of the channel -/

/-- The step is not the one of the first `pull` of a round that finds the channel closed
while no timer is set. -/
def SeesEndInTime (s : State) : Label → Prop
  | .pull now => s.pc = .pulling → s.loop.rxClosed = false →
      (pullRound s.senderGone now s.loop).1.rxClosed = true → s.loop.timers ≠ []
  | _ => True

instance (s : State) (label : Label) : Decidable (SeesEndInTime s label) :=
  match label with
  | .pull now => inferInstanceAs (Decidable (s.pc = .pulling → s.loop.rxClosed = false →
      (pullRound s.senderGone now s.loop).1.rxClosed = true → s.loop.timers ≠ []))
  | .read | .trySend | .wake _ | .send | .dropSender | .poll _ | .handleEvent .. | .eventsDone
  | .dispatchReady .. => isTrue trivial

/-- Before `poll` the loop has acted on the end of the channel, or will be woken by a timer. -/
def ActsOnEnd (s : State) : Prop :=
  s.pc = .pulling ∨ s.pc = .polling → s.loop.rxClosed = true →
    s.loop.ended = true ∨ s.loop.timers ≠ []

theorem rxClosed_pullRound {senderGone : Bool} {now : ℕ} {loop : ReplayLoop}
    (hclosed : (pullRound senderGone now loop).1.rxClosed = true) :
    loop.rxClosed = true ∨ loop.lookahead = none ∧
      pullRound senderGone now loop = ({ loop with rxClosed := true }, false) := by
  rw [pullRound] at hclosed ⊢
  cases hlookahead : loop.lookahead with
  | some cmd =>
      simp only [hlookahead] at hclosed
      left
      split_ifs at hclosed
      · exact hclosed
      · have hinputs := inputsOf_enqueue { loop with lookahead := none, lastTs := cmd.ts } cmd
        exact (congrArg Inputs.rxClosed hinputs).symm.trans hclosed
  | none =>
      simp only [hlookahead] at hclosed ⊢
      cases hrx : loop.rx with
      | nil =>
          simp only [hrx] at hclosed ⊢
          split_ifs at hclosed ⊢
          · exact .inr ⟨trivial, rfl⟩
          · exact .inl hclosed
      | cons cmd rx =>
          simp only [hrx] at hclosed
          left
          split_ifs at hclosed
          · exact hclosed
          · have hinputs := inputsOf_enqueue
              { loop with rx := rx, lookahead := none, lastTs := cmd.ts } cmd
            exact (congrArg Inputs.rxClosed hinputs).symm.trans hclosed

/-- `pull` does not touch a loop whose channel is closed. -/
theorem pullRound_of_rxClosed {senderGone : Bool} {now : ℕ} {loop : ReplayLoop}
    (hclosed : loop.rxClosed = true) (hrx : loop.rx = []) (hlookahead : loop.lookahead = none) :
    (pullRound senderGone now loop).1 = loop := by
  rw [pullRound]
  simp only [hlookahead, hrx]
  split_ifs
  · rw [← hclosed, ← hrx, ← hlookahead]
  · rfl

theorem actsOnEnd_of_pc (hpulling : s.pc ≠ .pulling) (hpolling : s.pc ≠ .polling) :
    ActsOnEnd s := by
  rintro (hpc | hpc)
  · exact absurd hpc hpulling
  · exact absurd hpc hpolling

/-- The end of a round acts on the end of the channel. -/
theorem ended_endRound {loop : ReplayLoop}
    (hlookahead : loop.rxClosed = true → loop.lookahead = none)
    (hclosed : (endRound loop).1.rxClosed = true) : (endRound loop).1.ended = true := by
  obtain ⟨hloop, hnot⟩ | ⟨-, -, hended⟩ := endRound_spec loop
  · rw [hloop] at hclosed ⊢
    by_contra hgoing
    exact hnot ⟨hclosed, hlookahead hclosed, hgoing⟩
  · exact hended

theorem actsOnEnd_step {label : Label} {all : List ConnCommand}
    (hlinked : Linked md5Hex catchup scaled config all s) (hacts : ActsOnEnd s)
    (hcond : SeesEndInTime s label) (hstep : Stepped scaled md5Hex catchup s label s') :
    ActsOnEnd s' := by
  cases hstep with
  | read | refused | pushed | full | rung | sent | dropped => exact hacts
  | pulled now hpc =>
      intro _ hclosed
      change (pullRound s.senderGone now s.loop).1.ended = true ∨
        (pullRound s.senderGone now s.loop).1.timers ≠ []
      by_cases hbefore : s.loop.rxClosed = true
      · obtain ⟨-, hrx, hlookahead⟩ := hlinked.closed hbefore
        rw [pullRound_of_rxClosed hbefore hrx hlookahead]
        exact hacts (.inl hpc) hbefore
      · rcases rxClosed_pullRound hclosed with hsame | ⟨-, hloop⟩
        · exact absurd hsame hbefore
        · have htimers := hcond hpc (eq_false_of_ne_true hbefore) hclosed
          rw [hloop]
          exact .inr htimers
  | pulledAgain now hpc =>
      apply actsOnEnd_of_pc
      · split_ifs <;> simp
      · split_ifs <;> simp
  | polled hpc pc bell hnext hbell hwoken => exact fun _ => hacts (.inr hpc)
  | handled hpc hevent => exact actsOnEnd_of_pc (by simp [hpc]) (by simp [hpc])
  | panicked hpc => exact actsOnEnd_of_pc (by simp) (by simp)
  | eventsDone hpc => exact actsOnEnd_of_pc (by simp) (by simp)
  | dispatched now net hpc =>
      intro _ hclosed
      left
      have hinputs := inputsOf_dispatchReady catchup { s.loop with net := net } now
      apply ended_endRound _ hclosed
      intro hbefore
      have hsame := (congrArg Inputs.rxClosed hinputs).symm.trans hbefore
      exact (congrArg Inputs.lookahead hinputs).trans (hlinked.closed hsame).2.2

theorem endless_of_missed_end {label : Label} {all : List ConnCommand}
    (hlinked : Linked md5Hex catchup scaled config all s) (hmissed : ¬SeesEndInTime s label)
    (hstep : Stepped scaled md5Hex catchup s label s') :
    s'.pc = .polling ∧ s'.loop.ended = false ∧ ∀ now, s'.loop.nextTimeout slowed now = none := by
  cases label with
  | pull now =>
      simp only [SeesEndInTime, Classical.not_imp, not_not] at hmissed
      obtain ⟨hpc, hopen, hclosed, htimers⟩ := hmissed
      have hgoing : s.loop.ended = false := eq_false_of_ne_true fun hended => by
        cases hopen.symm.trans (hlinked.ended hended)
      rcases rxClosed_pullRound hclosed with hsame | ⟨hlookahead, hround⟩
      · cases hopen.symm.trans hsame
      · cases hstep with
        | refused hlabel => exact absurd hlabel (by simp)
        | pulledAgain _ hagain => cases hpc.symm.trans hagain
        | pulled _ _ =>
            simp only [hround]
            refine ⟨rfl, hgoing, fun _ => ?_⟩
            simp [nextTimeout, htimers, hlookahead, Option.merge]
  | read | trySend | wake | send | dropSender | poll | handleEvent | eventsDone | dispatchReady =>
      exact absurd trivial hmissed

/-- In a run in which no first `pull` of a round finds the channel closed while no timer is
set, the loop sleeps without a limit only when it has ended the replay of every client.
And every such `pull` leads to a sleep without a limit before that. -/
theorem endless_sleep_iff_end_missed :
    (∀ s, Reaches (Handoff.step scaled md5Hex catchup slowed) SeesEndInTime
      (Handoff.start config base messages) s → s.pc = .polling →
        ∀ now, s.loop.nextTimeout slowed now = none → s.loop.ended = true) ∧
    ∀ s label s', Reachable (Handoff.step scaled md5Hex catchup slowed)
      (Handoff.start config base messages) s → ¬SeesEndInTime s label →
        Handoff.step scaled md5Hex catchup slowed s label = some s' →
          s'.pc = .polling ∧ s'.loop.ended = false ∧
            ∀ now, s'.loop.nextTimeout slowed now = none := by
  constructor
  · intro s hreaches hpolling now hendless
    obtain ⟨htimers, hclosed⟩ := nextTimeout_eq_none hendless
    have hboth : Linked md5Hex catchup scaled config
        (commandsOf (stamped scaled base 0 messages)) s ∧ ActsOnEnd s := by
      apply hreaches.invariant
      · exact ⟨linked_start config base messages, fun _ => by rintro ⟨⟩⟩
      · rintro s label s' ⟨hlinked, hacts⟩ hcond hstep
        have hstepped := stepped_of_step hstep
        exact ⟨linked_step hlinked hstepped, actsOnEnd_step hlinked hacts hcond hstepped⟩
    rcases hboth.2 (.inr hpolling) hclosed with hended | htimed
    · exact hended
    · exact absurd htimers htimed
  · intro s label s' hreachable hmissed hstep
    exact endless_of_missed_end (linked_of_reachable hreachable) hmissed (stepped_of_step hstep)

/-! ## A capture of nothing to replay -/

/-- The reading thread reads on to the end of a capture without commands. -/
theorem reachable_read {last : ℕ} (hnothing : commandsOf (stamped scaled base last messages) = [])
    (hreading : s.manager = ⟨.reading, messages, base, last, 0, true⟩) :
    ∃ last, Reachable (Handoff.step scaled md5Hex catchup slowed) s
      { s with manager := ⟨.reading, [], base, last, 0, true⟩ } := by
  induction messages generalizing s last with
  | nil =>
      refine ⟨last, ?_⟩
      rw [← hreading]
      exact Relation.ReflTransGen.refl
  | cons msg messages ih =>
      obtain ⟨rel, hrel⟩ : ∃ rel, max (scaled (msg.ts.toNat - base.toNat)) last = rel := ⟨_, rfl⟩
      rw [stamped, hrel, commandsOf, List.flatMap_cons, List.append_eq_nil_iff] at hnothing
      have hread : s.manager.read scaled = ⟨.reading, messages, base, rel, 0, true⟩ := by
        rw [hreading, Manager.read, if_pos rfl]
        simp only [hrel, hnothing.1]
        rfl
      have hstep : Handoff.step scaled md5Hex catchup slowed s .read =
          some { s with manager := ⟨.reading, messages, base, rel, 0, true⟩ } := by
        rw [Handoff.step, managerStep, hreading, ← hread, hreading]
        rfl
      obtain ⟨last', hreachable⟩ := @ih { s with manager := _ } rel hnothing.2 rfl
      exact ⟨last', Relation.ReflTransGen.head ⟨.read, trivial, hstep⟩ hreachable⟩

/-- If nothing is captured that could be replayed, the loop can sleep for ever: the reading
thread is done, no timer is set, there is no socket to wait for, and only `poll` itself can
go on. -/
theorem sleeps_forever_of_nothing_to_replay
    (hnothing : commandsOf (stamped scaled base 0 messages) = []) :
    ∃ s, Reachable (Handoff.step scaled md5Hex catchup slowed)
      (Handoff.start config base messages) s ∧ s.manager.pc = .done ∧ s.pc = .polling ∧
        s.bell = false ∧ s.loop.slots = ∅ ∧ s.loop.ended = false ∧
          ∀ label s', Handoff.step scaled md5Hex catchup slowed s label = some s' →
            label = .poll .events ∨ label = .poll .interrupted ∨ label = .poll .failed := by
  obtain ⟨last, hread⟩ := @reachable_read md5Hex catchup scaled slowed base messages
    (Handoff.start config base messages) 0 hnothing rfl
  refine ⟨{ Handoff.start config base messages with
    manager := ⟨.done, [], base, last, 0, true⟩
    loop := { ReplayLoop.new config [] with rxClosed := true }
    pc := .polling
    senderGone := true }, ?_, rfl, rfl, rfl, rfl, rfl, ?_⟩
  · have hleave : run (Handoff.step scaled md5Hex catchup slowed)
        { Handoff.start config base messages with
          manager := ⟨.reading, [], base, last, 0, true⟩ }
        [.read, .dropSender, .pull 0] = some { Handoff.start config base messages with
          manager := ⟨.done, [], base, last, 0, true⟩
          loop := { ReplayLoop.new config [] with rxClosed := true }
          pc := .polling
          senderGone := true } := rfl
    exact Relation.ReflTransGen.trans hread (reachable_of_run hleave)
  · intro label s' hstep
    cases label with
    | poll answer =>
        cases answer with
        | events => exact .inl rfl
        | interrupted => exact .inr (.inl rfl)
        | failed => exact .inr (.inr rfl)
        | woken => cases hstep
        | timedOut now => cases hstep
    | read | trySend | wake | send | dropSender | pull | handleEvent | eventsDone
    | dispatchReady => cases hstep

/-- A capture of one transaction's end. -/
theorem sleeps_forever_of_tx_end : ∃ s,
    Reachable (Handoff.step id (fun _ => "") id id) (Handoff.start ⟨"u", none, "d", "pgr"⟩ 0
      [⟨7, 0, .txEnd true 0 0⟩]) s ∧ s.manager.pc = .done ∧ s.pc = .polling ∧
        s.bell = false ∧ s.loop.slots = ∅ ∧ s.loop.ended = false ∧
          ∀ label s', Handoff.step id (fun _ => "") id id s label = some s' →
            label = .poll .events ∨ label = .poll .interrupted ∨ label = .poll .failed :=
  sleeps_forever_of_nothing_to_replay rfl

end Pgr.Wakeups
