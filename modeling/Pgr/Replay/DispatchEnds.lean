import Pgr.Replay.Dispatch

/-!
# The loops of `dispatch_ready` end

`dispatch_ready` takes due timers from the heap while `try_dispatch` puts new ones in and
moves the shift that decides what is due.  Here both loops are one machine that takes a
step for every round of either, from any state of the replay loop, and every step of it
lowers a measure.  `later` is the sum of a time and the shift as the build computes it: it
may wrap around, and the loops still end.  With sums that do not, the timers that are due
become fewer in each round, and the bounded loops of the model stop where the machine does.
-/

namespace Pgr.DispatchEnds

open Pgr.Capture Pgr.Transition Pgr.Manager Pgr.Loop Pgr.Loop.ReplayLoop Pgr.Dispatch

/-! ## The loops -/

/-- The heads of the two loops. -/
inductive Pc where
  | dispatchReady
  | tryDispatch (id : ClientId)

structure State where
  pc : Pc
  loop : ReplayLoop

variable (later : ℕ → ℕ → ℕ) (now : ℕ)

/-- A round of the loop of `dispatch_ready`, up to the call of `try_dispatch`. -/
def nextTimer (loop : ReplayLoop) : Option State :=
  match loop.timers with
  | [] => none
  | (ts, id) :: timers =>
      if later ts loop.shift > now then none
      else some ⟨.tryDispatch id, { loop with timers := timers }⟩

/-- A round of the loop of `try_dispatch`. -/
def nextCommand (id : ClientId) (loop : ReplayLoop) : State :=
  match loop.slots.lookup id with
  | none => ⟨.dispatchReady, loop⟩
  | some slot =>
      if slot.blocked then ⟨.dispatchReady, loop⟩
      else
        match slot.queue with
        | [] => ⟨.dispatchReady, loop⟩
        | head :: queue =>
            let loop := loop.rebased slot head
            let slot := lookedAt slot
            let due := if slot.burst then now else later head.ts loop.shift
            if due > now then
              ⟨.dispatchReady, (loop.setSlot id slot).pushTimer (head.ts, id)⟩
            else
              ⟨.tryDispatch id, (loop.setSlot id { slot with queue := queue }).execute id head⟩

def next (s : State) : Option State :=
  match s.pc with
  | .dispatchReady => nextTimer later now s.loop
  | .tryDispatch id => some (nextCommand later now id s.loop)

/-- One step, from `s` to `s'`. -/
def NextTo (s s' : State) : Prop :=
  next later now s = some s'

/-! ## What a step does -/

/-- A timer is popped, or `try_dispatch` returns, with or without a new timer, or a
command is taken from the queue. -/
inductive Stepped : State → State → Prop
  | pops {loop : ReplayLoop} {ts : ℕ} {id : ClientId} {timers : List (ℕ × ClientId)}
      (htimers : loop.timers = (ts, id) :: timers) (hdue : later ts loop.shift ≤ now) :
      Stepped ⟨.dispatchReady, loop⟩ ⟨.tryDispatch id, { loop with timers := timers }⟩
  | returns {id : ClientId} {loop : ReplayLoop} :
      Stepped ⟨.tryDispatch id, loop⟩ ⟨.dispatchReady, loop⟩
  | pushes {id : ClientId} {loop loop' : ReplayLoop} {ts : ℕ}
      (htimers : loop'.timers = loop.timers.orderedInsert Earlier (ts, id))
      (hlate : now < later ts loop'.shift) (hshift : loop.shift ≤ loop'.shift) :
      Stepped ⟨.tryDispatch id, loop⟩ ⟨.dispatchReady, loop'⟩
  | takes {id : ClientId} {loop loop' : ReplayLoop} (htimers : loop'.timers = loop.timers)
      (hshift : loop.shift ≤ loop'.shift)
      (hqueue : loop'.queueLength id < loop.queueLength id) :
      Stepped ⟨.tryDispatch id, loop⟩ ⟨.tryDispatch id, loop'⟩

/-- The clients whose slot is still to be rebased. -/
def toRebase (loop : ReplayLoop) : Finset ClientId :=
  loop.slots.keys.toFinset.filter fun id => (loop.slots.lookup id).any Slot.rebase

/-- The shift moves only when a slot is rebased, and no slot is rebased twice. -/
structure ShiftMoves (loop loop' : ReplayLoop) : Prop where
  toRebase : toRebase loop' ⊆ toRebase loop
  shift : loop'.shift = loop.shift ∨ DispatchEnds.toRebase loop' ⊂ DispatchEnds.toRebase loop

variable {loop loop' : ReplayLoop} {id : ClientId} {slot : Slot} {head : ConnCommand}

theorem mem_toRebase : id ∈ toRebase loop ↔
    ∃ slot, loop.slots.lookup id = some slot ∧ slot.rebase = true := by
  rw [toRebase, Finset.mem_filter, List.mem_toFinset, ← AList.mem_keys, Option.any_eq_true]
  constructor
  · exact And.right
  · rintro ⟨slot, hslot, hrebase⟩
    exact ⟨AList.lookup_isSome.mp (Option.isSome_of_eq_some hslot), slot, hslot, hrebase⟩

theorem shiftMoves_refl (loop : ReplayLoop) : ShiftMoves loop loop :=
  ⟨Finset.Subset.refl _, .inl rfl⟩

/-- A round that looks at the head of a queue. -/
theorem shiftMoves_of_lookedAt (hslot : loop.slots.lookup id = some slot)
    (hself : ∀ slot', loop'.slots.lookup id = some slot' → slot'.rebase = (lookedAt slot).rebase)
    (hother : ∀ other, other ≠ id → loop'.slots.lookup other = loop.slots.lookup other)
    (hshift : loop'.shift = (loop.rebased slot head).shift) : ShiftMoves loop loop' := by
  have hsubset : toRebase loop' ⊆ toRebase loop := by
    intro other hmem
    obtain ⟨slot', hslot', hrebase⟩ := mem_toRebase.mp hmem
    by_cases hsame : other = id
    · rw [hsame] at hslot' ⊢
      rw [hself slot' hslot', lookedAt, Bool.and_eq_true] at hrebase
      exact mem_toRebase.mpr ⟨slot, hslot, hrebase.1⟩
    · rw [hother other hsame] at hslot'
      exact mem_toRebase.mpr ⟨slot', hslot', hrebase⟩
  refine ⟨hsubset, ?_⟩
  rw [hshift, rebased]
  split_ifs with hmoves
  · right
    have hbefore : id ∈ toRebase loop := mem_toRebase.mpr ⟨slot, hslot, hmoves.1⟩
    have hafter : id ∉ toRebase loop' := by
      intro hmem
      obtain ⟨slot', hslot', hrebase⟩ := mem_toRebase.mp hmem
      rw [hself slot' hslot', lookedAt, Bool.and_eq_true] at hrebase
      exact hmoves.2 hrebase.2
    exact (Finset.ssubset_iff_of_subset hsubset).mpr ⟨id, hbefore, hafter⟩
  · exact .inl rfl

/-- The head of the queue is not due yet. -/
theorem stepped_pushTimer (hslot : loop.slots.lookup id = some slot)
    (hlate : now < later head.ts (loop.rebased slot head).shift) {waiting : ReplayLoop}
    (hwaiting : ((loop.rebased slot head).setSlot id (lookedAt slot)).pushTimer (head.ts, id) =
      waiting) :
    Stepped later now ⟨.tryDispatch id, loop⟩ ⟨.dispatchReady, waiting⟩ ∧
      ShiftMoves loop waiting := by
  obtain ⟨shift, hgrows, hrebased⟩ := rebased_eq slot head loop
  have hshift : waiting.shift = (loop.rebased slot head).shift := by
    rw [← hwaiting]
    rfl
  have htimers : waiting.timers = loop.timers.orderedInsert Earlier (head.ts, id) := by
    rw [← hwaiting, hrebased]
    rfl
  have hslots : waiting.slots = loop.slots.insert id (lookedAt slot) := by
    rw [← hwaiting, hrebased]
    rfl
  constructor
  · apply Stepped.pushes htimers
    · rw [hshift]
      exact hlate
    · rw [hshift, hrebased]
      exact hgrows
  · apply shiftMoves_of_lookedAt hslot _ _ hshift
    · intro slot' hslot'
      rw [hslots, AList.lookup_insert] at hslot'
      rw [← Option.some.inj hslot']
    · intro other hother
      rw [hslots, AList.lookup_insert_ne hother]

/-- The head of the queue is executed. -/
theorem stepped_execute (hslot : loop.slots.lookup id = some slot) {queue : List ConnCommand}
    (hqueue : slot.queue = head :: queue) {executed : ReplayLoop}
    (hexecuted : ((loop.rebased slot head).setSlot id
      { lookedAt slot with queue := queue }).execute id head = executed) :
    Stepped later now ⟨.tryDispatch id, loop⟩ ⟨.tryDispatch id, executed⟩ ∧
      ShiftMoves loop executed := by
  obtain ⟨shift, hgrows, hrebased⟩ := rebased_eq slot head loop
  have hfewer := queueLength_turn_lt hslot hqueue
  obtain ⟨after, gone, hmade, hbecomes⟩ := turn_spec loop id slot head queue
  rw [hexecuted] at hfewer hbecomes
  constructor
  · apply Stepped.takes
    · rw [hbecomes.timers, hrebased]
    · rw [hbecomes.shift, hrebased]
      exact hgrows
    · exact hfewer
  · apply shiftMoves_of_lookedAt hslot _ _ hbecomes.shift
    · intro slot' hslot'
      rw [hbecomes.self] at hslot'
      exact rebase_of_executed hmade hslot'
    · intro other hother
      rw [hbecomes.other other hother, hrebased]

theorem nextCommand_eq (hslot : loop.slots.lookup id = some slot)
    (hblocked : slot.blocked = false) {queue : List ConnCommand}
    (hqueue : slot.queue = head :: queue) :
    nextCommand later now id loop =
      if now < (if slot.burst then now else later head.ts (loop.rebased slot head).shift) then
        ⟨.dispatchReady,
          ((loop.rebased slot head).setSlot id (lookedAt slot)).pushTimer (head.ts, id)⟩
      else
        ⟨.tryDispatch id, ((loop.rebased slot head).setSlot id
          { lookedAt slot with queue := queue }).execute id head⟩ := by
  rw [nextCommand, hslot]
  dsimp only
  rw [hblocked, if_neg Bool.false_ne_true, hqueue]
  rfl

theorem nextCommand_spec (id : ClientId) (loop : ReplayLoop) :
    Stepped later now ⟨.tryDispatch id, loop⟩ (nextCommand later now id loop) ∧
      ShiftMoves loop (nextCommand later now id loop).loop := by
  have hreturns : nextCommand later now id loop = ⟨.dispatchReady, loop⟩ →
      Stepped later now ⟨.tryDispatch id, loop⟩ (nextCommand later now id loop) ∧
        ShiftMoves loop (nextCommand later now id loop).loop := by
    intro hloop
    rw [hloop]
    exact ⟨.returns, shiftMoves_refl loop⟩
  cases hslot : loop.slots.lookup id with
  | none =>
      apply hreturns
      rw [nextCommand, hslot]
  | some slot =>
      cases hblocked : slot.blocked with
      | true =>
          apply hreturns
          rw [nextCommand, hslot]
          exact if_pos hblocked
      | false =>
          cases hqueue : slot.queue with
          | nil =>
              apply hreturns
              rw [nextCommand, hslot]
              dsimp only
              rw [hblocked, hqueue]
              rfl
          | cons head queue =>
              rw [nextCommand_eq later now hslot hblocked hqueue]
              by_cases hburst : slot.burst = true
              · rw [if_pos hburst, if_neg (lt_irrefl now)]
                exact stepped_execute later now hslot hqueue rfl
              · rw [if_neg hburst]
                split_ifs with hlate
                · exact stepped_pushTimer later now hslot hlate rfl
                · exact stepped_execute later now hslot hqueue rfl

theorem nextTimer_eq_some {s : State} (hnext : nextTimer later now loop = some s) :
    ∃ ts id timers, loop.timers = (ts, id) :: timers ∧ later ts loop.shift ≤ now ∧
      s = ⟨.tryDispatch id, { loop with timers := timers }⟩ := by
  rw [nextTimer] at hnext
  cases htimers : loop.timers with
  | nil =>
      rw [htimers] at hnext
      cases hnext
  | cons entry timers =>
      obtain ⟨ts, id⟩ := entry
      rw [htimers] at hnext
      dsimp only at hnext
      split_ifs at hnext with hlate
      cases hnext
      exact ⟨ts, id, timers, rfl, not_lt.mp hlate, rfl⟩

/-- Every step is one of the four, and moves the shift as it may. -/
theorem stepped_of_nextTo {s s' : State} (hnext : NextTo later now s s') :
    Stepped later now s s' ∧ ShiftMoves s.loop s'.loop := by
  rcases s with ⟨_ | id, loop⟩
  · obtain ⟨ts, id, timers, htimers, hdue, hs'⟩ := nextTimer_eq_some later now hnext
    rw [hs']
    exact ⟨.pops htimers hdue, Finset.Subset.refl _, .inl rfl⟩
  · have hcommand : nextCommand later now id loop = s' := Option.some.inj hnext
    rw [← hcommand]
    exact nextCommand_spec later now id loop

/-! ## The measure -/

def isDue (shift : ℕ) (entry : ℕ × ClientId) : Bool :=
  later entry.1 shift ≤ now

/-- The timers that are due, wherever in the heap they are. -/
def dueCount (loop : ReplayLoop) : ℕ :=
  loop.timers.countP (isDue later now loop.shift)

/-- What `try_dispatch` has still to do. -/
def commandsLeft (s : State) : ℕ :=
  match s.pc with
  | .dispatchReady => 0
  | .tryDispatch id => s.loop.queueLength id + 1

/-- The slots to rebase, and while none is rebased the due timers, and while none is
popped the commands. -/
def workLeft (s : State) : ℕ ×ₗ ℕ ×ₗ ℕ :=
  toLex ((toRebase s.loop).card, toLex (dueCount later now s.loop, commandsLeft s))

theorem dueCount_pop {ts : ℕ} {timers : List (ℕ × ClientId)}
    (htimers : loop.timers = (ts, id) :: timers) (hdue : later ts loop.shift ≤ now) :
    dueCount later now { loop with timers := timers } < dueCount later now loop := by
  have hentry : isDue later now loop.shift (ts, id) = true := decide_eq_true hdue
  rw [dueCount, dueCount, htimers, List.countP_cons_of_pos hentry]
  exact Nat.lt_succ_self _

/-- A timer that is not due does not count, wherever it is put. -/
theorem dueCount_push {ts : ℕ}
    (htimers : loop'.timers = loop.timers.orderedInsert Earlier (ts, id))
    (hlate : now < later ts loop'.shift) :
    dueCount later now loop' = loop.timers.countP (isDue later now loop'.shift) := by
  have hentry : ¬isDue later now loop'.shift (ts, id) = true := by
    rw [isDue, decide_eq_true_iff, not_le]
    exact hlate
  rw [dueCount, htimers, (List.perm_orderedInsert Earlier _ _).countP_eq,
    List.countP_cons_of_neg hentry]

theorem workLeft_lt {s s' : State} (hsubset : toRebase s'.loop ⊆ toRebase s.loop)
    (hfewer : toRebase s'.loop ⊂ toRebase s.loop ∨
      dueCount later now s'.loop < dueCount later now s.loop ∨
        dueCount later now s'.loop = dueCount later now s.loop ∧
          commandsLeft s' < commandsLeft s) :
    workLeft later now s' < workLeft later now s := by
  rw [workLeft, workLeft, Prod.Lex.toLex_lt_toLex']
  refine ⟨Finset.card_le_card hsubset, ?_⟩
  intro hcard
  rw [Prod.Lex.toLex_lt_toLex]
  rcases hfewer with hstrict | hrest
  · exact absurd hcard (Finset.card_lt_card hstrict).ne
  · exact hrest

theorem workLeft_lt_of_nextTo {s s' : State} (hnext : NextTo later now s s') :
    workLeft later now s' < workLeft later now s := by
  obtain ⟨hstepped, hsubset, hshift⟩ := stepped_of_nextTo later now hnext
  apply workLeft_lt later now hsubset
  rcases hshift with hstays | hrebased
  · right
    cases hstepped with
    | pops htimers hdue => exact .inl (dueCount_pop later now htimers hdue)
    | returns => exact .inr ⟨rfl, Nat.succ_pos _⟩
    | pushes htimers hlate _ =>
        dsimp only at hstays
        right
        rw [dueCount_push later now htimers hlate, hstays]
        exact ⟨rfl, Nat.succ_pos _⟩
    | takes htimers _ hqueue =>
        dsimp only at hstays
        right
        rw [dueCount, htimers, hstays]
        exact ⟨rfl, Nat.succ_lt_succ hqueue⟩
  · exact .inl hrebased

theorem wellFounded_nextTo : WellFounded fun s' s => NextTo later now s s' :=
  Subrelation.wf (workLeft_lt_of_nextTo later now)
    (InvImage.wf (workLeft later now) wellFounded_lt)

theorem shift_le_of_run {s s' : State} (hrun : Relation.ReflTransGen (NextTo later now) s s') :
    s.loop.shift ≤ s'.loop.shift := by
  induction hrun with
  | refl => exact le_refl _
  | tail _ hnext ih =>
      apply ih.trans
      cases (stepped_of_nextTo later now hnext).1 with
      | pops | returns => exact le_refl _
      | pushes _ _ hshift => exact hshift
      | takes _ hshift _ => exact hshift

/-! ## The bounded loops -/

/-- Where sums are what they should be, a longer shift makes no timer due. -/
theorem countP_isDue_le {shift shift' : ℕ} (hshift : shift ≤ shift')
    (timers : List (ℕ × ClientId)) :
    timers.countP (isDue (· + ·) now shift') ≤ timers.countP (isDue (· + ·) now shift) := by
  apply List.countP_mono_left
  intro entry _ hdue
  rw [isDue, decide_eq_true_iff] at hdue ⊢
  exact (Nat.add_le_add_left hshift _).trans hdue

theorem dueCount_nextCommand_le (id : ClientId) (loop : ReplayLoop) :
    dueCount (· + ·) now (nextCommand (· + ·) now id loop).loop ≤ dueCount (· + ·) now loop := by
  have hstepped := (nextCommand_spec (· + ·) now id loop).1
  generalize nextCommand (· + ·) now id loop = s' at hstepped
  cases hstepped with
  | returns => exact le_refl _
  | pushes htimers hlate hshift =>
      rw [dueCount_push (· + ·) now htimers hlate]
      exact countP_isDue_le now hshift _
  | takes htimers hshift _ =>
      rw [dueCount, htimers]
      exact countP_isDue_le now hshift _

/-- One more round of the bounded loop is one step of the machine. -/
theorem dispatchRounds_succ (rounds : ℕ) (id : ClientId) (loop : ReplayLoop) :
    dispatchRounds id now (rounds + 1) loop =
      match nextCommand (· + ·) now id loop with
      | ⟨.dispatchReady, loop⟩ => loop
      | ⟨.tryDispatch id, loop⟩ => dispatchRounds id now rounds loop := by
  rw [dispatchRounds]
  cases hslot : loop.slots.lookup id with
  | none =>
      rw [nextCommand, hslot]
  | some slot =>
      cases hblocked : slot.blocked with
      | true =>
          rw [nextCommand, hslot]
          simp only [hblocked, if_true]
      | false =>
          cases hqueue : slot.queue with
          | nil =>
              rw [nextCommand, hslot]
              simp only [hblocked, hqueue]
              rfl
          | cons head queue =>
              rw [nextCommand_eq (· + ·) now hslot hblocked hqueue]
              have hlooked : lookedAt slot = ⟨head :: queue, slot.awaiting,
                  slot.rebase && slot.burst, slot.burst, slot.readyAt, slot.conn⟩ := by
                rw [lookedAt, hqueue]
              dsimp only
              rw [hblocked, if_neg Bool.false_ne_true, hlooked]
              simp only [hqueue]
              split_ifs <;> rfl

theorem dispatchTimers_succ (rounds : ℕ) (loop : ReplayLoop) :
    dispatchTimers now (rounds + 1) loop =
      match nextTimer (· + ·) now loop with
      | none => loop
      | some ⟨.dispatchReady, loop⟩ => dispatchTimers now rounds loop
      | some ⟨.tryDispatch id, loop⟩ => dispatchTimers now rounds (loop.tryDispatch id now) := by
  rw [dispatchTimers, nextTimer]
  cases loop.timers with
  | nil => rfl
  | cons entry timers =>
      dsimp only
      split_ifs <;> rfl

/-- `try_dispatch` of the model is what the machine makes of its call. -/
theorem run_dispatchRounds {rounds : ℕ} (hrounds : loop.queueLength id < rounds) :
    Relation.ReflTransGen (NextTo (· + ·) now) ⟨.tryDispatch id, loop⟩
        ⟨.dispatchReady, dispatchRounds id now rounds loop⟩ ∧
      dueCount (· + ·) now (dispatchRounds id now rounds loop) ≤ dueCount (· + ·) now loop := by
  induction rounds generalizing loop with
  | zero => exact absurd hrounds (Nat.not_lt_zero _)
  | succ rounds ih =>
      have hnext : NextTo (· + ·) now ⟨.tryDispatch id, loop⟩
          (nextCommand (· + ·) now id loop) := rfl
      have hstepped := (nextCommand_spec (· + ·) now id loop).1
      have hfewer := dueCount_nextCommand_le now id loop
      rw [dispatchRounds_succ]
      generalize nextCommand (· + ·) now id loop = s' at hnext hstepped hfewer
      cases hstepped with
      | returns | pushes => exact ⟨.single hnext, hfewer⟩
      | takes _ _ hqueue =>
          obtain ⟨hrun, hcount⟩ := ih (hqueue.trans_le (Nat.le_of_lt_succ hrounds))
          exact ⟨.head hnext hrun, hcount.trans hfewer⟩

theorem run_tryDispatch (id : ClientId) (loop : ReplayLoop) :
    Relation.ReflTransGen (NextTo (· + ·) now) ⟨.tryDispatch id, loop⟩
        ⟨.dispatchReady, loop.tryDispatch id now⟩ ∧
      dueCount (· + ·) now (loop.tryDispatch id now) ≤ dueCount (· + ·) now loop :=
  run_dispatchRounds now (Nat.lt_succ_self _)

/-- A round of `dispatch_ready` leaves fewer due timers than it found. -/
theorem dueCount_round_lt {ts : ℕ} {timers : List (ℕ × ClientId)}
    (htimers : loop.timers = (ts, id) :: timers) (hdue : ts + loop.shift ≤ now) :
    dueCount (· + ·) now ({ loop with timers := timers }.tryDispatch id now) <
      dueCount (· + ·) now loop :=
  (run_tryDispatch now id _).2.trans_lt (dueCount_pop (· + ·) now htimers hdue)

/-- As many rounds as there are due timers are enough. -/
theorem run_dispatchTimers {rounds : ℕ} (hrounds : dueCount (· + ·) now loop ≤ rounds) :
    Relation.ReflTransGen (NextTo (· + ·) now) ⟨.dispatchReady, loop⟩
        ⟨.dispatchReady, dispatchTimers now rounds loop⟩ ∧
      nextTimer (· + ·) now (dispatchTimers now rounds loop) = none := by
  induction rounds generalizing loop with
  | zero =>
      refine ⟨.refl, ?_⟩
      cases hnext : nextTimer (· + ·) now loop with
      | none => exact hnext
      | some s =>
          obtain ⟨ts, id, timers, htimers, hdue, -⟩ := nextTimer_eq_some (· + ·) now hnext
          have hfewer := dueCount_round_lt now htimers hdue
          exact absurd (hfewer.trans_le hrounds) (Nat.not_lt_zero _)
  | succ rounds ih =>
      rw [dispatchTimers_succ]
      cases hnext : nextTimer (· + ·) now loop with
      | none => exact ⟨.refl, hnext⟩
      | some s =>
          obtain ⟨ts, id, timers, htimers, hdue, hs⟩ := nextTimer_eq_some (· + ·) now hnext
          have hfewer := dueCount_round_lt now htimers hdue
          have hpopped : NextTo (· + ·) now ⟨.dispatchReady, loop⟩ s := hnext
          rw [hs] at hpopped ⊢
          obtain ⟨hrun, hlast⟩ := ih (Nat.le_of_lt_succ (hfewer.trans_le hrounds))
          exact ⟨.head hpopped ((run_tryDispatch now id _).1.trans hrun), hlast⟩

/-- From every state of the replay loop and at every time both loops end, even where the
sum of a time and the shift wraps around: each step pops a due timer, returns, puts in a
timer that is not due, or takes a command from a queue, and the shift never becomes
shorter.  With sums that do not wrap around, each round leaves fewer due timers, and the
loops end where the bounded ones of the model do. -/
theorem dispatchReady_ends (now : ℕ) :
    (∀ later, WellFounded fun s' s => NextTo later now s s') ∧
      (∀ later s, ∃ last, Relation.ReflTransGen (NextTo later now) s last ∧
        next later now last = none ∧ s.loop.shift ≤ last.loop.shift) ∧
      (∀ later s s', NextTo later now s s' → Stepped later now s s') ∧
      ∀ loop : ReplayLoop,
        (∀ ts id timers, loop.timers = (ts, id) :: timers → ts + loop.shift ≤ now →
          dueCount (· + ·) now ({ loop with timers := timers }.tryDispatch id now) <
            dueCount (· + ·) now loop) ∧
        Relation.ReflTransGen (NextTo (· + ·) now) ⟨.dispatchReady, loop⟩
          ⟨.dispatchReady, dispatchTimers now loop.timers.length loop⟩ ∧
        next (· + ·) now ⟨.dispatchReady, dispatchTimers now loop.timers.length loop⟩ = none := by
  refine ⟨fun later => wellFounded_nextTo later now, ?_, ?_, ?_⟩
  · intro later s
    obtain ⟨last, hrun, hlast⟩ := exists_stopped (wellFounded_nextTo later now) s
    exact ⟨last, hrun, hlast, shift_le_of_run later now hrun⟩
  · intro later s s' hnext
    exact (stepped_of_nextTo later now hnext).1
  · intro loop
    have henough : dueCount (· + ·) now loop ≤ loop.timers.length := List.countP_le_length
    obtain ⟨hrun, hlast⟩ := run_dispatchTimers now henough
    exact ⟨fun ts id timers => dueCount_round_lt now, hrun, hlast⟩

end Pgr.DispatchEnds
