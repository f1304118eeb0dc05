import Pgr.Replay.Loop

/-!
# What the handlers do to a slot

`Executed` lists what the execution of a command can make of the slot it belongs
to, and `Becomes` says that nothing else of the loop changes.  The proofs about
runs use these and the same facts for the other handlers, and do not open
`execute` again.
-/

namespace Pgr.Dispatch

open Pgr.Capture Pgr.Proto Pgr.Manager Pgr.Utils Pgr.Client Pgr.Loop Pgr.Loop.ReplayLoop

/-! ## The slots -/

section Slots

variable {loop : ReplayLoop} {id other : ClientId} {slot : Slot}

@[simp]
theorem lookup_setSlot : (loop.setSlot id slot).slots.lookup id = some slot :=
  AList.lookup_insert _

theorem lookup_setSlot_ne (hother : other ≠ id) :
    (loop.setSlot id slot).slots.lookup other = loop.slots.lookup other :=
  AList.lookup_insert_ne hother

/-- Between `loop` and `loop'` the slot of `id` becomes `after`, and its old
connections `gone` are let go of. -/
structure Becomes (id : ClientId) (after : Option Slot) (gone : List Connection)
    (loop loop' : ReplayLoop) : Prop where
  self : loop'.slots.lookup id = after
  other : ∀ other, other ≠ id → loop'.slots.lookup other = loop.slots.lookup other
  closed : loop'.closed = loop.closed ++ gone.map fun conn => (id, conn)
  timers : loop'.timers = loop.timers
  shift : loop'.shift = loop.shift
  rx : loop'.rx = loop.rx
  lookahead : loop'.lookahead = loop.lookahead
  rxClosed : loop'.rxClosed = loop.rxClosed
  ended : loop'.ended = loop.ended
  config : loop'.config = loop.config
  lastTs : loop'.lastTs = loop.lastTs

theorem becomes_setSlot (loop : ReplayLoop) (id : ClientId) (slot : Slot) (net : Net) :
    Becomes id (some slot) [] loop ({ loop with net := net }.setSlot id slot) where
  self := lookup_setSlot
  other _ := lookup_setSlot_ne
  closed := (List.append_nil _).symm
  timers := rfl
  shift := rfl
  rx := rfl
  lookahead := rfl
  rxClosed := rfl
  ended := rfl
  config := rfl
  lastTs := rfl

theorem becomes_dropSlot (hslot : loop.slots.lookup id = some slot) :
    Becomes id none slot.conn.toList loop (loop.dropSlot id) := by
  rw [dropSlot, hslot]
  exact
    { self := AList.lookup_erase _ _
      other := fun _ hother => AList.lookup_erase_ne hother
      closed := rfl
      timers := rfl
      shift := rfl
      rx := rfl
      lookahead := rfl
      rxClosed := rfl
      ended := rfl
      config := rfl
      lastTs := rfl }

theorem Becomes.trans {after last : Option Slot} {gone more : List Connection}
    {loop' loop'' : ReplayLoop} (hfirst : Becomes id after gone loop loop')
    (hnext : Becomes id last more loop' loop'') :
    Becomes id last (gone ++ more) loop loop'' where
  self := hnext.self
  other other hother := (hnext.other other hother).trans (hfirst.other other hother)
  closed := by
    rw [hnext.closed, hfirst.closed, List.map_append, List.append_assoc]
  timers := hnext.timers.trans hfirst.timers
  shift := hnext.shift.trans hfirst.shift
  rx := hnext.rx.trans hfirst.rx
  lookahead := hnext.lookahead.trans hfirst.lookahead
  rxClosed := hnext.rxClosed.trans hfirst.rxClosed
  ended := hnext.ended.trans hfirst.ended
  config := hnext.config.trans hfirst.config
  lastTs := hnext.lastTs.trans hfirst.lastTs

theorem isDead_eq {conn : Connection} (hslot : loop.slots.lookup id = some slot)
    (hconn : slot.conn = some conn) :
    loop.isDead id = decide (conn.client.state = .dead) := by
  rw [isDead, hslot, Option.bind_some, hconn, Option.any_some]

end Slots

/-! ## Executing a command -/

/-- What a client does with a command that is not `connect`. -/
def deliver : CmdKind → ReplayClient → ReplayClient
  | .connect, client => client
  | .send tag data, client => client.replayFrame tag data
  | .endReplay, client => client.onReplayEnd

/-- The frames after which the client waits for an answer. -/
def blocking : CmdKind → Bool
  | .send tag _ => tag = fQuery ∨ tag = fSync
  | .connect | .endReplay => false

/-- What the execution of `cmd` makes of its slot. -/
inductive Executed (config : ReplayConfig) (id : ClientId) (cmd : ConnCommand) (slot : Slot) :
    Option Slot → List Connection → Prop
  | connected (hkind : cmd.kind = .connect) :
      Executed config id cmd slot
        (some { slot with conn := some (openConn id config), awaiting := true })
        slot.conn.toList
  | refused (hkind : cmd.kind = .connect) :
      Executed config id cmd slot none slot.conn.toList
  | unconnected (hkind : cmd.kind ≠ .connect) (hconn : slot.conn = none) :
      Executed config id cmd slot (some slot) []
  | given (hkind : cmd.kind ≠ .connect) {conn : Connection} (hconn : slot.conn = some conn)
      {conn' : Connection} (answers : List WriteAnswer)
      (hgiven : (giveConn cmd.kind (deliver cmd.kind) answers conn).1 = conn')
      (hstate : conn'.client.state ≠ .dead) {burst : Bool} :
      Executed config id cmd slot
        (some { slot with
          conn := some conn'
          awaiting := slot.awaiting || blocking cmd.kind
          burst := burst }) []
  | lost (hkind : cmd.kind ≠ .connect) {conn : Connection} (hconn : slot.conn = some conn)
      {conn' : Connection} (answers : List WriteAnswer)
      (hgiven : (giveConn cmd.kind (deliver cmd.kind) answers conn).1 = conn')
      (hstate : conn'.client.state = .dead) :
      Executed config id cmd slot none [conn']

variable {loop : ReplayLoop} {id : ClientId} {slot : Slot} (md5Hex : List UInt8 → String)
  (catchup : ℕ → ℕ)

theorem executed_connectClient {cmd : ConnCommand} (hkind : cmd.kind = .connect)
    (hslot : loop.slots.lookup id = some slot) :
    ∃ after gone, Executed loop.config id cmd slot after gone ∧
      Becomes id after gone loop (loop.connectClient id) := by
  rw [connectClient]
  by_cases hopened : loop.net.opens.headD true = true
  · rw [if_pos hopened]
    simp only [hslot]
    refine ⟨_, _, .connected hkind, ?_⟩
    exact
      { self := lookup_setSlot
        other := fun _ => lookup_setSlot_ne
        closed := rfl
        timers := rfl
        shift := rfl
        rx := rfl
        lookahead := rfl
        rxClosed := rfl
        ended := rfl
        config := rfl
        lastTs := rfl }
  · rw [if_neg hopened]
    have hdropped : Becomes id none slot.conn.toList
        { loop with net := { loop.net with opens := loop.net.opens.tail } } _ :=
      becomes_dropSlot hslot
    exact ⟨_, _, .refused hkind, { hdropped with }⟩

/-- A slot whose connection has just been given a command is dropped if that
killed it. -/
theorem executed_removeIfDead (loop : ReplayLoop) (id : ClientId) {cmd : ConnCommand}
    (hkind : cmd.kind ≠ .connect) {conn : Connection} (hconn : slot.conn = some conn)
    (answers : List WriteAnswer) {conn' : Connection}
    (hgiven : (giveConn cmd.kind (deliver cmd.kind) answers conn).1 = conn')
    (burst : Bool) (net : Net) :
    ∃ after gone, Executed loop.config id cmd slot after gone ∧
      Becomes id after gone loop
        (removeIfDead id ({ loop with net := net }.setSlot id { slot with
          conn := some conn'
          awaiting := slot.awaiting || blocking cmd.kind
          burst := burst })) := by
  obtain ⟨slot', hslot'⟩ : ∃ slot', { slot with
      conn := some conn'
      awaiting := slot.awaiting || blocking cmd.kind
      burst := burst } = slot' := ⟨_, rfl⟩
  have hconn' : slot'.conn = some conn' := by rw [← hslot']
  have hset := becomes_setSlot loop id slot' net
  rw [hslot', removeIfDead, isDead_eq hset.self hconn']
  by_cases hstate : conn'.client.state = .dead
  · rw [decide_eq_true hstate, if_pos rfl]
    have hdropped := becomes_dropSlot hset.self
    rw [hconn'] at hdropped
    exact ⟨_, _, .lost hkind hconn answers hgiven hstate, hset.trans hdropped⟩
  · rw [decide_eq_false hstate, if_neg (by decide)]
    refine ⟨_, _, ?_, hset⟩
    rw [← hslot']
    exact .given hkind hconn answers hgiven hstate

theorem executed_unconnected {cmd : ConnCommand} (hkind : cmd.kind ≠ .connect)
    (hslot : loop.slots.lookup id = some slot) (hconn : slot.conn = none) :
    ∃ after gone, Executed loop.config id cmd slot after gone ∧
      Becomes id after gone loop (removeIfDead id loop) := by
  have halive : loop.isDead id = false := by
    rw [isDead, hslot, Option.bind_some, hconn, Option.any_none]
  rw [removeIfDead, halive, if_neg (by decide)]
  refine ⟨_, _, .unconnected hkind hconn, ?_⟩
  exact
    { self := hslot
      other := fun _ _ => rfl
      closed := (List.append_nil _).symm
      timers := rfl
      shift := rfl
      rx := rfl
      lookahead := rfl
      rxClosed := rfl
      ended := rfl
      config := rfl
      lastTs := rfl }

/-- `execute` changes the slot of its client as `Executed` says, and nothing else. -/
theorem execute_spec (cmd : ConnCommand) (hslot : loop.slots.lookup id = some slot) :
    ∃ after gone, Executed loop.config id cmd slot after gone ∧
      Becomes id after gone loop (loop.execute id cmd) := by
  rw [execute]
  cases hkind : cmd.kind with
  | connect => exact executed_connectClient hkind hslot
  | send tag data =>
      have hother : cmd.kind ≠ .connect := by simp [hkind]
      cases hconn : slot.conn with
      | none =>
          simp only [hslot, hconn]
          exact executed_unconnected hother hslot hconn
      | some conn =>
          simp only [hslot, hconn]
          have hgiven : (giveConn cmd.kind (deliver cmd.kind) loop.net.writes conn).1 =
              (giveConn (.send tag data) (ReplayClient.replayFrame tag data)
                loop.net.writes conn).1 := by
            rw [hkind]
            rfl
          have hexecuted := executed_removeIfDead loop id hother hconn _ hgiven
            (!decide (tag = fQuery ∨ tag = fSync))
          rw [hkind] at hexecuted
          exact hexecuted _
  | endReplay =>
      have hother : cmd.kind ≠ .connect := by simp [hkind]
      cases hconn : slot.conn with
      | none =>
          simp only [hslot, hconn]
          exact executed_unconnected hother hslot hconn
      | some conn =>
          simp only [hslot, hconn]
          have hgiven : (giveConn cmd.kind (deliver cmd.kind) loop.net.writes conn).1 =
              (giveConn .endReplay ReplayClient.onReplayEnd loop.net.writes conn).1 := by
            rw [hkind]
            rfl
          have hexecuted := executed_removeIfDead loop id hother hconn _ hgiven slot.burst
          rw [hkind] at hexecuted
          simpa only [blocking, Bool.or_false] using hexecuted _

theorem readyAt_of_executed {config : ReplayConfig} {cmd : ConnCommand} {after : Option Slot}
    {gone : List Connection} (hexecuted : Executed config id cmd slot after gone) {slot' : Slot}
    (hafter : after = some slot') : slot'.readyAt = slot.readyAt := by
  cases hexecuted <;> cases hafter <;> rfl

theorem rebase_of_executed {config : ReplayConfig} {cmd : ConnCommand} {after : Option Slot}
    {gone : List Connection} (hexecuted : Executed config id cmd slot after gone) {slot' : Slot}
    (hafter : after = some slot') : slot'.rebase = slot.rebase := by
  cases hexecuted <;> cases hafter <;> rfl

theorem queue_of_executed {config : ReplayConfig} {cmd : ConnCommand} {after : Option Slot}
    {gone : List Connection} (hexecuted : Executed config id cmd slot after gone) {slot' : Slot}
    (hafter : after = some slot') : slot'.queue = slot.queue := by
  cases hexecuted <;> cases hafter <;> rfl

/-! ## Dispatching -/

/-- The slot whose head is looked at: a rebase is done unless the slot is in a
burst. -/
def lookedAt (slot : Slot) : Slot :=
  { slot with rebase := slot.rebase && slot.burst }

/-- The runs of `try_dispatch`, without a bound on their rounds. -/
inductive Dispatched (id : ClientId) (now : ℕ) : ReplayLoop → ReplayLoop → Prop
  | absent {loop : ReplayLoop} (hslot : loop.slots.lookup id = none) :
      Dispatched id now loop loop
  | blocked {loop : ReplayLoop} {slot : Slot} (hslot : loop.slots.lookup id = some slot)
      (hblocked : slot.blocked = true) : Dispatched id now loop loop
  | drained {loop : ReplayLoop} {slot : Slot} (hslot : loop.slots.lookup id = some slot)
      (hqueue : slot.queue = []) : Dispatched id now loop loop
  | waits {loop : ReplayLoop} {slot : Slot} {head : ConnCommand} {queue : List ConnCommand}
      (hslot : loop.slots.lookup id = some slot) (hqueue : slot.queue = head :: queue)
      (hdue : now < head.ts + (loop.rebased slot head).shift) :
      Dispatched id now loop
        (((loop.rebased slot head).setSlot id (lookedAt slot)).pushTimer (head.ts, id))
  | turn {loop last : ReplayLoop} {slot : Slot} {head : ConnCommand} {queue : List ConnCommand}
      (hslot : loop.slots.lookup id = some slot) (hblocked : slot.blocked = false)
      (hqueue : slot.queue = head :: queue)
      (hrest : Dispatched id now
        (((loop.rebased slot head).setSlot id { lookedAt slot with queue := queue }).execute
          id head) last) :
      Dispatched id now loop last

/-- `rebased` changes the shift only, and only makes it longer. -/
theorem rebased_eq (slot : Slot) (head : ConnCommand) (loop : ReplayLoop) :
    ∃ shift, loop.shift ≤ shift ∧ loop.rebased slot head = { loop with shift := shift } := by
  rw [rebased]
  split_ifs with hrebase
  · exact ⟨_, le_max_left _ _, rfl⟩
  · exact ⟨_, le_refl _, rfl⟩

/-- One round of `try_dispatch` that executes a command. -/
theorem turn_spec (loop : ReplayLoop) (id : ClientId) (slot : Slot) (head : ConnCommand)
    (queue : List ConnCommand) :
    ∃ after gone,
      Executed loop.config id head { lookedAt slot with queue := queue } after gone ∧
        Becomes id after gone (loop.rebased slot head)
          (((loop.rebased slot head).setSlot id { lookedAt slot with queue := queue }).execute
            id head) := by
  obtain ⟨shift, -, hrebased⟩ := rebased_eq slot head loop
  obtain ⟨slot', hslot'⟩ : ∃ slot', { lookedAt slot with queue := queue } = slot' := ⟨_, rfl⟩
  rw [hrebased, hslot']
  have hcurrent : ({ loop with shift := shift }.setSlot id slot').slots.lookup id = some slot' :=
    lookup_setSlot
  obtain ⟨after, gone, hexecuted, hbecomes⟩ := execute_spec head hcurrent
  have hset := becomes_setSlot { loop with shift := shift } id slot' loop.net
  exact ⟨after, gone, hexecuted, hset.trans hbecomes⟩

/-- Every round takes a command from the queue. -/
theorem queueLength_turn_lt {head : ConnCommand} {queue : List ConnCommand}
    (hslot : loop.slots.lookup id = some slot) (hqueue : slot.queue = head :: queue) :
    (((loop.rebased slot head).setSlot id { lookedAt slot with queue := queue }).execute
      id head).queueLength id < loop.queueLength id := by
  obtain ⟨after, gone, hexecuted, hbecomes⟩ :=
    turn_spec loop id slot head queue
  rw [queueLength, queueLength, hbecomes.self, hslot, Option.map_some, Option.getD_some, hqueue]
  cases hafter : after with
  | none => exact Nat.succ_pos _
  | some slot' =>
      rw [Option.map_some, Option.getD_some, queue_of_executed hexecuted hafter]
      exact Nat.lt_succ_self _

theorem dispatched_dispatchRounds {now rounds : ℕ} (hrounds : loop.queueLength id < rounds) :
    Dispatched id now loop (dispatchRounds id now rounds loop) := by
  induction rounds generalizing loop with
  | zero => exact absurd hrounds (Nat.not_lt_zero _)
  | succ rounds ih =>
      have hfewer {slot : Slot} {head : ConnCommand} {queue : List ConnCommand}
          (hslot : loop.slots.lookup id = some slot) (hqueue : slot.queue = head :: queue) :=
        (queueLength_turn_lt hslot hqueue).trans_le (Nat.le_of_lt_succ hrounds)
      rw [dispatchRounds]
      cases hslot : loop.slots.lookup id with
      | none => exact .absent hslot
      | some slot =>
          by_cases hblocked : slot.blocked = true
          · simp only [hblocked, if_true]
            exact .blocked hslot hblocked
          · cases hqueue : slot.queue with
            | nil =>
                simp only [hblocked, hqueue]
                exact .drained hslot hqueue
            | cons head queue =>
                simp only [hblocked, hqueue]
                change Dispatched id now loop (if (if slot.burst = true then now
                  else head.ts + (loop.rebased slot head).shift) > now then _ else _)
                split_ifs with hburst hdue hdue
                · exact absurd hdue (lt_irrefl now)
                · exact .turn hslot (eq_false_of_ne_true hblocked) hqueue (ih (hfewer hslot hqueue))
                · have hlooked : lookedAt slot = ⟨head :: queue, slot.awaiting,
                      slot.rebase && slot.burst, slot.burst, slot.readyAt, slot.conn⟩ := by
                    rw [lookedAt, hqueue]
                  rw [← hlooked]
                  exact .waits hslot hqueue hdue
                · exact .turn hslot (eq_false_of_ne_true hblocked) hqueue (ih (hfewer hslot hqueue))

/-- `try_dispatch` stops for a reason, never for want of rounds. -/
theorem dispatched_tryDispatch (loop : ReplayLoop) (id : ClientId) (now : ℕ) :
    Dispatched id now loop (loop.tryDispatch id now) :=
  dispatched_dispatchRounds (Nat.lt_succ_self _)

/-- A rule for `dispatch_ready`: what popping a due timer and dispatching its client
keeps, all rounds keep. -/
theorem dispatchTimers_invariant {Inv : ReplayLoop → Prop} {now rounds : ℕ}
    (hround : ∀ loop ts id timers, Inv loop → loop.timers = (ts, id) :: timers →
      ts + loop.shift ≤ now → Inv ({ loop with timers := timers }.tryDispatch id now))
    (hinv : Inv loop) : Inv (dispatchTimers now rounds loop) := by
  induction rounds generalizing loop with
  | zero => exact hinv
  | succ rounds ih =>
      rw [dispatchTimers]
      cases htimers : loop.timers with
      | nil => exact hinv
      | cons entry timers =>
          obtain ⟨ts, next⟩ := entry
          dsimp only
          split_ifs with hdue
          · exact hinv
          · exact ih (hround loop ts next timers hinv htimers (not_lt.mp hdue))

/-! ## Taking commands -/

/-- An invariant that does not read the inputs of the loop and is kept when a command
is added to the queue of a client, which may be new. -/
structure KeptByPush (Inv : ReplayLoop → Prop) : Prop where
  inputs : ∀ (loop : ReplayLoop) rx lookahead rxClosed ended lastTs, Inv loop →
    Inv { loop with
      rx := rx
      lookahead := lookahead
      rxClosed := rxClosed
      ended := ended
      lastTs := lastTs }
  push : ∀ (loop : ReplayLoop) id cmd slot, Inv loop →
    (loop.slots.lookup id = some slot ∨ loop.slots.lookup id = none ∧ slot = Slot.new) →
    Inv (loop.pushBack id cmd slot)

section KeptByPush

variable {Inv : ReplayLoop → Prop} (hkept : KeptByPush Inv) (hinv : Inv loop)
include hkept hinv

theorem KeptByPush.enqueue (cmd : ConnCommand) : Inv (loop.enqueue cmd) := by
  rw [ReplayLoop.enqueue]
  cases hslot : loop.slots.lookup cmd.id with
  | some slot => exact hkept.push _ _ _ _ hinv (.inl hslot)
  | none =>
      dsimp only
      split_ifs with hkind
      · exact hkept.push _ _ _ _ hinv (.inr ⟨hslot, rfl⟩)
      · exact hinv

theorem KeptByPush.receive {senderGone : Bool} {clock : List ℕ} :
    Inv (loop.receive senderGone clock) := by
  induction clock generalizing loop with
  | nil =>
      rw [ReplayLoop.receive]
      split_ifs with hgone
      · exact hkept.inputs _ _ _ _ _ _ hinv
      · exact hinv
  | cons now clock ih =>
      rw [ReplayLoop.receive]
      cases hrx : loop.rx with
      | nil =>
          dsimp only
          split_ifs with hgone
          · exact hrx ▸ hkept.inputs loop loop.rx _ _ _ _ hinv
          · exact hinv
      | cons cmd rx =>
          dsimp only
          split_ifs with hearly
          · exact hkept.inputs _ _ _ _ _ _ hinv
          · exact ih (hkept.enqueue (hkept.inputs _ _ _ _ _ _ hinv) cmd)

theorem KeptByPush.pull {senderGone : Bool} {now : ℕ} {clock : List ℕ} :
    Inv (loop.pull senderGone now clock) := by
  rw [ReplayLoop.pull]
  cases hlookahead : loop.lookahead with
  | none => exact hkept.receive hinv
  | some cmd =>
      dsimp only
      split_ifs with hearly
      · exact hinv
      · exact hkept.receive (hkept.enqueue (hkept.inputs _ _ _ _ _ _ hinv) cmd)

theorem KeptByPush.finishClients : Inv loop.finishClients := by
  have hfold : ∀ ids : List ClientId, ∀ loop, Inv loop → Inv (ids.foldl finishClient loop) := by
    intro ids
    induction ids with
    | nil => exact fun _ hloop => hloop
    | cons id ids ih =>
        intro loop hloop
        apply ih
        rw [finishClient]
        cases hslot : loop.slots.lookup id with
        | none => exact hloop
        | some slot => exact hkept.push _ _ _ _ hloop (.inl hslot)
  exact hfold _ _ (hkept.inputs _ _ _ _ _ _ hinv)

end KeptByPush

/-! ## Readiness events -/

/-- A connection whose answer has been taken note of. -/
def answered (conn : Connection) : Connection :=
  { conn with client := { conn.client with rfq := false } }

/-- What an event makes of a slot that it serves: read, flush, take note of the
answer. -/
structure Served (now : ℕ) (reads : List ReadAnswer) (slot : Slot) (conn conn' : Connection)
    (slot' : Slot) : Prop where
  read : ∃ answers middle, readConn md5Hex reads conn = some middle ∧
    (flushConn answers middle).1 = conn'
  queue : slot'.queue = slot.queue
  burst : slot'.burst = slot.burst
  conn : slot'.conn = some (answered conn')
  awaiting : slot'.awaiting = (slot.awaiting && !conn'.client.rfq)
  readyAt : slot'.readyAt = slot.readyAt ∨ slot'.readyAt = now

theorem answered_eq_self {conn : Connection} (hrfq : conn.client.rfq = false) :
    answered conn = conn := by
  rw [answered, ← hrfq]

theorem serveConn_spec {now : ℕ} {reads : List ReadAnswer} {conn : Connection}
    {loop' : ReplayLoop} (hserve : loop.serveConn md5Hex id now reads slot conn = some loop') :
    ∃ conn' slot', Served md5Hex now reads slot conn conn' slot' ∧
      (conn'.client.state = .dead ∧ Becomes id none [answered conn'] loop loop' ∨
        conn'.client.state ≠ .dead ∧ ∃ middle, Becomes id (some slot') [] loop middle ∧
          loop' = middle.tryDispatch id now) := by
  rw [serveConn] at hserve
  obtain ⟨middle, hread, hserve⟩ := Option.bind_eq_some_iff.mp hserve
  obtain ⟨conn', hconn'⟩ : ∃ conn', (flushConn loop.net.writes middle).1 = conn' := ⟨_, rfl⟩
  simp only [hconn'] at hserve
  obtain ⟨slot', hslot', hserved⟩ : ∃ slot', (if conn'.client.rfq then
      { slot with
        conn := some { conn' with client := { conn'.client with rfq := false } }
        awaiting := false
        rebase := true
        readyAt := now }
      else { slot with conn := some conn' }) = slot' ∧
        Served md5Hex now reads slot conn conn' slot' := by
    refine ⟨_, rfl, ?_⟩
    cases hrfq : conn'.client.rfq with
    | true => exact ⟨⟨_, _, hread, hconn'⟩, rfl, rfl, rfl, by simp [hrfq], .inr rfl⟩
    | false =>
        exact ⟨⟨_, _, hread, hconn'⟩, rfl, rfl, by simp [answered_eq_self hrfq], by simp [hrfq],
          .inl rfl⟩
  rw [hslot'] at hserve
  have hset := becomes_setSlot loop id slot' { loop.net with
    writes := (flushConn loop.net.writes middle).2 }
  have hdead := isDead_eq hset.self hserved.conn
  refine ⟨conn', slot', hserved, ?_⟩
  rw [hdead] at hserve
  by_cases hstate : conn'.client.state = .dead
  · have hstate' : decide ((answered conn').client.state = .dead) = true :=
      decide_eq_true hstate
    rw [hstate', if_pos rfl, removeIfDead, hdead, hstate', if_pos rfl] at hserve
    cases hserve
    have hdropped := becomes_dropSlot hset.self
    rw [hserved.conn] at hdropped
    exact .inl ⟨hstate, hset.trans hdropped⟩
  · have hstate' : decide ((answered conn').client.state = .dead) = false :=
      decide_eq_false hstate
    rw [hstate', if_neg (by decide)] at hserve
    cases hserve
    exact .inr ⟨hstate, _, hset, rfl⟩

/-- The clock tick changes the tick, and the shift, which it only makes shorter. -/
theorem catchUp_eq (now : ℕ) (loop : ReplayLoop) :
    ∃ shift lastTick, shift ≤ loop.shift ∧ loop.catchUp catchup now =
      { loop with shift := shift, lastTick := lastTick } := by
  rw [catchUp]
  split_ifs with hshift
  · exact ⟨_, _, le_rfl, rfl⟩
  · dsimp only
    split_ifs with hticks
    · exact ⟨_, _, Nat.sub_le _ _, rfl⟩
    · exact ⟨_, _, le_rfl, rfl⟩

/-- What an event does after the clock tick. -/
inductive Handled (now : ℕ) (event : Event) (loop : ReplayLoop) : ReplayLoop → Prop
  | ignored : Handled now event loop loop
  | failed {id : ClientId} {slot : Slot} (htoken : event.token = some id)
      (hslot : loop.slots.lookup id = some slot) {loop' : ReplayLoop}
      (hbecomes : Becomes id none slot.conn.toList loop loop') : Handled now event loop loop'
  | served {id : ClientId} {slot : Slot} {conn conn₀ : Connection}
      (htoken : event.token = some id) (hslot : loop.slots.lookup id = some slot)
      (hconn : slot.conn = some conn)
      (hconnected : conn₀ = { conn with connected := true }) {conn' : Connection} {slot' : Slot}
      (hserved : Served md5Hex now event.reads slot conn₀ conn' slot') {loop' : ReplayLoop}
      (hafter : conn'.client.state = .dead ∧ Becomes id none [answered conn'] loop loop' ∨
        conn'.client.state ≠ .dead ∧ ∃ middle, Becomes id (some slot') [] loop middle ∧
          loop' = middle.tryDispatch id now) : Handled now event loop loop'

theorem handleEvent_spec {now : ℕ} {event : Event} {loop' : ReplayLoop}
    (hevent : loop.handleEvent md5Hex catchup now event = some loop') :
    ∃ shift lastTick, shift ≤ loop.shift ∧
      Handled md5Hex now event { loop with shift := shift, lastTick := lastTick } loop' := by
  rw [handleEvent] at hevent
  cases htoken : event.token with
  | none =>
      rw [htoken] at hevent
      cases hevent
      exact ⟨_, _, le_rfl, .ignored⟩
  | some id =>
      obtain ⟨shift, lastTick, hshorter, hticked⟩ := catchUp_eq catchup now loop
      refine ⟨shift, lastTick, hshorter, ?_⟩
      rw [htoken] at hevent
      simp only [hticked] at hevent
      obtain ⟨ticked, hloop⟩ : ∃ ticked,
          { loop with shift := shift, lastTick := lastTick } = ticked := ⟨_, rfl⟩
      have hslots : ticked.slots = loop.slots := by rw [← hloop]
      rw [hloop, ← hslots] at hevent
      rw [hloop]
      cases hslot : ticked.slots.lookup id with
      | none =>
          simp only [hslot] at hevent
          cases hevent
          exact .ignored
      | some slot =>
          simp only [hslot] at hevent
          cases hconn : slot.conn with
          | none =>
              simp only [hconn] at hevent
              cases hevent
              exact .ignored
          | some conn =>
              simp only [hconn] at hevent
              by_cases hconnected : conn.connected = true
              · rw [if_pos hconnected] at hevent
                obtain ⟨conn', slot', hserved, hafter⟩ := serveConn_spec md5Hex hevent
                exact .served htoken hslot hconn (by rw [← hconnected]) hserved hafter
              · rw [if_neg hconnected] at hevent
                cases hconnecting : event.connecting with
                | waiting =>
                    simp only [hconnecting] at hevent
                    cases hevent
                    exact .ignored
                | failed =>
                    simp only [hconnecting] at hevent
                    cases hevent
                    exact .failed htoken hslot (becomes_dropSlot hslot)
                | connected =>
                    simp only [hconnecting] at hevent
                    obtain ⟨conn', slot', hserved, hafter⟩ := serveConn_spec md5Hex hevent
                    exact .served htoken hslot hconn rfl hserved hafter

end Pgr.Dispatch
