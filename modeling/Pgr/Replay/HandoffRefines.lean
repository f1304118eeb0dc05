import Pgr.Replay.Handoff
import Pgr.Replay.Fidelity

/-!
# The two threads against the loop alone

The results about the loop are about a channel that holds all commands from the start.
With the reading thread beside it the loop does nothing else: its handlers do not look at
the channel, and a round of `pull` that finds it empty is no step at all.  What the
channel has taken is a prefix of the commands of the capture, in their order.
-/

namespace Pgr.HandoffRefines

open Pgr.Capture Pgr.Manager Pgr.Client Pgr.Loop Pgr.Loop.ReplayLoop Pgr.Transition Pgr.Handoff
open Pgr.Fidelity Pgr.Accounting Pgr.OneClient

variable (md5Hex : List UInt8 → String) (catchup : ℕ → ℕ)

/-! ## What does not look at the inputs -/

/-- What the loop has from the channel. -/
structure Inputs where
  rx : List ConnCommand
  lookahead : Option ConnCommand
  rxClosed : Bool
  ended : Bool
  lastTs : ℕ

def inputsOf (loop : ReplayLoop) : Inputs :=
  ⟨loop.rx, loop.lookahead, loop.rxClosed, loop.ended, loop.lastTs⟩

def withInputs (inputs : Inputs) (loop : ReplayLoop) : ReplayLoop :=
  { loop with
    rx := inputs.rx
    lookahead := inputs.lookahead
    rxClosed := inputs.rxClosed
    ended := inputs.ended
    lastTs := inputs.lastTs }

section Inputs

variable (inputs : Inputs) (loop : ReplayLoop)

@[simp]
theorem slots_withInputs : (withInputs inputs loop).slots = loop.slots :=
  rfl

@[simp]
theorem shift_withInputs : (withInputs inputs loop).shift = loop.shift :=
  rfl

@[simp]
theorem lastTick_withInputs : (withInputs inputs loop).lastTick = loop.lastTick :=
  rfl

@[simp]
theorem net_withInputs : (withInputs inputs loop).net = loop.net :=
  rfl

@[simp]
theorem timers_withInputs : (withInputs inputs loop).timers = loop.timers :=
  rfl

theorem catchUp_withInputs (now : ℕ) :
    (withInputs inputs loop).catchUp catchup now =
      withInputs inputs (loop.catchUp catchup now) := by
  by_cases hshift : loop.shift = 0
  · rw [catchUp, catchUp, if_pos hshift]
    exact if_pos hshift
  · rw [catchUp, catchUp, if_neg hshift,
      if_neg (show ¬(withInputs inputs loop).shift = 0 from hshift)]
    by_cases hticks : 0 < catchup (now - loop.lastTick)
    · simp only [lastTick_withInputs, hticks, if_true]
      rfl
    · simp only [lastTick_withInputs, hticks, if_false]

theorem setSlot_withInputs (id : ClientId) (slot : Slot) :
    (withInputs inputs loop).setSlot id slot = withInputs inputs (loop.setSlot id slot) :=
  rfl

theorem schedule_withInputs (id : ClientId) :
    (withInputs inputs loop).schedule id = withInputs inputs (loop.schedule id) := by
  simp only [schedule, slots_withInputs]
  cases loop.slots.lookup id with
  | none => rfl
  | some slot =>
      by_cases hblocked : slot.blocked = true
      · simp only [hblocked, if_true]
      · simp only [hblocked]
        cases slot.queue <;> rfl

theorem pushBack_withInputs (id : ClientId) (cmd : ConnCommand) (slot : Slot) :
    (withInputs inputs loop).pushBack id cmd slot =
      withInputs inputs (loop.pushBack id cmd slot) := by
  simp only [pushBack, setSlot_withInputs, schedule_withInputs]
  exact (apply_ite (withInputs inputs) ((slot.queue ++ [cmd]).length = 1) _ _).symm

theorem enqueue_withInputs (cmd : ConnCommand) :
    (withInputs inputs loop).enqueue cmd = withInputs inputs (loop.enqueue cmd) := by
  simp only [enqueue, slots_withInputs]
  cases loop.slots.lookup cmd.id with
  | some slot => exact pushBack_withInputs inputs loop cmd.id cmd slot
  | none =>
      dsimp only
      split_ifs
      · exact pushBack_withInputs inputs loop cmd.id cmd Slot.new
      · rfl

/-- Neither do the handlers change them. -/
theorem inputsOf_of_natural {handler : ReplayLoop → ReplayLoop}
    (hnatural : ∀ inputs loop,
      handler (withInputs inputs loop) = withInputs inputs (handler loop)) :
    inputsOf (handler loop) = inputsOf loop :=
  calc inputsOf (handler loop)
      _ = inputsOf (withInputs (inputsOf loop) (handler loop)) :=
        congrArg inputsOf (hnatural (inputsOf loop) loop)
      _ = inputsOf loop := rfl

theorem inputsOf_enqueue (cmd : ConnCommand) : inputsOf (loop.enqueue cmd) = inputsOf loop :=
  inputsOf_of_natural loop fun inputs loop => enqueue_withInputs inputs loop cmd

theorem inputsOf_pushBack (id : ClientId) (cmd : ConnCommand) (slot : Slot) :
    inputsOf (loop.pushBack id cmd slot) = inputsOf loop :=
  inputsOf_of_natural loop fun inputs loop => pushBack_withInputs inputs loop id cmd slot

theorem inputsOf_finishClient (id : ClientId) :
    inputsOf (finishClient loop id) = inputsOf loop := by
  rw [finishClient]
  cases loop.slots.lookup id with
  | none => rfl
  | some slot => exact inputsOf_pushBack loop id _ slot

theorem inputsOf_finishClients :
    inputsOf loop.finishClients = { inputsOf loop with ended := true } := by
  have hall (ids : List ClientId) (loop : ReplayLoop) :
      inputsOf (ids.foldl finishClient loop) = inputsOf loop := by
    induction ids generalizing loop with
    | nil => rfl
    | cons id ids ih => rw [List.foldl_cons, ih, inputsOf_finishClient]
  rw [finishClients, hall]
  rfl

theorem dropSlot_withInputs (id : ClientId) :
    (withInputs inputs loop).dropSlot id = withInputs inputs (loop.dropSlot id) := by
  simp only [dropSlot, slots_withInputs]
  cases loop.slots.lookup id <;> rfl

theorem removeIfDead_withInputs (id : ClientId) :
    (withInputs inputs loop).removeIfDead id = withInputs inputs (loop.removeIfDead id) := by
  simp only [removeIfDead]
  change (if loop.isDead id = true then _ else _) = _
  split_ifs
  · exact dropSlot_withInputs inputs loop id
  · rfl

theorem connectClient_withInputs (id : ClientId) :
    (withInputs inputs loop).connectClient id = withInputs inputs (loop.connectClient id) := by
  by_cases hopened : loop.net.opens.headD true = true
  · simp only [connectClient, net_withInputs, slots_withInputs, hopened, if_true]
    cases loop.slots.lookup id <;> rfl
  · simp only [connectClient, net_withInputs, hopened]
    exact dropSlot_withInputs inputs
      { loop with net := { loop.net with opens := loop.net.opens.tail } } id

theorem execute_withInputs (id : ClientId) (cmd : ConnCommand) :
    (withInputs inputs loop).execute id cmd = withInputs inputs (loop.execute id cmd) := by
  simp only [execute]
  cases cmd.kind with
  | connect => exact connectClient_withInputs inputs loop id
  | send tag data =>
      dsimp only
      rw [← removeIfDead_withInputs]
      congr 1
      simp only [slots_withInputs, net_withInputs]
      cases loop.slots.lookup id with
      | none => rfl
      | some slot =>
          dsimp only
          cases slot.conn <;> rfl
  | endReplay =>
      dsimp only
      rw [← removeIfDead_withInputs]
      congr 1
      simp only [slots_withInputs, net_withInputs]
      cases loop.slots.lookup id with
      | none => rfl
      | some slot =>
          dsimp only
          cases slot.conn <;> rfl

theorem rebased_withInputs (slot : Slot) (head : ConnCommand) :
    (withInputs inputs loop).rebased slot head = withInputs inputs (loop.rebased slot head) := by
  rw [rebased, rebased]
  split_ifs <;> rfl

theorem dispatchRounds_withInputs (id : ClientId) (now rounds : ℕ) :
    dispatchRounds id now rounds (withInputs inputs loop) =
      withInputs inputs (dispatchRounds id now rounds loop) := by
  induction rounds generalizing loop with
  | zero => rfl
  | succ rounds ih =>
      simp only [dispatchRounds, slots_withInputs]
      cases loop.slots.lookup id with
      | none => rfl
      | some slot =>
          dsimp only
          by_cases hblocked : slot.blocked = true
          · simp only [hblocked, if_true]
          · simp only [hblocked]
            cases slot.queue with
            | nil => rfl
            | cons head queue =>
                simp only [rebased_withInputs, shift_withInputs, gt_iff_lt]
                by_cases hdue :
                    now < if slot.burst then now else head.ts + (loop.rebased slot head).shift
                · simp only [hdue, if_true]
                  rfl
                · simp only [hdue, if_false, setSlot_withInputs, execute_withInputs, ih]
                  rfl

theorem tryDispatch_withInputs (id : ClientId) (now : ℕ) :
    (withInputs inputs loop).tryDispatch id now = withInputs inputs (loop.tryDispatch id now) :=
  dispatchRounds_withInputs inputs loop id now _

theorem dispatchTimers_withInputs (now rounds : ℕ) :
    dispatchTimers now rounds (withInputs inputs loop) =
      withInputs inputs (dispatchTimers now rounds loop) := by
  induction rounds generalizing loop with
  | zero => rfl
  | succ rounds ih =>
      simp only [dispatchTimers, timers_withInputs, shift_withInputs]
      cases loop.timers with
      | nil => rfl
      | cons entry timers =>
          obtain ⟨ts, id⟩ := entry
          by_cases hdue : ts + loop.shift > now
          · simp only [hdue, if_true]
          · simp only [hdue, if_false]
            rw [← ih]
            congr 1
            exact tryDispatch_withInputs inputs { loop with timers := timers } id now

theorem dispatchReady_withInputs (now : ℕ) :
    (withInputs inputs loop).dispatchReady catchup now =
      withInputs inputs (loop.dispatchReady catchup now) := by
  rw [dispatchReady, catchUp_withInputs]
  exact dispatchTimers_withInputs inputs _ now _

theorem serveConn_withInputs (id : ClientId) (now : ℕ) (reads : List ReadAnswer) (slot : Slot)
    (conn : Connection) : (withInputs inputs loop).serveConn md5Hex id now reads slot conn =
      (loop.serveConn md5Hex id now reads slot conn).map (withInputs inputs) := by
  have hend (after : ReplayLoop) :
      (if (withInputs inputs after).isDead id then some ((withInputs inputs after).removeIfDead id)
        else some ((withInputs inputs after).tryDispatch id now)) =
      (if after.isDead id then some (after.removeIfDead id)
        else some (after.tryDispatch id now)).map (withInputs inputs) := by
    have hdead : (withInputs inputs after).isDead id = after.isDead id := rfl
    rw [hdead, removeIfDead_withInputs, tryDispatch_withInputs]
    split_ifs <;> rfl
  rw [serveConn, serveConn]
  cases readConn md5Hex reads conn with
  | none => rfl
  | some middle =>
      symm
      exact (hend _).symm

theorem handleEvent_withInputs (now : ℕ) (event : Event) :
    (withInputs inputs loop).handleEvent md5Hex catchup now event =
      (loop.handleEvent md5Hex catchup now event).map (withInputs inputs) := by
  simp only [handleEvent]
  cases event.token with
  | none => rfl
  | some id =>
      simp only [catchUp_withInputs, slots_withInputs]
      cases (loop.catchUp catchup now).slots.lookup id with
      | none => rfl
      | some slot =>
          dsimp only
          cases slot.conn with
          | none => rfl
          | some conn =>
              dsimp only
              by_cases hconnected : conn.connected = true
              · simp only [hconnected, if_true]
                exact serveConn_withInputs md5Hex inputs _ id now event.reads slot conn
              · simp only [hconnected]
                cases event.connecting with
                | waiting => rfl
                | failed => exact congrArg some (dropSlot_withInputs inputs _ id)
                | connected => exact serveConn_withInputs md5Hex inputs _ id now event.reads slot _

theorem inputsOf_dispatchReady (now : ℕ) :
    inputsOf (loop.dispatchReady catchup now) = inputsOf loop :=
  inputsOf_of_natural loop fun inputs loop => dispatchReady_withInputs catchup inputs loop now

variable {md5Hex catchup loop}

theorem inputsOf_handleEvent {now : ℕ} {event : Event} {loop' : ReplayLoop}
    (hevent : loop.handleEvent md5Hex catchup now event = some loop') :
    inputsOf loop' = inputsOf loop := by
  have hnatural := handleEvent_withInputs md5Hex catchup (inputsOf loop) loop now event
  have hsame : withInputs (inputsOf loop) loop = loop := rfl
  rw [hsame, hevent, Option.map_some] at hnatural
  calc inputsOf loop'
      _ = inputsOf (withInputs (inputsOf loop) loop') :=
        congrArg inputsOf (Option.some.inj hnatural)
      _ = inputsOf loop := rfl

end Inputs

/-! ## The loop alone -/

def withRx (rx : List ConnCommand) (loop : ReplayLoop) : ReplayLoop :=
  { loop with rx := rx }

theorem withRx_of_natural {handler : ReplayLoop → ReplayLoop}
    (hnatural : ∀ inputs loop, handler (withInputs inputs loop) = withInputs inputs (handler loop))
    (rx : List ConnCommand) (loop : ReplayLoop) :
    handler (withRx rx loop) = withRx rx (handler loop) := by
  calc handler (withRx rx loop)
      _ = withInputs { inputsOf loop with rx := rx } (handler loop) :=
        hnatural { inputsOf loop with rx := rx } loop
      _ = withInputs { inputsOf (handler loop) with rx := rx } (handler loop) := by
        rw [inputsOf_of_natural loop hnatural]
      _ = withRx rx (handler loop) := rfl

theorem enqueue_withRx (rx : List ConnCommand) (loop : ReplayLoop) (cmd : ConnCommand) :
    (withRx rx loop).enqueue cmd = withRx rx (loop.enqueue cmd) :=
  withRx_of_natural (fun inputs loop => enqueue_withInputs inputs loop cmd) rx loop

theorem dispatchReady_withRx (rx : List ConnCommand) (loop : ReplayLoop) (now : ℕ) :
    (withRx rx loop).dispatchReady catchup now = withRx rx (loop.dispatchReady catchup now) :=
  withRx_of_natural (fun inputs loop => dispatchReady_withInputs catchup inputs loop now) rx loop

variable {md5Hex catchup} in
theorem handleEvent_withRx (rx : List ConnCommand) {loop loop' : ReplayLoop} {now : ℕ}
    {event : Event} (hevent : loop.handleEvent md5Hex catchup now event = some loop') :
    (withRx rx loop).handleEvent md5Hex catchup now event = some (withRx rx loop') := by
  calc (withRx rx loop).handleEvent md5Hex catchup now event
      _ = some (withInputs { inputsOf loop with rx := rx } loop') := by
        rw [← Option.map_some, ← hevent]
        exact handleEvent_withInputs md5Hex catchup { inputsOf loop with rx := rx } loop now event
      _ = some (withInputs { inputsOf loop' with rx := rx } loop') := by
        rw [inputsOf_handleEvent hevent]
      _ = some (withRx rx loop') := rfl

/-- On a channel that holds `pushed`, and more if it is not closed, the loop alone comes to
the same state. -/
def Alone (config : ReplayConfig) (pushed : List ConnCommand) (loop : ReplayLoop) : Prop :=
  ∀ extra, (loop.rxClosed = true → extra = []) →
    Reachable (ReplayLoop.step md5Hex catchup) (ReplayLoop.new config (pushed ++ extra))
      (withRx (loop.rx ++ extra) loop)

variable {md5Hex catchup} {config : ReplayConfig} {pushed : List ConnCommand}
  {loop loop' : ReplayLoop}

theorem Alone.reachable (halone : Alone md5Hex catchup config pushed loop) :
    Reachable (ReplayLoop.step md5Hex catchup) (ReplayLoop.new config pushed) loop := by
  have hnone := halone [] fun _ => rfl
  rwa [List.append_nil, List.append_nil] at hnone

theorem Alone.put (halone : Alone md5Hex catchup config pushed loop) (cmd : ConnCommand)
    (hopen : loop.rxClosed = false) :
    Alone md5Hex catchup config (pushed ++ [cmd]) (withRx (loop.rx ++ [cmd]) loop) := by
  intro extra _
  have hmore := halone (cmd :: extra) fun hclosed => by
    rw [hopen] at hclosed
    cases hclosed
  simpa [withRx] using hmore

/-- A call that does the same on every channel that it may look at. -/
theorem Alone.call (halone : Alone md5Hex catchup config pushed loop)
    (hclosed : loop.rxClosed = true → loop'.rxClosed = true) (call : Call)
    (hcall : ∀ extra, (loop'.rxClosed = true → extra = []) →
      ReplayLoop.step md5Hex catchup (withRx (loop.rx ++ extra) loop) call =
        some (withRx (loop'.rx ++ extra) loop')) :
    Alone md5Hex catchup config pushed loop' := by
  intro extra hextra
  exact Reaches.tail (halone extra fun h => hextra (hclosed h)) trivial (hcall extra hextra)

/-! ## The handlers -/

theorem Alone.enqueue (halone : Alone md5Hex catchup config pushed loop) (cmd : ConnCommand)
    (after : ReplayLoop) (hafter : after.rxClosed = loop.rxClosed) (call : Call)
    (hcall : ∀ extra, ReplayLoop.step md5Hex catchup (withRx (loop.rx ++ extra) loop) call =
      some ((withRx (after.rx ++ extra) after).enqueue cmd)) :
    Alone md5Hex catchup config pushed (after.enqueue cmd) := by
  have hinputs := inputsOf_enqueue after cmd
  have hclosed : (after.enqueue cmd).rxClosed = after.rxClosed :=
    congrArg Inputs.rxClosed hinputs
  have hrx : (after.enqueue cmd).rx = after.rx := congrArg Inputs.rx hinputs
  apply halone.call (fun h => by rwa [hclosed, hafter]) call
  intro extra _
  rw [hcall, enqueue_withRx, hrx]

/-- A round of `pull` is a call of `pull`, or nothing. -/
theorem Alone.round (halone : Alone md5Hex catchup config pushed loop) (senderGone : Bool)
    (now : ℕ) :
    Alone md5Hex catchup config pushed (pullRound senderGone now loop).1 := by
  rw [Handoff.pullRound]
  cases hlookahead : loop.lookahead with
  | some cmd =>
      dsimp only
      split_ifs with hearly
      · exact halone
      · apply halone.enqueue cmd { loop with lookahead := none, lastTs := cmd.ts } rfl
          (.pull false now [])
        intro extra
        simp [ReplayLoop.step, ReplayLoop.pull, receive, withRx, hlookahead, hearly]
  | none =>
      dsimp only
      cases hrx : loop.rx with
      | nil =>
          dsimp only
          split_ifs with hgone
          · apply halone.call (fun _ => rfl) (.pull true now [])
            intro extra hextra
            simp [ReplayLoop.step, ReplayLoop.pull, receive, withRx, hlookahead, hrx, hextra rfl]
          · exact halone
      | cons cmd rx =>
          dsimp only
          split_ifs with hearly
          · dsimp only
            refine halone.call (fun h => h) (.pull false now []) ?_
            intro extra _
            simp [ReplayLoop.step, ReplayLoop.pull, receive, withRx, hlookahead, hrx, hearly]
          · apply halone.enqueue cmd
              { loop with rx := rx, lookahead := none, lastTs := cmd.ts } rfl
              (.pull false now [])
            intro extra
            simp [ReplayLoop.step, ReplayLoop.pull, receive, withRx, hlookahead, hrx, hearly]

theorem Alone.handleEvent (halone : Alone md5Hex catchup config pushed loop) {now : ℕ}
    {event : Event} {net : Net}
    (hevent : { loop with net := net }.handleEvent md5Hex catchup now event = some loop') :
    Alone md5Hex catchup config pushed loop' := by
  have hinputs := inputsOf_handleEvent hevent
  have hclosed : loop'.rxClosed = loop.rxClosed := congrArg Inputs.rxClosed hinputs
  have hrx : loop'.rx = loop.rx := congrArg Inputs.rx hinputs
  apply halone.call (fun h => hclosed.trans h) (.handleEvent now event net)
  intro extra _
  rw [hrx]
  exact handleEvent_withRx (loop.rx ++ extra) hevent

theorem Alone.dispatchReady (halone : Alone md5Hex catchup config pushed loop) (now : ℕ)
    (net : Net) :
    Alone md5Hex catchup config pushed ({ loop with net := net }.dispatchReady catchup now) := by
  have hinputs := inputsOf_dispatchReady catchup { loop with net := net } now
  have hclosed := congrArg Inputs.rxClosed hinputs
  have hrx := congrArg Inputs.rx hinputs
  apply halone.call (fun h => Eq.trans hclosed h) (.dispatchReady now net)
  intro extra _
  have hsame : ({ loop with net := net }.dispatchReady catchup now).rx = loop.rx := hrx
  rw [hsame]
  exact congrArg some (dispatchReady_withRx catchup (loop.rx ++ extra) { loop with net := net } now)

theorem endRound_spec (loop : ReplayLoop) :
    (endRound loop).1 = loop ∧ ¬(loop.rxClosed ∧ loop.lookahead = none ∧ ¬loop.ended) ∨
      (loop.rxClosed ∧ loop.lookahead = none ∧ ¬loop.ended) ∧
        (endRound loop).1 = loop.finishClients ∧ (endRound loop).1.ended = true := by
  have hended : loop.finishClients.ended = true :=
    congrArg Inputs.ended (inputsOf_finishClients loop)
  rw [Handoff.endRound]
  split_ifs with hready
  · exact .inr ⟨hready, rfl, hended⟩
  · exact .inr ⟨hready, rfl, hended⟩
  · exact .inl ⟨rfl, hready⟩
  · exact .inl ⟨rfl, hready⟩

theorem pc_endRound (loop : ReplayLoop) :
    (endRound loop).2 = .pulling ∨ (endRound loop).2 = .finished ∧
      (endRound loop).1.ended = true ∧ (endRound loop).1.slots.keys = [] := by
  rw [Handoff.endRound]
  split_ifs with hready hover hover
  · exact .inr ⟨rfl, hover⟩
  · exact .inl rfl
  · exact .inr ⟨rfl, hover⟩
  · exact .inl rfl

theorem Alone.endOfRound (halone : Alone md5Hex catchup config pushed loop) :
    Alone md5Hex catchup config pushed (endRound loop).1 := by
  have hfinish (hready : loop.rxClosed ∧ loop.lookahead = none ∧ ¬loop.ended) :
      Alone md5Hex catchup config pushed loop.finishClients := by
    have hinputs := inputsOf_finishClients loop
    have hclosed : loop.finishClients.rxClosed = loop.rxClosed := congrArg Inputs.rxClosed hinputs
    have hrx : loop.finishClients.rx = loop.rx := congrArg Inputs.rx hinputs
    apply halone.call (fun h => hclosed.trans h) .finishClients
    intro extra hextra
    rw [hextra (hclosed.trans hready.1), List.append_nil, List.append_nil, hrx]
    change (if loop.rxClosed ∧ loop.lookahead = none ∧ ¬loop.ended then some loop.finishClients
      else none) = some (withRx loop.rx loop.finishClients)
    rw [if_pos hready, ← hrx]
    rfl
  obtain ⟨hloop, -⟩ | ⟨hready, hloop, -⟩ := endRound_spec loop
  · rwa [hloop]
  · rw [hloop]
    exact hfinish hready

/-! ## What the reading thread still has -/

variable (scaled : ℕ → ℕ)

/-- The events of a capture with the times that `replay` gives them. -/
def stamped (base : UInt64) : (last : ℕ) → List CaptureMessage → List (CaptureMessage × ℕ)
  | _, [] => []
  | last, msg :: messages =>
      let rel := max (scaled (msg.ts.toNat - base.toNat)) last
      (msg, rel) :: stamped base rel messages

def Behind.left : Behind → List ConnCommand
  | .batch cmds => cmds
  | .full cmd cmds => cmd :: cmds
  | .reader => []

def ManagerPc.left : ManagerPc → List ConnCommand
  | .pushing cmds => cmds
  | .waking behind => Behind.left behind
  | .sending cmd cmds => cmd :: cmds
  | .reading | .dropping | .done => []

def unread (manager : Manager) : List ConnCommand :=
  commandsOf (stamped scaled manager.base manager.last manager.messages)

/-- What the channel has not yet been given. -/
def left (manager : Manager) : List ConnCommand :=
  ManagerPc.left manager.pc ++ unread scaled manager

@[simp]
theorem left_goOn (cmds : List ConnCommand) : ManagerPc.left (goOn cmds) = cmds := by
  cases cmds <;> rfl

@[simp]
theorem left_behind (behind : Behind) :
    ManagerPc.left behind.goOn = Behind.left behind := by
  cases behind with
  | batch cmds => exact left_goOn cmds
  | full cmd cmds => rfl
  | reader => rfl

variable {scaled} {manager : Manager} {cmd : ConnCommand} {cmds : List ConnCommand}

theorem left_wake (behind : Behind) :
    left scaled (manager.wake behind) = Behind.left behind ++ unread scaled manager := by
  rw [Manager.wake]
  split_ifs
  · rw [left, left_behind, unread, unread]
  · rfl

theorem left_count : left scaled (manager.count cmds) = cmds ++ unread scaled manager := by
  simp only [Manager.count]
  split_ifs
  · exact left_wake (.batch cmds)
  · rw [left, left_goOn, unread, unread]

theorem left_read (hpc : manager.pc = .reading) :
    left scaled (manager.read scaled) = left scaled manager := by
  have hleft : left scaled manager = unread scaled manager := by
    rw [left, hpc]
    rfl
  rw [Manager.read, hleft]
  split_ifs with hok
  · cases hmessages : manager.messages with
    | nil => exact left_wake .reader
    | cons msg messages =>
        dsimp only
        rw [left, left_goOn, unread, unread, hmessages, stamped, commandsOf, commandsOf,
          List.flatMap_cons]
  · exact left_wake .reader

/-! ## Both threads -/

/-- The last call of `wake` and what comes behind it. -/
def ManagerPc.isLeaving : ManagerPc → Bool
  | .waking .reader | .dropping | .done => true
  | _ => false

theorem goOn_ne_done (cmds : List ConnCommand) : goOn cmds ≠ .done := by
  cases cmds <;> simp [goOn]

theorem behind_ne_done (behind : Behind) : behind.goOn ≠ .done := by
  cases behind with
  | batch cmds => exact goOn_ne_done cmds
  | full cmd cmds => simp [Behind.goOn]
  | reader => simp [Behind.goOn]

theorem isLeaving_goOn (cmds : List ConnCommand) : ManagerPc.isLeaving (goOn cmds) = false := by
  cases cmds <;> rfl

theorem isLeaving_behind (behind : Behind) :
    ManagerPc.isLeaving behind.goOn = ManagerPc.isLeaving (.waking behind) := by
  cases behind with
  | batch cmds => exact isLeaving_goOn cmds
  | full cmd cmds => rfl
  | reader => rfl

theorem wake_spec (behind : Behind) (manager : Manager) :
    (manager.wake behind).pc ≠ .done ∧
      ManagerPc.isLeaving (manager.wake behind).pc = ManagerPc.isLeaving (.waking behind) ∧
        (manager.wake behind).messages = manager.messages ∧
          (manager.wake behind).ok = manager.ok := by
  rw [Manager.wake]
  split_ifs
  · exact ⟨behind_ne_done behind, isLeaving_behind behind, rfl, rfl⟩
  · exact ⟨by simp, rfl, rfl, rfl⟩

theorem count_spec (manager : Manager) (cmds : List ConnCommand) :
    (manager.count cmds).pc ≠ .done ∧ ManagerPc.isLeaving (manager.count cmds).pc = false := by
  simp only [Manager.count]
  split_ifs
  · obtain ⟨hpc, hleaving, -⟩ := wake_spec (.batch cmds)
      { manager with unwoken := manager.unwoken + 1 }
    exact ⟨hpc, hleaving⟩
  · exact ⟨goOn_ne_done cmds, isLeaving_goOn cmds⟩

variable (scaled) in
theorem read_spec (manager : Manager) :
    (manager.read scaled).pc ≠ .done ∧ ((manager.read scaled).ok = true →
      ManagerPc.isLeaving (manager.read scaled).pc = true →
        (manager.read scaled).messages = []) := by
  obtain ⟨hpc, -, hmessages, hok⟩ := wake_spec .reader manager
  rw [Manager.read]
  split_ifs with hgood
  · cases hread : manager.messages with
    | nil =>
        dsimp only
        exact ⟨hpc, fun _ _ => hmessages.trans hread⟩
    | cons msg messages =>
        dsimp only
        refine ⟨goOn_ne_done _, fun _ hleaving => ?_⟩
        rw [isLeaving_goOn] at hleaving
        cases hleaving
  · exact ⟨hpc, fun h => absurd (hok.symm.trans h) hgood⟩

variable (md5Hex catchup scaled)

/-- The threads and the commands `all` of the capture. -/
structure Linked (config : ReplayConfig) (all : List ConnCommand) (s : State) : Prop where
  alone : Alone md5Hex catchup config s.pushed s.loop
  bounded : s.loop.rx.length ≤ queueCap
  closed : s.loop.rxClosed = true →
    s.senderGone = true ∧ s.loop.rx = [] ∧ s.loop.lookahead = none
  ended : s.loop.ended = true → s.loop.rxClosed = true
  gone : s.senderGone = true ↔ s.manager.pc = .done
  isPrefix : s.pushed <+: all
  whole : s.receiverGone = false ∨ s.loop.rxClosed = true →
    s.pushed ++ left scaled s.manager = all
  read : s.manager.ok = true → ManagerPc.isLeaving s.manager.pc = true → s.manager.messages = []
  finished : s.pc = .finished → s.loop.ended = true ∧ s.loop.slots.keys = []

variable {md5Hex catchup scaled} {all : List ConnCommand} {s s' : State}

theorem linked_start (config : ReplayConfig) (base : UInt64) (messages : List CaptureMessage) :
    Linked md5Hex catchup scaled config (commandsOf (stamped scaled base 0 messages))
      (Handoff.start config base messages) where
  alone _ _ := Relation.ReflTransGen.refl
  bounded := Nat.zero_le _
  closed := by rintro ⟨⟩
  ended := by rintro ⟨⟩
  gone := by simp [Handoff.start]
  isPrefix := List.nil_prefix
  whole _ := rfl
  read := by rintro - ⟨⟩
  finished := by rintro ⟨⟩

/-- A step of the reading thread that gives the channel nothing. -/
theorem Linked.manage (hlinked : Linked md5Hex catchup scaled config all s) {after : Manager}
    (bell : Bool) (hpc : s.manager.pc ≠ .done) (hpc' : after.pc ≠ .done)
    (hleft : s.receiverGone = false → left scaled after = left scaled s.manager)
    (hread : after.ok = true → ManagerPc.isLeaving after.pc = true → after.messages = []) :
    Linked md5Hex catchup scaled config all { s with manager := after, bell := bell } where
  alone := hlinked.alone
  bounded := hlinked.bounded
  closed := hlinked.closed
  ended := hlinked.ended
  gone := iff_of_false (fun hgone => hpc (hlinked.gone.mp hgone)) hpc'
  isPrefix := hlinked.isPrefix
  whole := by
    rintro (hopen | hclosed)
    · rw [hleft hopen]
      exact hlinked.whole (.inl hopen)
    · exact absurd (hlinked.gone.mp (hlinked.closed hclosed).1) hpc
  read := hread
  finished := hlinked.finished

/-- A step of the reading thread that gives the channel a command. -/
theorem Linked.put (hlinked : Linked md5Hex catchup scaled config all s) {after : Manager}
    (hpc : s.manager.pc ≠ .done) (hpc' : after.pc ≠ .done) (hopen : s.receiverGone = false)
    (hroom : s.loop.rx.length < queueCap)
    (hleft : left scaled s.manager = cmd :: left scaled after)
    (hread : after.ok = true → ManagerPc.isLeaving after.pc = true → after.messages = []) :
    Linked md5Hex catchup scaled config all { s.put cmd with manager := after } := by
  have hnot : ¬s.senderGone = true := fun hgone => hpc (hlinked.gone.mp hgone)
  have hrx : ¬s.loop.rxClosed = true := fun hclosed => hnot (hlinked.closed hclosed).1
  have hwhole : s.pushed ++ [cmd] ++ left scaled after = all := by
    rw [List.append_assoc, List.singleton_append, ← hleft]
    exact hlinked.whole (.inl hopen)
  exact
    { alone := hlinked.alone.put cmd (eq_false_of_ne_true hrx)
      bounded := by
        change (s.loop.rx ++ [cmd]).length ≤ queueCap
        rw [List.length_append, List.length_singleton]
        exact hroom
      closed := fun hclosed => absurd hclosed hrx
      ended := hlinked.ended
      gone := iff_of_false hnot hpc'
      isPrefix := ⟨left scaled after, hwhole⟩
      whole := fun _ => hwhole
      read := hread
      finished := hlinked.finished }

/-- A step of the loop. -/
theorem Linked.turn (hlinked : Linked md5Hex catchup scaled config all s) {loop : ReplayLoop}
    (pc : LoopPc) (bell : Bool) (hopen : s.receiverGone = false)
    (halone : Alone md5Hex catchup config s.pushed loop)
    (hbounded : loop.rx.length ≤ s.loop.rx.length)
    (hclosed : loop.rxClosed = true → s.senderGone = true ∧ loop.rx = [] ∧ loop.lookahead = none)
    (hended : loop.ended = true → loop.rxClosed = true)
    (hfinished : pc = .finished → loop.ended = true ∧ loop.slots.keys = []) :
    Linked md5Hex catchup scaled config all
      { s with loop := loop, pc := pc, bell := bell } where
  alone := halone
  bounded := hbounded.trans hlinked.bounded
  closed := hclosed
  ended := hended
  gone := hlinked.gone
  isPrefix := hlinked.isPrefix
  whole _ := hlinked.whole (.inl hopen)
  read := hlinked.read
  finished := hfinished

/-- The loop goes on without a look at the channel. -/
theorem Linked.stay (hlinked : Linked md5Hex catchup scaled config all s) {loop : ReplayLoop}
    (pc : LoopPc) (bell : Bool) (hopen : s.receiverGone = false)
    (halone : Alone md5Hex catchup config s.pushed loop) (hinputs : inputsOf loop = inputsOf s.loop)
    (hpc : pc ≠ .finished) :
    Linked md5Hex catchup scaled config all
      { s with loop := loop, pc := pc, bell := bell } := by
  have hrx : loop.rx = s.loop.rx := congrArg Inputs.rx hinputs
  have hlookahead : loop.lookahead = s.loop.lookahead := congrArg Inputs.lookahead hinputs
  have hclosed : loop.rxClosed = s.loop.rxClosed := congrArg Inputs.rxClosed hinputs
  have hended : loop.ended = s.loop.ended := congrArg Inputs.ended hinputs
  apply hlinked.turn pc bell hopen halone
  · rw [hrx]
  · rw [hclosed, hrx, hlookahead]
    exact hlinked.closed
  · rw [hended, hclosed]
    exact hlinked.ended
  · exact fun h => absurd h hpc

theorem Linked.round (hlinked : Linked md5Hex catchup scaled config all s) (now : ℕ)
    (pc : LoopPc) (hopen : s.receiverGone = false) (hpc : pc ≠ .finished) :
    Linked md5Hex catchup scaled config all
      { s with loop := (pullRound s.senderGone now s.loop).1, pc := pc } := by
  have halone := hlinked.alone.round s.senderGone now
  have hsame : Linked md5Hex catchup scaled config all { s with loop := s.loop, pc := pc } :=
    hlinked.stay pc s.bell hopen hlinked.alone rfl hpc
  have henqueue (cmd : ConnCommand) (after : ReplayLoop) := inputsOf_enqueue after cmd
  rw [Handoff.pullRound] at halone ⊢
  cases hlookahead : s.loop.lookahead with
  | some cmd =>
      simp only [hlookahead] at halone ⊢
      split_ifs at halone ⊢ with hearly
      · exact hsame
      · have hinputs := henqueue cmd { s.loop with lookahead := none, lastTs := cmd.ts }
        have hrx := congrArg Inputs.rx hinputs
        have hclosed := congrArg Inputs.rxClosed hinputs
        apply hlinked.turn pc s.bell hopen halone (le_of_eq (congrArg List.length hrx))
        · intro h
          have hbefore := hlinked.closed (hclosed.symm.trans h)
          exact ⟨hbefore.1, hrx.trans hbefore.2.1, congrArg Inputs.lookahead hinputs⟩
        · intro h
          have hbefore := hlinked.ended ((congrArg Inputs.ended hinputs).symm.trans h)
          exact hclosed.trans hbefore
        · exact fun h => absurd h hpc
  | none =>
      simp only [hlookahead] at halone ⊢
      cases hrx : s.loop.rx with
      | nil =>
          simp only [hrx] at halone ⊢
          split_ifs at halone ⊢ with hgone
          · apply hlinked.turn pc s.bell hopen halone (Nat.zero_le _)
            · exact fun _ => ⟨hgone, rfl, rfl⟩
            · exact fun _ => rfl
            · exact fun h => absurd h hpc
          · exact hsame
      | cons cmd rx =>
          have hnot : ¬s.loop.rxClosed = true := fun hclosed => by
            cases hrx.symm.trans (hlinked.closed hclosed).2.1
          have hgoing : ¬s.loop.ended = true := fun hended => hnot (hlinked.ended hended)
          have hshorter : rx.length ≤ s.loop.rx.length := by
            rw [hrx]
            exact Nat.le_succ _
          simp only [hrx] at halone ⊢
          split_ifs at halone ⊢ with hearly
          · apply hlinked.turn pc s.bell hopen halone hshorter
            · exact fun h => absurd h hnot
            · exact fun h => absurd h hgoing
            · exact fun h => absurd h hpc
          · have hinputs :=
              henqueue cmd { s.loop with rx := rx, lookahead := none, lastTs := cmd.ts }
            apply hlinked.turn pc s.bell hopen halone
            · exact (le_of_eq (congrArg (fun inputs => inputs.rx.length) hinputs)).trans hshorter
            · exact fun h => absurd ((congrArg Inputs.rxClosed hinputs).symm.trans h) hnot
            · exact fun h => absurd ((congrArg Inputs.ended hinputs).symm.trans h) hgoing
            · exact fun h => absurd h hpc

theorem Linked.endOfRound (hlinked : Linked md5Hex catchup scaled config all s) (now : ℕ)
    (net : Net)
    (hopen : s.receiverGone = false) :
    Linked md5Hex catchup scaled config all { s with
      loop := (endRound ({ s.loop with net := net }.dispatchReady catchup now)).1
      pc := (endRound ({ s.loop with net := net }.dispatchReady catchup now)).2 } := by
  obtain ⟨after, hafter⟩ : ∃ after, { s.loop with net := net }.dispatchReady catchup now = after :=
    ⟨_, rfl⟩
  have hinputs : inputsOf after = inputsOf s.loop := by
    rw [← hafter]
    exact inputsOf_dispatchReady catchup { s.loop with net := net } now
  have hrx : after.rx = s.loop.rx := congrArg Inputs.rx hinputs
  have hlookahead : after.lookahead = s.loop.lookahead := congrArg Inputs.lookahead hinputs
  have hclosed : after.rxClosed = s.loop.rxClosed := congrArg Inputs.rxClosed hinputs
  have hended : after.ended = s.loop.ended := congrArg Inputs.ended hinputs
  have halone : Alone md5Hex catchup config s.pushed after := by
    rw [← hafter]
    exact hlinked.alone.dispatchReady now net
  rw [hafter]
  have hlast : (endRound after).2 = .finished → (endRound after).1.ended = true ∧
      (endRound after).1.slots.keys = [] := by
    intro hfinished
    rcases pc_endRound after with hpulling | hover
    · cases hpulling.symm.trans hfinished
    · exact hover.2
  have hafterEnd := halone.endOfRound
  obtain ⟨hloop, -⟩ | ⟨hready, hloop, -⟩ := endRound_spec after
  · rw [hloop] at hlast hafterEnd ⊢
    apply hlinked.turn _ s.bell hopen hafterEnd
    · rw [hrx]
    · rw [hclosed, hrx, hlookahead]
      exact hlinked.closed
    · rw [hended, hclosed]
      exact hlinked.ended
    · exact hlast
  · have hfinish := inputsOf_finishClients after
    have hfinishRx : after.finishClients.rx = after.rx := congrArg Inputs.rx hfinish
    have hfinishClosed : after.finishClients.rxClosed = after.rxClosed :=
      congrArg Inputs.rxClosed hfinish
    have hfinishLookahead : after.finishClients.lookahead = after.lookahead :=
      congrArg Inputs.lookahead hfinish
    rw [hloop] at hlast hafterEnd ⊢
    apply hlinked.turn _ s.bell hopen hafterEnd
    · rw [hfinishRx, hrx]
    · rw [hfinishClosed, hfinishRx, hfinishLookahead, hclosed, hrx, hlookahead]
      exact hlinked.closed
    · rw [hfinishClosed]
      exact fun _ => hready.1
    · exact hlast

theorem linked_step (hlinked : Linked md5Hex catchup scaled config all s)
    {label : Label} (hstep : Stepped scaled md5Hex catchup s label s') :
    Linked md5Hex catchup scaled config all s' := by
  have hrunning (hpc : s.pc ≠ .finished ∧ s.pc ≠ .pollFailed ∧ s.pc ≠ .panicked) :
      s.receiverGone = false := by
    simp [State.receiverGone, hpc.1, hpc.2.1, hpc.2.2]
  have hnotLeaving {after : Manager} (h : ManagerPc.isLeaving after.pc = false) :
      after.ok = true → ManagerPc.isLeaving after.pc = true → after.messages = [] := by
    intro _ hleaving
    cases h.symm.trans hleaving
  cases hstep with
  | read hpc =>
      obtain ⟨hpc', hread⟩ := read_spec scaled s.manager
      exact hlinked.manage s.bell (by simp [hpc]) hpc' (fun _ => left_read hpc) hread
  | refused hlabel hpc hgone =>
      have hnotDone : s.manager.pc ≠ .done := by
        rcases hpc with hpc | hpc <;> simp [hpc]
      apply hlinked.manage s.bell hnotDone (goOn_ne_done _)
      · intro hopen
        cases hgone.symm.trans hopen
      · exact hnotLeaving (isLeaving_goOn _)
  | pushed hpc hopen hroom =>
      obtain ⟨hpc', hleaving⟩ := count_spec s.manager _
      apply hlinked.put (by simp [hpc]) hpc' hopen hroom _ (hnotLeaving hleaving)
      rw [left_count, left, hpc]
      rfl
  | full hpc hopen hfull =>
      obtain ⟨hpc', hleaving, -⟩ := wake_spec (.full _ _) s.manager
      apply hlinked.manage s.bell (by simp [hpc]) hpc' _ (hnotLeaving hleaving)
      intro _
      rw [left_wake, left, hpc]
      rfl
  | rung works hpc =>
      apply hlinked.manage _ (by simp [hpc]) (behind_ne_done _)
      · intro _
        rw [left, left, left_behind, hpc]
        rfl
      · intro hok hleaving
        apply hlinked.read (Bool.and_elim_left hok)
        rw [hpc, ← isLeaving_behind]
        exact hleaving
  | sent hpc hopen hroom =>
      apply hlinked.put (by simp [hpc]) (goOn_ne_done _) hopen hroom _
        (hnotLeaving (isLeaving_goOn _))
      rw [left, left, left_goOn, hpc]
      rfl
  | dropped hpc =>
      have hleft : left scaled { s.manager with pc := .done } = left scaled s.manager := by
        rw [left, left, hpc]
        rfl
      exact
        { alone := hlinked.alone
          bounded := hlinked.bounded
          closed := fun hclosed => ⟨rfl, (hlinked.closed hclosed).2⟩
          ended := hlinked.ended
          gone := iff_of_true rfl rfl
          isPrefix := hlinked.isPrefix
          whole := fun hopen => by
            rw [hleft]
            exact hlinked.whole hopen
          read := fun hok _ => hlinked.read hok (by rw [hpc]; rfl)
          finished := hlinked.finished }
  | pulled now hpc =>
      apply hlinked.round now _ (hrunning (by simp [hpc]))
      split_ifs <;> simp
  | pulledAgain now hpc =>
      apply hlinked.round now _ (hrunning (by simp [hpc]))
      split_ifs <;> simp
  | polled hpc pc bell hnext hbell hwoken =>
      apply hlinked.stay pc bell (hrunning (by simp [hpc])) hlinked.alone rfl
      rcases hnext with rfl | rfl | rfl <;> simp
  | handled hpc hevent =>
      have hinputs := inputsOf_handleEvent hevent
      apply hlinked.stay s.pc s.bell (hrunning (by simp [hpc])) (hlinked.alone.handleEvent hevent)
        hinputs (by simp [hpc])
  | panicked hpc =>
      apply hlinked.stay .panicked s.bell (hrunning (by simp [hpc])) hlinked.alone rfl (by simp)
  | eventsDone hpc =>
      apply hlinked.stay .pullingAgain s.bell (hrunning (by simp [hpc])) hlinked.alone rfl
        (by simp)
  | dispatched now net hpc => exact hlinked.endOfRound now net (hrunning (by simp [hpc]))

/-! ## Runs -/

theorem linked_of_reachable {slowed : ℕ → ℕ} {base : UInt64} {messages : List CaptureMessage}
    (hreachable : Reachable (Handoff.step scaled md5Hex catchup slowed)
      (Handoff.start config base messages) s) :
    Linked md5Hex catchup scaled config (commandsOf (stamped scaled base 0 messages)) s :=
  hreachable.invariant (linked_start config base messages) fun _ _ _ hlinked hstep =>
    linked_step hlinked (stepped_of_step hstep)

/-- Whatever the two threads do, the channel holds no more than `QUEUE_CAP` commands and has
taken the first commands of the capture in their order, and the loop is where it can come
to on its own. -/
theorem loop_follows_reader {slowed : ℕ → ℕ} {base : UInt64} {messages : List CaptureMessage}
    (hreachable : Reachable (Handoff.step scaled md5Hex catchup slowed)
      (Handoff.start config base messages) s) :
    s.loop.rx.length ≤ queueCap ∧ s.pushed <+: commandsOf (stamped scaled base 0 messages) ∧
      Reachable (ReplayLoop.step md5Hex catchup) (ReplayLoop.new config s.pushed) s.loop := by
  have hlinked := linked_of_reachable hreachable
  exact ⟨hlinked.bounded, hlinked.isPrefix, hlinked.alone.reachable⟩

/-- When `run` returns because the replay is over, and no ring has failed, every command of
the capture has gone through the channel and none is left in it, no client is left, and a
client has had one connection at most, which was given its first commands. -/
theorem finished_replayed_all {slowed : ℕ → ℕ} {base : UInt64} {messages : List CaptureMessage}
    (hevents : ConnectFirst (stamped scaled base 0 messages))
    (hreachable : Reachable (Handoff.step scaled md5Hex catchup slowed)
      (Handoff.start config base messages) s)
    (hfinished : s.pc = .finished) (hok : s.manager.ok = true) :
    s.pushed = commandsOf (stamped scaled base 0 messages) ∧ s.loop.rx = [] ∧
      s.loop.lookahead = none ∧ s.loop.slots.keys = [] ∧
        ∀ id, (view id s.loop).closed.length ≤ 1 ∧ ∀ conn ∈ (view id s.loop).closed,
          .connect :: conn.replayed <+: kinds (own id s.pushed) ++ [.endReplay] := by
  have hlinked := linked_of_reachable hreachable
  obtain ⟨hended, hslots⟩ := hlinked.finished hfinished
  have hclosed := hlinked.ended hended
  obtain ⟨hgone, hrx, hlookahead⟩ := hlinked.closed hclosed
  have hdone := hlinked.gone.mp hgone
  have hread : s.manager.messages = [] := hlinked.read hok (by rw [hdone]; rfl)
  have hwhole := hlinked.whole (.inr hclosed)
  have hleft : left scaled s.manager = [] := by
    rw [left, hdone, unread, hread]
    rfl
  rw [hleft, List.append_nil] at hwhole
  refine ⟨hwhole, hrx, hlookahead, hslots, fun id => ?_⟩
  have haccounted := accounted_of_reachable md5Hex catchup hlinked.alone.reachable
    (hwhole ▸ startsOnce_commandsOf hevents id)
  exact haccounted.of_closed

/-! ## An example -/

/-- A client whose connection is refused. -/
def refusedClient : List CaptureMessage :=
  [⟨7, 0, .connect ""⟩, ⟨7, 0, .sync⟩]

/-- The reading thread is done before the loop takes the first command. -/
def refusedRun : List Label :=
  [.read, .trySend, .read, .trySend, .read, .wake true, .dropSender, .pull 0, .pull 0, .pull 0,
    .poll .woken, .eventsDone, .pull 0, .dispatchReady 0 ⟨[], [false]⟩]

theorem connectFirst_refusedClient : ConnectFirst (stamped id 0 0 refusedClient) := by
  intro client
  by_cases hid : 7 = client
  · right
    rw [← hid]
    exact ⟨_, [(⟨7, 0, .sync⟩, 0)], rfl, rfl, by simp [isConnect]⟩
  · left
    simp [refusedClient, stamped, ownEvents, hid]

theorem finished_replayed_all_refused : ∃ s,
    Reachable (Handoff.step id (fun _ => "") id id) (Handoff.start ⟨"u", none, "d", "pgr"⟩ 0
      refusedClient) s ∧ s.pc = .finished ∧
        s.pushed = commandsOf (stamped id 0 0 refusedClient) := by
  have hrun : (run (Handoff.step id (fun _ => "") id id) (Handoff.start ⟨"u", none, "d", "pgr"⟩ 0
      refusedClient) refusedRun).map (fun s => (s.pc, s.manager.ok)) =
        some (.finished, true) := by
    decide +kernel
  obtain ⟨s, hs, hvalues⟩ := Option.map_eq_some_iff.mp hrun
  obtain ⟨hfinished, hok⟩ := Prod.mk.inj hvalues
  have hreachable := reachable_of_run hs
  exact ⟨s, hreachable, hfinished,
    (finished_replayed_all connectFirst_refusedClient hreachable hfinished hok).1⟩

/-- Two commands are in the channel and none is taken. -/
theorem loop_follows_reader_refused : ∃ s,
    Reachable (Handoff.step id (fun _ => "") id id) (Handoff.start ⟨"u", none, "d", "pgr"⟩ 0
      refusedClient) s ∧ s.loop.rx.length = 2 ∧
        s.pushed <+: commandsOf (stamped id 0 0 refusedClient) := by
  have hrun : (run (Handoff.step id (fun _ => "") id id) (Handoff.start ⟨"u", none, "d", "pgr"⟩ 0
      refusedClient) (refusedRun.take 4)).map (fun s => s.loop.rx.length) = some 2 := by
    decide +kernel
  obtain ⟨s, hs, hlength⟩ := Option.map_eq_some_iff.mp hrun
  have hreachable := reachable_of_run hs
  exact ⟨s, hreachable, hlength, (loop_follows_reader hreachable).2.1⟩

end Pgr.HandoffRefines
