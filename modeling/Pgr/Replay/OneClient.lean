import Pgr.Replay.Scheduling

/-!
# The loop as one client sees it

Of all that the loop holds a client has its commands that are still to come, its slot,
and the connections that were let go of.  For a client every handler is a sequence of
moves of this small machine, whatever the handler does to the other clients.  An
invariant of the moves therefore holds of every client in every state that a run
reaches.
-/

namespace Pgr.OneClient

open Pgr.Capture Pgr.Manager Pgr.Client Pgr.Loop Pgr.Loop.ReplayLoop Pgr.Transition Pgr.Dispatch
open Pgr.Scheduling

variable (md5Hex : List UInt8 → String) (catchup : ℕ → ℕ)

/-! ## The machine of one client -/

structure View where
  /-- The commands of the client that the loop has not yet taken. -/
  coming : List ConnCommand
  slot : Option Slot
  ended : Bool
  /-- The connections of the client that the loop has let go of. -/
  closed : List Connection

def own (id : ClientId) (cmds : List ConnCommand) : List ConnCommand :=
  cmds.filter fun cmd => cmd.id = id

def view (id : ClientId) (loop : ReplayLoop) : View where
  coming := own id (loop.lookahead.toList ++ loop.rx)
  slot := loop.slots.lookup id
  ended := loop.ended
  closed := (loop.closed.filter fun entry => entry.1 = id).map Prod.snd

def appended (cmd : ConnCommand) (slot : Slot) : Slot :=
  { slot with queue := slot.queue ++ [cmd] }

/-- What `enqueue` makes of the slot of its client. -/
def enqueued (cmd : ConnCommand) : Option Slot → Option Slot
  | some slot => some (appended cmd slot)
  | none => if cmd.kind = .connect then some (appended cmd Slot.new) else none

/-- What `finish_clients` makes of the slot of a client. -/
def finished (id : ClientId) (ts : ℕ) : Option Slot → Option Slot :=
  Option.map (appended ⟨id, ts, .endReplay⟩)

/-- What can happen to a client. -/
inductive Move (config : ReplayConfig) (id : ClientId) : View → View → Prop
  | enqueued {cmd : ConnCommand} {coming : List ConnCommand} {slot : Option Slot} {ended : Bool}
      {closed : List Connection} (hid : cmd.id = id) :
      Move config id ⟨cmd :: coming, slot, ended, closed⟩
        ⟨coming, enqueued cmd slot, ended, closed⟩
  | finished (ts : ℕ) {slot : Option Slot} {closed : List Connection} :
      Move config id ⟨[], slot, false, closed⟩ ⟨[], finished id ts slot, true, closed⟩
  | looked {coming : List ConnCommand} {slot : Slot} {ended : Bool} {closed : List Connection} :
      Move config id ⟨coming, some slot, ended, closed⟩
        ⟨coming, some (lookedAt slot), ended, closed⟩
  | executed {coming : List ConnCommand} {slot : Slot} {ended : Bool} {closed : List Connection}
      {head : ConnCommand} {queue : List ConnCommand} {after : Option Slot}
      {gone : List Connection} (hblocked : slot.blocked = false)
      (hqueue : slot.queue = head :: queue)
      (hexecuted : Executed config id head { lookedAt slot with queue := queue } after gone) :
      Move config id ⟨coming, some slot, ended, closed⟩ ⟨coming, after, ended, closed ++ gone⟩
  | failed {coming : List ConnCommand} {slot : Slot} {ended : Bool} {closed : List Connection} :
      Move config id ⟨coming, some slot, ended, closed⟩
        ⟨coming, none, ended, closed ++ slot.conn.toList⟩
  | served {coming : List ConnCommand} {slot : Slot} {ended : Bool} {closed : List Connection}
      {conn conn' : Connection} {now : ℕ} {reads : List ReadAnswer} {slot' : Slot}
      (hconn : slot.conn = some conn)
      (hserved : Served md5Hex now reads slot { conn with connected := true } conn' slot')
      (halive : conn'.client.state ≠ .dead) :
      Move config id ⟨coming, some slot, ended, closed⟩ ⟨coming, some slot', ended, closed⟩
  | died {coming : List ConnCommand} {slot : Slot} {ended : Bool} {closed : List Connection}
      {conn conn' : Connection} {now : ℕ} {reads : List ReadAnswer} {slot' : Slot}
      (hconn : slot.conn = some conn)
      (hserved : Served md5Hex now reads slot { conn with connected := true } conn' slot')
      (hdead : conn'.client.state = .dead) :
      Move config id ⟨coming, some slot, ended, closed⟩
        ⟨coming, none, ended, closed ++ [answered conn']⟩

def Moves (config : ReplayConfig) (id : ClientId) : View → View → Prop :=
  Relation.ReflTransGen (Move md5Hex config id)

/-- What all handlers keep of the loop as a whole: a closed channel is empty. -/
structure Steady (config : ReplayConfig) (loop : ReplayLoop) : Prop where
  config : loop.config = config
  drained : loop.rxClosed = true → loop.rx = []

/-- Between `loop` and `loop'` every client has made moves of its own. -/
structure Moved (config : ReplayConfig) (loop loop' : ReplayLoop) : Prop where
  steady : Steady config loop'
  views : ∀ id, Moves md5Hex config id (view id loop) (view id loop')

section Moved

variable {config : ReplayConfig} {id : ClientId} {loop middle loop' : ReplayLoop} {now : ℕ}

theorem moved_refl (hsteady : Steady config loop) : Moved md5Hex config loop loop :=
  ⟨hsteady, fun _ => Relation.ReflTransGen.refl⟩

theorem Moved.trans (hfirst : Moved md5Hex config loop middle)
    (hnext : Moved md5Hex config middle loop') : Moved md5Hex config loop loop' :=
  ⟨hnext.steady, fun id => (hfirst.views id).trans (hnext.views id)⟩

/-- A state that no client can tell from `loop`. -/
theorem moved_of_view_eq (hsteady : Steady config loop')
    (hviews : ∀ id, view id loop' = view id loop) : Moved md5Hex config loop loop' := by
  refine ⟨hsteady, fun id => ?_⟩
  rw [hviews]
  exact Relation.ReflTransGen.refl

/-- One client makes a move, and the others see nothing. -/
theorem moved_of_move (hsteady : Steady config loop')
    (hself : Move md5Hex config id (view id loop) (view id loop'))
    (hother : ∀ other, other ≠ id → view other loop' = view other loop) :
    Moved md5Hex config loop loop' := by
  refine ⟨hsteady, fun other => ?_⟩
  by_cases hid : other = id
  · rw [hid]
    exact Relation.ReflTransGen.single hself
  · rw [hother other hid]
    exact Relation.ReflTransGen.refl

/-! ## Changes of one slot -/

theorem view_self_of_becomes {after : Option Slot} {gone : List Connection}
    (hbecomes : Becomes id after gone loop loop') : view id loop' =
      ⟨(view id loop).coming, after, loop.ended, (view id loop).closed ++ gone⟩ := by
  have hgone : ((gone.map fun conn => (id, conn)).filter fun entry => entry.1 = id).map Prod.snd =
      gone := by
    rw [List.filter_eq_self.mpr (by simp), List.map_map]
    exact List.map_id gone
  rw [view, hbecomes.self, hbecomes.rx, hbecomes.lookahead, hbecomes.ended, hbecomes.closed,
    List.filter_append, List.map_append, hgone]
  rfl

theorem view_other_of_becomes {after : Option Slot} {gone : List Connection}
    (hbecomes : Becomes id after gone loop loop') {other : ClientId} (hother : other ≠ id) :
    view other loop' = view other loop := by
  have hgone : (gone.map fun conn => (id, conn)).filter (fun entry => entry.1 = other) = [] := by
    apply List.filter_eq_nil_iff.mpr
    intro entry hentry
    obtain ⟨conn, -, hsame⟩ := List.mem_map.mp hentry
    rw [← hsame]
    simpa using hother.symm
  rw [view, view, hbecomes.other other hother, hbecomes.rx, hbecomes.lookahead, hbecomes.ended,
    hbecomes.closed, List.filter_append, hgone, List.append_nil]

theorem Steady.becomes {after : Option Slot} {gone : List Connection}
    (hsteady : Steady config loop) (hbecomes : Becomes id after gone loop loop') :
    Steady config loop' where
  config := hbecomes.config.trans hsteady.config
  drained := by
    rw [hbecomes.rx, hbecomes.rxClosed]
    exact hsteady.drained

theorem moved_of_becomes {after : Option Slot} {gone : List Connection}
    (hsteady : Steady config loop) (hbecomes : Becomes id after gone loop loop')
    (hmove : Move md5Hex config id (view id loop)
      ⟨(view id loop).coming, after, loop.ended, (view id loop).closed ++ gone⟩) :
    Moved md5Hex config loop loop' := by
  rw [← view_self_of_becomes hbecomes] at hmove
  exact moved_of_move md5Hex (hsteady.becomes hbecomes) hmove fun other hother =>
    view_other_of_becomes hbecomes hother

/-- The view of a client that has a slot. -/
theorem view_eq_of_lookup {slot : Slot} (hslot : loop.slots.lookup id = some slot) :
    view id loop = ⟨(view id loop).coming, some slot, loop.ended, (view id loop).closed⟩ := by
  rw [← hslot]
  rfl

/-! ## Dispatching -/

theorem moved_of_dispatched (hsteady : Steady config loop)
    (hdispatched : Dispatched id now loop loop') : Moved md5Hex config loop loop' := by
  induction hdispatched with
  | absent => exact moved_refl md5Hex hsteady
  | blocked => exact moved_refl md5Hex hsteady
  | drained => exact moved_refl md5Hex hsteady
  | @waits loop slot head queue hslot hqueue hdue =>
      obtain ⟨shift, -, hrebased⟩ := rebased_eq slot head loop
      have hshifted : Steady config { loop with shift := shift } :=
        ⟨hsteady.config, hsteady.drained⟩
      have hset := becomes_setSlot { loop with shift := shift } id (lookedAt slot) loop.net
      have hlooked : Moved md5Hex config { loop with shift := shift }
          ({ loop with shift := shift }.setSlot id (lookedAt slot)) := by
        apply moved_of_becomes md5Hex hshifted hset
        have hshiftedSlot : ({ loop with shift := shift } : ReplayLoop).slots.lookup id =
            some slot := hslot
        rw [view_eq_of_lookup hshiftedSlot, List.append_nil]
        exact .looked
      rw [hrebased]
      exact ⟨⟨hlooked.steady.config, hlooked.steady.drained⟩, hlooked.views⟩
  | @turn loop last slot head queue hslot hblocked hqueue hrest ih =>
      obtain ⟨after, gone, hexecuted, hbecomes⟩ := turn_spec loop id slot head queue
      obtain ⟨shift, -, hrebased⟩ := rebased_eq slot head loop
      have hrebasedSteady : Steady config (loop.rebased slot head) := by
        rw [hrebased]
        exact ⟨hsteady.config, hsteady.drained⟩
      have hrebasedSlot : (loop.rebased slot head).slots.lookup id = some slot := by
        rw [hrebased]
        exact hslot
      rw [hsteady.config] at hexecuted
      have hturn := moved_of_becomes md5Hex hrebasedSteady hbecomes (by
        rw [view_eq_of_lookup hrebasedSlot]
        exact .executed hblocked hqueue hexecuted)
      have hstart : Moved md5Hex config loop (loop.rebased slot head) := by
        apply moved_of_view_eq md5Hex hrebasedSteady
        rw [hrebased]
        exact fun _ => rfl
      exact (hstart.trans md5Hex hturn).trans md5Hex (ih hturn.steady)

theorem moved_tryDispatch (hsteady : Steady config loop) :
    Moved md5Hex config loop (loop.tryDispatch id now) :=
  moved_of_dispatched md5Hex hsteady (dispatched_tryDispatch loop id now)

theorem moved_dispatchReady (hsteady : Steady config loop) :
    Moved md5Hex config loop (loop.dispatchReady catchup now) := by
  rw [dispatchReady]
  obtain ⟨shift, lastTick, -, hticked⟩ := catchUp_eq catchup now loop
  rw [hticked]
  apply dispatchTimers_invariant
  · intro last ts id timers hmoved _ _
    have hpopped : Moved md5Hex config loop { last with timers := timers } :=
      ⟨⟨hmoved.steady.config, hmoved.steady.drained⟩, hmoved.views⟩
    exact hpopped.trans md5Hex (moved_tryDispatch md5Hex hpopped.steady)
  · exact moved_of_view_eq md5Hex ⟨hsteady.config, hsteady.drained⟩ fun _ => rfl

/-! ## Readiness events -/

theorem moved_handleEvent {event : Event} (hsteady : Steady config loop)
    (hevent : loop.handleEvent md5Hex catchup now event = some loop') :
    Moved md5Hex config loop loop' := by
  obtain ⟨shift, lastTick, -, hhandled⟩ := handleEvent_spec md5Hex catchup hevent
  have hticked : Moved md5Hex config loop { loop with shift := shift, lastTick := lastTick } :=
    moved_of_view_eq md5Hex ⟨hsteady.config, hsteady.drained⟩ fun _ => rfl
  apply hticked.trans
  cases hhandled with
  | ignored => exact moved_refl md5Hex hticked.steady
  | @failed id slot htoken hslot _ hbecomes =>
      apply moved_of_becomes md5Hex hticked.steady hbecomes
      rw [view_eq_of_lookup hslot]
      exact .failed
  | @served id slot conn _ htoken hslot hconn hconnected conn' slot' hserved _ hafter =>
      subst hconnected
      rcases hafter with ⟨hdead, hbecomes⟩ | ⟨halive, middle, hbecomes, hloop'⟩
      · apply moved_of_becomes md5Hex hticked.steady hbecomes
        rw [view_eq_of_lookup hslot]
        exact .died hconn hserved hdead
      · have hmiddle : Moved md5Hex config { loop with shift := shift, lastTick := lastTick }
            middle := by
          apply moved_of_becomes md5Hex hticked.steady hbecomes
          rw [view_eq_of_lookup hslot, List.append_nil]
          exact .served hconn hserved halive
        rw [hloop']
        exact hmiddle.trans md5Hex (moved_tryDispatch md5Hex hmiddle.steady)

/-! ## Taking commands -/

/-- A change of the slot of `id` and of the timers only. -/
structure Reslotted (id : ClientId) (after : Option Slot) (loop loop' : ReplayLoop) : Prop where
  same : ∃ slots timers, loop' = { loop with slots := slots, timers := timers }
  self : loop'.slots.lookup id = after
  other : ∀ other, other ≠ id → loop'.slots.lookup other = loop.slots.lookup other

theorem reslotted_self (loop : ReplayLoop) (id : ClientId) :
    Reslotted id (loop.slots.lookup id) loop loop :=
  ⟨⟨loop.slots, loop.timers, rfl⟩, rfl, fun _ _ => rfl⟩

theorem reslotted_pushBack (loop : ReplayLoop) (id : ClientId) (cmd : ConnCommand) (slot : Slot) :
    Reslotted id (some (appended cmd slot)) loop (loop.pushBack id cmd slot) := by
  have hset : Reslotted id (some (appended cmd slot)) loop
      (loop.setSlot id (appended cmd slot)) :=
    ⟨⟨_, _, rfl⟩, lookup_setSlot, fun _ => lookup_setSlot_ne⟩
  rw [pushBack]
  dsimp only
  split_ifs with hone
  · change Reslotted id (some (appended cmd slot)) loop
      ((loop.setSlot id (appended cmd slot)).schedule id)
    obtain hsame | ⟨key, hpushed⟩ := schedule_eq (loop.setSlot id (appended cmd slot)) id
    · rw [hsame]
      exact hset
    · rw [hpushed]
      exact ⟨⟨_, _, rfl⟩, hset.self, hset.other⟩
  · exact hset

theorem reslotted_enqueue (loop : ReplayLoop) (cmd : ConnCommand) :
    Reslotted cmd.id (enqueued cmd (loop.slots.lookup cmd.id)) loop (loop.enqueue cmd) := by
  rw [enqueue]
  cases hslot : loop.slots.lookup cmd.id with
  | some slot => exact reslotted_pushBack loop cmd.id cmd slot
  | none =>
      rw [enqueued]
      dsimp only
      split_ifs with hkind
      · exact reslotted_pushBack loop cmd.id cmd Slot.new
      · rw [← hslot]
        exact reslotted_self loop cmd.id

/-- The loop takes the first command that is to come. -/
theorem moved_enqueue {cmd : ConnCommand} {rx : List ConnCommand} {lastTs : ℕ}
    (hsteady : Steady config loop)
    (hcoming : loop.lookahead.toList ++ loop.rx = cmd :: rx)
    (hdrained : loop.rxClosed = true → rx = []) :
    Moved md5Hex config loop
        (enqueue cmd { loop with rx := rx, lookahead := none, lastTs := lastTs }) ∧
      (enqueue cmd { loop with rx := rx, lookahead := none, lastTs := lastTs }).lookahead =
        none := by
  obtain ⟨⟨slots, timers, hloop⟩, hself, hother⟩ := reslotted_enqueue
    { loop with rx := rx, lookahead := none, lastTs := lastTs } cmd
  rw [hloop] at hself hother ⊢
  have hafter : Steady config { loop with
      rx := rx
      lookahead := none
      lastTs := lastTs
      slots := slots
      timers := timers } := ⟨hsteady.config, hdrained⟩
  refine ⟨?_, rfl⟩
  apply moved_of_move md5Hex hafter
  · have hown : own cmd.id (cmd :: rx) = cmd :: own cmd.id rx :=
      List.filter_cons_of_pos (by simp)
    rw [view, hcoming, hown, view, hself]
    exact .enqueued rfl
  · intro other hid
    have hown : own other (cmd :: rx) = own other rx :=
      List.filter_cons_of_neg (by simpa using hid.symm)
    rw [view, view, hcoming, hown, hother other hid]
    rfl

theorem moved_receive {senderGone : Bool} {clock : List ℕ} (hsteady : Steady config loop)
    (hlookahead : loop.lookahead = none) :
    Moved md5Hex config loop (loop.receive senderGone clock) := by
  induction clock generalizing loop with
  | nil =>
      rw [receive]
      split_ifs with hgone
      · exact moved_of_view_eq md5Hex ⟨hsteady.config, fun _ => hgone.2⟩ fun _ => rfl
      · exact moved_refl md5Hex hsteady
  | cons now clock ih =>
      rw [receive]
      cases hrx : loop.rx with
      | nil =>
          dsimp only
          split_ifs with hgone
          · have hclosed : Moved md5Hex config loop { loop with rxClosed := true } :=
              moved_of_view_eq md5Hex ⟨hsteady.config, fun _ => hrx⟩ fun _ => rfl
            rwa [hrx] at hclosed
          · exact moved_refl md5Hex hsteady
      | cons cmd rx =>
          have hopen : ¬loop.rxClosed = true := by
            intro hclosed
            cases hrx.symm.trans (hsteady.drained hclosed)
          dsimp only
          split_ifs with hearly
          · have hafter : Steady config { loop with rx := rx, lookahead := some cmd } :=
              ⟨hsteady.config, fun hclosed => absurd hclosed hopen⟩
            apply moved_of_view_eq md5Hex hafter
            intro id
            rw [view, view, hlookahead, hrx]
            rfl
          · have hcoming : loop.lookahead.toList ++ loop.rx = cmd :: rx := by
              rw [hlookahead, hrx]
              rfl
            have hnone : { loop with rx := rx, lastTs := cmd.ts } =
                { loop with rx := rx, lookahead := none, lastTs := cmd.ts } := by
              rw [← hlookahead]
            obtain ⟨htaken, hempty⟩ := moved_enqueue md5Hex hsteady hcoming fun hclosed =>
              absurd hclosed hopen
            rw [hnone]
            exact htaken.trans md5Hex (ih htaken.steady hempty)

theorem moved_pull {senderGone : Bool} {clock : List ℕ} (hsteady : Steady config loop) :
    Moved md5Hex config loop (loop.pull senderGone now clock) := by
  rw [pull]
  cases hlookahead : loop.lookahead with
  | none => exact moved_receive md5Hex hsteady hlookahead
  | some cmd =>
      dsimp only
      split_ifs with hearly
      · exact moved_refl md5Hex hsteady
      · have hcoming : loop.lookahead.toList ++ loop.rx = cmd :: loop.rx := by
          rw [hlookahead]
          rfl
        obtain ⟨htaken, hempty⟩ := moved_enqueue md5Hex hsteady hcoming hsteady.drained
        exact htaken.trans md5Hex (moved_receive md5Hex htaken.steady hempty)

/-! ## The end of the replay -/

theorem reslotted_finishClient (loop : ReplayLoop) (id : ClientId) :
    Reslotted id (finished id loop.lastTs (loop.slots.lookup id)) loop (finishClient loop id) := by
  rw [finishClient]
  cases hslot : loop.slots.lookup id with
  | none =>
      have hsame := reslotted_self loop id
      rwa [hslot] at hsame
  | some slot => exact reslotted_pushBack loop id ⟨id, loop.lastTs, .endReplay⟩ slot

theorem foldl_finishClient_spec {ids : List ClientId} (hnodup : ids.Nodup) (loop : ReplayLoop) :
    ∃ slots timers, ids.foldl finishClient loop = { loop with slots := slots, timers := timers } ∧
      ∀ id, slots.lookup id = if id ∈ ids then finished id loop.lastTs (loop.slots.lookup id)
        else loop.slots.lookup id := by
  induction ids generalizing loop with
  | nil => exact ⟨loop.slots, loop.timers, rfl, fun id => (if_neg (by simp)).symm⟩
  | cons first ids ih =>
      obtain ⟨hnew, hrest⟩ := List.nodup_cons.mp hnodup
      obtain ⟨⟨slots, timers, hloop⟩, hself, hother⟩ := reslotted_finishClient loop first
      obtain ⟨slots', timers', hloop', hslots'⟩ := ih hrest (finishClient loop first)
      rw [hloop] at hloop' hslots' hself hother
      refine ⟨slots', timers', ?_, fun id => ?_⟩
      · rw [List.foldl_cons, hloop, hloop']
      · rw [hslots']
        by_cases hid : id = first
        · rw [hid, if_neg hnew, if_pos List.mem_cons_self]
          exact hself
        · simp only [List.mem_cons, hid, false_or]
          rw [hother id hid]

theorem moved_finishClients (hsteady : Steady config loop) (hclosed : loop.rxClosed = true)
    (hlookahead : loop.lookahead = none) (hended : loop.ended = false) :
    Moved md5Hex config loop loop.finishClients := by
  obtain ⟨slots, timers, hloop, hslots⟩ := foldl_finishClient_spec
    (AList.keys_nodup loop.slots) { loop with ended := true }
  rw [finishClients, hloop]
  refine ⟨⟨hsteady.config, hsteady.drained⟩, fun id => ?_⟩
  have hslot : slots.lookup id = finished id loop.lastTs (loop.slots.lookup id) := by
    rw [hslots]
    split_ifs with hmem
    · rfl
    · have hnone : loop.slots.lookup id = none := AList.lookup_eq_none.mpr hmem
      change loop.slots.lookup id = _
      rw [hnone]
      rfl
  apply Relation.ReflTransGen.single
  rw [view, view, hslot, hlookahead, hsteady.drained hclosed, hended]
  exact .finished loop.lastTs

end Moved

/-! ## Runs -/

theorem moved_step {config : ReplayConfig} {loop loop' : ReplayLoop} {call : Call}
    (hsteady : Steady config loop) (hstep : step md5Hex catchup loop call = some loop') :
    Moved md5Hex config loop loop' := by
  cases call with
  | pull senderGone now clock =>
      cases hstep
      exact moved_pull md5Hex hsteady
  | handleEvent now event net =>
      have hnet : Steady config { loop with net := net } := ⟨hsteady.config, hsteady.drained⟩
      have hmoved := moved_handleEvent md5Hex catchup hnet hstep
      exact ⟨hmoved.steady, hmoved.views⟩
  | dispatchReady now net =>
      cases hstep
      have hnet : Steady config { loop with net := net } := ⟨hsteady.config, hsteady.drained⟩
      have hmoved : Moved md5Hex config { loop with net := net }
          (dispatchReady catchup now { loop with net := net }) :=
        moved_dispatchReady md5Hex catchup hnet
      exact ⟨hmoved.steady, hmoved.views⟩
  | finishClients =>
      rw [step] at hstep
      split_ifs at hstep with hfinish
      cases hstep
      exact moved_finishClients md5Hex hsteady hfinish.1 hfinish.2.1 (eq_false_of_ne_true hfinish.2.2)

/-- Every run of the loop is a run of the machine of each client. -/
theorem moves_of_reachable {config : ReplayConfig} {rx : List ConnCommand} {loop : ReplayLoop}
    (hreachable : Reachable (step md5Hex catchup) (ReplayLoop.new config rx) loop)
    (id : ClientId) : Moves md5Hex config id ⟨own id rx, none, false, []⟩ (view id loop) := by
  have hmoved : Moved md5Hex config (ReplayLoop.new config rx) loop := by
    apply hreachable.invariant
    · exact moved_refl md5Hex ⟨rfl, by simp [ReplayLoop.new]⟩
    · intro loop call loop' hmoved hstep
      exact hmoved.trans md5Hex (moved_step md5Hex catchup hmoved.steady hstep)
  exact hmoved.views id

/-- An invariant of the moves holds of every client in every state that a run reaches. -/
theorem view_of_reachable {config : ReplayConfig} {rx : List ConnCommand} {loop : ReplayLoop}
    (hreachable : Reachable (step md5Hex catchup) (ReplayLoop.new config rx) loop)
    {id : ClientId} {Inv : View → Prop} (hstart : Inv ⟨own id rx, none, false, []⟩)
    (hmove : ∀ before after, Inv before → Move md5Hex config id before after → Inv after) :
    Inv (view id loop) := by
  have hmoves := moves_of_reachable md5Hex catchup hreachable id
  obtain ⟨last, hlast⟩ : ∃ last, view id loop = last := ⟨_, rfl⟩
  rw [hlast] at hmoves ⊢
  clear hlast
  induction hmoves with
  | refl => exact hstart
  | tail _ hlast ih => exact hmove _ _ ih hlast

end Pgr.OneClient
