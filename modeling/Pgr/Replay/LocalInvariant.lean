import Pgr.Replay.Scheduling

/-!
# Properties of single slots

What the handlers make of a slot depends on that slot alone.  A property of slots
that the execution of a command and the service of an event keep therefore holds of
every slot in every state that a run reaches, and what a connection has when it is let
go of holds of all closed connections.
-/

namespace Pgr.LocalInvariant

open Pgr.Capture Pgr.Manager Pgr.Client Pgr.Loop Pgr.Loop.ReplayLoop Pgr.Transition Pgr.Dispatch
open Pgr.Scheduling

variable (md5Hex : List UInt8 → String) (catchup : ℕ → ℕ)

/-- `Keeps` is about the slots in the loop and `Left` about the connections it has let
go of; `Server` is what the answers to the reads of a connection are assumed to be. -/
structure Local (config : ReplayConfig) (Server : Connection → List ReadAnswer → Prop)
    (Keeps : ClientId → Slot → Prop) (Left : ClientId → Connection → Prop) : Prop where
  new : ∀ id, Keeps id Slot.new
  queue : ∀ id slot queue rebase, Keeps id slot →
    Keeps id { slot with queue := queue, rebase := rebase }
  executed : ∀ id cmd slot after gone, Keeps id slot → slot.blocked = false →
    Executed config id cmd slot after gone →
      (∀ slot', after = some slot' → Keeps id slot') ∧ ∀ conn ∈ gone, Left id conn
  served : ∀ id now reads slot conn conn' slot', Keeps id slot → slot.conn = some conn →
    Server conn reads → Served md5Hex now reads slot { conn with connected := true } conn' slot' →
      (conn'.client.state ≠ .dead → Keeps id slot') ∧
        (conn'.client.state = .dead → Left id (answered conn'))
  left : ∀ id slot conn, Keeps id slot → slot.conn = some conn → Left id conn

/-- The answers to the reads of an event are such as the server gives. -/
def Answers (Server : Connection → List ReadAnswer → Prop) (loop : ReplayLoop) : Call → Prop
  | .handleEvent _ event _ => ∀ id slot conn, event.token = some id →
      loop.slots.lookup id = some slot → slot.conn = some conn → Server conn event.reads
  | _ => True

instance (Server : Connection → List ReadAnswer → Prop)
    [∀ conn reads, Decidable (Server conn reads)] (loop : ReplayLoop) (call : Call) :
    Decidable (Answers Server loop call) :=
  match call with
  | .handleEvent _ event _ =>
      match hconn : event.token.bind fun id => (loop.slots.lookup id).bind Slot.conn with
      | none => isTrue fun id slot conn htoken hslot hsome => by
          rw [htoken, Option.bind_some, hslot, Option.bind_some, hsome] at hconn
          cases hconn
      | some conn => decidable_of_iff (Server conn event.reads) <| by
          constructor
          · intro hserver id slot found htoken hslot hsome
            rw [htoken, Option.bind_some, hslot, Option.bind_some, hsome] at hconn
            cases hconn
            exact hserver
          · intro hanswers
            obtain ⟨id, htoken, hfound⟩ := Option.bind_eq_some_iff.mp hconn
            obtain ⟨slot, hslot, hsome⟩ := Option.bind_eq_some_iff.mp hfound
            exact hanswers id slot conn htoken hslot hsome
  | .pull .. | .dispatchReady .. | .finishClients => isTrue trivial

structure Held (config : ReplayConfig) (Keeps : ClientId → Slot → Prop)
    (Left : ClientId → Connection → Prop) (loop : ReplayLoop) : Prop where
  config : loop.config = config
  slots : ∀ id slot, loop.slots.lookup id = some slot → Keeps id slot
  closed : ∀ id conn, (id, conn) ∈ loop.closed → Left id conn

section Steps

variable {config : ReplayConfig} {Server : Connection → List ReadAnswer → Prop}
  {Keeps : ClientId → Slot → Prop} {Left : ClientId → Connection → Prop}
  {loop loop' : ReplayLoop} {id : ClientId} {now : ℕ}

theorem Held.becomes {after : Option Slot} {gone : List Connection}
    (hheld : Held config Keeps Left loop) (hbecomes : Becomes id after gone loop loop')
    (hafter : ∀ slot, after = some slot → Keeps id slot) (hgone : ∀ conn ∈ gone, Left id conn) :
    Held config Keeps Left loop' where
  config := hbecomes.config.trans hheld.config
  slots other slot hslot := by
    by_cases hother : other = id
    · subst hother
      rw [hbecomes.self] at hslot
      exact hafter slot hslot
    · rw [hbecomes.other other hother] at hslot
      exact hheld.slots other slot hslot
  closed other conn hclosed := by
    rw [hbecomes.closed] at hclosed
    rcases List.mem_append.mp hclosed with hold | hnew
    · exact hheld.closed other conn hold
    · obtain ⟨left, hleft, heq⟩ := List.mem_map.mp hnew
      cases heq
      exact hgone conn hleft

/-- A state with the same slots and closed connections. -/
theorem Held.congr (hheld : Held config Keeps Left loop) (hslots : loop'.slots = loop.slots)
    (hclosed : loop'.closed = loop.closed) (hconfig : loop'.config = loop.config) :
    Held config Keeps Left loop' where
  config := hconfig.trans hheld.config
  slots := by
    rw [hslots]
    exact hheld.slots
  closed := by
    rw [hclosed]
    exact hheld.closed

variable (hlocal : Local md5Hex config Server Keeps Left)
include hlocal

theorem held_dispatched (hheld : Held config Keeps Left loop)
    (hdispatched : Dispatched id now loop loop') : Held config Keeps Left loop' := by
  induction hdispatched with
  | absent => exact hheld
  | blocked => exact hheld
  | drained => exact hheld
  | @waits loop slot head queue hslot hqueue hdue =>
      obtain ⟨shift, -, hrebased⟩ := rebased_eq slot head loop
      have hset := becomes_setSlot { loop with shift := shift } id (lookedAt slot) loop.net
      have hshifted : Held config Keeps Left { loop with shift := shift } :=
        hheld.congr rfl rfl rfl
      have hlooked : Keeps id (lookedAt slot) :=
        hlocal.queue id slot slot.queue _ (hheld.slots id slot hslot)
      have hafter := hshifted.becomes hset (by simpa using hlooked) (by simp)
      rw [hrebased]
      exact hafter.congr rfl rfl rfl
  | @turn loop last slot head queue hslot hblocked hqueue hrest ih =>
      obtain ⟨after, gone, hexecuted, hbecomes⟩ := turn_spec loop id slot head queue
      obtain ⟨shift, -, hrebased⟩ := rebased_eq slot head loop
      have hlooked : Keeps id { lookedAt slot with queue := queue } :=
        hlocal.queue id slot queue _ (hheld.slots id slot hslot)
      rw [hheld.config] at hexecuted
      have hunblocked : Slot.blocked { lookedAt slot with queue := queue } = false := hblocked
      obtain ⟨hafter, hgone⟩ := hlocal.executed id head _ after gone hlooked hunblocked hexecuted
      have hshifted : Held config Keeps Left (loop.rebased slot head) := by
        rw [hrebased]
        exact hheld.congr rfl rfl rfl
      exact ih (hshifted.becomes hbecomes hafter hgone)

theorem held_tryDispatch (hheld : Held config Keeps Left loop) :
    Held config Keeps Left (loop.tryDispatch id now) :=
  held_dispatched md5Hex hlocal hheld (dispatched_tryDispatch loop id now)

theorem held_pushBack {cmd : ConnCommand} {slot : Slot} (hheld : Held config Keeps Left loop)
    (hslot : Keeps id slot) : Held config Keeps Left (loop.pushBack id cmd slot) := by
  have hqueued : Keeps id { slot with queue := slot.queue ++ [cmd] } :=
    hlocal.queue id slot (slot.queue ++ [cmd]) slot.rebase hslot
  have hset := hheld.becomes (becomes_setSlot loop id _ loop.net) (by simpa using hqueued) (by simp)
  rw [pushBack]
  dsimp only
  split_ifs with hone
  · obtain hsame | ⟨key, hpushed⟩ := schedule_eq (loop.setSlot id _) id
    · rw [hsame]
      exact hset
    · rw [hpushed]
      exact hset.congr rfl rfl rfl
  · exact hset

theorem keptByPush_held : KeptByPush (Held config Keeps Left) where
  inputs _ _ _ _ _ _ hheld := hheld.congr rfl rfl rfl
  push loop id cmd slot hheld hslot := by
    apply held_pushBack md5Hex hlocal hheld
    rcases hslot with hsome | ⟨-, hnew⟩
    · exact hheld.slots id slot hsome
    · rw [hnew]
      exact hlocal.new id

theorem held_handleEvent {event : Event} (hheld : Held config Keeps Left loop)
    (hserver : ∀ id slot conn, event.token = some id → loop.slots.lookup id = some slot →
      slot.conn = some conn → Server conn event.reads)
    (hevent : loop.handleEvent md5Hex catchup now event = some loop') :
    Held config Keeps Left loop' := by
  obtain ⟨shift, lastTick, -, hhandled⟩ := handleEvent_spec md5Hex catchup hevent
  have hticked : Held config Keeps Left { loop with shift := shift, lastTick := lastTick } :=
    hheld.congr rfl rfl rfl
  cases hhandled with
  | ignored => exact hticked
  | @failed id slot htoken hslot _ hbecomes =>
      apply hticked.becomes hbecomes (by simp)
      intro conn hconn
      exact hlocal.left id slot conn (hheld.slots id slot hslot) (Option.mem_toList.mp hconn)
  | @served id slot conn _ htoken hslot hconn hconnected conn' slot' hserved _ hafter =>
      subst hconnected
      obtain ⟨halive, hdead⟩ := hlocal.served id now event.reads slot conn conn' slot'
        (hheld.slots id slot hslot) hconn (hserver id slot conn htoken hslot hconn) hserved
      rcases hafter with ⟨hstate, hbecomes⟩ | ⟨hstate, middle, hbecomes, hloop'⟩
      · exact hticked.becomes hbecomes (by simp) (by simpa using hdead hstate)
      · have hset := hticked.becomes hbecomes (by simpa using halive hstate) (by simp)
        rw [hloop']
        exact held_tryDispatch md5Hex hlocal hset

theorem held_step {call : Call} (hheld : Held config Keeps Left loop)
    (hanswers : Answers Server loop call) (hstep : step md5Hex catchup loop call = some loop') :
    Held config Keeps Left loop' := by
  cases call with
  | pull senderGone now clock =>
      cases hstep
      exact (keptByPush_held md5Hex hlocal).pull hheld
  | handleEvent now event net =>
      have hnet : Held config Keeps Left { loop with net := net } := hheld.congr rfl rfl rfl
      exact held_handleEvent md5Hex catchup hlocal hnet hanswers hstep
  | dispatchReady now net =>
      cases hstep
      rw [dispatchReady]
      obtain ⟨shift, lastTick, -, hticked⟩ := catchUp_eq catchup now { loop with net := net }
      have hstart : Held config Keeps Left
          { ({ loop with net := net } : ReplayLoop) with shift := shift, lastTick := lastTick } :=
        hheld.congr rfl rfl rfl
      rw [hticked]
      apply dispatchTimers_invariant _ hstart
      intro loop ts id timers hinv _ _
      have hpopped : Held config Keeps Left { loop with timers := timers } := hinv.congr rfl rfl rfl
      exact held_tryDispatch md5Hex hlocal hpopped
  | finishClients =>
      rw [step] at hstep
      split_ifs at hstep with hfinish
      cases hstep
      exact (keptByPush_held md5Hex hlocal).finishClients hheld

/-- A local invariant holds in every state that a run reaches against such a server. -/
theorem held_of_reaches {rx : List ConnCommand}
    (hreaches : Reaches (step md5Hex catchup) (Answers Server) (ReplayLoop.new config rx) loop) :
    Held config Keeps Left loop := by
  apply hreaches.invariant
  · refine ⟨rfl, ?_, ?_⟩
    · intro id slot hslot
      cases hslot
    · intro id conn hclosed
      cases hclosed
  · intro loop call loop' hheld hanswers hstep
    exact held_step md5Hex catchup hlocal hheld hanswers hstep

end Steps

end Pgr.LocalInvariant
