import Pgr.Replay.Conversation
import Pgr.Replay.LocalInvariant

/-!
# One answer at a time

Against a server that answers its startup, every query and every sync with one
`ReadyForQuery`, a client puts a frame into its outbox only when it has parsed an
answer to everything before that wants one.  The invariant of a connection compares
the answers in its notes with the frames that want one: an answer is missing if and
only if the slot is waiting.
-/

namespace Pgr.Gating

open Pgr.Capture Pgr.Proto Pgr.Manager Pgr.Client Pgr.Loop Pgr.Loop.ReplayLoop Pgr.Transition
open Pgr.Framing Pgr.Dispatch Pgr.Conversation Pgr.CheckedRead Pgr.LocalInvariant

variable (md5Hex : List UInt8 → String) (catchup : ℕ → ℕ)

/-! ## The server -/

def isBlocking : Note → Bool
  | .frame tag _ => tag = fQuery ∨ tag = fSync
  | _ => false

def isFrameNote : Note → Bool
  | .frame _ _ => true
  | _ => false

/-- The frames that are to be answered. -/
def blockings (notes : List Note) : ℕ :=
  notes.countP isBlocking

def readies (notes : List Note) : ℕ :=
  notes.count .readyForQuery

def isReady (frame : List UInt8) : Bool :=
  frame.headD 0 = bReadyForQuery

/-- The `ReadyForQuery` messages among the bytes of the server. -/
def readyFrames (bytes : List UInt8) : ℕ :=
  (splitFrames bytes).1.countP isReady

/-- The notes whose bytes are all among the first `length`. -/
def wholeNotes : (length : ℕ) → List Note → List Note
  | _, [] => []
  | length, note :: notes =>
      if note.sent.length ≤ length then note :: wholeNotes (length - note.sent.length) notes
      else []

/-- The frames to be answered that the server has received as a whole. -/
def received (conn : Connection) : ℕ :=
  blockings (wholeNotes conn.accepted.length conn.client.notes)

/-- The server has sent one `ReadyForQuery` after startup and at most one for each query
and sync that it has received. -/
def AnswersInTurn (conn : Connection) (reads : List ReadAnswer) : Prop :=
  ∀ conn', readConn md5Hex reads { conn with connected := true } = some conn' →
    readyFrames conn'.delivered ≤ 1 + received conn

/-! ## The log of a client -/

/-- In front of every frame there is an answer to the startup and to every frame before
that is to be answered. -/
def Gated (notes : List Note) : Prop :=
  ∀ before tag bytes after, notes = before ++ .frame tag bytes :: after →
    readies before = 1 + blockings before

theorem wholeNotes_isPrefix (length : ℕ) (notes : List Note) : wholeNotes length notes <+: notes := by
  induction notes generalizing length with
  | nil => exact List.prefix_refl _
  | cons note notes ih =>
      rw [wholeNotes]
      split_ifs
      · exact (List.prefix_cons_inj note).mpr (ih _)
      · exact List.nil_prefix

theorem received_le (conn : Connection) : received conn ≤ blockings conn.client.notes :=
  (wholeNotes_isPrefix _ _).sublist.countP_le

theorem blockings_append (notes more : List Note) :
    blockings (notes ++ more) = blockings notes + blockings more :=
  List.countP_append

theorem readies_append (notes more : List Note) :
    readies (notes ++ more) = readies notes + readies more :=
  List.count_append

/-- Notes of another kind change nothing. -/
theorem Gated.append {notes more : List Note} (hgated : Gated notes)
    (hmore : ∀ note ∈ more, isFrameNote note = false) : Gated (notes ++ more) := by
  intro before tag bytes after hnotes
  obtain ⟨middle, hbefore, hafter⟩ | ⟨middle, hbefore, hafter⟩ := List.append_eq_append_iff.mp hnotes
  · have hmem : Note.frame tag bytes ∈ more := by
      rw [hafter]
      exact List.mem_append_right _ List.mem_cons_self
    exact absurd (hmore _ hmem) (by simp [isFrameNote])
  · cases middle with
    | nil =>
        have hmem : Note.frame tag bytes ∈ more := by
          rw [List.nil_append] at hafter
          rw [← hafter]
          exact List.mem_cons_self
        exact absurd (hmore _ hmem) (by simp [isFrameNote])
    | cons first rest =>
        obtain ⟨hfirst, -⟩ := List.cons.inj hafter
        rw [← hfirst] at hbefore
        exact hgated before tag bytes rest hbefore

/-- A frame may follow when nothing is left to be answered. -/
theorem Gated.concat {notes : List Note} (hgated : Gated notes)
    (hanswered : readies notes = 1 + blockings notes) (note : Note) : Gated (notes ++ [note]) := by
  intro before tag bytes after hnotes
  cases hlast : after.reverse with
  | nil =>
      rw [List.reverse_eq_nil_iff.mp hlast] at hnotes
      obtain ⟨hbefore, -⟩ := List.append_inj' hnotes rfl
      rw [← hbefore]
      exact hanswered
  | cons last others =>
      have hafter : after = others.reverse ++ [last] := by
        rw [← List.reverse_cons, ← hlast, List.reverse_reverse]
      rw [hafter, ← List.cons_append, ← List.append_assoc] at hnotes
      obtain ⟨hfront, -⟩ := List.append_inj' hnotes rfl
      exact hgated before tag bytes others.reverse hfront

/-! ## What is heard -/

theorem tag_of_readyForQuery {tag : UInt8} {data : List UInt8}
    (hmessage : parseMessage tag data = some .readyForQuery) : tag = bReadyForQuery := by
  by_contra hother
  rw [parseMessage] at hmessage
  split_ifs at hmessage <;> cases hmessage

theorem heard_not_frame (config : ReplayConfig) (state : ClientState) (frame : List UInt8) :
    ∀ note ∈ heard md5Hex config state frame, isFrameNote note = false := by
  intro note hnote
  rw [heard.eq_def] at hnote
  split at hnote
  · rw [authAnswer.eq_def] at hnote
    split at hnote
    · rw [List.mem_singleton.mp hnote]
      rfl
    · rw [List.mem_singleton.mp hnote]
      rfl
    · cases hnote
  · rw [List.mem_singleton.mp hnote]
    rfl
  · rw [List.mem_singleton.mp hnote]
    rfl
  · cases hnote

theorem readies_authAnswer (config : ReplayConfig) (auth : Authentication) :
    readies (authAnswer md5Hex config auth) = 0 := by
  rw [authAnswer.eq_def]
  split <;> rfl

/-- An answer is noted for a `ReadyForQuery` message only. -/
theorem readies_heard_le (config : ReplayConfig) (state : ClientState) (frame : List UInt8) :
    readies (heard md5Hex config state frame) ≤ if isReady frame then 1 else 0 := by
  rw [heard.eq_def]
  split
  · rw [readies_authAnswer]
    exact Nat.zero_le _
  · next hmessage =>
      have hready : isReady frame = true := decide_eq_true (tag_of_readyForQuery hmessage)
      rw [if_pos hready]
      exact le_refl 1
  · next hmessage =>
      have hready : isReady frame = true := decide_eq_true (tag_of_readyForQuery hmessage)
      rw [if_pos hready]
      exact le_refl 1
  · exact Nat.zero_le _

theorem readies_hearAll_le (config : ReplayConfig) (state : ClientState)
    (frames : List (List UInt8)) :
    readies (hearAll md5Hex config state frames).2 ≤ frames.countP isReady := by
  induction frames generalizing state with
  | nil => exact Nat.zero_le _
  | cons frame frames ih =>
      have hfirst := readies_heard_le md5Hex config state frame
      have hrest := ih (stateBehind config state frame)
      rw [hearAll, readies_append, List.countP_cons]
      omega

theorem hearAll_not_frame (config : ReplayConfig) (state : ClientState)
    (frames : List (List UInt8)) :
    ∀ note ∈ (hearAll md5Hex config state frames).2, isFrameNote note = false := by
  induction frames generalizing state with
  | nil => simp [hearAll]
  | cons frame frames ih =>
      intro note hnote
      rcases List.mem_append.mp hnote with hfirst | hrest
      · exact heard_not_frame md5Hex config state frame note hfirst
      · exact ih _ note hrest

theorem blockings_of_not_frame {notes : List Note}
    (hnotes : ∀ note ∈ notes, isFrameNote note = false) : blockings notes = 0 := by
  apply List.countP_eq_zero.mpr
  intro note hnote hblocking
  have hframe := hnotes note hnote
  cases note with
  | frame tag bytes => cases hframe
  | _ => cases hblocking

/-- A client that is still connecting has not heard an answer. -/
theorem connecting_of_stateBehind {config : ReplayConfig} {state : ClientState}
    {frame : List UInt8} (hstate : stateBehind config state frame = .connecting) :
    state = .connecting ∧ .readyForQuery ∉ heard md5Hex config state frame := by
  rw [stateBehind, stateAfter.eq_def] at hstate
  cases state with
  | dead => cases hstate
  | normal => cases hstate
  | connecting =>
      refine ⟨rfl, ?_⟩
      rw [heard.eq_def]
      cases hmessage : parseMessage (frame.headD 0) (frame.drop 5) with
      | none => simp
      | some message =>
          rw [hmessage] at hstate
          cases message with
          | authentication auth =>
              intro hmem
              have hcount := readies_authAnswer md5Hex config auth
              exact List.count_eq_zero.mp hcount hmem
          | readyForQuery => cases hstate
          | _ => simp

theorem connecting_of_hearAll {config : ReplayConfig} {state : ClientState}
    {frames : List (List UInt8)}
    (hstate : (hearAll md5Hex config state frames).1 = .connecting) :
    state = .connecting ∧ .readyForQuery ∉ (hearAll md5Hex config state frames).2 := by
  induction frames generalizing state with
  | nil => exact ⟨hstate, by simp [hearAll]⟩
  | cons frame frames ih =>
      obtain ⟨hbehind, hrest⟩ := ih hstate
      obtain ⟨hfirst, hheard⟩ := connecting_of_stateBehind md5Hex hbehind
      refine ⟨hfirst, ?_⟩
      intro hmem
      exact (List.mem_append.mp hmem).elim hheard hrest

/-! ## One connection -/

/-- A connection in a slot: an answer is missing if and only if the slot is waiting. -/
structure Gate (awaiting : Bool) (conn : Connection) : Prop where
  alive : conn.client.state ≠ .dead
  rfq : conn.client.rfq = false
  connecting : conn.client.state = .connecting → awaiting = true
  parsed : ∃ frames : List (List UInt8), (∀ frame ∈ frames, IsFrame frame) ∧
    conn.delivered = frames.flatten ++ conn.client.parseStream.data ∧
    readies conn.client.notes ≤ frames.countP isReady
  counts : readies conn.client.notes = blockings conn.client.notes + if awaiting then 0 else 1
  gated : Gated conn.client.notes

/-- What also holds of a connection that the loop has let go of. -/
structure Logged (conn : Connection) : Prop where
  gated : Gated conn.client.notes
  /-- The first answer is that to the startup. -/
  outstanding : blockings conn.client.notes ≤ readies conn.client.notes

theorem Gate.logged {awaiting : Bool} {conn : Connection} (hgate : Gate awaiting conn) :
    Logged conn where
  gated := hgate.gated
  outstanding := by
    rw [hgate.counts]
    exact Nat.le_add_right _ _

theorem gate_openConn (id : ClientId) (config : ReplayConfig) : Gate true (openConn id config) where
  alive hdead := by cases hdead
  rfq := rfl
  connecting _ := rfl
  parsed := ⟨[], by simp, rfl, Nat.zero_le _⟩
  counts := rfl
  gated := by
    have hnothing : Gated [] := by
      intro before tag bytes after hnotes
      exact absurd hnotes.symm (by simp)
    have hstartup : ∀ note ∈ (openConn id config).client.notes, isFrameNote note = false := by
      intro note hnote
      rw [List.mem_singleton.mp hnote]
      rfl
    exact hnothing.append hstartup

/-- A command is given to a connection that has all answers. -/
theorem Gate.given {kind : CmdKind} {conn conn' : Connection} (hgate : Gate false conn)
    (hgiven : Given kind conn conn') :
    Logged conn' ∧ (conn'.client.state ≠ .dead → Gate (blocking kind) conn') := by
  obtain ⟨hstates, hnotes, -, hrfq, -⟩ := hgiven.advances
  have hanswered : readies conn.client.notes = 1 + blockings conn.client.notes := by
    rw [hgate.counts, add_comm]
    rfl
  have hgated : Gated conn'.client.notes := by
    rw [hnotes]
    cases kind with
    | connect => exact hgate.gated.append (by simp [toldNotes])
    | send tag data => exact hgate.gated.concat hanswered _
    | endReplay =>
        rw [toldNotes]
        split_ifs
        · exact hgate.gated.append (by simp)
        · exact hgate.gated.concat hanswered _
  have hready : readies (toldNotes conn.client.sentTerminate kind) = 0 :=
    List.count_eq_zero.mpr (readyForQuery_not_mem_toldNotes _ kind)
  have hblocking : blockings (toldNotes conn.client.sentTerminate kind) =
      if blocking kind then 1 else 0 := by
    cases kind with
    | connect => rfl
    | send tag data =>
        simp [toldNotes, blockings, isBlocking, blocking, List.countP_cons]
    | endReplay => cases conn.client.sentTerminate <;> rfl
  have hcounts : readies conn'.client.notes =
      blockings conn'.client.notes + if blocking kind then 0 else 1 := by
    rw [hnotes, readies_append, blockings_append, hready, hblocking, hanswered]
    split_ifs <;> omega
  refine ⟨⟨hgated, by rw [hcounts]; exact Nat.le_add_right _ _⟩, fun halive => ?_⟩
  obtain ⟨frames, hframes, hdelivered, hparsed⟩ := hgate.parsed
  refine ⟨halive, ?_, ?_, ⟨frames, hframes, ?_, ?_⟩, hcounts, hgated⟩
  · rw [hrfq, hgate.rfq, decide_eq_false (readyForQuery_not_mem_toldNotes _ kind)]
    rfl
  · intro hconnecting
    rw [hstates.resolve_right halive] at hconnecting
    cases hgate.connecting hconnecting
  · rw [hgiven.delivered, hgiven.parseStream]
    exact hdelivered
  · rw [hnotes, readies_append, hready]
    exact hparsed

/-- The answers that have been parsed are among those that the server has sent, and it
has sent no more than it owes. -/
theorem Gate.parsed_heard {awaiting : Bool} {conn middle conn' : Connection}
    {reads : List ReadAnswer} {frames : List (List UInt8)} (hgate : Gate awaiting conn)
    (hserver : AnswersInTurn md5Hex conn reads)
    (hread : readConn md5Hex reads { conn with connected := true } = some middle)
    (hdelivered : conn'.delivered = middle.delivered)
    (hheard : Heard md5Hex frames { conn with connected := true } conn') :
    (∃ frames : List (List UInt8), (∀ frame ∈ frames, IsFrame frame) ∧
      conn'.delivered = frames.flatten ++ conn'.client.parseStream.data ∧
      readies conn'.client.notes ≤ frames.countP isReady) ∧
      readies conn'.client.notes ≤ 1 + blockings conn.client.notes := by
  obtain ⟨old, hold, hbefore, hready⟩ := hgate.parsed
  obtain ⟨more, hmore, hbytes⟩ := hheard.bytes
  dsimp only at hmore hbytes
  have hnotes : conn'.client.notes = conn.client.notes ++ _ := hheard.advances.notes
  have hframes : ∀ frame ∈ old ++ frames, IsFrame frame := by
    intro frame hframe
    rcases List.mem_append.mp hframe with hmem | hmem
    · exact hold frame hmem
    · exact hheard.isFrame frame hmem
  have hsplit : conn'.delivered = (old ++ frames).flatten ++ conn'.client.parseStream.data := by
    rw [hmore, hbefore, List.append_assoc, hbytes, List.flatten_append, List.append_assoc]
  have hparsed : readies conn'.client.notes ≤ (old ++ frames).countP isReady := by
    rw [hnotes, readies_append, List.countP_append]
    exact Nat.add_le_add hready (readies_hearAll_le md5Hex _ _ frames)
  have hsent : (old ++ frames).countP isReady ≤ 1 + blockings conn.client.notes := by
    have hcount := hserver middle hread
    rw [readyFrames, ← hdelivered, hsplit, splitFrames_flatten hframes,
      List.countP_append] at hcount
    have hreceived := received_le conn
    omega
  exact ⟨⟨old ++ frames, hframes, hsplit, hparsed⟩, hparsed.trans hsent⟩

/-- A connection that has read and has been flushed: an answer has come if and only if
one was missing. -/
theorem Gate.served {awaiting : Bool} {conn middle : Connection} {reads : List ReadAnswer}
    (hgate : Gate awaiting conn) (hserver : AnswersInTurn md5Hex conn reads)
    (hread : readConn md5Hex reads { conn with connected := true } = some middle)
    (answers : List WriteAnswer) {conn' : Connection}
    (hflush : (flushConn answers middle).1 = conn') :
    Logged (answered conn') ∧ (conn'.client.state ≠ .dead →
      Gate (awaiting && !conn'.client.rfq) (answered conn')) := by
  obtain ⟨frames, hheard⟩ := heard_of_readConn md5Hex hread answers
  have hdelivered := (flushed_flushConn answers middle).1.delivered
  rw [hflush] at hheard hdelivered
  obtain ⟨hparsed, hmost⟩ := hgate.parsed_heard md5Hex hserver hread hdelivered hheard
  obtain ⟨hstates, hnotes, -, hrfq, -⟩ := hheard.advances
  dsimp only at hstates hnotes hrfq
  obtain ⟨heard, hheardAll⟩ : ∃ heard,
      hearAll md5Hex conn.client.config conn.client.state frames = heard := ⟨_, rfl⟩
  have hsilent := hearAll_not_frame md5Hex conn.client.config conn.client.state frames
  rw [hheardAll] at hstates hnotes hrfq hsilent
  have hblockings : blockings conn'.client.notes = blockings conn.client.notes := by
    rw [hnotes, blockings_append, blockings_of_not_frame hsilent, Nat.add_zero]
  have hreadies : readies conn'.client.notes = readies conn.client.notes + readies heard.2 := by
    rw [hnotes, readies_append]
  have hgated : Gated conn'.client.notes := by
    rw [hnotes]
    exact hgate.gated.append hsilent
  have hbefore := hgate.counts
  rw [hgate.rfq, Bool.false_or] at hrfq
  refine ⟨⟨hgated, ?_⟩, fun halive => ⟨halive, rfl, ?_, hparsed, ?_, hgated⟩⟩
  · change blockings conn'.client.notes ≤ readies conn'.client.notes
    rw [hblockings, hreadies, hbefore]
    exact (Nat.le_add_right _ _).trans (Nat.le_add_right _ _)
  · intro hconnecting
    have hbehind : heard.1 = .connecting := (hstates.resolve_right halive).symm.trans hconnecting
    rw [← hheardAll] at hbehind
    obtain ⟨hfirst, hunheard⟩ := connecting_of_hearAll md5Hex hbehind
    rw [hheardAll] at hunheard
    rw [hgate.connecting hfirst, hrfq, decide_eq_false hunheard]
    rfl
  · change readies conn'.client.notes = blockings conn'.client.notes +
      if (awaiting && !conn'.client.rfq) = true then 0 else 1
    have hflag : conn'.client.rfq = decide (0 < readies heard.2) := by
      rw [hrfq, decide_eq_decide, readies, List.count_pos_iff]
    rw [hblockings, hflag]
    cases awaiting with
    | false =>
        simp only [Bool.false_and, Bool.false_eq_true, if_false] at hbefore ⊢
        omega
    | true =>
        simp only [Bool.true_and, if_true] at hbefore ⊢
        by_cases hany : 0 < readies heard.2
        · rw [decide_eq_true hany]
          simp only [Bool.not_true, Bool.false_eq_true, if_false]
          omega
        · rw [decide_eq_false hany]
          simp only [Bool.not_false, if_true]
          omega

/-! ## Runs -/

def Keeps (slot : Slot) : Prop :=
  ∀ conn, slot.conn = some conn → Gate slot.awaiting conn

theorem local_gating (config : ReplayConfig) :
    Local md5Hex config (AnswersInTurn md5Hex) (fun _ => Keeps) (fun _ => Logged) where
  new id conn hconn := by cases hconn
  queue id slot queue rebase hkeeps := hkeeps
  executed id cmd slot after gone hkeeps hblocked hexecuted := by
    refine executed_of_given (gate_openConn id config) ?_ ?_ ?_ hkeeps hblocked hexecuted
    · exact fun _ _ hgate => hgate.logged
    · exact fun _ hgate => normal_of_alive hgate.alive hgate.connecting
    · exact fun _ _ hgate hgiven => hgate.given hgiven
  served id now reads slot conn conn' slot' hkeeps hconn hserver hserved := by
    obtain ⟨answers, middle, hread, hflush⟩ := hserved.read
    obtain ⟨hlogged, hgate⟩ := (hkeeps conn hconn).served md5Hex hserver hread answers hflush
    refine ⟨fun halive found hfound => ?_, fun _ => hlogged⟩
    rw [hserved.conn] at hfound
    cases hfound
    rw [hserved.awaiting]
    exact hgate halive
  left id slot conn hkeeps hconn := (hkeeps conn hconn).logged

/-- However the bytes of the server are cut, and in whatever order the handlers run, no
frame of a client goes into its outbox before the startup and every query and sync before
it have been answered, and at most one query or sync is without its answer. -/
theorem gated_of_reaches {config : ReplayConfig} {rx : List ConnCommand} {loop : ReplayLoop}
    (hreaches : Reaches (step md5Hex catchup) (Answers (AnswersInTurn md5Hex))
      (ReplayLoop.new config rx) loop) {id : ClientId} {conn : Connection}
    (hconn : (∃ slot, loop.slots.lookup id = some slot ∧ slot.conn = some conn) ∨
      (id, conn) ∈ loop.closed) :
    Gated conn.client.notes ∧ blockings conn.client.notes ≤ readies conn.client.notes := by
  have hheld := held_of_reaches md5Hex catchup (local_gating md5Hex config) hreaches
  have hlogged : Logged conn := by
    rcases hconn with ⟨slot, hslot, hconn⟩ | hclosed
    · exact (hheld.slots id slot hslot conn hconn).logged
    · exact hheld.closed id conn hclosed
  exact ⟨hlogged.gated, hlogged.outstanding⟩

/-! ## An example -/

instance (conn : Connection) (reads : List ReadAnswer) :
    Decidable (AnswersInTurn md5Hex conn reads) :=
  match hread : readConn md5Hex reads { conn with connected := true } with
  | none => isTrue fun conn' hsome => by
      rw [hread] at hsome
      cases hsome
  | some conn' => decidable_of_iff (readyFrames conn'.delivered ≤ 1 + received conn) <| by
      rw [AnswersInTurn, hread]
      simp

/-- A query and a sync for a client whose startup is answered. -/
def queryAndSync : List ConnCommand :=
  [ConnCommand.connect 7 0, ConnCommand.send 7 0 fQuery [fQuery, 0, 0, 0, 5, 0],
    ConnCommand.send 7 0 fSync [fSync, 0, 0, 0, 4]]

def startupAnswered : List Call :=
  [.pull true 0 [0, 0, 0], .dispatchReady 0 ⟨[], []⟩,
    .handleEvent 0 ⟨some 7, true, false, .connected, [.data [bReadyForQuery, 0, 0, 0, 5, 0x49]]⟩
      ⟨[], []⟩]

/-- The query is in the outbox and the sync is not. -/
theorem gated_of_reaches_queryAndSync : ∃ loop,
    Reaches (step (fun _ => "") fun ticks => ticks) (Answers (AnswersInTurn fun _ => ""))
      (ReplayLoop.new ⟨"u", none, "d", "pgr"⟩ queryAndSync) loop ∧
    ∃ slot conn, loop.slots.lookup 7 = some slot ∧ slot.conn = some conn ∧
      slot.queue.length = 1 ∧ blockings conn.client.notes = 1 ∧ readies conn.client.notes = 1 ∧
      Gated conn.client.notes := by
  have hrun : ((runWhile (step (fun _ => "") fun ticks => ticks)
      (Answers (AnswersInTurn fun _ => "")) (ReplayLoop.new ⟨"u", none, "d", "pgr"⟩ queryAndSync)
        startupAnswered).bind fun loop => (loop.slots.lookup 7).bind fun slot =>
          slot.conn.map fun conn =>
            (slot.queue.length, blockings conn.client.notes, readies conn.client.notes)) =
      some (1, 1, 1) := by
    decide +kernel
  obtain ⟨loop, hloop, hrun⟩ := Option.bind_eq_some_iff.mp hrun
  obtain ⟨slot, hslot, hrun⟩ := Option.bind_eq_some_iff.mp hrun
  obtain ⟨conn, hconn, hvalues⟩ := Option.map_eq_some_iff.mp hrun
  simp only [Prod.mk.injEq] at hvalues
  obtain ⟨hqueue, hblocking, hready⟩ := hvalues
  have hreaches := reaches_of_runWhile hloop
  exact ⟨loop, hreaches, slot, conn, hslot, hconn, hqueue, hblocking, hready,
    (gated_of_reaches _ _ hreaches (.inl ⟨slot, hslot, hconn⟩)).1⟩

end Pgr.Gating
