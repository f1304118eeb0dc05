import Pgr.Analysis.Merge
import Pgr.Extension.ChannelFiles
import Pgr.Pipeline.ComparePairing

/-!
# Trace and timing files, from the backends to their readers

`send_trace_event` and `send_timing_event` push records of 13 bytes, a worker writes
them to a file, and `TraceReader` and `TimingReader` read the file until it ends.
Backends, workers and whoever starts and stops a replay take their steps in any order,
and the reader may see the file cut anywhere.
-/

namespace Pgr.EventFiles

open Pgr.Decoding Pgr.Capture Pgr.Trace Pgr.Compare Pgr.Merge Pgr.Ring Pgr.WholeMessages
  Pgr.ChannelFiles Pgr.Transition

/-- `TraceReader::next`. -/
def nextTrace : FileReader TraceData := do
  let id ← u32
  let frameIndex ← u32
  let durationUs ← u32
  let eventType ← u8
  pure ⟨id, frameIndex, durationUs, eventType⟩

/-- The outer loop of `analyze` ends at the end of the file. -/
def traceOrEnd : FileReader (Option TraceData) := fun file =>
  match nextTrace file with
  | .ok trace rest => .ok (some trace) rest
  | .error .unexpectedEof rest => .ok none rest
  | .error error rest => .error error rest

/-- A file takes no more rounds than it has bytes. -/
def readTraces (file : List UInt8) : List TraceData :=
  readLog traceOrEnd file.length file

def readTimings (file : List UInt8) : List TimingData :=
  readLog nextTiming file.length file

/-- A call of `send_trace_event`. -/
structure TraceEvent where
  backend : Trace.Backend
  durationUs : UInt32
  eventType : UInt8

def TraceEvent.record (event : TraceEvent) : List UInt8 :=
  traceRecord event.backend event.durationUs event.eventType

def TraceEvent.data (event : TraceEvent) : TraceData :=
  ⟨event.backend.myReplayId, traceIndex event.backend, event.durationUs, event.eventType⟩

/-- A call of `send_timing_event`. -/
structure TimingEvent where
  backend : Trace.Backend
  type : UInt8
  ts : UInt64

def TimingEvent.record (event : TimingEvent) : List UInt8 :=
  timingRecord event.backend event.type event.ts

def TimingEvent.data (event : TimingEvent) : TimingData :=
  ⟨event.backend.myReplayId, event.type, event.ts⟩

section Moves

variable {ι : Type}

def traceEvent? : ServerMove ι → Option TraceEvent
  | .backend (.trace _ backend durationUs eventType) => some ⟨backend, durationUs, eventType⟩
  | _ => none

def timingEvent? : ServerMove ι → Option TimingEvent
  | .backend (.timing _ backend type ts) => some ⟨backend, type, ts⟩
  | _ => none

/-- The record that a move pushes into the ring of its channel. -/
def record? (kind : Kind) (move : ServerMove ι) : Option (List UInt8) :=
  match kind with
  | .capture => none
  | .trace => (traceEvent? move).map TraceEvent.record
  | .timing => (timingEvent? move).map TimingEvent.record

end Moves

/-! ## Records -/

theorem readsRecord_trace (event : TraceEvent) :
    ReadsRecord traceOrEnd event.record event.data := by
  have hbody : Decodes .unexpectedEof nextTrace event.record event.data := by
    have htype : FixedWidth.leBytes 1 event.eventType.toNat = [event.eventType] := by
      simp [FixedWidth.leBytes]
    rw [TraceEvent.record, traceRecord, List.append_assoc, List.append_assoc, ← htype]
    exact (decodes_u32 _).bind
      ((decodes_u32 _).bind ((decodes_u32 _).bind (decodes_u8 _).bind_pure))
  constructor
  · intro rest
    rw [traceOrEnd, hbody.run_append]
  · intro part hpart hne
    rw [traceOrEnd, hbody.run_truncated part hpart hne]

theorem readsRecord_timing (event : TimingEvent) :
    ReadsRecord nextTiming event.record event.data :=
  ComparePairing.readsRecord_timingRecord event.backend event.type event.ts

theorem traceOrEnd_nil : traceOrEnd [] = .ok none [] := rfl

theorem nextTiming_nil : nextTiming [] = .ok none [] := rfl

theorem length_trace (event : TraceEvent) : event.record.length = 13 :=
  length_traceRecord event.backend event.durationUs event.eventType

theorem length_timing (event : TimingEvent) : event.record.length = 13 :=
  length_timingRecord event.backend event.type event.ts

/-! ## What a ring has accepted -/

section Runs

variable {ι : Type} [DecidableEq ι] {data : Kind → ℕ → UInt8} {s s' : Server ι}

theorem accepted_pushTo {base base' : WholeMessages.System ι} {kind : Kind} {i : ι}
    {bytes : List UInt8} (hfits : Fits kind bytes) (hpush : base.pushTo kind i bytes = some base')
    (other : Kind) :
    (base'.rings other).accepted.map Message.bytes =
        (base.rings other).accepted.map Message.bytes ∨
      other = kind ∧ (base'.rings other).accepted.map Message.bytes =
        (base.rings other).accepted.map Message.bytes ++ [bytes] := by
  obtain ⟨ring, hring, rfl⟩ := Option.map_eq_some_iff.mp hpush
  by_cases hother : other = kind
  · subst hother
    rw [setRing_rings_self]
    rcases accepted_of_step hring with hsame | ⟨j, msg, hlabel, haccepted⟩
    · exact .inl (congrArg _ hsame)
    · cases hlabel
      right
      rw [haccepted, List.map_append, List.map_singleton, toMessage_bytes hfits]
      exact ⟨rfl, rfl⟩
  · rw [setRing_rings_of_ne _ hother]
    exact .inl rfl

theorem accepted_setRing {base : WholeMessages.System ι} {kind : Kind} {label : Label ι}
    {ring : Ring.State ι} (hlabel : ∀ i msg, label ≠ .reserve i msg)
    (hstep : Ring.step bufferSize (base.rings kind) label = some ring) (other : Kind) :
    ((base.setRing kind ring).rings other).accepted = (base.rings other).accepted := by
  by_cases hother : other = kind
  · subst hother
    rw [setRing_rings_self]
    rcases accepted_of_step hstep with hsame | ⟨i, msg, hreserve, -⟩
    · exact hsame
    · exact absurd hreserve (hlabel i msg)
  · rw [setRing_rings_of_ne _ hother]

/-- A push that goes on adds nothing. -/
theorem accepted_ring {base base' : WholeMessages.System ι} {kind : Kind} {label : Label ι}
    (hbackend : isBackend (.ring kind label) = true)
    (hstep : base.step (.ring kind label) = some base') (other : Kind) :
    (base'.rings other).accepted = (base.rings other).accepted := by
  cases label with
  | pushFirst | pushRest | setReady =>
      obtain ⟨ring, hring, rfl⟩ := Option.map_eq_some_iff.mp hstep
      exact accepted_setRing (fun _ _ => by rintro ⟨⟩) hring other
  | _ => cases hbackend

theorem accepted_worker {kind : Kind} {signal : Bool}
    {result : Ring.State ι × ChannelWorker × FilesById}
    (hstep : workerStep kind signal (s.channels kind) (s.base.rings kind) (s.workers kind)
      (s.files kind) = some result) (other : Kind) :
    ((s.setWorker kind result).base.rings other).accepted = (s.base.rings other).accepted := by
  obtain ⟨ring, w, files⟩ := result
  rcases ring_of_workerStep hstep with rfl | hring
  · by_cases hother : other = kind
    · subst hother
      rw [Server.setWorker, setRing_rings_self]
    · rw [Server.setWorker, setRing_rings_of_ne _ hother]
  · have hlabel : ∀ i msg,
        popLabel (s.base.rings kind).consumer ≠ (.reserve i msg : Label ι) := by
      intro i msg
      cases (s.base.rings kind).consumer <;> rintro ⟨⟩
    exact accepted_setRing hlabel hring other

/-- Only the event of its own channel is added to what a ring has accepted, or lost. -/
theorem accepted_step {kind : Kind} (hkind : kind ≠ .capture) (hreached : Reached data s)
    {move : ServerMove ι} (hstep : s.step move = some s') :
    (s'.base.rings kind).accepted.map Message.bytes =
        (s.base.rings kind).accepted.map Message.bytes ∨
      ∃ bytes, record? kind move = some bytes ∧
        (s'.base.rings kind).accepted.map Message.bytes =
          (s.base.rings kind).accepted.map Message.bytes ++ [bytes] := by
  cases move with
  | backend move =>
      rw [Server.step] at hstep
      split_ifs at hstep with hbackend
      obtain ⟨base, hbase, rfl⟩ := Option.map_eq_some_iff.mp hstep
      cases move with
      | capture i op =>
          rw [WholeMessages.System.step] at hbase
          split_ifs at hbase
          cases hbase
          exact .inl rfl
      | push i =>
          rw [WholeMessages.System.step] at hbase
          cases hunpushed : s.base.unpushed i with
          | nil =>
              rw [hunpushed] at hbase
              cases hbase
          | cons bytes rest =>
              rw [hunpushed] at hbase
              have hfits : Fits .capture bytes :=
                hreached.base.unpushed i bytes (by rw [hunpushed]; exact List.mem_cons_self)
              rcases accepted_pushTo hfits hbase kind with hsame | ⟨hcapture, -⟩
              · exact .inl hsame
              · exact absurd hcapture hkind
      | trace i backend durationUs eventType =>
          have hfits : Fits .trace (traceRecord backend durationUs eventType) :=
            length_traceRecord backend durationUs eventType
          rcases accepted_pushTo hfits hbase kind with hsame | ⟨rfl, hadded⟩
          · exact .inl hsame
          · exact .inr ⟨_, rfl, hadded⟩
      | timing i backend type ts =>
          have hfits : Fits .timing (timingRecord backend type ts) :=
            length_timingRecord backend type ts
          rcases accepted_pushTo hfits hbase kind with hsame | ⟨rfl, hadded⟩
          · exact .inl hsame
          · exact .inr ⟨_, rfl, hadded⟩
      | ring other label => exact .inl (congrArg _ (accepted_ring hbackend hbase kind))
  | setId | nextGeneration | setRunning =>
      cases hstep
      exact .inl rfl
  | worker other signal =>
      obtain ⟨result, hworker, rfl⟩ := Option.map_eq_some_iff.mp hstep
      exact .inl (congrArg _ (accepted_worker hworker kind))

/-- The ring of a channel has accepted some of the events that its backends have sent,
in the order in which they were sent. -/
structure Sent {A : Type} (data : Kind → ℕ → UInt8) (event : ServerMove ι → Option A)
    (record : A → List UInt8) (kind : Kind) (s : Server ι) (moves : List (ServerMove ι)) :
    Prop where
  reached : Reached data s
  accepted : ∃ events, List.Sublist events (moves.filterMap event) ∧
    (s.base.rings kind).accepted.map Message.bytes = events.map record

theorem sent_of_run {A : Type} {event : ServerMove ι → Option A} {record : A → List UInt8}
    {kind : Kind} (hkind : kind ≠ .capture)
    (hrecord : ∀ move, record? kind move = (event move).map record) {moves : List (ServerMove ι)}
    (hrun : run Server.step (Server.start ι data) moves = some s) :
    Sent data event record kind s moves := by
  have hstart : Sent data event record kind (Server.start ι data) [] :=
    ⟨reached_start, [], List.nil_sublist _, rfl⟩
  refine run_invariant hrun hstart ?_
  rintro s moves move s' ⟨hreached, events, hsublist, haccepted⟩ hstep
  refine ⟨reached_step hreached hstep, ?_⟩
  rw [List.filterMap_append]
  rcases accepted_step hkind hreached hstep with hsame | ⟨bytes, hbytes, hadded⟩
  · exact ⟨events, hsublist.trans (List.sublist_append_left _ _), hsame.trans haccepted⟩
  · rw [hrecord] at hbytes
    obtain ⟨last, hlast, rfl⟩ := Option.map_eq_some_iff.mp hbytes
    refine ⟨events ++ [last], ?_, ?_⟩
    · simpa [hlast] using hsublist.append (List.Sublist.refl [last])
    · rw [hadded, haccepted, List.map_append, List.map_singleton]

/-- A file of records of one size, as its reader sees it. -/
theorem read_of_slice {A B : Type} {reader : FileReader (Option B)} {record : A → List UInt8}
    {value : A → B} (hend : reader [] = .ok none [])
    (hreads : ∀ event, ReadsRecord reader (record event) (value event))
    (hlength : ∀ event, (record event).length = 13) {events : List A}
    {messages : List (List UInt8)} (hslice : messages <:+: events.map record) :
    ∃ written, written <:+: events ∧ messages.flatten = written.flatMap record ∧
      ∀ part, part <+: messages.flatten → readLog reader part.length part =
        (written.take (part.length / 13)).map value := by
  obtain ⟨written, hwritten, rfl⟩ := List.infix_map_iff.mp hslice
  refine ⟨written, hwritten, List.flatMap_def.symm, fun part hpart => ?_⟩
  rw [← List.flatMap_def] at hpart
  exact readLog_truncated hend (by norm_num) hreads hlength hpart le_rfl

/-- However backends, workers and whoever starts and stops a replay take turns: a file
of the trace channel holds a gapless piece of the events that its ring has accepted,
these are some of the events sent, in their order, and wherever the file is cut
`TraceReader` returns the events in front of the cut.  So does `TimingReader`. -/
theorem eventFiles_read_back {moves : List (ServerMove ι)}
    (hrun : run Server.step (Server.start ι data) moves = some s) :
    (∃ events, List.Sublist events (moves.filterMap traceEvent?) ∧
        (s.base.rings .trace).accepted.map Message.bytes = events.map TraceEvent.record ∧
        ∀ id, ∃ written, written <:+: events ∧
          s.files .trace id = written.flatMap TraceEvent.record ∧
          ∀ part, part <+: s.files .trace id →
            readTraces part = (written.take (part.length / 13)).map TraceEvent.data) ∧
      ∃ events, List.Sublist events (moves.filterMap timingEvent?) ∧
        (s.base.rings .timing).accepted.map Message.bytes = events.map TimingEvent.record ∧
        ∀ id, ∃ written, written <:+: events ∧
          s.files .timing id = written.flatMap TimingEvent.record ∧
          ∀ part, part <+: s.files .timing id →
            readTimings part = (written.take (part.length / 13)).map TimingEvent.data := by
  constructor
  · obtain ⟨hreached, events, hsublist, haccepted⟩ :=
      sent_of_run (show Kind.trace ≠ .capture by rintro ⟨⟩) (fun _ => rfl) hrun
    refine ⟨events, hsublist, haccepted, fun id => ?_⟩
    obtain ⟨messages, hslice, hfile⟩ := slice_of_reached hreached .trace id
    rw [haccepted] at hslice
    rw [hfile]
    exact read_of_slice traceOrEnd_nil readsRecord_trace length_trace hslice
  · obtain ⟨hreached, events, hsublist, haccepted⟩ :=
      sent_of_run (show Kind.timing ≠ .capture by rintro ⟨⟩) (fun _ => rfl) hrun
    refine ⟨events, hsublist, haccepted, fun id => ?_⟩
    obtain ⟨messages, hslice, hfile⟩ := slice_of_reached hreached .timing id
    rw [haccepted] at hslice
    rw [hfile]
    exact read_of_slice nextTiming_nil readsRecord_timing length_timing hslice

/-- A replay is started, its worker opens the file and writes one event to it. -/
def oneEvent : List (ServerMove Unit) :=
  [.setId .trace 7, .nextGeneration .trace, .setRunning .trace true] ++
    List.replicate 4 (.worker .trace false) ++
    [.backend (.trace () (Trace.Backend.start 9) 250 112),
      .backend (.ring .trace (.pushFirst ())), .backend (.ring .trace (.pushRest ())),
      .backend (.ring .trace (.setReady ()))] ++
    List.replicate 7 (.worker .trace false)

theorem eventFiles_read_back_oneEvent : ∃ s : Server Unit,
    run Server.step (Server.start Unit fun _ _ => 0) oneEvent = some s ∧
      (s.files .trace 7).length = 13 ∧
      ∃ written : List TraceEvent, s.files .trace 7 = written.flatMap TraceEvent.record ∧
        readTraces (s.files .trace 7) = (written.take 1).map TraceEvent.data := by
  have hwritten : ((run Server.step (Server.start Unit fun _ _ => 0) oneEvent).map
      fun s => (s.files .trace 7).length) = some 13 := by decide +kernel
  obtain ⟨s, hrun, hlength⟩ := Option.map_eq_some_iff.mp hwritten
  obtain ⟨⟨events, -, -, hfiles⟩, -⟩ := eventFiles_read_back hrun
  obtain ⟨written, -, hfile, hread⟩ := hfiles 7
  refine ⟨s, hrun, hlength, written, hfile, ?_⟩
  have hwhole := hread _ List.prefix_rfl
  rwa [hlength] at hwhole

end Runs

end Pgr.EventFiles
