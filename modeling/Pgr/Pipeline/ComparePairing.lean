import Pgr.Analysis.Compare
import Pgr.Extension.Trace
import Pgr.Replay.Manager

/-!
# Timings and the events that caused them

A replay backend reports every frame it receives, and the frames come from
`emit`.  `compare` rebuilds the reported events from the capture, so every timing
meets the event whose emission caused it.
-/

namespace Pgr.ComparePairing

open Pgr.FixedWidth Pgr.Decoding Pgr.Capture Pgr.Proto Pgr.Manager Pgr.CaptureEncoder Pgr.Trace
  Pgr.Compare

/-- The event that a replay backend reports for a command. -/
def reportedEvent (command : ConnCommand) : Option UInt8 :=
  match command.kind with
  | .connect => some msgTypeConnect
  | .send _ data => timingEvent data
  | .endReplay => none

/-- The events that a client's backend reports for a message, each with the place of
the message in the capture. -/
def reportsOf (id : ClientId) (msg : (CaptureMessage × ℕ) × ℕ) : List (UInt8 × ℕ) :=
  ((emit msg.1.1 msg.1.2).filter fun command => command.id = id).filterMap fun command =>
    (reportedEvent command).map fun code => (code, msg.2)

/-- The reports of a client for a whole capture, whose messages stand with their
replay timestamps. -/
def reports (id : ClientId) (msgs : List (CaptureMessage × ℕ)) : List (UInt8 × ℕ) :=
  msgs.zipIdx.flatMap (reportsOf id)

/-- The timing records of a client, each with its place in the timing file. -/
def timingsOf (id : ClientId) (timings : List TimingData) : List (TimingData × ℕ) :=
  timings.zipIdx.filter fun t => t.1.id = id

/-! ## The timing file -/

/-- The timing reader returns the record that a backend has sent. -/
theorem readsRecord_timingRecord (backend : Backend) (type : UInt8) (ts : UInt64) :
    ReadsRecord nextTiming (timingRecord backend type ts) ⟨backend.myReplayId, type, ts⟩ := by
  have hbody : Decodes .unexpectedEof readTiming (timingRecord backend type ts)
      ⟨backend.myReplayId, type, ts⟩ := by
    have htype : leBytes 1 type.toNat = [type] := by simp [leBytes]
    rw [timingRecord, List.append_assoc, ← htype]
    exact (decodes_u32 _).bind ((decodes_u8 type).bind (decodes_u64 ts).bind_pure)
  constructor
  · intro rest
    rw [nextTiming, hbody.run_append]
  · intro part hpart hne
    rw [nextTiming, hbody.run_truncated part hpart hne]

/-! ## The two event streams -/

@[simp]
theorem reportedEvent_connect (id : ClientId) (ts : ℕ) :
    reportedEvent (.connect id ts) = some msgTypeConnect := rfl

@[simp]
theorem reportedEvent_send (id : ClientId) (ts : ℕ) (tag : UInt8) (data : List UInt8) :
    reportedEvent (.send id ts tag data) = timingEvent data := rfl

/-- A frame is reported by its tag. -/
theorem timingEvent_endFrame (tag : UInt8) (body : List UInt8) :
    timingEvent (endFrame (beginFrame tag ++ body)) = timingEvent [tag] := by
  simp [timingEvent, endFrame, beginFrame]

theorem timingEvent_queryFrame (q : String) :
    timingEvent (queryFrame q) = some msgSimpleQuery := by
  rw [queryFrame, cstr, List.append_assoc, timingEvent_endFrame]
  rfl

/-- What is reported for a message is what `compare` queues for it. -/
theorem reportedEvent_emit (msg : CaptureMessage) (ts source : ℕ) :
    ((emit msg ts).filterMap fun command =>
        (reportedEvent command).map fun code => (code, source)) =
      (capEntries msg source).map fun entry => (entry.code, entry.source) := by
  rcases msg with ⟨id, timestamp, event⟩
  cases event with
  | connect sessionId =>
      by_cases hsession : sessionId = ""
      · simp [emit, hsession, capEntries, eventCode, isRestore, msgTypeConnect, msgConnect]
      · simp [emit, hsession, capEntries, eventCode, isRestore, msgTypeConnect, msgConnect,
          timingEvent_queryFrame]
  | simpleQuery text => simp [emit, capEntries, eventCode, isRestore, timingEvent_queryFrame]
  | parse name query paramTypes =>
      have hframe : timingEvent (parseFrame name query paramTypes) = some msgParse := by
        simp only [parseFrame, cstr, List.append_assoc, timingEvent_endFrame]
        rfl
      simp [emit, capEntries, eventCode, isRestore, hframe]
  | bind portal statement resultFormats params =>
      have hframe : timingEvent (bindFrame portal statement resultFormats params) =
          some msgBind := by
        simp only [bindFrame, cstr, List.append_assoc, timingEvent_endFrame]
        rfl
      simp [emit, capEntries, eventCode, isRestore, hframe]
  | execute portal maxRows =>
      have hframe : timingEvent (executeFrame portal maxRows) = some msgExecute := by
        simp only [executeFrame, cstr, List.append_assoc, timingEvent_endFrame]
        rfl
      simp [emit, capEntries, eventCode, isRestore, hframe]
  | sync =>
      have hframe : timingEvent (endFrame (beginFrame fSync)) = some msgSync := by decide
      simp [emit, capEntries, eventCode, isRestore, hframe]
  | close kind name =>
      have hframe : timingEvent (closeFrame kind name) = some msgClose := by
        simp only [closeFrame, cstr, List.append_assoc, timingEvent_endFrame]
        rfl
      simp [emit, capEntries, eventCode, isRestore, hframe]
  | disconnect =>
      have hframe : timingEvent terminateMsg = some msgDisconnect := by decide
      simp [emit, capEntries, eventCode, isRestore, hframe]
  | lsn | txEnd => rfl

theorem reportsOf_eq (id : ClientId) (msg : CaptureMessage) (ts source : ℕ) :
    reportsOf id ((msg, ts), source) =
      if msg.id = id then
        (capEntries msg source).map fun entry => (entry.code, entry.source)
      else [] := by
  rw [reportsOf]
  split_ifs with hid
  · have hall : ((emit msg ts).filter fun command => command.id = id) = emit msg ts := by
      apply List.filter_eq_self.mpr
      intro command hcommand
      simpa [hid] using id_of_mem_emit hcommand
    rw [hall, reportedEvent_emit]
  · have hnone : ((emit msg ts).filter fun command => command.id = id) = [] := by
      apply List.filter_eq_nil_iff.mpr
      intro command hcommand
      simpa [id_of_mem_emit hcommand] using hid
    rw [hnone, List.filterMap_nil]

/-- The reports of a client and the queue that `compare` fills for it are one stream. -/
theorem reports_eq (id : ClientId) (msgs : List (CaptureMessage × ℕ)) :
    reports id msgs =
      (queuedEvents id (msgs.map Prod.fst)).map fun entry => (entry.code, entry.source) := by
  induction msgs using List.reverseRecOn with
  | nil => rfl
  | append_singleton msgs msg ih =>
      have hlast := reportsOf_eq id msg.1 msg.2 msgs.length
      rw [List.map_append, List.map_singleton, queuedEvents_concat, List.map_append, ← ih,
        reports, List.zipIdx_append, List.flatMap_append, reports, List.length_map]
      split_ifs with hid <;> simpa [hid] using hlast

theorem timingsOf_eq (id : ClientId) (timings : List TimingData) :
    (timingsOf id timings).map (fun t => (t.1.eventType, t.2)) =
      (queuedTimings id timings).map fun entry => (entry.code, entry.source) := by
  induction timings using List.reverseRecOn with
  | nil => rfl
  | append_singleton timings t ih =>
      rw [queuedTimings_concat, List.map_append, ← ih]
      by_cases ht : t.id = id <;> simp [timingsOf, List.zipIdx_append, List.filter_append, ht]

/-- When the timings of every client are the beginning of what its backend reports,
every one of them is matched with the event whose emission caused it, and no event is
skipped. -/
theorem compare_pairs {msgs : List (CaptureMessage × ℕ)} {timings : List TimingData}
    (htimings : ∀ id, (timingsOf id timings).map (fun t => t.1.eventType) <+:
      (reports id msgs).map Prod.fst) :
    ∃ report, Compare.compare (msgs.map fun msg => .ok msg.1) (timings.map .ok) = .ok report ∧
      report.matched = timings.length ∧ report.unmatched = 0 ∧
      ∀ id, (report.comparison.client id).skipped = 0 ∧
        (report.comparison.client id).pairs =
          ((reports id msgs).map Prod.snd).zip ((timingsOf id timings).map Prod.snd) := by
  have hcodes : ∀ id, (timingsOf id timings).map (fun t => t.1.eventType) =
      (queuedTimings id timings).map TimEntry.code := fun id => by
    simpa [Function.comp_def] using congrArg (List.map Prod.fst) (timingsOf_eq id timings)
  have hsources : ∀ id, (timingsOf id timings).map Prod.snd =
      (queuedTimings id timings).map TimEntry.source := fun id => by
    simpa [Function.comp_def] using congrArg (List.map Prod.snd) (timingsOf_eq id timings)
  have htimes : TimesEvents (msgs.map Prod.fst) timings := fun id => by
    simpa [hcodes, reports_eq, Function.comp_def] using htimings id
  obtain ⟨report, hcompare, hmatched, hunmatched, hclients⟩ := compare_timesEvents htimes
  refine ⟨report, ?_, hmatched, hunmatched, fun id => ⟨(hclients id).1, ?_⟩⟩
  · rw [← hcompare, List.map_map]
    rfl
  · rw [(hclients id).2, hsources, reports_eq, List.map_map]
    rfl

/-- Client 1 restores a session, client 2 does not. -/
def twoClients : List (CaptureMessage × ℕ) :=
  [(⟨1, 10, .connect "1/1"⟩, 0), (⟨2, 11, .connect ""⟩, 1), (⟨2, 12, .simpleQuery "BEGIN"⟩, 2),
    (⟨1, 13, .sync⟩, 3), (⟨1, 14, .disconnect⟩, 4)]

/-- The second client is replayed first, and the first one still runs. -/
def twoClientTimings : List TimingData :=
  [⟨2, 2, 20⟩, ⟨2, 4, 21⟩, ⟨1, 2, 22⟩, ⟨1, 4, 23⟩, ⟨1, 8, 24⟩]

theorem compare_pairs_twoClients :
    ∃ report, Compare.compare (twoClients.map fun msg => .ok msg.1) (twoClientTimings.map .ok) =
        .ok report ∧
      report.matched = 5 ∧ report.unmatched = 0 ∧
      (report.comparison.client 1).pairs = [(0, 2), (0, 3), (3, 4)] := by
  have htimings : ∀ id, (timingsOf id twoClientTimings).map (fun t => t.1.eventType) <+:
      (reports id twoClients).map Prod.fst := by
    intro id
    by_cases hone : id = 1
    · subst hone
      decide +kernel
    by_cases htwo : id = 2
    · subst htwo
      decide +kernel
    · simp [timingsOf, twoClientTimings, List.zipIdx, Ne.symm hone, Ne.symm htwo]
  obtain ⟨report, hcompare, hmatched, hunmatched, hclients⟩ := compare_pairs htimings
  refine ⟨report, hcompare, hmatched, hunmatched, ?_⟩
  rw [(hclients 1).2]
  decide +kernel

end Pgr.ComparePairing
