import Pgr.Analysis.Analyzer
import Pgr.Analysis.Chunks

/-!
# The merge of traces and capture

`analyze` of `analyzer.rs`: the traces are read one by one, and the capture only
as far as the trace at hand needs it.  What is read is queued at its client, and
`on_trace` takes the row of a trace from there.  A reader is the list of the
results it will return, the end of its file behind them.  The counters have
fixed widths; whether a step beyond the greatest value stops the program or wraps
is a setting of the build, `overflowChecks`.
-/

namespace Pgr.Merge

open Pgr.Capture Pgr.Storage Pgr.Analyzer Pgr.Chunks

structure TraceData where
  id : ClientId
  frameIndex : UInt32
  durationUs : UInt32
  eventType : UInt8

/-- The row at the front of the queue, once the older ones are gone. -/
def popQueries (frameIndex : UInt32) : List QueryInfo → List QueryInfo × Option QueryInfo
  | [] => ([], none)
  | info :: queries =>
      if info.index < frameIndex then popQueries frameIndex queries
      else if info.index > frameIndex then (info :: queries, none)
      else (info :: queries, some info)

inductive AnalyzeError where
  | trace (error : IoError)
  | capture (error : IoError)
  | overflow

/-- The variables of `analyze`; `rows` are the calls of `write_trace`. -/
structure Analysis where
  clients : AList fun _ : ClientId => AnalyzeClient
  writer : StorageWriter
  rows : List TraceRow
  captureEof : Bool
  tracesProcessed : Int32
  tracesTotal : Int32

def Analysis.new : Analysis :=
  ⟨∅, StorageWriter.new, [], false, 0, 0⟩

/-- `+= 1` on a counter. -/
def increment (overflowChecks : Bool) (count : Int32) : Except AnalyzeError Int32 :=
  if overflowChecks ∧ count = Int32.maxValue then .error .overflow else .ok (count + 1)

section Model

-- The conversions to floats: of a time to seconds, of a duration to milliseconds.
variable (tsSecs : UInt64 → UInt32) (durationMs : UInt32 → UInt32)
  (hashText : String → UInt64) (startTs : UInt64) (overflowChecks : Bool)

def traceRow (data : TraceData) (info : QueryInfo) (id : ClientId) : TraceRow where
  queryOffset := UInt64.ofNat info.offset
  paramsOffset := UInt64.ofNat info.paramsOffset
  tsSecs := tsSecs info.ts
  clientId := id
  durationMs := durationMs data.durationUs
  eventType := data.eventType

/-- A trace without a row is only logged. -/
def onTrace (data : TraceData) (client : AnalyzeClient) (rows : List TraceRow) :
    AnalyzeClient × List TraceRow :=
  let (queries, info) := popQueries data.frameIndex client.queries
  ({ client with queries := queries },
    rows ++ (info.map fun info => traceRow tsSecs durationMs data info client.id).toList)

/-- `entry(id).or_insert_with(..)`. -/
def Analysis.client (a : Analysis) (id : ClientId) : AnalyzeClient :=
  (a.clients.lookup id).getD (AnalyzeClient.new id startTs)

/-- `on_capture` on the client of the message. -/
def readMessage (msg : CaptureMessage) (a : Analysis) : Except AnalyzeError Analysis :=
  let client := a.client startTs msg.id
  if overflowChecks ∧ isNumbered msg.event ∧ client.frameIndex.toNat = 2 ^ 32 - 1 then
    .error .overflow
  else
    let (client, writer) := onCapture hashText msg client a.writer
    .ok { a with clients := a.clients.insert msg.id client, writer := writer }

def processTrace (trace : TraceData) (a : Analysis) : Except AnalyzeError Analysis :=
  let (client, rows) := onTrace tsSecs durationMs trace (a.client startTs trace.id) a.rows
  match increment overflowChecks a.tracesProcessed with
  | .ok processed =>
      .ok { a with
        clients := a.clients.insert trace.id client
        rows := rows
        tracesProcessed := processed }
  | .error error => .error error

/-- The inner loop: the capture is read until the client of the trace is far enough. -/
def readCapture (trace : TraceData) : List (Except IoError CaptureMessage) → Analysis →
    Except AnalyzeError (List (Except IoError CaptureMessage) × Analysis)
  | [], a => .ok ([], { a with captureEof := true })
  | .error error :: _, _ => .error (.capture error)
  | .ok msg :: capture, a =>
      match readMessage hashText startTs overflowChecks msg a with
      | .error error => .error error
      | .ok a =>
          let client := a.client startTs msg.id
          if client.id = trace.id ∧ trace.frameIndex ≤ client.frameIndex then
            match processTrace tsSecs durationMs startTs overflowChecks trace a with
            | .ok a => .ok (capture, a)
            | .error error => .error error
          else readCapture trace capture a

/-- One turn of the outer loop. -/
def handleTrace (trace : TraceData) (capture : List (Except IoError CaptureMessage))
    (a : Analysis) : Except AnalyzeError (List (Except IoError CaptureMessage) × Analysis) :=
  let client := a.client startTs trace.id
  let a := { a with clients := a.clients.insert trace.id client }
  if trace.frameIndex ≤ client.frameIndex then
    match processTrace tsSecs durationMs startTs overflowChecks trace a with
    | .ok a => .ok (capture, a)
    | .error error => .error error
  else if a.captureEof then .ok (capture, a)
  else readCapture tsSecs durationMs hashText startTs overflowChecks trace capture a

/-- The outer loop, over the traces. -/
def analyzeLoop : List (Except IoError TraceData) → List (Except IoError CaptureMessage) →
    Analysis → Except AnalyzeError Analysis
  | [], _, a => .ok a
  | .error error :: _, _, _ => .error (.trace error)
  | .ok trace :: traces, capture, a =>
      match handleTrace tsSecs durationMs hashText startTs overflowChecks trace capture a with
      | .error error => .error error
      | .ok (capture, a) =>
          match increment overflowChecks a.tracesTotal with
          | .error error => .error error
          | .ok total => analyzeLoop traces capture { a with tracesTotal := total }

def analyze (capture : List (Except IoError CaptureMessage))
    (traces : List (Except IoError TraceData)) : Except AnalyzeError Analysis :=
  analyzeLoop tsSecs durationMs hashText startTs overflowChecks traces capture .new

end Model

/-! ## The events of a client

What a trace record stands for, told from the client's own events. -/

def own (id : ClientId) (capture : List CaptureMessage) : List CaptureMessage :=
  capture.filter fun msg => msg.id = id

def parses (statement : String) : ClientEvent → Bool
  | .parse name .. => name = statement
  | _ => false

/-- Whether the portal is bound to a parsed statement; the latest event comes first. -/
def bound (portal : String) : List CaptureMessage → Bool
  | [] => false
  | msg :: past =>
      match msg.event with
      | .bind name statement .. =>
          (name = portal && past.any fun earlier => parses statement earlier.event) ||
            bound portal past
      | _ => bound portal past

/-- Whether an event resolves behind the client's earlier events, the latest first. -/
def resolves (past : List CaptureMessage) : ClientEvent → Bool
  | .simpleQuery _ | .parse .. => true
  | .bind _ statement .. => past.any fun earlier => parses statement earlier.event
  | .execute portal _ => bound portal past
  | .lsn _ | .connect _ | .disconnect | .sync | .txEnd .. | .close .. => false

/-- The place of the `k`-th numbered event among the client's events. -/
def kthNumbered (k : ℕ) (events : List CaptureMessage) : Option ℕ :=
  ((events.zipIdx.filter fun msg => isNumbered msg.1.event)[k - 1]?).map Prod.snd

/-- The place of the event that the trace record belongs to, when that resolves. -/
def attributed (trace : TraceData) (capture : List CaptureMessage) : Option ℕ := do
  let events := own trace.id capture
  let place ← kthNumbered trace.frameIndex.toNat events
  let msg ← events[place]?
  if resolves (events.take place).reverse msg.event then some place else none

/-! ## What is stored for an event -/

/-- A captured event with the offsets of its query and its parameters. -/
structure StoredEvent where
  msg : CaptureMessage
  offsets : Option (ℕ × ℕ)

def parseOffset (id : ClientId) (statement : String) (stored : StoredEvent) : Option ℕ :=
  if stored.msg.id = id ∧ parses statement stored.msg.event then stored.offsets.map Prod.fst
  else none

def binds (portal : String) : ClientEvent → Bool
  | .bind name .. => name = portal
  | _ => false

def bindOffsets (id : ClientId) (portal : String) (stored : StoredEvent) : Option (ℕ × ℕ) :=
  if stored.msg.id = id ∧ binds portal stored.msg.event then stored.offsets else none

/-- The offsets of an event behind the stored ones, the latest first: a bind has the
query of the latest parse of its statement, an execute the offsets of the latest bind of
its portal that has any. -/
def store (hashText : String → UInt64) (past : List StoredEvent) (msg : CaptureMessage)
    (writer : StorageWriter) : Option (ℕ × ℕ) × StorageWriter :=
  match msg.event with
  | .simpleQuery text =>
      let (offset, writer) := mapQuery hashText text [] writer
      (some (offset, noParams), writer)
  | .parse _ query paramTypes =>
      let (offset, writer) := mapQuery hashText query paramTypes writer
      (some (offset, noParams), writer)
  | .bind _ statement resultFormats params =>
      match past.findSome? (parseOffset msg.id statement) with
      | some offset =>
          let (paramsOffset, writer) :=
            writeParams ⟨UInt64.ofNat offset, params, resultFormats⟩ writer
          (some (offset, paramsOffset), writer)
      | none => (none, writer)
  | .execute portal _ => (past.findSome? (bindOffsets msg.id portal), writer)
  | .lsn _ | .connect _ | .disconnect | .sync | .txEnd .. | .close .. => (none, writer)

/-- The events of a capture that is given with the latest first. -/
def storeAll (hashText : String → UInt64) : List CaptureMessage →
    List StoredEvent × StorageWriter
  | [] => ([], StorageWriter.new)
  | msg :: past =>
      let (stored, writer) := storeAll hashText past
      let (offsets, writer) := store hashText stored msg writer
      (⟨msg, offsets⟩ :: stored, writer)

/-- The stored events of a client in the order of the capture. -/
def storedOwn (hashText : String → UInt64) (id : ClientId) (capture : List CaptureMessage) :
    List StoredEvent :=
  ((storeAll hashText capture.reverse).1.filter fun stored => stored.msg.id = id).reverse

section Expected

variable (tsSecs : UInt64 → UInt32) (durationMs : UInt32 → UInt32)
  (hashText : String → UInt64) (startTs : UInt64)

/-- The row of a trace record: none, or one with the offsets and the time of its event. -/
def expectedRow (capture : List CaptureMessage) (trace : TraceData) : Option TraceRow := do
  let place ← attributed trace capture
  let stored ← (storedOwn hashText trace.id capture)[place]?
  let offsets ← stored.offsets
  pure
    { queryOffset := UInt64.ofNat offsets.1
      paramsOffset := UInt64.ofNat offsets.2
      tsSecs := tsSecs (saturatingSub stored.msg.ts startTs)
      clientId := trace.id
      durationMs := durationMs trace.durationUs
      eventType := trace.eventType }

/-- The analysis ends, and its rows are those of the trace records in order. -/
def IsExact (overflowChecks : Bool) (capture : List CaptureMessage) (traces : List TraceData) :
    Prop :=
  ∃ a, analyze tsSecs durationMs hashText startTs overflowChecks (capture.map .ok)
      (traces.map .ok) = .ok a ∧
    a.rows = traces.filterMap (expectedRow tsSecs durationMs hashText startTs capture)

end Expected

/-! ## How far the capture is needed -/

def numbered (id : ClientId) (capture : List CaptureMessage) : ℕ :=
  capture.countP fun msg => msg.id = id ∧ isNumbered msg.event

/-- The capture up to the `k`-th numbered event of the client. -/
def needed (id : ClientId) : ℕ → List CaptureMessage → List CaptureMessage
  | 0, _ => []
  | _ + 1, [] => []
  | k + 1, msg :: capture =>
      msg :: needed id (if msg.id = id ∧ isNumbered msg.event then k else k + 1) capture

/-- No client has more numbered events than a frame index can count. -/
def InRange (capture : List CaptureMessage) : Prop :=
  ∀ id, numbered id capture < 2 ^ 32

/-- In the part of the capture that the traces need, every client stays in range. -/
def FramesFit (capture : List CaptureMessage) (traces : List TraceData) : Prop :=
  ∀ trace ∈ traces, InRange (needed trace.id trace.frameIndex.toNat capture)

end Pgr.Merge
