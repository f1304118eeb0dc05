import Pgr.Extension.CaptureEncoder
import Pgr.Replay.Proto

/-!
# Frame numbers and timing events of a replay backend

`hooks.c`, `trace.c` and `timing.c` on a replay backend: the hooks of the parse,
simple query, bind and execute messages count `StatementIndex`, the hooks of the
other messages do not, and a trace record carries the low 32 bits of the count.
Every message hook reports its message to the timing channel.
-/

namespace Pgr.Trace

open Pgr.FixedWidth Pgr.Proto Pgr.CaptureEncoder

structure Backend where
  myReplayId : UInt32
  statementIndex : UInt64

def Backend.start (replayId : UInt32) : Backend :=
  ⟨replayId, 0⟩

/-- Postgres dispatches a frontend message on its first byte. -/
def runHook (frame : List UInt8) (backend : Backend) : Backend :=
  match frame.head? with
  | some tag =>
      if tag = fQuery ∨ tag = fParse ∨ tag = fBind ∨ tag = fExecute then
        { backend with statementIndex := backend.statementIndex + 1 }
      else backend
  | none => backend

def runHooks (frames : List (List UInt8)) (backend : Backend) : Backend :=
  frames.foldl (fun backend frame => runHook frame backend) backend

/-- The index of the trace records sent while the last message is processed. -/
def traceIndex (backend : Backend) : UInt32 :=
  backend.statementIndex.toUInt32

/-- The bytes of `send_trace_event`. -/
def traceRecord (backend : Backend) (durationUs : UInt32) (eventType : UInt8) :
    List UInt8 :=
  leBytes 4 backend.myReplayId.toNat ++ leBytes 4 (traceIndex backend).toNat ++
    leBytes 4 durationUs.toNat ++ [eventType]

/-- The event that the hook of a message reports; a backend that is asked to
terminate reports the disconnect at its exit. -/
def timingEvent (frame : List UInt8) : Option UInt8 :=
  match frame.head? with
  | some tag =>
      if tag = fQuery then some msgTypeSimpleQuery
      else if tag = fParse then some msgTypeParse
      else if tag = fBind then some msgTypeBind
      else if tag = fExecute then some msgTypeExecute
      else if tag = fSync then some msgTypeSync
      else if tag = fClose then some msgTypeClose
      else if tag = fTerminate then some msgTypeDisconnect
      else none
  | none => none

/-- The bytes of `send_timing_event`. -/
def timingRecord (backend : Backend) (type : UInt8) (ts : UInt64) : List UInt8 :=
  leBytes 4 backend.myReplayId.toNat ++ [type] ++ leBytes 8 ts.toNat

/-- The hooks that count, by the tag of their message. -/
def countsFrame (frame : List UInt8) : Bool :=
  frame.head? = some fQuery ∨ frame.head? = some fParse ∨ frame.head? = some fBind ∨
    frame.head? = some fExecute

theorem runHook_eq (frame : List UInt8) (backend : Backend) :
    runHook frame backend =
      { backend with
        statementIndex := backend.statementIndex + if countsFrame frame then 1 else 0 } := by
  cases frame with
  | nil => simp [runHook, countsFrame]
  | cons tag body =>
      simp only [runHook, countsFrame, List.head?_cons, Option.some.injEq, decide_eq_true_eq]
      split_ifs <;> simp

/-- A run counts the frames of the counting hooks. -/
theorem statementIndex_runHooks (frames : List (List UInt8)) (backend : Backend) :
    (runHooks frames backend).statementIndex =
      backend.statementIndex + UInt64.ofNat (frames.countP countsFrame) := by
  induction frames generalizing backend with
  | nil => simp [runHooks]
  | cons frame frames ih =>
      have htail := ih (runHook frame backend)
      rw [runHooks] at htail ⊢
      rw [List.foldl_cons, htail, runHook_eq, List.countP_cons]
      split_ifs
      · rw [UInt64.ofNat_add, UInt64.add_assoc, UInt64.add_comm 1]
        rfl
      · simp

end Pgr.Trace
