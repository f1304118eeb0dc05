import Pgr.Analysis.Analyzer
import Pgr.Extension.Trace
import Pgr.Replay.Manager

/-!
# Frame numbers between replay and analyzer

A replay backend numbers the frames it receives, the analyzer numbers the
captured events.  The frame that restores the session of a connection is
received like any query but belongs to no captured event, so the two numberings
differ by the number of restored sessions.
-/

namespace Pgr.FrameNumbering

open Pgr.Capture Pgr.Storage Pgr.Proto Pgr.Manager Pgr.Trace Pgr.Analyzer

def sentFrame : ConnCommand → Option (List UInt8)
  | ⟨_, _, .send _ data⟩ => some data
  | ⟨_, _, .connect⟩ | ⟨_, _, .endReplay⟩ => none

/-- The frames sent for messages with their replay timestamps. -/
def sentFrames (msgs : List (CaptureMessage × ℕ)) : List (List UInt8) :=
  (msgs.flatMap fun msg => emit msg.1 msg.2).filterMap sentFrame

section

variable (hashText : String → UInt64) (id : ClientId) (startTs : UInt64)
  (writer : StorageWriter) (msgs : List (CaptureMessage × ℕ))

/-- The frame index of the `i`-th message of a client. -/
def frameIndexAt (i : ℕ) : UInt32 :=
  (onCaptures hashText ((msgs.take (i + 1)).map Prod.fst)
    (AnalyzeClient.new id startTs) writer).1.frameIndex

/-- The index traced for the last frame of the `i`-th message. -/
def traceIndexAt (i : ℕ) : UInt32 :=
  traceIndex (runHooks (sentFrames (msgs.take (i + 1))) (Backend.start id))

/-- Every numbered message is traced under its frame index. -/
def NumberingAgrees : Prop :=
  ∀ i (hi : i < msgs.length), isNumbered msgs[i].1.event →
    frameIndexAt hashText id startTs writer msgs i = traceIndexAt id msgs i

end

/-- The events for which a session is restored. -/
def restoresSession : ClientEvent → Bool
  | .connect sessionId => sessionId ≠ ""
  | .lsn _ | .disconnect | .simpleQuery _ | .parse .. | .bind .. | .execute .. | .sync
  | .txEnd .. | .close .. => false

/-- The sessions restored for the messages in front of the `i`-th. -/
def restoredBefore (msgs : List (CaptureMessage × ℕ)) (i : ℕ) : ℕ :=
  (msgs.take i).countP fun msg => restoresSession msg.1.event

@[simp]
theorem sentFrame_connect (id : ClientId) (ts : ℕ) :
    sentFrame (.connect id ts) = none := rfl

@[simp]
theorem sentFrame_send (id : ClientId) (ts : ℕ) (tag : UInt8) (data : List UInt8) :
    sentFrame (.send id ts tag data) = some data := rfl

theorem head?_endFrame_append (tag : UInt8) (body : List UInt8) :
    (endFrame (beginFrame tag ++ body)).head? = some tag := by
  simp [endFrame, beginFrame]

theorem head?_endFrame (tag : UInt8) : (endFrame (beginFrame tag)).head? = some tag := by
  simpa using head?_endFrame_append tag []

theorem countsFrame_queryFrame (q : String) : countsFrame (queryFrame q) = true := by
  rw [queryFrame, cstr, List.append_assoc, countsFrame, head?_endFrame_append]
  decide

/-- A message sends one counted frame when it is numbered, and one more when it
restores a session. -/
theorem countP_sentFrames_emit (msg : CaptureMessage) (ts : ℕ) :
    ((emit msg ts).filterMap sentFrame).countP countsFrame =
      (if isNumbered msg.event then 1 else 0) +
        (if restoresSession msg.event then 1 else 0) := by
  rcases msg with ⟨id, timestamp, event⟩
  cases event with
  | connect sessionId =>
      by_cases hsession : sessionId = ""
      · simp [emit, isNumbered, restoresSession, hsession]
      · simp [emit, isNumbered, restoresSession, hsession, List.filterMap_cons,
          countsFrame_queryFrame]
  | simpleQuery text =>
      simp [emit, isNumbered, restoresSession, countsFrame_queryFrame]
  | parse | bind | execute | sync | close =>
      simp [emit, isNumbered, restoresSession, countsFrame, parseFrame, bindFrame,
        executeFrame, closeFrame, cstr, head?_endFrame_append, head?_endFrame,
        fQuery, fParse, fBind, fExecute, fSync, fClose]
  | disconnect =>
      simp [emit, isNumbered, restoresSession, countsFrame, terminateMsg, fTerminate,
        fQuery, fParse, fBind, fExecute]
  | lsn | txEnd => simp [emit, isNumbered, restoresSession]

theorem countP_sentFrames (msgs : List (CaptureMessage × ℕ)) :
    (sentFrames msgs).countP countsFrame =
      (msgs.countP fun msg => isNumbered msg.1.event) +
        msgs.countP fun msg => restoresSession msg.1.event := by
  induction msgs with
  | nil => rfl
  | cons msg msgs ih =>
      rw [sentFrames] at ih ⊢
      rw [List.flatMap_cons, List.filterMap_append, List.countP_append, ih,
        countP_sentFrames_emit, List.countP_cons, List.countP_cons]
      omega

theorem traceIndex_runHooks (id : ClientId) (msgs : List (CaptureMessage × ℕ)) :
    traceIndex (runHooks (sentFrames msgs) (Backend.start id)) =
      UInt32.ofNat (msgs.countP fun msg => isNumbered msg.1.event) +
        UInt32.ofNat (msgs.countP fun msg => restoresSession msg.1.event) := by
  rw [traceIndex, statementIndex_runHooks, countP_sentFrames, Backend.start, UInt64.zero_add,
    ← UInt32.ofNat_add]
  simp

variable {hashText : String → UInt64} {id : ClientId} {startTs : UInt64}
  {writer : StorageWriter} {msgs : List (CaptureMessage × ℕ)}

theorem frameIndexAt_eq_traceIndexAt_iff {i : ℕ} (hi : i < msgs.length)
    (hnumbered : isNumbered msgs[i].1.event) :
    frameIndexAt hashText id startTs writer msgs i = traceIndexAt id msgs i ↔
      2 ^ 32 ∣ restoredBefore msgs i := by
  have hrestored : ((msgs.take (i + 1)).countP fun msg => restoresSession msg.1.event) =
      restoredBefore msgs i := by
    have hlast : restoresSession msgs[i].1.event = false := by
      cases hevent : msgs[i].1.event <;> simp [hevent, isNumbered, restoresSession] at *
    rw [List.take_succ_eq_append_getElem hi, List.countP_append]
    simp [restoredBefore, hlast]
  have hframe : frameIndexAt hashText id startTs writer msgs i =
      UInt32.ofNat ((msgs.take (i + 1)).countP fun msg => isNumbered msg.1.event) := by
    rw [frameIndexAt, frameIndex_onCaptures, List.countP_map]
    simp [AnalyzeClient.new, Function.comp_def]
  rw [hframe, traceIndexAt, traceIndex_runHooks, hrestored, left_eq_add,
    Nat.dvd_iff_mod_eq_zero, ← UInt32.toNat_inj, UInt32.toNat_ofNat']
  rfl

/-- The two numberings of a client agree exactly when no session, up to a
multiple of the wrap of the index, is restored in front of a numbered message. -/
theorem numberingAgrees_iff :
    NumberingAgrees hashText id startTs writer msgs ↔
      ∀ i (hi : i < msgs.length), isNumbered msgs[i].1.event →
        2 ^ 32 ∣ restoredBefore msgs i :=
  forall_congr' fun _ => forall_congr' fun hi => forall_congr' fun hnumbered =>
    frameIndexAt_eq_traceIndexAt_iff hi hnumbered

/-- A connection that restores the session `1/7` and then sends one query. -/
def restoredClient : List (CaptureMessage × ℕ) :=
  [(⟨7, 100, .connect "1/7"⟩, 0), (⟨7, 200, .simpleQuery "SELECT 1"⟩, 100)]

/-- Its query has frame index 1 and is traced as 2. -/
theorem not_numberingAgrees_restoredClient :
    ¬NumberingAgrees (fun _ => 0) 7 100 StorageWriter.new restoredClient := by
  intro hagrees
  have hindex := hagrees 1 (by decide) rfl
  rw [frameIndexAt_eq_traceIndexAt_iff (by decide) rfl] at hindex
  exact absurd hindex (by decide)

end Pgr.FrameNumbering
