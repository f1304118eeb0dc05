import Pgr.Analysis.Storage

/-!
# The analyzer's view of a client

`AnalyzeClient` of `analyzer.rs`: every statement message of the capture gets
the next frame index, and with it the offsets of its query and its parameters.
-/

namespace Pgr.Analyzer

open Pgr.Capture Pgr.Storage

structure QueryInfo where
  index : UInt32
  offset : ℕ
  paramsOffset : ℕ
  ts : UInt64

structure AnalyzeClient where
  id : ClientId
  startTs : UInt64
  frameIndex : UInt32
  queries : List QueryInfo
  statements : AList fun _ : String => ℕ
  portals : AList fun _ : String => ℕ × ℕ

def AnalyzeClient.new (id : ClientId) (startTs : UInt64) : AnalyzeClient where
  id := id
  startTs := startTs
  frameIndex := 0
  queries := []
  statements := ∅
  portals := ∅

/-- `saturating_sub`. -/
def saturatingSub (a b : UInt64) : UInt64 :=
  if b ≤ a then a - b else 0

section OnCapture

variable (hashText : String → UInt64)

def onCapture (msg : CaptureMessage) (client : AnalyzeClient) (writer : StorageWriter) :
    AnalyzeClient × StorageWriter :=
  let ts := saturatingSub msg.ts client.startTs
  let frameIndex := client.frameIndex + 1
  match msg.event with
  | .simpleQuery text =>
      let (queryOffset, writer) := mapQuery hashText text [] writer
      let info := ⟨frameIndex, queryOffset, noParams, ts⟩
      ({ client with frameIndex := frameIndex, queries := client.queries ++ [info] }, writer)
  | .parse name query paramTypes =>
      let (queryOffset, writer) := mapQuery hashText query paramTypes writer
      let info := ⟨frameIndex, queryOffset, noParams, ts⟩
      ({ client with
          frameIndex := frameIndex
          statements := client.statements.insert name queryOffset
          queries := client.queries ++ [info] }, writer)
  | .bind portal statement resultFormats params =>
      match client.statements.lookup statement with
      | some queryOffset =>
          let (paramsOffset, writer) :=
            writeParams ⟨UInt64.ofNat queryOffset, params, resultFormats⟩ writer
          let info := ⟨frameIndex, queryOffset, paramsOffset, ts⟩
          ({ client with
              frameIndex := frameIndex
              portals := client.portals.insert portal (queryOffset, paramsOffset)
              queries := client.queries ++ [info] }, writer)
      -- A bind to an unknown statement is logged and still numbered.
      | none => ({ client with frameIndex := frameIndex }, writer)
  | .execute portal _ =>
      match client.portals.lookup portal with
      | some (queryOffset, paramsOffset) =>
          let info := ⟨frameIndex, queryOffset, paramsOffset, ts⟩
          ({ client with frameIndex := frameIndex, queries := client.queries ++ [info] }, writer)
      | none => ({ client with frameIndex := frameIndex }, writer)
  | .lsn _ | .connect _ | .disconnect | .sync | .txEnd .. | .close .. => (client, writer)

def onCaptures (msgs : List CaptureMessage) (client : AnalyzeClient)
    (writer : StorageWriter) : AnalyzeClient × StorageWriter :=
  msgs.foldl (fun state msg => onCapture hashText msg state.1 state.2) (client, writer)

/-- The events that get a frame index. -/
def isNumbered : ClientEvent → Bool
  | .simpleQuery _ | .parse .. | .bind .. | .execute .. => true
  | .lsn _ | .connect _ | .disconnect | .sync | .txEnd .. | .close .. => false

theorem frameIndex_onCapture (msg : CaptureMessage) (client : AnalyzeClient)
    (writer : StorageWriter) :
    (onCapture hashText msg client writer).1.frameIndex =
      client.frameIndex + if isNumbered msg.event then 1 else 0 := by
  rcases msg with ⟨id, ts, event⟩
  cases event with
  | bind portal statement resultFormats params =>
      simp only [onCapture, isNumbered]
      cases client.statements.lookup statement <;> rfl
  | execute portal maxRows =>
      simp only [onCapture, isNumbered]
      cases client.portals.lookup portal <;> rfl
  | simpleQuery | parse => rfl
  | lsn | connect | disconnect | sync | txEnd | close => simp [onCapture, isNumbered]

/-- A run counts the numbered events. -/
theorem frameIndex_onCaptures (msgs : List CaptureMessage) (client : AnalyzeClient)
    (writer : StorageWriter) :
    (onCaptures hashText msgs client writer).1.frameIndex = client.frameIndex +
      UInt32.ofNat (msgs.countP fun msg => isNumbered msg.event) := by
  induction msgs generalizing client writer with
  | nil => simp [onCaptures]
  | cons msg msgs ih =>
      have htail := ih (onCapture hashText msg client writer).1
        (onCapture hashText msg client writer).2
      rw [onCaptures] at htail ⊢
      rw [List.foldl_cons, htail, frameIndex_onCapture, List.countP_cons]
      split_ifs
      · rw [UInt32.ofNat_add, UInt32.add_assoc, UInt32.add_comm 1]
        rfl
      · simp

end OnCapture

end Pgr.Analyzer
