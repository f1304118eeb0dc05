import Pgr.Replay.Framing

/-!
# The frames of a list of events

Each event gives at most one frame: its tag, its length and a body that the server
reads as the fields of the event.  In a row the frames are found again one by one.
-/

namespace Pgr.EmittedFrames

open Pgr.FixedWidth Pgr.Utf8Lossy Pgr.Capture Pgr.Proto Pgr.Manager Pgr.Frontend Pgr.Framing

/-- What the server should read for an event: its own fields, the parameters as
text, and the row limit as the protocol can carry it. -/
def eventMessage : ClientEvent → Option FrontendMessage
  | .lsn _ | .txEnd .. => none
  | .connect sessionId =>
      if sessionId = "" then none else some (.query (asBytes (srestoreQuery sessionId)))
  | .disconnect => some .terminate
  | .simpleQuery text => some (.query (asBytes text))
  | .parse name query paramTypes =>
      some (.parse (asBytes name) (asBytes query) (paramTypes.map UInt32.toNat))
  | .bind portal statement resultFormats params =>
      some (.bind (asBytes portal) (asBytes statement) [] (params.map BindParam.value)
        (resultFormats.map UInt16.toNat))
  | .execute portal maxRows => some (.execute (asBytes portal) (clampRows maxRows))
  | .sync => some .sync
  | .close kind name => some (.close kind (asBytes name))

def eventTexts : ClientEvent → List String
  | .lsn _ | .txEnd .. | .disconnect | .sync => []
  | .connect sessionId => [sessionId]
  | .simpleQuery text => [text]
  | .parse name query _ => [name, query]
  | .bind portal statement .. => [portal, statement]
  | .execute portal _ => [portal]
  | .close _ name => [name]

/-- The lengths of the counted lists of an event. -/
def eventCounts : ClientEvent → List ℕ
  | .parse _ _ paramTypes => [paramTypes.length]
  | .bind _ _ resultFormats params => [resultFormats.length, params.length]
  | _ => []

/-- The tag and the data of a `Send` command. -/
def sendFrame (cmd : ConnCommand) : Option (UInt8 × List UInt8) :=
  match cmd.kind with
  | .send tag data => some (tag, data)
  | .connect | .endReplay => none

/-- The frames an event is sent as. -/
def eventFrames (msg : CaptureMessage) (ts : ℕ) : List (UInt8 × List UInt8) :=
  (emit msg ts).filterMap sendFrame

/-- The event can be carried by the protocol. -/
structure Fits (msg : CaptureMessage) (ts : ℕ) : Prop where
  nul_free : ∀ text ∈ eventTexts msg.event, 0 ∉ asBytes text
  counts : ∀ count ∈ eventCounts msg.event, count ≤ 65535
  size : ∀ frame ∈ eventFrames msg ts, frame.2.length < 2 ^ 31

/-- One frontend frame with the message in it. -/
structure IsFrameOf (message : FrontendMessage) (frame : UInt8 × List UInt8) : Prop where
  tag : frame.2.head? = some frame.1
  length : ofBeBytes ((frame.2.drop 1).take 4) = frame.2.length - 1
  parsed : frontendFrame frame.2 = some message

/-! ## Single frames -/

/-- A frame that was begun with `tag`. -/
def IsBuilt (tag : UInt8) (data : List UInt8) : Prop :=
  ∃ body, data = endFrame (beginFrame tag ++ body)

theorem isBuilt_queryFrame (q : String) : IsBuilt fQuery (queryFrame q) :=
  ⟨_, by rw [queryFrame, cstr, List.append_assoc]⟩

theorem isBuilt_parseFrame (name query : String) (paramTypes : List UInt32) :
    IsBuilt fParse (parseFrame name query paramTypes) :=
  ⟨_, by simp only [parseFrame, cstr, List.append_assoc]; rfl⟩

theorem isBuilt_bindFrame (portal statement : String) (resultFormats : List UInt16)
    (params : List BindParam) :
    IsBuilt fBind (bindFrame portal statement resultFormats params) :=
  ⟨_, by simp only [bindFrame, cstr, List.append_assoc]; rfl⟩

theorem isBuilt_executeFrame (portal : String) (maxRows : Int64) :
    IsBuilt fExecute (executeFrame portal maxRows) :=
  ⟨_, by simp only [executeFrame, cstr, List.append_assoc]; rfl⟩

theorem isBuilt_closeFrame (kind : UInt8) (name : String) :
    IsBuilt fClose (closeFrame kind name) :=
  ⟨_, by simp only [closeFrame, cstr, List.append_assoc]; rfl⟩

theorem isBuilt_syncFrame : IsBuilt fSync (endFrame (beginFrame fSync)) :=
  ⟨[], rfl⟩

theorem isBuilt_terminateMsg : IsBuilt fTerminate terminateMsg :=
  ⟨[], by decide⟩

/-- The header of a frame: its tag, and a length that counts all but the tag. -/
theorem isFrame_of_isBuilt {tag : UInt8} {data : List UInt8} (hbuilt : IsBuilt tag data)
    (hsize : data.length < 2 ^ 31) :
    IsFrame data ∧ data.head? = some tag ∧
      ofBeBytes ((data.drop 1).take 4) = data.length - 1 := by
  obtain ⟨body, hbody⟩ := hbuilt
  rw [endFrame_beginFrame] at hbody
  have htotal : data.length = 1 + (4 + body.length) := by
    rw [hbody]
    simp [add_comm]
  have hlength : ofBeBytes (beBytes 4 (4 + body.length)) = 4 + body.length :=
    ofBeBytes_beBytes_of_lt (by omega)
  obtain ⟨b1, b2, b3, b4, hbytes⟩ : ∃ b1 b2 b3 b4,
      beBytes 4 (4 + body.length) = [b1, b2, b3, b4] := ⟨_, _, _, _, rfl⟩
  rw [hbytes] at hbody hlength
  rw [hbody] at htotal ⊢
  refine ⟨⟨tag, ?_⟩, rfl, ?_⟩
  · simp only [List.cons_append, List.nil_append, tryReadFrame, hlength]
    rw [if_neg (by simp only [List.length_cons]; omega)]
    simp only [List.length_cons]
    congr 2
    omega
  · simp only [List.cons_append, List.nil_append, List.drop_succ_cons, List.drop_zero,
      List.take_succ_cons, List.take_zero, hlength, List.length_cons]
    omega

/-- Doubling the quotes of a session id brings in no new characters. -/
theorem nul_not_mem_srestoreQuery {sessionId : String} (hnul : 0 ∉ asBytes sessionId) :
    0 ∉ asBytes (srestoreQuery sessionId) := by
  have hquotes : 0 ∉ asBytes (doubleQuotes sessionId) := by
    intro hmem
    rw [asBytes, doubleQuotes, String.toList_ofList] at hmem
    obtain ⟨c, hc, hzero⟩ := List.mem_flatMap.mp hmem
    obtain ⟨original, horiginal, hcopy⟩ := List.mem_flatMap.mp hc
    have hsame : c = original := by
      split_ifs at hcopy with hquote
      · simpa using hcopy
      · simpa using hcopy
    rw [hsame] at hzero
    exact hnul (List.mem_flatMap.mpr ⟨original, horiginal, hzero⟩)
  have hhead : 0 ∉ asBytes "SELECT pgr.srestore('" := by decide +kernel
  have htail : 0 ∉ asBytes "')" := by decide +kernel
  have hparts : asBytes (srestoreQuery sessionId) =
      asBytes ("SELECT pgr.srestore('" ++ doubleQuotes sessionId) ++ asBytes "')" :=
    asBytes_append _ _
  intro hmem
  rw [hparts, asBytes_append] at hmem
  obtain hfront | hback := List.mem_append.mp hmem
  · exact (List.mem_append.mp hfront).elim hhead hquotes
  · exact htail hback

/-! ## Events -/

/-- What an event is sent as. -/
structure EmitsAs (msg : CaptureMessage) (ts : ℕ) (message : FrontendMessage) (tag : UInt8)
    (data : List UInt8) : Prop where
  event : eventMessage msg.event = some message
  frames : eventFrames msg ts = [(tag, data)]
  isFrame : IsFrame data
  isFrameOf : IsFrameOf message (tag, data)

theorem emitsAs_of_isBuilt {msg : CaptureMessage} {ts : ℕ} {message : FrontendMessage}
    {tag : UInt8} {data : List UInt8} (hfits : Fits msg ts)
    (hmessage : eventMessage msg.event = some message)
    (hframes : eventFrames msg ts = [(tag, data)]) (hbuilt : IsBuilt tag data)
    (hparsed : data.length < 2 ^ 31 → frontendFrame data = some message) :
    EmitsAs msg ts message tag data := by
  have hsize : data.length < 2 ^ 31 := by
    apply hfits.size (tag, data)
    rw [hframes]
    exact List.mem_singleton_self _
  obtain ⟨hframe, htag, hlength⟩ := isFrame_of_isBuilt hbuilt hsize
  exact ⟨hmessage, hframes, hframe, htag, hlength, hparsed hsize⟩

theorem eventFrames_spec {msg : CaptureMessage} {ts : ℕ} (hfits : Fits msg ts) :
    eventMessage msg.event = none ∧ eventFrames msg ts = [] ∨
      ∃ message tag data, EmitsAs msg ts message tag data := by
  obtain ⟨id, stamp, event⟩ := msg
  have htexts := hfits.nul_free
  have hcounts := hfits.counts
  cases event with
  | lsn lsn => exact .inl ⟨rfl, rfl⟩
  | txEnd committed xid lsn => exact .inl ⟨rfl, rfl⟩
  | connect sessionId =>
      by_cases hempty : sessionId = ""
      · left
        constructor
        · rw [eventMessage, if_pos hempty]
        · rw [eventFrames, emit]
          simp only [hempty, if_true]
          rfl
      · right
        have hsession : 0 ∉ asBytes sessionId := htexts _ (by simp [eventTexts])
        refine ⟨_, _, _, emitsAs_of_isBuilt hfits ?_ ?_ (isBuilt_queryFrame _)
          (frontendFrame_queryFrame (nul_not_mem_srestoreQuery hsession))⟩
        · rw [eventMessage, if_neg hempty]
        · rw [eventFrames, emit]
          simp only [hempty, if_false]
          rfl
  | disconnect =>
      exact .inr ⟨_, _, _, emitsAs_of_isBuilt hfits rfl rfl isBuilt_terminateMsg
        fun _ => by decide⟩
  | simpleQuery text =>
      exact .inr ⟨_, _, _, emitsAs_of_isBuilt hfits rfl rfl (isBuilt_queryFrame _)
        (frontendFrame_queryFrame (htexts _ (by simp [eventTexts])))⟩
  | parse name query paramTypes =>
      exact .inr ⟨_, _, _, emitsAs_of_isBuilt hfits rfl rfl (isBuilt_parseFrame _ _ _)
        (frontendFrame_parseFrame (htexts _ (by simp [eventTexts]))
          (htexts _ (by simp [eventTexts])) (hcounts _ (by simp [eventCounts])))⟩
  | bind portal statement resultFormats params =>
      exact .inr ⟨_, _, _, emitsAs_of_isBuilt hfits rfl rfl (isBuilt_bindFrame _ _ _ _)
        (frontendFrame_bindFrame (htexts _ (by simp [eventTexts]))
          (htexts _ (by simp [eventTexts])) (hcounts _ (by simp [eventCounts]))
          (hcounts _ (by simp [eventCounts])))⟩
  | execute portal maxRows =>
      exact .inr ⟨_, _, _, emitsAs_of_isBuilt hfits rfl rfl (isBuilt_executeFrame _ _)
        (frontendFrame_executeFrame (htexts _ (by simp [eventTexts])))⟩
  | sync =>
      exact .inr ⟨_, _, _, emitsAs_of_isBuilt hfits rfl rfl isBuilt_syncFrame
        fun _ => by decide⟩
  | close kind name =>
      exact .inr ⟨_, _, _, emitsAs_of_isBuilt hfits rfl rfl (isBuilt_closeFrame _ _)
        (frontendFrame_closeFrame (htexts _ (by simp [eventTexts])))⟩

/-! ## Lists of events -/

/-- The frames of a list of events, in order. -/
def framesOf (events : List (CaptureMessage × ℕ)) : List (List UInt8) :=
  events.flatMap fun event => (eventFrames event.1 event.2).map Prod.snd

theorem isFrame_of_mem_framesOf {events : List (CaptureMessage × ℕ)}
    (hfits : ∀ event ∈ events, Fits event.1 event.2) {frame : List UInt8}
    (hframe : frame ∈ framesOf events) : IsFrame frame := by
  obtain ⟨event, hevent, hmem⟩ := List.mem_flatMap.mp hframe
  obtain ⟨-, hnone⟩ | ⟨message, tag, data, hemits⟩ := eventFrames_spec (hfits event hevent)
  · rw [hnone] at hmem
    cases hmem
  · rw [hemits.frames, List.map_singleton, List.mem_singleton] at hmem
    rw [hmem]
    exact hemits.isFrame

/-- Every event that is sent at all is sent as one frame of the protocol with its own
fields, and `try_read_frame` takes the frames of a list of events apart again. -/
theorem emit_frames {events : List (CaptureMessage × ℕ)}
    (hfits : ∀ event ∈ events, Fits event.1 event.2) :
    (∀ event ∈ events,
      match eventMessage event.1.event with
      | none => eventFrames event.1 event.2 = []
      | some message => ∃ frame, eventFrames event.1 event.2 = [frame] ∧
          IsFrameOf message frame) ∧
      splitFrames (framesOf events).flatten = (framesOf events, []) := by
  constructor
  · intro event hevent
    obtain ⟨hmessage, hnone⟩ | ⟨message, tag, data, hemits⟩ :=
      eventFrames_spec (hfits event hevent)
    · rw [hmessage]
      exact hnone
    · rw [hemits.event]
      exact ⟨(tag, data), hemits.frames, hemits.isFrameOf⟩
  · have hsplit := splitFrames_flatten
      (fun frame hframe => isFrame_of_mem_framesOf hfits hframe) []
    have hend : splitFrames [] = ([], []) := splitFrames_of_none rfl
    rwa [List.append_nil, hend, List.append_nil] at hsplit

/-- A null and an empty parameter, and a `Sync`. -/
def bindAndSync : List (CaptureMessage × ℕ) :=
  [(⟨1, 0, .bind "" "s" [1] [⟨23, none⟩, ⟨25, some []⟩]⟩, 0), (⟨1, 0, .sync⟩, 3)]

theorem emit_frames_bindAndSync :
    (∃ frame, eventFrames (bindAndSync[0]).1 0 = [frame] ∧
      IsFrameOf (.bind [] [115] [] [none, some []] [1]) frame) ∧
      splitFrames (framesOf bindAndSync).flatten = (framesOf bindAndSync, []) := by
  have hbind : Fits ⟨1, 0, .bind "" "s" [1] [⟨23, none⟩, ⟨25, some []⟩]⟩ 0 :=
    ⟨by decide +kernel, by decide +kernel, by decide +kernel⟩
  have hsync : Fits ⟨1, 0, .sync⟩ 3 := ⟨by decide +kernel, by decide +kernel, by decide +kernel⟩
  have hfits : ∀ event ∈ bindAndSync, Fits event.1 event.2 := by
    intro event hevent
    obtain hfirst | hsecond := List.mem_pair.mp hevent
    · rw [hfirst]
      exact hbind
    · rw [hsecond]
      exact hsync
  obtain ⟨hevents, hsplit⟩ := emit_frames hfits
  refine ⟨?_, hsplit⟩
  have hmessage : eventMessage (bindAndSync[0]).1.event =
      some (.bind [] [115] [] [none, some []] [1]) := by decide +kernel
  have hfirst := hevents bindAndSync[0] (by simp [bindAndSync])
  rw [hmessage] at hfirst
  exact hfirst

end Pgr.EmittedFrames
