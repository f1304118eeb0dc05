import Pgr.Pipeline.CaptureFormat
import Pgr.Replay.Frontend

/-!
# Bytes from the client to the replayed frame

A captured statement message passes three conversions: the encoder of the
extension, the capture reader and the frame builder.  Parameter values stay raw
bytes throughout; names and query texts pass through a Rust string on the way.
-/

namespace Pgr.ByteFidelity

open Pgr.FixedWidth Pgr.Decoding Pgr.Utf8Lossy
open Pgr.CaptureEncoder Pgr.Capture Pgr.Manager Pgr.Frontend Pgr.CaptureFormat

/-- SimpleQuery, Parse, Bind, Execute and Close. -/
def IsStatementCall : CaptureCall → Prop
  | .simpleQuery _ | .parse .. | .bind .. | .execute .. | .close .. => True
  | _ => False

/-- The names and query texts of a captured message. -/
def capturedTexts : CaptureCall → List (List UInt8)
  | .simpleQuery query => [query.bytes]
  | .parse stmtName query _ _ => [(stmtName.getD CString.empty).bytes, query.bytes]
  | .bind portal stmt .. =>
      [(portal.getD CString.empty).bytes, (stmt.getD CString.empty).bytes]
  | .execute portal _ => [(portal.getD CString.empty).bytes]
  | .close _ target => [(target.getD CString.empty).bytes]
  | _ => []

/-- The parameter values of a captured message, null where there is none. -/
def capturedValues : CaptureCall → List (Option (List UInt8))
  | .bind _ _ _ _ np params =>
      (bindParams np params).map fun param => param.value.map CString.bytes
  | _ => []

def frameTexts : FrontendMessage → List (List UInt8)
  | .query query => [query]
  | .parse name query _ => [name, query]
  | .bind portal statement .. => [portal, statement]
  | .execute portal _ => [portal]
  | .close _ name => [name]
  | _ => []

def frameValues : FrontendMessage → List (Option (List UInt8))
  | .bind _ _ _ params _ => params
  | _ => []

/-- The frontend message that a record of the capture is replayed as. -/
def replayed (record : List UInt8) (ts : ℕ) : Option FrontendMessage :=
  match readEvent record with
  | .ok (some message) [] =>
      match emit message ts with
      | [⟨_, _, .send _ data⟩] => frontendFrame data
      | _ => none
  | _ => none

/-- The frontend message of a decoded statement event. -/
def replayedMessage : CaptureCall → Option FrontendMessage
  | .simpleQuery query => some (.query (asBytes (decodedText query)))
  | .parse stmtName query n types =>
      some (.parse (asBytes (decodedName stmtName)) (asBytes (decodedText query))
        ((paramTypes n types).map UInt32.toNat))
  | .bind portal stmt _ rf np params =>
      some (.bind (asBytes (decodedName portal)) (asBytes (decodedName stmt)) []
        (((bindParams np params).map decodedParam).map BindParam.value)
        (((List.ofFn rf).map Int16.toUInt16).map UInt16.toNat))
  | .execute portal maxRows =>
      some (.execute (asBytes (decodedName portal)) (clampRows maxRows))
  | .close closeType target =>
      some (.close closeType.toUInt8 (asBytes (decodedName target)))
  | _ => none

/-! ## The frame of a record -/

theorem nul_not_mem_decodedText (str : CString) : 0 ∉ asBytes (decodedText str) :=
  nul_not_mem_fromUtf8Lossy str.nul_free

theorem nul_not_mem_decodedName (str : Option CString) : 0 ∉ asBytes (decodedName str) :=
  nul_not_mem_decodedText _

theorem length_decodedText_le (str : CString) :
    (asBytes (decodedText str)).length ≤ 3 * str.bytes.length :=
  length_fromUtf8Lossy_le str.bytes

theorem length_decodedName_le (str : Option CString) :
    (asBytes (decodedName str)).length ≤ 3 * (str.getD CString.empty).bytes.length :=
  length_decodedText_le _

theorem length_flatMap_le_flatMap {A : Type} {short long : A → List UInt8} {items : List A}
    (hitems : ∀ item ∈ items, (short item).length ≤ (long item).length) :
    (items.flatMap short).length ≤ (items.flatMap long).length := by
  induction items with
  | nil => simp
  | cons item items ih =>
      rw [List.flatMap_cons, List.flatMap_cons, List.length_append, List.length_append]
      exact Nat.add_le_add (hitems item (by simp))
        (ih fun other hother => hitems other (by simp [hother]))

theorem length_paramBytes_le (param : ParamExternData) :
    (paramBytes (decodedParam param)).length ≤ (paramLayout param).length := by
  rcases param with ⟨ptype, _ | value⟩ <;>
    simp [paramBytes, decodedParam, paramLayout, bytesLayout]

theorem length_bindFrame_params_le (np : ℕ) (params : Option (Fin np → ParamExternData)) :
    (((bindParams np params).map decodedParam).flatMap paramBytes).length ≤
      ((bindParams np params).flatMap paramLayout).length := by
  rw [List.flatMap_map]
  exact length_flatMap_le_flatMap fun param _ => length_paramBytes_le param

theorem length_bindFrame_formats_le {nrf : ℕ} (rf : Fin nrf → Int16) :
    (((List.ofFn rf).map Int16.toUInt16).flatMap fun code => beBytes 2 code.toNat).length ≤
      ((List.ofFn rf).flatMap fun code => leBytes 2 code.toUInt16.toNat).length := by
  rw [List.flatMap_map]
  exact length_flatMap_le_flatMap fun code _ => by simp

/-- A statement message that fits the encoder's buffer is replayed as the message
of its decoded event.  Lossy decoding at most triples a text, so the frame stays
far below the range of its length field. -/
theorem replayed_messageLayout {stamp : Stamp} {call : CaptureCall} (ts : ℕ)
    (hstatement : IsStatementCall call) (hcounts : CountsFit call)
    (hlength : (messageLayout stamp call).length ≤ captureBufferSize) :
    replayed (messageLayout stamp call) ts = replayedMessage call := by
  have hread := (readsRecord_messageLayout stamp hcounts hlength).run_append []
  rw [List.append_nil] at hread
  rw [replayed, hread]
  simp only [messageLayout, headLayout, List.length_append, length_leBytes,
    captureBufferSize] at hlength
  cases call with
  | simpleQuery query =>
      have htext := length_decodedText_le query
      simp only [CaptureCall.body, bytesLayout, List.length_append, length_leBytes] at hlength
      exact frontendFrame_queryFrame (nul_not_mem_decodedText query) (by
        simp only [queryFrame, cstr, List.append_assoc, endFrame_beginFrame,
          List.length_cons, List.length_append, length_beBytes, List.length_nil]
        omega)
  | parse stmtName query n types =>
      have hname := length_decodedName_le stmtName
      have htext := length_decodedText_le query
      have hn := length_paramTypes n types
      have htypes : ((paramTypes n types).flatMap fun type => beBytes 4 type.toNat).length ≤
          ((paramTypes n types).flatMap fun type => leBytes 4 type.toNat).length :=
        length_flatMap_le_flatMap fun type _ => by simp
      simp only [CaptureCall.body, bytesLayout, List.length_append, length_leBytes] at hlength
      exact frontendFrame_parseFrame (nul_not_mem_decodedName stmtName)
        (nul_not_mem_decodedText query) (hn.trans_le hcounts) (by
          simp only [parseFrame, cstr, List.append_assoc, endFrame_beginFrame,
            List.length_cons, List.length_append, length_beBytes, List.length_nil]
          omega)
  | bind portal stmt nrf rf np params =>
      have hportal := length_decodedName_le portal
      have hstmt := length_decodedName_le stmt
      have hparams := length_bindFrame_params_le np params
      have hformats := length_bindFrame_formats_le rf
      have hnp := length_bindParams_le np params
      obtain ⟨hnrfFits, hnpFits⟩ := hcounts
      simp only [CaptureCall.body, bytesLayout, List.length_append, length_leBytes] at hlength
      exact frontendFrame_bindFrame (nul_not_mem_decodedName portal)
        (nul_not_mem_decodedName stmt) (by simpa using hnrfFits)
        (by simpa using hnp.trans hnpFits) (by
          simp only [bindFrame, cstr, List.append_assoc, endFrame_beginFrame,
            List.length_cons, List.length_append, length_beBytes, List.length_nil]
          omega)
  | execute portal maxRows =>
      have hportal := length_decodedName_le portal
      simp only [CaptureCall.body, bytesLayout, List.length_append, length_leBytes] at hlength
      exact frontendFrame_executeFrame (nul_not_mem_decodedName portal) (by
        simp only [executeFrame, cstr, List.append_assoc, endFrame_beginFrame,
          List.length_cons, List.length_append, length_beBytes, List.length_nil]
        omega)
  | close closeType target =>
      have htarget := length_decodedName_le target
      simp only [CaptureCall.body, bytesLayout, List.length_append, length_leBytes] at hlength
      exact frontendFrame_closeFrame (nul_not_mem_decodedName target) (by
        simp only [closeFrame, cstr, List.append_assoc, endFrame_beginFrame,
          List.length_cons, List.length_append, length_beBytes, List.length_nil]
        omega)
  | lsn | connect | disconnect | sync => exact hstatement.elim

/-! ## Which bytes survive -/

/-- Parameter values are replayed byte for byte, texts as their lossy decoding. -/
theorem exists_replayedMessage {call : CaptureCall} (hstatement : IsStatementCall call) :
    ∃ message, replayedMessage call = some message ∧
      frameValues message = capturedValues call ∧
      frameTexts message =
        (capturedTexts call).map fun bytes => asBytes (fromUtf8Lossy bytes) := by
  cases call with
  | simpleQuery | parse | execute | close => exact ⟨_, rfl, rfl, rfl⟩
  | bind =>
      refine ⟨_, rfl, ?_, rfl⟩
      simp [frameValues, capturedValues, decodedParam]
  | lsn | connect | disconnect | sync => exact hstatement.elim

theorem map_lossy_eq_self_iff (texts : List (List UInt8)) :
    (texts.map fun bytes => asBytes (fromUtf8Lossy bytes)) = texts ↔
      ∀ bytes ∈ texts, IsUtf8 bytes := by
  induction texts with
  | nil => simp
  | cons bytes texts ih =>
      rw [List.map_cons, List.cons.injEq, asBytes_fromUtf8Lossy_eq_iff, ih,
        List.forall_mem_cons]

/-- A captured statement message is replayed with the texts and the parameter
values it was captured with exactly when all its texts are well-formed UTF-8. -/
theorem replayed_eq_captured_iff {stamp : Stamp} {call : CaptureCall}
    {buffer : CaptureBuffer} {record : List UInt8} (ts : ℕ)
    (hstatement : IsStatementCall call) (hcounts : CountsFit call)
    (hrecord : (encodeCall stamp call buffer).1 = some record) :
    (∃ message, replayed record ts = some message ∧
      frameTexts message = capturedTexts call ∧
      frameValues message = capturedValues call) ↔
        ∀ bytes ∈ capturedTexts call, IsUtf8 bytes := by
  obtain ⟨hlength, rfl⟩ := encodeCall_fst_eq_some_iff.mp hrecord
  obtain ⟨message, hmessage, hvalues, htexts⟩ := exists_replayedMessage hstatement
  rw [replayed_messageLayout ts hstatement hcounts hlength, hmessage,
    ← map_lossy_eq_self_iff, ← htexts]
  simp [hvalues]

/-- The query `SET` in any encoding that agrees with ASCII. -/
def setQuery : CaptureCall := .simpleQuery ⟨[0x53, 0x45, 0x54], by decide, by decide⟩

theorem replayed_setQuery_eq_captured_iff :
    (∃ message, replayed (messageLayout ⟨1, 0⟩ setQuery) 0 = some message ∧
      frameTexts message = capturedTexts setQuery ∧
      frameValues message = capturedValues setQuery) ↔
        ∀ bytes ∈ capturedTexts setQuery, IsUtf8 bytes := by
  have hrecord : (encodeCall ⟨1, 0⟩ setQuery CaptureBuffer.empty).1 =
      some (messageLayout ⟨1, 0⟩ setQuery) := by decide
  have hstatement : IsStatementCall setQuery := trivial
  have hcounts : CountsFit setQuery := trivial
  exact replayed_eq_captured_iff 0 hstatement hcounts hrecord

/-- The query `S\xe9` of a Latin-1 database. -/
def latin1Query : CaptureCall := .simpleQuery ⟨[0x53, 0xE9], by decide, by decide⟩

/-- Its last byte is replayed as the three bytes of the replacement character. -/
theorem replayed_latin1Query_ne_captured :
    ∃ record, (encodeCall ⟨1, 0⟩ latin1Query CaptureBuffer.empty).1 = some record ∧
      replayed record 0 = some (.query [0x53, 0xEF, 0xBF, 0xBD]) ∧
      ¬∃ message, replayed record 0 = some message ∧
        frameTexts message = capturedTexts latin1Query := by
  have hreplayed : replayed (messageLayout ⟨1, 0⟩ latin1Query) 0 =
      some (.query [0x53, 0xEF, 0xBF, 0xBD]) := by
    have hstatement : IsStatementCall latin1Query := trivial
    have hcounts : CountsFit latin1Query := trivial
    have hlength : (messageLayout ⟨1, 0⟩ latin1Query).length ≤ captureBufferSize := by decide
    rw [replayed_messageLayout 0 hstatement hcounts hlength]
    simp only [latin1Query, replayedMessage, decodedText, asBytes_fromUtf8Lossy]
    decide
  refine ⟨messageLayout ⟨1, 0⟩ latin1Query, by decide, hreplayed, ?_⟩
  rintro ⟨message, hmessage, htexts⟩
  rw [hreplayed, Option.some.injEq] at hmessage
  subst hmessage
  exact absurd htexts (by decide)

end Pgr.ByteFidelity
