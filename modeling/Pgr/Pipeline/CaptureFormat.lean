import Pgr.Extension.CaptureEncoder
import Pgr.Replay.Capture

/-!
# The capture format, from the C encoder to the Rust reader

The extension writes the capture file and the replay tool reads it.  Every
message the encoder hands over is decoded to the same fields, texts up to lossy
UTF-8 decoding, and a file that ends inside a message reads like one that ends in
front of it.
-/

namespace Pgr.CaptureFormat

open Pgr.FixedWidth Pgr.Decoding Pgr.Utf8Lossy
open Pgr.CaptureEncoder Pgr.Capture

/-- The 16-bit counts of a message are not cut. -/
def CountsFit : CaptureCall → Prop
  | .parse _ _ n _ => n ≤ 65535
  | .bind _ _ nrf _ np _ => nrf ≤ 65535 ∧ np ≤ 65535
  | _ => True

def decodedText (str : CString) : String :=
  fromUtf8Lossy str.bytes

/-- A null name is encoded as the empty one. -/
def decodedName (str : Option CString) : String :=
  decodedText (str.getD CString.empty)

def decodedParam (param : ParamExternData) : BindParam :=
  ⟨param.ptype, param.value.map CString.bytes⟩

/-- The event that a captured call is decoded to. -/
def decodedEvent : CaptureCall → ClientEvent
  | .lsn insertPtr => .lsn insertPtr
  | .connect session => .connect (decodedText session)
  | .disconnect => .disconnect
  | .simpleQuery query => .simpleQuery (decodedText query)
  | .parse stmtName query n types =>
      .parse (decodedName stmtName) (decodedText query) (paramTypes n types)
  | .bind portal stmt _ rf np params =>
      .bind (decodedName portal) (decodedName stmt)
        ((List.ofFn rf).map Int16.toUInt16) ((bindParams np params).map decodedParam)
  | .execute portal maxRows => .execute (decodedName portal) maxRows
  | .sync => .sync
  | .close closeType target => .close closeType.toUInt8 (decodedName target)

def decodedMessage (stamp : Stamp) (call : CaptureCall) : CaptureMessage :=
  ⟨stamp.clientId, stamp.timestamp, decodedEvent call⟩

/-! ## One message -/

theorem decodes_bytesLayout {field : List UInt8}
    (hlength : (bytesLayout field).length ≤ captureBufferSize) :
    Decodes .unexpectedEof string (bytesLayout field) (fromUtf8Lossy field) := by
  have hfield : field.length < 2 ^ 32 := by
    simp only [bytesLayout, List.length_append, captureBufferSize] at hlength
    omega
  rw [bytesLayout, Nat.mod_eq_of_lt hfield]
  exact decodes_string hfield

theorem decodes_paramLayout {param : ParamExternData}
    (hlength : (paramLayout param).length ≤ captureBufferSize) :
    Decodes .unexpectedEof readParam (paramLayout param) (decodedParam param) := by
  rcases param with ⟨ptype, _ | text⟩
  · exact decodes_readParam_null ptype
  · have htext : text.bytes.length < 2 ^ 32 - 1 := by
      simp only [paramLayout, bytesLayout, List.length_append, captureBufferSize] at hlength
      omega
    simp only [paramLayout, bytesLayout]
    rw [Nat.mod_eq_of_lt (by omega)]
    exact decodes_readParam_some ptype htext

/-- A list of fields behind its 16-bit count, in front of the rest of a record. -/
theorem decodes_counted {A B C : Type} {reader : FileReader B} {layout : A → List UInt8}
    {decoded : A → B} {items : List A} {k : List B → FileReader C}
    {rest : List UInt8} {result : C} (hcount : items.length ≤ 65535)
    (hitems : ∀ item ∈ items, Decodes .unexpectedEof reader (layout item) (decoded item))
    (hnext : Decodes .unexpectedEof (k (items.map decoded)) rest result) :
    Decodes .unexpectedEof
      (do let n ← u16; let values ← readMany reader n.toNat; k values)
      (leBytes 2 (items.length % 2 ^ 16) ++ (items.flatMap layout ++ rest)) result := by
  have hn : (UInt16.ofNat items.length).toNat = items.length % 2 ^ 16 :=
    UInt16.toNat_ofNat'
  have hread := decodes_u16 (UInt16.ofNat items.length)
  rw [hn] at hread
  refine hread.bind ?_
  rw [hn, Nat.mod_eq_of_lt (by omega)]
  exact (Decodes.readMany hitems).bind hnext

theorem length_paramTypes (n : ℕ) (types : Option (Fin n → UInt32)) :
    (paramTypes n types).length = n := by
  simp [paramTypes]

theorem length_bindParams_le (np : ℕ) (params : Option (Fin np → ParamExternData)) :
    (bindParams np params).length ≤ np := by
  cases params <;> simp [bindParams]

theorem decodes_event {call : CaptureCall} (hcounts : CountsFit call)
    (hlength : call.body.length ≤ captureBufferSize) :
    Decodes .unexpectedEof (readEventBody call.type) call.body (decodedEvent call) := by
  cases call with
  | lsn insertPtr => exact (decodes_u64 insertPtr).bind_pure
  | connect session => exact (decodes_bytesLayout hlength).bind_pure
  | disconnect => exact Decodes.pure _
  | simpleQuery query => exact (decodes_bytesLayout hlength).bind_pure
  | parse stmtName query n types =>
      have hn := length_paramTypes n types
      simp only [CaptureCall.body, List.append_assoc, List.length_append] at hlength ⊢
      refine (decodes_bytesLayout (by omega)).bind
        ((decodes_bytesLayout (by omega)).bind ?_)
      have hread := decodes_counted (hn.trans_le hcounts)
        (fun type _ => decodes_u32 type) (k := fun types =>
          pure (ClientEvent.parse (decodedName stmtName) (decodedText query) types))
        (Decodes.pure _)
      rw [hn, List.append_nil, List.map_id'] at hread
      exact hread
  | bind portal stmt nrf rf np params =>
      have hnrf : (List.ofFn rf).length = nrf := List.length_ofFn
      have hnp := length_bindParams_le np params
      obtain ⟨hnrfFits, hnpFits⟩ := hcounts
      simp only [CaptureCall.body, List.append_assoc, List.length_append] at hlength ⊢
      refine (decodes_bytesLayout (by omega)).bind
        ((decodes_bytesLayout (by omega)).bind ?_)
      have hparams : ∀ param ∈ bindParams np params,
          (paramLayout param).length ≤ captureBufferSize := by
        intro param hparam
        have hle := (List.sublist_flatten_of_mem
          (List.mem_map_of_mem (f := paramLayout) hparam)).length_le
        rw [← List.flatMap_def] at hle
        omega
      have hread := decodes_counted (hnp.trans hnpFits)
        (fun param hparam => decodes_paramLayout (hparams param hparam))
        (k := fun values => pure (ClientEvent.bind (decodedName portal) (decodedName stmt)
          ((List.ofFn rf).map Int16.toUInt16) values)) (Decodes.pure _)
      have hformats := decodes_counted (hnrf.trans_le hnrfFits)
        (fun code _ => decodes_u16 (Int16.toUInt16 code)) (k := fun formats => do
          let np ← u16
          let values ← readMany readParam np.toNat
          pure (ClientEvent.bind (decodedName portal) (decodedName stmt) formats values))
        hread
      rw [hnrf, List.append_nil] at hformats
      exact hformats
  | execute portal maxRows =>
      simp only [CaptureCall.body, List.length_append] at hlength ⊢
      exact (decodes_bytesLayout (by omega)).bind (decodes_u64 _).bind_pure
  | sync => exact Decodes.pure _
  | close closeType target =>
      simp only [CaptureCall.body, List.length_append] at hlength ⊢
      exact (decodes_u8 _).bind (decodes_bytesLayout (by omega)).bind_pure

/-- A message that fits the encoder's buffer is one record of the file. -/
theorem readsRecord_messageLayout (stamp : Stamp) {call : CaptureCall}
    (hcounts : CountsFit call)
    (hlength : (messageLayout stamp call).length ≤ captureBufferSize) :
    ReadsRecord readEvent (messageLayout stamp call) (decodedMessage stamp call) := by
  have hbody : call.body.length ≤ captureBufferSize := by
    simp only [messageLayout, List.length_append] at hlength
    omega
  have htype : leBytes 1 call.type.toNat = [call.type] := by
    simp [leBytes]
  have hrecord := readsRecord_of_decodes (t := call.type) ((decodes_u32 stamp.clientId).bind
    ((decodes_u64 stamp.timestamp).bind (decodes_event hcounts hbody).bind_pure))
  simpa [messageLayout, headLayout, htype, decodedMessage] using hrecord

/-! ## The whole file -/

/-- The calls of one backend, one after the other; each starts from the buffer
the previous one left. -/
def encodeAll : List (Stamp × CaptureCall) → CaptureBuffer → List (Option (List UInt8))
  | [], _ => []
  | (stamp, call) :: messages, buffer =>
      let handed := encodeCall stamp call buffer
      handed.1 :: encodeAll messages handed.2

/-- The records of the file with the messages they are read back as. -/
theorem readsRecord_of_encodeAll {messages : List (Stamp × CaptureCall)}
    {buffer : CaptureBuffer} {encoded : List (List UInt8)}
    (hcounts : ∀ message ∈ messages, CountsFit message.2)
    (hencoded : encodeAll messages buffer = encoded.map some) :
    ∃ records : List (List UInt8 × CaptureMessage),
      records.map Prod.fst = encoded ∧
      records.map Prod.snd = messages.map (fun message => decodedMessage message.1 message.2) ∧
      ∀ record ∈ records, ReadsRecord readEvent record.1 record.2 := by
  induction messages generalizing buffer encoded with
  | nil =>
      obtain rfl : encoded = [] := by simpa [encodeAll] using hencoded.symm
      exact ⟨[], rfl, rfl, by simp⟩
  | cons message messages ih =>
      obtain ⟨stamp, call⟩ := message
      cases encoded with
      | nil => simp [encodeAll] at hencoded
      | cons bytes encoded =>
          simp only [encodeAll, List.map_cons, List.cons.injEq] at hencoded
          obtain ⟨hhanded, hrest⟩ := hencoded
          obtain ⟨hlength, rfl⟩ := encodeCall_fst_eq_some_iff.mp hhanded
          obtain ⟨records, hfst, hsnd, hrecords⟩ := ih
            (fun other hother => hcounts other (by simp [hother])) hrest
          refine ⟨(messageLayout stamp call, decodedMessage stamp call) :: records,
            by rw [List.map_cons, hfst], by rw [List.map_cons, hsnd]; rfl, ?_⟩
          intro record hrecord
          rcases List.mem_cons.mp hrecord with rfl | hrecord
          · exact readsRecord_messageLayout stamp (hcounts (stamp, call) (by simp)) hlength
          · exact hrecords record hrecord

/-- Every file that is cut anywhere behind its first message is read as its sync
point and exactly the messages that lie wholly inside it; every further read
finds the end of the capture. -/
theorem readEvents_truncated {stamp : Stamp} {insertPtr : UInt64}
    {messages : List (Stamp × CaptureCall)} {buffer : CaptureBuffer}
    {first part : List UInt8} {encoded : List (List UInt8)}
    (hcounts : ∀ message ∈ messages, CountsFit message.2)
    (hencoded : encodeAll ((stamp, .lsn insertPtr) :: messages) buffer =
      some first :: encoded.map some)
    (hpart : part <+: first ++ encoded.flatten) (hfirst : first <+: part) :
    ∃ (reader : CaptureReader) (count : ℕ),
      CaptureReader.new part = .ok reader ∧
      reader.lsn = insertPtr ∧ reader.startTs = stamp.timestamp ∧
      count ≤ messages.length ∧
      first ++ (encoded.take count).flatten <+: part ∧
      (count < messages.length → ¬first ++ (encoded.take (count + 1)).flatten <+: part) ∧
      ∀ extra, ∃ rest, readMany readEvent (count + extra) reader.buf =
        .ok ((messages.take count).map (fun message =>
            some (decodedMessage message.1 message.2)) ++ List.replicate extra none)
          rest := by
  obtain ⟨tail, rfl⟩ := hfirst
  have htail := (List.prefix_append_right_inj first).mp hpart
  simp only [encodeAll, List.cons.injEq] at hencoded
  obtain ⟨hhanded, hrest⟩ := hencoded
  obtain ⟨hlength, rfl⟩ := encodeCall_fst_eq_some_iff.mp hhanded
  have hlsn : ReadsRecord readEvent (messageLayout stamp (.lsn insertPtr))
      (decodedMessage stamp (.lsn insertPtr)) :=
    readsRecord_messageLayout stamp trivial hlength
  obtain ⟨records, rfl, hsnd, hrecords⟩ := readsRecord_of_encodeAll hcounts hrest
  obtain ⟨count, hcount, hwhole, hnext, hread⟩ :=
    readMany_truncated readEvent_nil hrecords htail
  have hsize : records.length = messages.length := by
    simpa using congrArg List.length hsnd
  refine ⟨⟨tail, insertPtr, stamp.timestamp⟩, count, ?_, rfl, rfl, hsize ▸ hcount,
    ?_, fun hlt => ?_, fun extra => ?_⟩
  · rw [CaptureReader.new, hlsn.run_append]
    rfl
  · rw [← List.map_take]
    exact (List.prefix_append_right_inj _).mpr hwhole
  · rw [← List.map_take, List.prefix_append_right_inj]
    exact hnext (hsize ▸ hlt)
  · obtain ⟨rest, hrest⟩ := hread extra
    refine ⟨rest, ?_⟩
    have hvalues := congrArg (fun values => (values.take count).map some) hsnd
    simp only [← List.map_take, List.map_map] at hvalues
    rw [hrest]
    congr 2

def queryMessage : Stamp × CaptureCall :=
  (⟨3, 8⟩, .simpleQuery ⟨[81], by decide, by decide⟩)

/-- A sync point, a query and five bytes of a Sync. -/
def insideSync : List UInt8 :=
  messageLayout ⟨0, 7⟩ (.lsn 42) ++ (messageLayout queryMessage.1 queryMessage.2 ++
    (messageLayout ⟨3, 9⟩ .sync).take 5)

/-- The query is read, and then the end of the capture for ever. -/
theorem readEvents_truncated_insideSync :
    ∃ reader, CaptureReader.new insideSync = .ok reader ∧ reader.lsn = 42 ∧
      reader.startTs = 7 ∧ ∀ extra, ∃ rest, readMany readEvent (1 + extra) reader.buf =
        .ok (some (decodedMessage queryMessage.1 queryMessage.2) :: List.replicate extra none)
          rest := by
  obtain ⟨encoded, hencodedIs⟩ : ∃ encoded, [messageLayout queryMessage.1 queryMessage.2,
      messageLayout ⟨3, 9⟩ .sync] = encoded := ⟨_, rfl⟩
  have hencoded : encodeAll [(⟨0, 7⟩, .lsn 42), queryMessage, (⟨3, 9⟩, .sync)]
      CaptureBuffer.empty =
        some (messageLayout ⟨0, 7⟩ (.lsn 42)) :: encoded.map some := by
    subst hencodedIs
    simp [encodeAll, encodeCall_eq, messageLayout, headLayout, CaptureCall.body, queryMessage,
      bytesLayout, captureBufferSize]
  have hpart : insideSync <+: messageLayout ⟨0, 7⟩ (.lsn 42) ++ encoded.flatten := by
    subst hencodedIs
    decide +kernel
  obtain ⟨reader, count, hnew, hlsn, hts, hcount, hwhole, hnext, hread⟩ :=
    readEvents_truncated (by simp [CountsFit, queryMessage]) hencoded hpart
      (List.prefix_append _ _)
  have hone : count = 1 := by
    have hnotAll : ¬messageLayout ⟨0, 7⟩ (.lsn 42) ++ (encoded.take 2).flatten <+: insideSync := by
      subst hencodedIs
      decide +kernel
    have hquery : messageLayout ⟨0, 7⟩ (.lsn 42) ++ (encoded.take 1).flatten <+: insideSync := by
      subst hencodedIs
      decide +kernel
    have hcases : count = 0 ∨ count = 1 ∨ count = 2 := by
      simp only [List.length_cons, List.length_nil] at hcount
      omega
    rcases hcases with rfl | rfl | rfl
    · exact absurd hquery (hnext (by simp))
    · rfl
    · exact absurd hwhole hnotAll
  subst hone
  exact ⟨reader, hnew, hlsn, hts, hread⟩

end Pgr.CaptureFormat
