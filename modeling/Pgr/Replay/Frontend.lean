import Pgr.Core.Decoding
import Pgr.Replay.Manager

/-!
# The frontend grammar

What a Postgres server reads from a frontend frame: the message formats of the
protocol, stated without reference to how the replay tool builds its frames.  The
frames of `emit` are then shown to be frames of this grammar, with the fields of
the event as the server sees them.
-/

namespace Pgr.Frontend

open Pgr.FixedWidth Pgr.Decoding Pgr.Utf8Lossy Pgr.Capture Pgr.Proto Pgr.Manager

/-- A frontend message with its texts as bytes.  No parameter format at all means
that every parameter is text; a missing value is null. -/
inductive FrontendMessage where
  | query (text : List UInt8)
  | parse (name query : List UInt8) (types : List ℕ)
  | bind (portal statement : List UInt8) (formats : List ℕ)
      (params : List (Option (List UInt8))) (resultFormats : List ℕ)
  | execute (portal : List UInt8) (maxRows : ℕ)
  | sync
  | close (kind : UInt8) (name : List UInt8)
  | terminate
  deriving DecidableEq

inductive FrameError where
  | truncated
  | unknownTag
  deriving DecidableEq

abbrev FrameReader := Reader FrameError

def int16 : FrameReader ℕ := do
  let bytes ← readExact .truncated 2
  pure (ofBeBytes bytes)

def int32 : FrameReader ℕ := do
  let bytes ← readExact .truncated 4
  pure (ofBeBytes bytes)

def byte1 : FrameReader UInt8 := do
  let bytes ← readExact .truncated 1
  pure (UInt8.ofNat (ofBeBytes bytes))

def text : FrameReader (List UInt8) := readCStr .truncated

/-- A counted value; the length -1 is null. -/
def nullable : FrameReader (Option (List UInt8)) := do
  let len ← int32
  if len = 2 ^ 32 - 1 then
    pure none
  else
    let value ← readExact .truncated len
    pure (some value)

def frontendBody (tag : UInt8) : FrameReader FrontendMessage :=
  match tag.toNat with
  | 0x51 => do
      let query ← text
      pure (.query query)
  | 0x50 => do
      let name ← text
      let query ← text
      let n ← int16
      let types ← readMany int32 n
      pure (.parse name query types)
  | 0x42 => do
      let portal ← text
      let statement ← text
      let nf ← int16
      let formats ← readMany int16 nf
      let np ← int16
      let params ← readMany nullable np
      let nrf ← int16
      let resultFormats ← readMany int16 nrf
      pure (.bind portal statement formats params resultFormats)
  | 0x45 => do
      let portal ← text
      let maxRows ← int32
      pure (.execute portal maxRows)
  | 0x43 => do
      let kind ← byte1
      let name ← text
      pure (.close kind name)
  | 0x53 => pure .sync
  | 0x58 => pure .terminate
  | _ => throw .unknownTag

/-- The message of a byte string that is one frame: the length field counts every
byte but the tag, and the body is consumed exactly. -/
def frontendFrame : List UInt8 → Option FrontendMessage
  | [] => none
  | tag :: rest =>
      if 4 ≤ rest.length ∧ ofBeBytes (rest.take 4) = rest.length then
        match frontendBody tag (rest.drop 4) with
        | .ok message [] => some message
        | _ => none
      else none

/-! ## Field contracts -/

theorem decodes_int16 {value : ℕ} (hvalue : value ≤ 65535) :
    Decodes .truncated int16 (beBytes 2 value) value :=
  Decodes.beBytes 2 id (by omega)

theorem decodes_int32 {value : ℕ} (hvalue : value < 2 ^ 32) :
    Decodes .truncated int32 (beBytes 4 value) value :=
  Decodes.beBytes 4 id (by omega)

theorem decodes_byte1 (value : UInt8) : Decodes .truncated byte1 [value] value := by
  have hbytes : beBytes 1 value.toNat = [value] := by simp [beBytes, leBytes]
  rw [← hbytes]
  simpa only [byte1, UInt8.ofNat_toNat] using
    Decodes.beBytes (e := FrameError.truncated) 1 UInt8.ofNat value.toNat_lt

theorem decodes_text {s : List UInt8} (hs : 0 ∉ s) :
    Decodes .truncated text (s ++ [0]) s :=
  Decodes.readCStr hs

theorem decodes_nullable {param : BindParam}
    (hsize : ∀ b, param.value = some b → b.length < 2 ^ 32 - 1) :
    Decodes .truncated nullable (paramBytes param) param.value := by
  rcases param with ⟨_, _ | b⟩
  · rw [paramBytes, ← List.append_nil (beBytes 4 _)]
    refine (decodes_int32 (by omega)).bind ?_
    rw [if_pos rfl]
    exact Decodes.pure none
  · have hb := hsize b rfl
    refine (decodes_int32 (by omega)).bind ?_
    rw [if_neg (by omega)]
    exact (Decodes.readExact rfl).bind_pure

/-- A list of fields behind its 16-bit count, in front of the rest of a frame. -/
theorem decodes_counted {A B C : Type} {reader : FrameReader B} {layout : A → List UInt8}
    {decoded : A → B} {items : List A} {k : List B → FrameReader C}
    {rest : List UInt8} {result : C} (hcount : items.length ≤ 65535)
    (hitems : ∀ item ∈ items, Decodes .truncated reader (layout item) (decoded item))
    (hnext : Decodes .truncated (k (items.map decoded)) rest result) :
    Decodes .truncated
      (do let n ← int16; let values ← readMany reader n; k values)
      (beBytes 2 items.length ++ (items.flatMap layout ++ rest)) result :=
  (decodes_int16 hcount).bind ((Decodes.readMany hitems).bind hnext)

/-! ## The frames of `emit` -/

theorem endFrame_beginFrame (tag : UInt8) (body : List UInt8) :
    endFrame (beginFrame tag ++ body) = tag :: (beBytes 4 (4 + body.length) ++ body) := by
  have hlength : (beginFrame tag ++ body).length - 1 = 4 + body.length := by
    simp [beginFrame]
    omega
  rw [endFrame, hlength]
  simp [beginFrame]

/-- A frame whose body decodes is read as its message. -/
theorem frontendFrame_endFrame {tag : UInt8} {body : List UInt8}
    {message : FrontendMessage} (hbody : Decodes .truncated (frontendBody tag) body message)
    (hsize : 4 + body.length < 2 ^ 32) :
    frontendFrame (endFrame (beginFrame tag ++ body)) = some message := by
  have hlength : ofBeBytes (beBytes 4 (4 + body.length)) = 4 + body.length :=
    ofBeBytes_beBytes_of_lt (by omega)
  rw [endFrame_beginFrame, frontendFrame]
  simp [hlength, hbody.run]

theorem frontendFrame_queryFrame {q : String} (hq : 0 ∉ asBytes q)
    (hsize : (queryFrame q).length < 2 ^ 31) :
    frontendFrame (queryFrame q) = some (.query (asBytes q)) := by
  rw [queryFrame, cstr, List.append_assoc] at hsize ⊢
  refine frontendFrame_endFrame (decodes_text hq).bind_pure ?_
  simp only [endFrame_beginFrame, List.length_cons, List.length_append] at hsize ⊢
  omega

theorem frontendFrame_parseFrame {name query : String} {paramTypes : List UInt32}
    (hname : 0 ∉ asBytes name) (hquery : 0 ∉ asBytes query)
    (hcount : paramTypes.length ≤ 65535)
    (hsize : (parseFrame name query paramTypes).length < 2 ^ 31) :
    frontendFrame (parseFrame name query paramTypes) =
      some (.parse (asBytes name) (asBytes query) (paramTypes.map UInt32.toNat)) := by
  have htypes := decodes_counted hcount
    (fun type _ => decodes_int32 (UInt32.toNat_lt type)) (k := fun types =>
      pure (FrontendMessage.parse (asBytes name) (asBytes query) types)) (Decodes.pure _)
  have hbody := (decodes_text hname).bind (k := fun name => do
    let query ← text
    let n ← int16
    let types ← readMany int32 n
    pure (FrontendMessage.parse name query types)) ((decodes_text hquery).bind htypes)
  simp only [parseFrame, cstr, List.append_assoc, List.append_nil] at hsize hbody ⊢
  refine frontendFrame_endFrame hbody ?_
  simp only [endFrame_beginFrame, List.length_cons, List.length_append] at hsize ⊢
  omega

theorem frontendFrame_executeFrame {portal : String} {maxRows : Int64}
    (hportal : 0 ∉ asBytes portal)
    (hsize : (executeFrame portal maxRows).length < 2 ^ 31) :
    frontendFrame (executeFrame portal maxRows) =
      some (.execute (asBytes portal) (clampRows maxRows)) := by
  have hrows : clampRows maxRows < 2 ^ 32 := by
    simp only [clampRows]
    omega
  have hbody := (decodes_text hportal).bind (k := fun portal => do
    let maxRows ← int32
    pure (FrontendMessage.execute portal maxRows)) (decodes_int32 hrows).bind_pure
  simp only [executeFrame, cstr, List.append_assoc] at hsize hbody ⊢
  refine frontendFrame_endFrame hbody ?_
  simp only [endFrame_beginFrame, List.length_cons, List.length_append] at hsize ⊢
  omega

theorem frontendFrame_closeFrame {kind : UInt8} {name : String}
    (hname : 0 ∉ asBytes name) (hsize : (closeFrame kind name).length < 2 ^ 31) :
    frontendFrame (closeFrame kind name) = some (.close kind (asBytes name)) := by
  have hbody := (decodes_byte1 kind).bind (k := fun kind => do
    let name ← text
    pure (FrontendMessage.close kind name)) (decodes_text hname).bind_pure
  simp only [closeFrame, cstr, List.append_assoc] at hsize hbody ⊢
  refine frontendFrame_endFrame hbody ?_
  simp only [endFrame_beginFrame, List.length_cons, List.length_append] at hsize ⊢
  omega

theorem frontendFrame_bindFrame {portal statement : String}
    {resultFormats : List UInt16} {params : List BindParam}
    (hportal : 0 ∉ asBytes portal) (hstatement : 0 ∉ asBytes statement)
    (hformats : resultFormats.length ≤ 65535) (hparams : params.length ≤ 65535)
    (hsize : (bindFrame portal statement resultFormats params).length < 2 ^ 31) :
    frontendFrame (bindFrame portal statement resultFormats params) =
      some (.bind (asBytes portal) (asBytes statement) [] (params.map BindParam.value)
        (resultFormats.map UInt16.toNat)) := by
  have hvalues : ∀ param ∈ params, ∀ b, param.value = some b → b.length < 2 ^ 32 - 1 := by
    intro param hparam b hb
    have hle := (List.sublist_flatten_of_mem
      (List.mem_map_of_mem (f := paramBytes) hparam)).length_le
    rw [← List.flatMap_def] at hle
    simp only [bindFrame, cstr, List.append_assoc, endFrame_beginFrame, List.length_cons,
      List.length_append] at hsize
    simp only [paramBytes, hb, List.length_append] at hle
    omega
  have hresults := decodes_counted hformats
    (fun code _ => decodes_int16 (Nat.le_of_lt_succ (UInt16.toNat_lt code)))
    (k := fun resultFormats => pure (FrontendMessage.bind (asBytes portal)
      (asBytes statement) [] (params.map BindParam.value) resultFormats)) (Decodes.pure _)
  have hcounted := decodes_counted hparams
    (fun param hparam => decodes_nullable (hvalues param hparam)) (k := fun params => do
      let nrf ← int16
      let resultFormats ← readMany int16 nrf
      pure (FrontendMessage.bind (asBytes portal) (asBytes statement) [] params
        resultFormats)) hresults
  have hbody := (decodes_text hportal).bind (k := fun portal => do
    let statement ← text
    let nf ← int16
    let formats ← readMany int16 nf
    let np ← int16
    let params ← readMany nullable np
    let nrf ← int16
    let resultFormats ← readMany int16 nrf
    pure (FrontendMessage.bind portal statement formats params resultFormats))
    ((decodes_text hstatement).bind ((decodes_int16 (Nat.zero_le _)).bind
      ((Decodes.pure []).bind hcounted)))
  simp only [bindFrame, cstr, List.append_assoc, List.nil_append, List.append_nil]
    at hsize hbody ⊢
  refine frontendFrame_endFrame hbody ?_
  simp only [endFrame_beginFrame, List.length_cons, List.length_append] at hsize ⊢
  omega

end Pgr.Frontend
