import Pgr.Core.FixedWidth

/-!
# Capture messages as the extension encodes them

`capture.c` assembles one message at a time in a static buffer of one MiB, by
many small appends and a sticky overflow flag.  The definitions here follow the
file; the layout theorem at the end says what a whole call hands over: exactly
the complete message, or nothing when the message does not fit.
-/

namespace Pgr.CaptureEncoder

open Pgr.FixedWidth

/-- `sizeof(CaptureBuffer)`. -/
def captureBufferSize : ℕ := 1024 * 1024

def msgTypeLsn : UInt8 := 1
def msgTypeConnect : UInt8 := 2
def msgTypeDisconnect : UInt8 := 3
def msgTypeSimpleQuery : UInt8 := 4
def msgTypeParse : UInt8 := 5
def msgTypeBind : UInt8 := 6
def msgTypeExecute : UInt8 := 7
def msgTypeSync : UInt8 := 8
def msgTypeTxEnd : UInt8 := 9
def msgTypeClose : UInt8 := 10

/-- A C string: the bytes in front of the terminating NUL.  Postgres allocates less
than one GiB at a time. -/
structure CString where
  bytes : List UInt8
  nul_free : 0 ∉ bytes
  length_lt : bytes.length < 2 ^ 30

/-- The empty C string, which stands in for a null pointer. -/
def CString.empty : CString := ⟨[], by simp, by simp⟩

/-- `CaptureBuffer` up to `CaptureBufferPos`, with `CaptureOverflow`. -/
structure CaptureBuffer where
  bytes : List UInt8
  overflow : Bool
  length_le : bytes.length ≤ captureBufferSize

def CaptureBuffer.empty : CaptureBuffer := ⟨[], false, by simp⟩

/-- `MyClientId` and `GetCurrentTimestamp()` when a message is begun. -/
structure Stamp where
  clientId : UInt32
  timestamp : UInt64

def capRaw (data : List UInt8) (buffer : CaptureBuffer) : CaptureBuffer :=
  if hfit : buffer.overflow = false ∧
      buffer.bytes.length + data.length ≤ captureBufferSize then
    ⟨buffer.bytes ++ data, buffer.overflow, by simpa using hfit.2⟩
  else
    { buffer with overflow := true }

def capU8 (value : UInt8) : CaptureBuffer → CaptureBuffer :=
  capRaw (leBytes 1 value.toNat)

def capU16 (value : UInt16) : CaptureBuffer → CaptureBuffer :=
  capRaw (leBytes 2 value.toNat)

def capU32 (value : UInt32) : CaptureBuffer → CaptureBuffer :=
  capRaw (leBytes 4 value.toNat)

def capU64 (value : UInt64) : CaptureBuffer → CaptureBuffer :=
  capRaw (leBytes 8 value.toNat)

/-- The length is passed as a `uint32_t`, which holds that of every C string. -/
def capBytes (data : List UInt8) (buffer : CaptureBuffer) : CaptureBuffer :=
  buffer |> capU32 (UInt32.ofNat data.length) |> capRaw data

def capStr (str : CString) : CaptureBuffer → CaptureBuffer :=
  capBytes str.bytes

def capBegin (stamp : Stamp) (type : UInt8) (_ : CaptureBuffer) : CaptureBuffer :=
  CaptureBuffer.empty |> capU8 type |> capU32 stamp.clientId |> capU64 stamp.timestamp

/-- What `cap_end` hands to `channel_push` or `txbuf_add`, if anything; the
buffer is empty afterwards. -/
def capEnd (buffer : CaptureBuffer) : Option (List UInt8) × CaptureBuffer :=
  (if buffer.overflow then none
    else if 0 < buffer.bytes.length then some buffer.bytes else none,
    CaptureBuffer.empty)

/-- `ParamExternData` as the encoder sees it: the type, and the text its output
function returns unless the value is null. -/
structure ParamExternData where
  ptype : UInt32
  value : Option CString

/-- One call of a `capture_*` function with its arguments.  Pointers that may be
null are options; a count and the array it counts are a function on `Fin`. -/
inductive CaptureCall where
  | lsn (insertPtr : UInt64)
  | connect (session : CString)
  | disconnect
  | simpleQuery (query : CString)
  | parse (stmtName : Option CString) (query : CString) (n : ℕ)
      (types : Option (Fin n → UInt32))
  | bind (portal stmt : Option CString) (nrf : ℕ) (rf : Fin nrf → Int16)
      (np : ℕ) (params : Option (Fin np → ParamExternData))
  | execute (portal : Option CString) (maxRows : Int64)
  | sync
  | close (closeType : UInt32) (target : Option CString)

/-- `capture_sync_lsn` pushes the buffer itself, without `cap_end`. -/
def captureSyncLsn (stamp : Stamp) (insertPtr : UInt64) (buffer : CaptureBuffer) :
    Option (List UInt8) × CaptureBuffer :=
  let buffer := buffer |> capBegin stamp msgTypeLsn |> capU64 insertPtr
  (some buffer.bytes, CaptureBuffer.empty)

/-- The Connect message of `capture_go_live`. -/
def captureConnect (stamp : Stamp) (session : CString) (buffer : CaptureBuffer) :
    Option (List UInt8) × CaptureBuffer :=
  buffer |> capBegin stamp msgTypeConnect |> capStr session |> capEnd

def captureDisconnect (stamp : Stamp) (buffer : CaptureBuffer) :
    Option (List UInt8) × CaptureBuffer :=
  buffer |> capBegin stamp msgTypeDisconnect |> capEnd

def captureSimpleQuery (stamp : Stamp) (query : CString) (buffer : CaptureBuffer) :
    Option (List UInt8) × CaptureBuffer :=
  buffer |> capBegin stamp msgTypeSimpleQuery |> capStr query |> capEnd

/-- `types ? types[i] : 0` for every `i < n`. -/
def paramTypes (n : ℕ) (types : Option (Fin n → UInt32)) : List UInt32 :=
  List.ofFn fun i => match types with
    | some types => types i
    | none => 0

def captureParse (stamp : Stamp) (stmtName : Option CString) (query : CString)
    (n : ℕ) (types : Option (Fin n → UInt32)) (buffer : CaptureBuffer) :
    Option (List UInt8) × CaptureBuffer :=
  let buffer := buffer |> capBegin stamp msgTypeParse
    |> capStr (stmtName.getD CString.empty) |> capStr query |> capU16 (UInt16.ofNat n)
  (paramTypes n types).foldl (fun buffer type => capU32 type buffer) buffer |> capEnd

/-- The parameters of a Bind: a null `params` makes the count zero. -/
def bindParams (np : ℕ) (params : Option (Fin np → ParamExternData)) :
    List ParamExternData :=
  match params with
  | some params => List.ofFn params
  | none => []

def capParam (param : ParamExternData) (buffer : CaptureBuffer) : CaptureBuffer :=
  let buffer := capU32 param.ptype buffer
  match param.value with
  | none => capU32 (UInt32.ofNat (2 ^ 32 - 1)) buffer
  | some text => capBytes text.bytes buffer

def captureBind (stamp : Stamp) (portal stmt : Option CString)
    (nrf : ℕ) (rf : Fin nrf → Int16) (np : ℕ)
    (params : Option (Fin np → ParamExternData)) (buffer : CaptureBuffer) :
    Option (List UInt8) × CaptureBuffer :=
  let buffer := buffer |> capBegin stamp msgTypeBind
    |> capStr (portal.getD CString.empty) |> capStr (stmt.getD CString.empty)
    |> capU16 (UInt16.ofNat nrf)
  let buffer := (List.ofFn rf).foldl (fun buffer code => capU16 code.toUInt16 buffer) buffer
  let buffer := capU16 (UInt16.ofNat (bindParams np params).length) buffer
  (bindParams np params).foldl (fun buffer param => capParam param buffer) buffer |> capEnd

def captureExecute (stamp : Stamp) (portal : Option CString) (maxRows : Int64)
    (buffer : CaptureBuffer) : Option (List UInt8) × CaptureBuffer :=
  buffer |> capBegin stamp msgTypeExecute |> capStr (portal.getD CString.empty)
    |> capU64 maxRows.toUInt64 |> capEnd

def captureSync (stamp : Stamp) (buffer : CaptureBuffer) :
    Option (List UInt8) × CaptureBuffer :=
  buffer |> capBegin stamp msgTypeSync |> capEnd

/-- `capture_tx_end` returns before it begins a message. -/
def captureTxEnd (_committed : Bool) (buffer : CaptureBuffer) :
    Option (List UInt8) × CaptureBuffer :=
  (none, buffer)

def captureClose (stamp : Stamp) (closeType : UInt32) (target : Option CString)
    (buffer : CaptureBuffer) : Option (List UInt8) × CaptureBuffer :=
  buffer |> capBegin stamp msgTypeClose |> capU8 closeType.toUInt8
    |> capStr (target.getD CString.empty) |> capEnd

def encodeCall (stamp : Stamp) (call : CaptureCall) (buffer : CaptureBuffer) :
    Option (List UInt8) × CaptureBuffer :=
  match call with
  | .lsn insertPtr => captureSyncLsn stamp insertPtr buffer
  | .connect session => captureConnect stamp session buffer
  | .disconnect => captureDisconnect stamp buffer
  | .simpleQuery query => captureSimpleQuery stamp query buffer
  | .parse stmtName query n types => captureParse stamp stmtName query n types buffer
  | .bind portal stmt nrf rf np params =>
      captureBind stamp portal stmt nrf rf np params buffer
  | .execute portal maxRows => captureExecute stamp portal maxRows buffer
  | .sync => captureSync stamp buffer
  | .close closeType target => captureClose stamp closeType target buffer

/-! ## Appends compose -/

/-- `write` appends `bytes` to the message under construction, or marks the
message as overflowed when they no longer fit. -/
structure Appends (write : CaptureBuffer → CaptureBuffer) (bytes : List UInt8) :
    Prop where
  fits_iff : ∀ buffer, (write buffer).overflow = false ↔
    buffer.overflow = false ∧ buffer.bytes.length + bytes.length ≤ captureBufferSize
  bytes_eq : ∀ buffer, (write buffer).overflow = false →
    (write buffer).bytes = buffer.bytes ++ bytes

theorem appends_id : Appends id [] where
  fits_iff buffer := by simp [buffer.length_le]
  bytes_eq buffer _ := by simp

theorem appends_capRaw (data : List UInt8) : Appends (capRaw data) data where
  fits_iff buffer := by
    unfold capRaw
    split
    next hfit => simp [hfit.1, hfit.2]
    next hfit => simpa using hfit
  bytes_eq buffer hwritten := by
    unfold capRaw at hwritten ⊢
    split
    next hfit => rfl
    next hfit => simp [hfit] at hwritten

/-- Consecutive appends are one append of the concatenation: the flag is sticky,
so a later field never fits after an earlier one was refused. -/
theorem Appends.andThen {first second : CaptureBuffer → CaptureBuffer}
    {firstBytes secondBytes : List UInt8} (hfirst : Appends first firstBytes)
    (hsecond : Appends second secondBytes) :
    Appends (fun buffer => second (first buffer)) (firstBytes ++ secondBytes) where
  fits_iff buffer := by
    rw [hsecond.fits_iff, List.length_append]
    constructor
    · rintro ⟨hwritten, hlength⟩
      rw [hfirst.bytes_eq buffer hwritten, List.length_append] at hlength
      exact ⟨((hfirst.fits_iff buffer).mp hwritten).1, by omega⟩
    · rintro ⟨hempty, hlength⟩
      have hwritten := (hfirst.fits_iff buffer).mpr ⟨hempty, by omega⟩
      rw [hfirst.bytes_eq buffer hwritten, List.length_append]
      exact ⟨hwritten, by omega⟩
  bytes_eq buffer hwritten := by
    have hfits := ((hsecond.fits_iff (first buffer)).mp hwritten).1
    rw [hsecond.bytes_eq _ hwritten, hfirst.bytes_eq _ hfits, List.append_assoc]

theorem Appends.foldl {A : Type} {write : A → CaptureBuffer → CaptureBuffer}
    {layout : A → List UInt8} (hwrite : ∀ item, Appends (write item) (layout item))
    (items : List A) :
    Appends (fun buffer => items.foldl (fun buffer item => write item buffer) buffer)
      (items.flatMap layout) := by
  induction items with
  | nil => exact appends_id
  | cons item items ih =>
      rw [List.flatMap_cons]
      exact (hwrite item).andThen ih

/-! ## The layout of a message -/

/-- A counted byte string. -/
def bytesLayout (data : List UInt8) : List UInt8 :=
  leBytes 4 (data.length % 2 ^ 32) ++ data

def paramLayout (param : ParamExternData) : List UInt8 :=
  leBytes 4 param.ptype.toNat ++
    match param.value with
    | none => leBytes 4 (2 ^ 32 - 1)
    | some text => bytesLayout text.bytes

def CaptureCall.type : CaptureCall → UInt8
  | .lsn _ => msgTypeLsn
  | .connect _ => msgTypeConnect
  | .disconnect => msgTypeDisconnect
  | .simpleQuery _ => msgTypeSimpleQuery
  | .parse .. => msgTypeParse
  | .bind .. => msgTypeBind
  | .execute .. => msgTypeExecute
  | .sync => msgTypeSync
  | .close .. => msgTypeClose

/-- The fields behind the type, the client id and the timestamp. -/
def CaptureCall.body : CaptureCall → List UInt8
  | .lsn insertPtr => leBytes 8 insertPtr.toNat
  | .connect session => bytesLayout session.bytes
  | .disconnect => []
  | .simpleQuery query => bytesLayout query.bytes
  | .parse stmtName query n types =>
      bytesLayout (stmtName.getD CString.empty).bytes ++ bytesLayout query.bytes ++
        leBytes 2 (n % 2 ^ 16) ++
        (paramTypes n types).flatMap fun type => leBytes 4 type.toNat
  | .bind portal stmt nrf rf np params =>
      bytesLayout (portal.getD CString.empty).bytes ++
        bytesLayout (stmt.getD CString.empty).bytes ++ leBytes 2 (nrf % 2 ^ 16) ++
        ((List.ofFn rf).flatMap fun code => leBytes 2 code.toUInt16.toNat) ++
        leBytes 2 ((bindParams np params).length % 2 ^ 16) ++
        (bindParams np params).flatMap paramLayout
  | .execute portal maxRows =>
      bytesLayout (portal.getD CString.empty).bytes ++ leBytes 8 maxRows.toUInt64.toNat
  | .sync => []
  | .close closeType target =>
      leBytes 1 closeType.toUInt8.toNat ++ bytesLayout (target.getD CString.empty).bytes

/-- The type byte and the stamp that begin every message. -/
def headLayout (stamp : Stamp) (type : UInt8) : List UInt8 :=
  leBytes 1 type.toNat ++ leBytes 4 stamp.clientId.toNat ++
    leBytes 8 stamp.timestamp.toNat

def messageLayout (stamp : Stamp) (call : CaptureCall) : List UInt8 :=
  headLayout stamp call.type ++ call.body

theorem appends_capBytes (data : List UInt8) :
    Appends (capBytes data) (bytesLayout data) := by
  have hlength : (UInt32.ofNat data.length).toNat = data.length % 2 ^ 32 := by simp
  have happend := (appends_capRaw (leBytes 4 (UInt32.ofNat data.length).toNat)).andThen
    (appends_capRaw data)
  rw [hlength] at happend
  exact happend

theorem appends_capU16_ofNat (n : ℕ) :
    Appends (capU16 (UInt16.ofNat n)) (leBytes 2 (n % 2 ^ 16)) := by
  have hn : (UInt16.ofNat n).toNat = n % 2 ^ 16 := by simp
  rw [← hn]
  exact appends_capRaw _

theorem appends_capParam (param : ParamExternData) :
    Appends (capParam param) (paramLayout param) := by
  rcases param with ⟨ptype, _ | text⟩
  · exact (appends_capRaw (leBytes 4 ptype.toNat)).andThen (appends_capRaw _)
  · exact (appends_capRaw (leBytes 4 ptype.toNat)).andThen (appends_capBytes text.bytes)

/-- The head always fits, so a begun message holds exactly it. -/
theorem capBegin_eq (stamp : Stamp) (type : UInt8) (buffer : CaptureBuffer) :
    (capBegin stamp type buffer).overflow = false ∧
      (capBegin stamp type buffer).bytes = headLayout stamp type := by
  have hhead : Appends (fun buffer => buffer |> capU8 type |> capU32 stamp.clientId
      |> capU64 stamp.timestamp) (headLayout stamp type) :=
    ((appends_capRaw _).andThen (appends_capRaw _)).andThen (appends_capRaw _)
  have hfits : (capBegin stamp type buffer).overflow = false :=
    (hhead.fits_iff CaptureBuffer.empty).mpr
      ⟨rfl, by simp [CaptureBuffer.empty, headLayout, captureBufferSize]⟩
  exact ⟨hfits, hhead.bytes_eq _ hfits⟩

/-- A call that writes `bytes` between `cap_begin` and `cap_end` hands over the
head and these bytes when the whole message fits the buffer, else nothing. -/
theorem capEnd_capBegin {write : CaptureBuffer → CaptureBuffer} {bytes : List UInt8}
    (hwrite : Appends write bytes) (stamp : Stamp) (type : UInt8)
    (buffer : CaptureBuffer) :
    capEnd (write (capBegin stamp type buffer)) =
      (if (headLayout stamp type ++ bytes).length ≤ captureBufferSize then
        some (headLayout stamp type ++ bytes) else none, CaptureBuffer.empty) := by
  obtain ⟨hbegin, hbytes⟩ := capBegin_eq stamp type buffer
  have hfits := hwrite.fits_iff (capBegin stamp type buffer)
  rw [hbytes, ← List.length_append] at hfits
  by_cases hlength : (headLayout stamp type ++ bytes).length ≤ captureBufferSize
  · have hwritten := hfits.mpr ⟨hbegin, hlength⟩
    have hpositive : 0 < (headLayout stamp type ++ bytes).length := by
      simp [headLayout]
    rw [capEnd, hwritten, hwrite.bytes_eq _ hwritten, hbytes, if_pos hpositive,
      if_pos hlength, if_neg Bool.false_ne_true]
  · have hrefused : (write (capBegin stamp type buffer)).overflow = true := by
      rw [← Bool.not_eq_false]
      exact fun hwritten => hlength (hfits.mp hwritten).2
    rw [capEnd, hrefused, if_pos rfl, if_neg hlength]

/-- The LSN message is pushed without `cap_end`, and always fits. -/
theorem captureSyncLsn_eq (stamp : Stamp) (insertPtr : UInt64) (buffer : CaptureBuffer) :
    captureSyncLsn stamp insertPtr buffer =
      (some (messageLayout stamp (.lsn insertPtr)), CaptureBuffer.empty) := by
  obtain ⟨hbegin, hbytes⟩ := capBegin_eq stamp msgTypeLsn buffer
  have happend := appends_capRaw (leBytes 8 insertPtr.toNat)
  have hwritten := (happend.fits_iff _).mpr
    ⟨hbegin, by rw [hbytes]; simp [headLayout, captureBufferSize]⟩
  have hmessage := happend.bytes_eq _ hwritten
  rw [hbytes] at hmessage
  exact congrArg (fun bytes => (some bytes, CaptureBuffer.empty)) hmessage

/-- Each call hands over exactly its own complete message, or nothing when the
message is larger than the buffer; what the buffer held before is immaterial. -/
theorem encodeCall_eq (stamp : Stamp) (call : CaptureCall) (buffer : CaptureBuffer) :
    encodeCall stamp call buffer =
      (if (messageLayout stamp call).length ≤ captureBufferSize then
        some (messageLayout stamp call) else none, CaptureBuffer.empty) := by
  cases call with
  | lsn insertPtr =>
      have hfit : (messageLayout stamp (.lsn insertPtr)).length ≤ captureBufferSize := by
        simp [messageLayout, headLayout, CaptureCall.body, captureBufferSize]
      rw [if_pos hfit]
      exact captureSyncLsn_eq stamp insertPtr buffer
  | connect session => exact capEnd_capBegin (appends_capBytes _) stamp _ buffer
  | disconnect => exact capEnd_capBegin appends_id stamp _ buffer
  | simpleQuery query => exact capEnd_capBegin (appends_capBytes _) stamp _ buffer
  | parse stmtName query n types =>
      exact capEnd_capBegin ((((appends_capBytes _).andThen (appends_capBytes _)).andThen
        (appends_capU16_ofNat n)).andThen (Appends.foldl (fun type => appends_capRaw _) _))
        stamp _ buffer
  | bind portal stmt nrf rf np params =>
      exact capEnd_capBegin ((((((appends_capBytes _).andThen (appends_capBytes _)).andThen
        (appends_capU16_ofNat nrf)).andThen
        (Appends.foldl (fun code => appends_capRaw _) _)).andThen
        (appends_capU16_ofNat _)).andThen (Appends.foldl appends_capParam _)) stamp _ buffer
  | execute portal maxRows =>
      exact capEnd_capBegin ((appends_capBytes _).andThen (appends_capRaw _)) stamp _ buffer
  | sync => exact capEnd_capBegin appends_id stamp _ buffer
  | close closeType target =>
      exact capEnd_capBegin ((appends_capRaw _).andThen (appends_capBytes _)) stamp _ buffer

/-- What a call hands over, when it does, is its own message. -/
theorem encodeCall_fst_eq_some_iff {stamp : Stamp} {call : CaptureCall}
    {buffer : CaptureBuffer} {bytes : List UInt8} :
    (encodeCall stamp call buffer).1 = some bytes ↔
      (messageLayout stamp call).length ≤ captureBufferSize ∧
        messageLayout stamp call = bytes := by
  rw [encodeCall_eq, Option.ite_none_right_eq_some, Option.some.injEq]

end Pgr.CaptureEncoder
