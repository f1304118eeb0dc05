import Pgr.Extension.CaptureEncoder
import Pgr.Extension.RingInvariant
import Pgr.Extension.Trace

/-!
# Whole messages

The static state of `capture.c` over any sequence of calls, with the buffer of a
pending transaction as bytes, and the three rings that backends push into.  A call
leaves the buffer in any state behind when the output function of a type raises an
error; the next call begins anew.  No message is longer than the buffer of the
worker, so `ring_pop` always finds room for it.
-/

namespace Pgr.WholeMessages

open Pgr.FixedWidth Pgr.CaptureEncoder Pgr.Ring Pgr.RingInvariant Pgr.Transition Pgr.Trace

/-- `TX_BUF_LIMIT`. -/
def txBufLimit : ℕ := 64 * 1024 * 1024

/-- `BUFFER_SIZE` of the worker. -/
def bufferSize : UInt32 := 1024 * 1024

/-! ## The encoder of a backend -/

structure Encoder where
  buffer : CaptureBuffer
  captureLive : Bool
  txBuf : List UInt8
  txBufInit : Bool
  txBufOverflow : Bool
  /-- A history variable: what `TxBuf` has taken since it was reset. -/
  kept : List (List UInt8)

def Encoder.start : Encoder :=
  ⟨CaptureBuffer.empty, false, [], false, false, []⟩

/-- What a call hands to `channel_push` and to `txbuf_add`. -/
structure Handed where
  pushed : List (List UInt8)
  added : Option (List UInt8)

def frame (message : List UInt8) : List UInt8 :=
  leBytes 4 message.length ++ message

def initTxBuf (e : Encoder) : Encoder :=
  if e.txBufInit then e else { e with txBuf := [], txBufInit := true }

def txbufAdd (data : List UInt8) (e : Encoder) : Encoder :=
  let e := initTxBuf e
  if e.txBufOverflow then e
  else if e.txBuf.length + data.length + 4 > txBufLimit then { e with txBufOverflow := true }
  else { e with txBuf := e.txBuf ++ frame data, kept := e.kept ++ [data] }

/-- `large` is whether the memory of `TxBuf` has grown beyond 16 MiB. -/
def captureTxbufReset (large : Bool) (e : Encoder) : Encoder :=
  let e := { e with txBufOverflow := false, kept := [] }
  if !e.txBufInit then e
  else if large then { e with txBufInit := false }
  else { e with txBuf := [] }

/-- The end of `cap_end`, for the message it has found in the buffer. -/
def hand (message : Option (List UInt8)) (e : Encoder) : Handed × Encoder :=
  match message with
  | none => (⟨[], none⟩, e)
  | some bytes =>
      if e.captureLive then (⟨[bytes], none⟩, e) else (⟨[], some bytes⟩, txbufAdd bytes e)

/-- The loop of `capture_go_live` over the pending messages; it takes no more rounds
than there are bytes. -/
def pendingMessages : (rounds : ℕ) → List UInt8 → List (List UInt8)
  | 0, _ => []
  | rounds + 1, bytes =>
      if bytes = [] then []
      else
        let length := ofLeBytes (bytes.take 4)
        let rest := bytes.drop 4
        rest.take length :: pendingMessages rounds (rest.drop length)

def captureGoLive (large : Bool) (stamp : Stamp) (session : CString) (e : Encoder) :
    Handed × Encoder :=
  let connect := captureConnect stamp session e.buffer
  let first := hand connect.1 { e with captureLive := true, buffer := connect.2 }
  let e := first.2
  let pending :=
    if e.txBufInit && !e.txBufOverflow then pendingMessages e.txBuf.length e.txBuf else []
  (⟨first.1.pushed ++ pending, none⟩, captureTxbufReset large e)

/-- `capture_bind` up to the output function of the parameter behind `done` others,
which raises an error. -/
def abandonedBind (stamp : Stamp) (portal stmt : Option CString) (nrf : ℕ)
    (rf : Fin nrf → Int16) (np : ℕ) (params : Option (Fin np → ParamExternData)) (done : ℕ)
    (buffer : CaptureBuffer) : CaptureBuffer :=
  let buffer := buffer |> capBegin stamp msgTypeBind
    |> capStr (portal.getD CString.empty) |> capStr (stmt.getD CString.empty)
    |> capU16 (UInt16.ofNat nrf)
  let buffer := (List.ofFn rf).foldl (fun buffer code => capU16 code.toUInt16 buffer) buffer
  let buffer := capU16 (UInt16.ofNat (bindParams np params).length) buffer
  let buffer := ((bindParams np params).take done).foldl (fun buffer param => capParam param buffer)
    buffer
  match (bindParams np params)[done]? with
  | some param => capU32 param.ptype buffer
  | none => buffer

/-- The calls into `capture.c`, and the reset that `capture_gate` makes for a new
generation. -/
inductive Op where
  | call (stamp : Stamp) (call : CaptureCall) (large : Bool)
  | abandonedBind (stamp : Stamp) (portal stmt : Option CString) (nrf : ℕ)
      (rf : Fin nrf → Int16) (np : ℕ) (params : Option (Fin np → ParamExternData)) (done : ℕ)
  | txEnd (committed : Bool)
  | txbufReset (large : Bool)
  | newGeneration (large : Bool)

def perform (op : Op) (e : Encoder) : Handed × Encoder :=
  match op with
  | .call stamp (.lsn insertPtr) _ =>
      let lsn := captureSyncLsn stamp insertPtr e.buffer
      (⟨lsn.1.toList, none⟩, { e with buffer := lsn.2 })
  | .call stamp (.connect session) large => captureGoLive large stamp session e
  | .call stamp call _ =>
      let message := encodeCall stamp call e.buffer
      hand message.1 { e with buffer := message.2 }
  | .abandonedBind stamp portal stmt nrf rf np params done =>
      (⟨[], none⟩,
        { e with buffer := abandonedBind stamp portal stmt nrf rf np params done e.buffer })
  | .txEnd committed =>
      let message := captureTxEnd committed e.buffer
      hand message.1 { e with buffer := message.2 }
  | .txbufReset large => (⟨[], none⟩, captureTxbufReset large e)
  | .newGeneration large => (⟨[], none⟩, { captureTxbufReset large e with captureLive := false })

/-! ## The rings -/

inductive Kind where
  | capture
  | trace
  | timing
  deriving DecidableEq

/-- What `ring_pop` returns. -/
inductive RingResult where
  | ok
  | notReady
  | overflow
  deriving DecidableEq

/-- The two tests of `ring_pop`. -/
def ringPopResult (bufSize : UInt32) (r : MpscRing) : RingResult :=
  let h := r.hdrs (slotOf r.htail)
  if !h.ready then .notReady else if h.len > bufSize then .overflow else .ok

/-- `channel_push` takes a `size_t` and `ring_push` a `uint32`. -/
def toMessage (bytes : List UInt8) : Message where
  bytes := bytes.take (bytes.length % 2 ^ 32)
  length_lt := (List.length_take_le _ _).trans_lt (Nat.mod_lt _ (by decide))

structure System (ι : Type) where
  encoders : ι → Encoder
  /-- What the last call of a backend still has to push. -/
  unpushed : ι → List (List UInt8)
  rings : Kind → Ring.State ι

def System.start (ι : Type) (data : Kind → ℕ → UInt8) : System ι where
  encoders := fun _ => Encoder.start
  unpushed := fun _ => []
  rings := fun kind => State.init (data kind)

/-- The moves of backends and workers; all of a push but its beginning is a move of
the ring. -/
inductive Move (ι : Type) where
  | capture (i : ι) (op : Op)
  | push (i : ι)
  | trace (i : ι) (backend : Backend) (durationUs : UInt32) (eventType : UInt8)
  | timing (i : ι) (backend : Backend) (type : UInt8) (ts : UInt64)
  | ring (kind : Kind) (label : Label ι)

variable {ι : Type} [DecidableEq ι]

def System.setRing (s : System ι) (kind : Kind) (ring : Ring.State ι) : System ι :=
  { s with rings := Function.update s.rings kind ring }

def System.pushTo (s : System ι) (kind : Kind) (i : ι) (bytes : List UInt8) :
    Option (System ι) :=
  (Ring.step bufferSize (s.rings kind) (.reserve i (toMessage bytes))).map (s.setRing kind)

def System.step (s : System ι) : Move ι → Option (System ι)
  | .capture i op =>
      if s.unpushed i = [] then
        let performed := perform op (s.encoders i)
        some { s with
          encoders := Function.update s.encoders i performed.2
          unpushed := Function.update s.unpushed i performed.1.pushed }
      else none
  | .push i =>
      match s.unpushed i with
      | [] => none
      | bytes :: rest =>
          { s with unpushed := Function.update s.unpushed i rest }.pushTo .capture i bytes
  | .trace i backend durationUs eventType =>
      s.pushTo .trace i (traceRecord backend durationUs eventType)
  | .timing i backend type ts => s.pushTo .timing i (timingRecord backend type ts)
  | .ring _ (.reserve _ _) => none
  | .ring kind label => (Ring.step bufferSize (s.rings kind) label).map (s.setRing kind)

/-! ## What a call hands over -/

/-- The complete encoding of a call. -/
def Complete (bytes : List UInt8) : Prop :=
  (∃ stamp call, bytes = messageLayout stamp call) ∧ bytes.length ≤ captureBufferSize

/-- The message of a call, unless it is too large. -/
def ownMessage (stamp : Stamp) (call : CaptureCall) : Option (List UInt8) :=
  if (messageLayout stamp call).length ≤ captureBufferSize then some (messageLayout stamp call)
  else none

/-- What a call is to hand over: its own message, and a backend that goes live the
messages of its pending transaction as well. -/
def expected (op : Op) (e : Encoder) : Handed :=
  match op with
  | .call stamp (.lsn insertPtr) _ => ⟨[messageLayout stamp (.lsn insertPtr)], none⟩
  | .call stamp (.connect session) _ =>
      ⟨(ownMessage stamp (.connect session)).toList ++ if e.txBufOverflow then [] else e.kept,
        none⟩
  | .call stamp call _ =>
      if e.captureLive then ⟨(ownMessage stamp call).toList, none⟩
      else ⟨[], ownMessage stamp call⟩
  | .abandonedBind .. | .txEnd _ | .txbufReset _ | .newGeneration _ => ⟨[], none⟩

structure Inv (e : Encoder) : Prop where
  txBuf : e.txBufInit = true → e.txBuf = e.kept.flatMap frame
  uninit : e.txBufInit = false → e.kept = [] ∧ e.txBufOverflow = false
  complete : ∀ message ∈ e.kept, Complete message

/-! ## The pending messages -/

theorem drop_frame (message rest : List UInt8) :
    (frame message ++ rest).drop 4 = message ++ rest := by
  rw [frame, List.append_assoc]
  exact List.drop_left' (length_leBytes 4 _)

theorem ofLeBytes_take_frame {message : List UInt8} (hlength : message.length < 2 ^ 32)
    (rest : List UInt8) : ofLeBytes ((frame message ++ rest).take 4) = message.length := by
  have htake : (frame message ++ rest).take 4 = leBytes 4 message.length := by
    rw [frame, List.append_assoc]
    exact List.take_left' (length_leBytes 4 _)
  rw [htake]
  exact ofLeBytes_leBytes_of_lt hlength

theorem frame_ne_nil (message rest : List UInt8) : frame message ++ rest ≠ [] := by
  intro hnil
  have hlength := congrArg List.length hnil
  simp [frame] at hlength

/-- The loop of `capture_go_live` takes the messages that `txbuf_add` has framed. -/
theorem pendingMessages_frames {messages : List (List UInt8)}
    (hlength : ∀ message ∈ messages, message.length < 2 ^ 32) {rounds : ℕ}
    (hrounds : messages.length ≤ rounds) :
    pendingMessages rounds (messages.flatMap frame) = messages := by
  induction messages generalizing rounds with
  | nil => cases rounds <;> simp [pendingMessages]
  | cons message messages ih =>
      cases rounds with
      | zero => simp at hrounds
      | succ rounds =>
          have hmessage := hlength message List.mem_cons_self
          have htail := ih (fun other hother => hlength other (List.mem_cons_of_mem _ hother))
            (Nat.le_of_succ_le_succ hrounds)
          rw [List.flatMap_cons, pendingMessages, if_neg (frame_ne_nil message _)]
          dsimp only
          rw [ofLeBytes_take_frame hmessage, drop_frame, List.take_left, List.drop_left, htail]

theorem length_le_flatMap_frame (messages : List (List UInt8)) :
    messages.length ≤ (messages.flatMap frame).length := by
  induction messages with
  | nil => simp
  | cons message messages ih =>
      rw [List.flatMap_cons, List.length_append, List.length_cons]
      have hframe : 4 ≤ (frame message).length := by simp [frame]
      omega

/-! ## One call -/

theorem Complete.length_lt {message : List UInt8} (hcomplete : Complete message) :
    message.length < 2 ^ 32 :=
  hcomplete.2.trans_lt (by decide)

theorem complete_ownMessage {stamp : Stamp} {call : CaptureCall} {message : List UInt8}
    (hmessage : ownMessage stamp call = some message) : Complete message := by
  rw [ownMessage, Option.ite_none_right_eq_some] at hmessage
  obtain ⟨hlength, heq⟩ := hmessage
  cases heq
  exact ⟨⟨stamp, call, rfl⟩, hlength⟩

theorem encodeCall_ownMessage (stamp : Stamp) (call : CaptureCall) (buffer : CaptureBuffer) :
    encodeCall stamp call buffer = (ownMessage stamp call, CaptureBuffer.empty) :=
  encodeCall_eq stamp call buffer

theorem inv_start : Inv Encoder.start where
  txBuf hinit := by cases hinit
  uninit _ := ⟨rfl, rfl⟩
  complete message hmessage := by cases hmessage

section Encoder

variable {e : Encoder}

/-- The buffer and the flag of a live backend are not in the invariant. -/
theorem Inv.congr {e' : Encoder} (hinv : Inv e) (htxBuf : e'.txBuf = e.txBuf)
    (hinit : e'.txBufInit = e.txBufInit) (hoverflow : e'.txBufOverflow = e.txBufOverflow)
    (hkept : e'.kept = e.kept) : Inv e' where
  txBuf := by
    rw [htxBuf, hinit, hkept]
    exact hinv.txBuf
  uninit := by
    rw [hinit, hkept, hoverflow]
    exact hinv.uninit
  complete := by
    rw [hkept]
    exact hinv.complete

theorem inv_initTxBuf (hinv : Inv e) :
    Inv (initTxBuf e) ∧ (initTxBuf e).txBufInit = true := by
  by_cases hinit : e.txBufInit = true
  · rw [initTxBuf, if_pos hinit]
    exact ⟨hinv, hinit⟩
  · obtain ⟨hkept, -⟩ := hinv.uninit (Bool.eq_false_of_not_eq_true hinit)
    rw [initTxBuf, if_neg hinit]
    refine ⟨⟨?_, ?_, ?_⟩, rfl⟩
    · intro _
      simp [hkept]
    · intro hfalse
      cases hfalse
    · exact hinv.complete

theorem Inv.txbufAdd {message : List UInt8} (hinv : Inv e) (hcomplete : Complete message) :
    Inv (txbufAdd message e) := by
  obtain ⟨hinv, hinit⟩ := inv_initTxBuf hinv
  rw [WholeMessages.txbufAdd]
  split_ifs with hoverflow hlimit
  · exact hinv
  · refine ⟨hinv.txBuf, ?_, hinv.complete⟩
    intro hfalse
    rw [hinit] at hfalse
    cases hfalse
  · refine ⟨?_, ?_, ?_⟩
    · intro _
      simp [hinv.txBuf hinit]
    · intro hfalse
      rw [hinit] at hfalse
      cases hfalse
    · intro other hother
      rcases List.mem_append.mp hother with hkept | hlast
      · exact hinv.complete other hkept
      · rw [List.mem_singleton.mp hlast]
        exact hcomplete

theorem inv_txbufReset (large : Bool) (e : Encoder) : Inv (captureTxbufReset large e) := by
  rw [captureTxbufReset]
  dsimp only
  split_ifs with hinit hlarge
  · refine ⟨?_, fun _ => ⟨rfl, rfl⟩, by simp⟩
    intro htrue
    rw [Bool.not_eq_true'] at hinit
    cases htrue.symm.trans hinit
  · exact ⟨by simp, fun _ => ⟨rfl, rfl⟩, by simp⟩
  · refine ⟨by simp, fun _ => ⟨rfl, rfl⟩, by simp⟩

/-- What a call hands over, and the encoder it leaves. -/
structure Spec (op : Op) (e : Encoder) : Prop where
  handed : (perform op e).1 = expected op e
  inv : Inv (perform op e).2
  pushed : ∀ message ∈ (perform op e).1.pushed, Complete message
  added : ∀ message, (perform op e).1.added = some message → Complete message

/-- A message that is handed over goes to the channel of a live backend, and to the
pending transaction of another. -/
theorem hand_eq (message : Option (List UInt8)) :
    (hand message e).1 =
      if e.captureLive then ⟨message.toList, none⟩ else ⟨[], message⟩ := by
  cases message with
  | none => split_ifs <;> rfl
  | some bytes =>
      rw [hand]
      split_ifs <;> rfl

theorem hand_live (hlive : e.captureLive = true) (message : Option (List UInt8)) :
    hand message e = (⟨message.toList, none⟩, e) := by
  cases message with
  | none => rfl
  | some bytes =>
      rw [hand, if_pos hlive]
      rfl

theorem Inv.hand {message : Option (List UInt8)} (hinv : Inv e)
    (hcomplete : ∀ bytes, message = some bytes → Complete bytes) :
    Inv (WholeMessages.hand message e).2 := by
  cases message with
  | none => exact hinv
  | some bytes =>
      rw [WholeMessages.hand]
      split_ifs
      · exact hinv
      · exact hinv.txbufAdd (hcomplete bytes rfl)

theorem spec_hand {op : Op} {message : Option (List UInt8)} {buffer : CaptureBuffer}
    (hinv : Inv e) (hcomplete : ∀ bytes, message = some bytes → Complete bytes)
    (hperform : perform op e = hand message { e with buffer := buffer })
    (hexpected : expected op e =
      if e.captureLive then ⟨message.toList, none⟩ else ⟨[], message⟩) : Spec op e := by
  have hhand := @hand_eq { e with buffer := buffer } message
  have hbuffer : Inv { e with buffer := buffer } := hinv.congr rfl rfl rfl rfl
  refine ⟨?_, ?_, ?_, ?_⟩
  · rw [hperform, hhand, hexpected]
  · rw [hperform]
    exact hbuffer.hand hcomplete
  · intro bytes hbytes
    rw [hperform, hhand] at hbytes
    split_ifs at hbytes
    · exact hcomplete bytes (Option.mem_toList.mp hbytes)
    · cases hbytes
  · intro bytes hbytes
    rw [hperform, hhand] at hbytes
    split_ifs at hbytes
    exact hcomplete bytes hbytes

/-- The messages of a pending transaction, in the order of their calls, unless it has
grown too large. -/
theorem pending_eq (hinv : Inv e) :
    (if e.txBufInit && !e.txBufOverflow then pendingMessages e.txBuf.length e.txBuf else []) =
      if e.txBufOverflow then [] else e.kept := by
  cases hoverflow : e.txBufOverflow with
  | true => simp
  | false =>
      cases hinit : e.txBufInit with
      | false => simp [(hinv.uninit hinit).1]
      | true =>
          have hmessages := pendingMessages_frames
            (fun message hmessage => (hinv.complete message hmessage).length_lt)
            (length_le_flatMap_frame e.kept)
          simpa [hinv.txBuf hinit] using hmessages

theorem spec_goLive (hinv : Inv e) (stamp : Stamp) (session : CString) (large : Bool) :
    Spec (.call stamp (.connect session) large) e := by
  have hconnect : captureConnect stamp session e.buffer =
      (ownMessage stamp (.connect session), CaptureBuffer.empty) :=
    encodeCall_ownMessage stamp (.connect session) e.buffer
  have hperform : perform (.call stamp (.connect session) large) e =
      (expected (.call stamp (.connect session) large) e,
        captureTxbufReset large { e with captureLive := true, buffer := CaptureBuffer.empty }) := by
    have hpending := congrArg (fun pending =>
      ((⟨(ownMessage stamp (.connect session)).toList ++ pending, none⟩ : Handed),
        captureTxbufReset large { e with captureLive := true, buffer := CaptureBuffer.empty }))
      (pending_eq hinv)
    rw [perform, captureGoLive, hconnect]
    dsimp only
    rw [hand_live rfl]
    exact hpending
  refine ⟨by rw [hperform], ?_, ?_, ?_⟩
  · rw [hperform]
    exact inv_txbufReset large _
  · intro message hpushed
    rw [hperform] at hpushed
    rcases List.mem_append.mp hpushed with hown | hkept
    · exact complete_ownMessage (Option.mem_toList.mp hown)
    · split_ifs at hkept
      · cases hkept
      · exact hinv.complete message hkept
  · intro message hadded
    rw [hperform] at hadded
    cases hadded

theorem complete_lsn (stamp : Stamp) (insertPtr : UInt64) :
    Complete (messageLayout stamp (.lsn insertPtr)) := by
  refine ⟨⟨stamp, .lsn insertPtr, rfl⟩, ?_⟩
  simp [messageLayout, headLayout, CaptureCall.body, captureBufferSize]

theorem spec_lsn (hinv : Inv e) (stamp : Stamp) (insertPtr : UInt64) (large : Bool) :
    Spec (.call stamp (.lsn insertPtr) large) e := by
  have hperform : perform (.call stamp (.lsn insertPtr) large) e =
      (⟨[messageLayout stamp (.lsn insertPtr)], none⟩,
        { e with buffer := CaptureBuffer.empty }) := by
    rw [perform, captureSyncLsn_eq]
    rfl
  refine ⟨by rw [hperform]; rfl, ?_, ?_, ?_⟩
  · rw [hperform]
    exact hinv.congr rfl rfl rfl rfl
  · intro message hpushed
    rw [hperform] at hpushed
    rw [List.mem_singleton.mp hpushed]
    exact complete_lsn stamp insertPtr
  · intro message hadded
    rw [hperform] at hadded
    cases hadded

/-- A call hands over its own complete message or nothing, whatever the calls before it
have left behind. -/
theorem perform_spec (hinv : Inv e) (op : Op) : Spec op e := by
  cases op with
  | call stamp call large =>
      have hown : ∀ bytes, ownMessage stamp call = some bytes → Complete bytes :=
        fun bytes => complete_ownMessage
      have hencode := encodeCall_ownMessage stamp call e.buffer
      cases call with
      | lsn insertPtr => exact spec_lsn hinv stamp insertPtr large
      | connect session => exact spec_goLive hinv stamp session large
      | _ =>
          apply @spec_hand e _ _ CaptureBuffer.empty hinv hown
          · exact congrArg (fun message => hand message.1 { e with buffer := message.2 }) hencode
          · rfl
  | abandonedBind => exact ⟨rfl, hinv.congr rfl rfl rfl rfl, by simp [perform], by simp [perform]⟩
  | txEnd committed =>
      exact ⟨rfl, hinv.congr rfl rfl rfl rfl, by simp [perform, captureTxEnd, hand],
        by simp [perform, captureTxEnd, hand]⟩
  | txbufReset large => exact ⟨rfl, inv_txbufReset large e, by simp [perform], by simp [perform]⟩
  | newGeneration large =>
      exact ⟨rfl, (inv_txbufReset large e).congr rfl rfl rfl rfl, by simp [perform],
        by simp [perform]⟩

end Encoder

/-! ## The rings -/

section Ring

variable {ι : Type} [DecidableEq ι] {bufSize : UInt32} {ring ring' : Ring.State ι}

/-- Only a push that has found room changes what a ring has accepted. -/
theorem accepted_of_step {label : Label ι} (hstep : Ring.step bufSize ring label = some ring') :
    ring'.accepted = ring.accepted ∨
      ∃ i msg, label = .reserve i msg ∧ ring'.accepted = ring.accepted ++ [msg] := by
  cases label with
  | reserve i msg =>
      rw [Ring.step] at hstep
      split at hstep
      · split_ifs at hstep with hroom <;> cases hstep
        · exact .inl rfl
        · exact .inr ⟨i, msg, rfl, rfl⟩
      · cases hstep
  | testReady =>
      rw [Ring.step] at hstep
      split at hstep
      · dsimp only at hstep
        split_ifs at hstep <;> cases hstep <;> exact .inl rfl
      · cases hstep
  | _ =>
      rw [Ring.step] at hstep
      split at hstep <;> cases hstep
      exact .inl rfl

omit [DecidableEq ι] in
/-- A raised header at the tail holds the length of a message that was accepted, so
`ring_pop` has room for it when all of these fit. -/
theorem ringPopResult_ne_overflow (hinv : RingInvariant.Inv ring)
    (hfits : ∀ msg ∈ ring.accepted, msg.bytes.length ≤ bufSize.toNat)
    (hidle : ring.consumer = .idle) : ringPopResult bufSize ring.ring ≠ .overflow := by
  intro hoverflow
  rw [ringPopResult] at hoverflow
  split_ifs at hoverflow with hready hlength
  have hfound := (hinv.testReady hidle (by simpa using hready)).popOf
  obtain ⟨msg, hpop, -⟩ := hfound
  have hlen : (ring.ring.hdrs (slotOf ring.ring.htail)).len.toNat = msg.bytes.length := by
    rw [← toNat_len]
    exact congrArg UInt32.toNat hpop.n
  have hmsg := hfits msg (List.mem_of_getElem? hpop.at_tail)
  rw [gt_iff_lt, UInt32.lt_iff_toNat_lt, hlen] at hlength
  exact absurd hlength (not_lt.mpr hmsg)

end Ring

theorem length_traceRecord (backend : Backend) (durationUs : UInt32) (eventType : UInt8) :
    (traceRecord backend durationUs eventType).length = 13 := by
  simp [traceRecord]

theorem length_timingRecord (backend : Backend) (type : UInt8) (ts : UInt64) :
    (timingRecord backend type ts).length = 13 := by
  simp [timingRecord]

/-! ## Runs -/

section System

variable {ι : Type} [DecidableEq ι] {data : Kind → ℕ → UInt8} {s s' : System ι}

/-- What a ring may carry. -/
def Fits (kind : Kind) (bytes : List UInt8) : Prop :=
  match kind with
  | .capture => Complete bytes
  | .trace | .timing => bytes.length = 13

theorem Fits.length_le {kind : Kind} {bytes : List UInt8} (hfits : Fits kind bytes) :
    bytes.length ≤ captureBufferSize := by
  cases kind with
  | capture => exact hfits.2
  | trace => exact hfits.le.trans (by decide)
  | timing => exact hfits.le.trans (by decide)

theorem toMessage_bytes {kind : Kind} {bytes : List UInt8} (hfits : Fits kind bytes) :
    (toMessage bytes).bytes = bytes := by
  have hlength : bytes.length < 2 ^ 32 := hfits.length_le.trans_lt (by decide)
  simp only [toMessage, Nat.mod_eq_of_lt hlength, List.take_length]

omit [DecidableEq ι] in
@[simp]
theorem setRing_rings_self (s : System ι) (kind : Kind) (ring : Ring.State ι) :
    (s.setRing kind ring).rings kind = ring := by
  simp [System.setRing]

omit [DecidableEq ι] in
@[simp]
theorem setRing_rings_of_ne (s : System ι) {kind other : Kind} (hother : other ≠ kind)
    (ring : Ring.State ι) : (s.setRing kind ring).rings other = s.rings other := by
  simp [System.setRing, hother]

/-- What holds in every state that a run reaches. -/
structure Reached (data : Kind → ℕ → UInt8) (s : System ι) : Prop where
  encoders : ∀ i, Inv (s.encoders i)
  unpushed : ∀ i, ∀ message ∈ s.unpushed i, Complete message
  rings : ∀ kind, Reachable (Ring.step bufferSize) (State.init (data kind)) (s.rings kind)
  accepted : ∀ kind, ∀ msg ∈ (s.rings kind).accepted, Fits kind msg.bytes

theorem reached_start : Reached data (System.start ι data) where
  encoders _ := inv_start
  unpushed _ message hmessage := by cases hmessage
  rings _ := Relation.ReflTransGen.refl
  accepted _ msg hmsg := by cases hmsg

/-- A step of one ring, whose message, if it pushes one, may be carried. -/
theorem Reached.setRing {kind : Kind} {label : Label ι} {ring : Ring.State ι}
    (hreached : Reached data s)
    (hstep : Ring.step bufferSize (s.rings kind) label = some ring)
    (hlabel : ∀ i msg, label = .reserve i msg → Fits kind msg.bytes) :
    Reached data (s.setRing kind ring) where
  encoders := hreached.encoders
  unpushed := hreached.unpushed
  rings other := by
    by_cases hother : other = kind
    · subst hother
      rw [setRing_rings_self]
      exact (hreached.rings other).tail trivial hstep
    · rw [setRing_rings_of_ne s hother]
      exact hreached.rings other
  accepted other msg hmsg := by
    by_cases hother : other = kind
    · subst hother
      rw [setRing_rings_self] at hmsg
      rcases accepted_of_step hstep with hsame | ⟨i, last, hreserve, hlast⟩
      · rw [hsame] at hmsg
        exact hreached.accepted other msg hmsg
      · rw [hlast] at hmsg
        rcases List.mem_append.mp hmsg with hold | hnew
        · exact hreached.accepted other msg hold
        · rw [List.mem_singleton.mp hnew]
          exact hlabel i last hreserve
    · rw [setRing_rings_of_ne s hother] at hmsg
      exact hreached.accepted other msg hmsg

theorem Reached.pushTo {kind : Kind} {i : ι} {bytes : List UInt8} (hreached : Reached data s)
    (hfits : Fits kind bytes) (hpush : s.pushTo kind i bytes = some s') :
    Reached data s' := by
  obtain ⟨ring, hstep, rfl⟩ := Option.map_eq_some_iff.mp hpush
  apply hreached.setRing hstep
  intro j msg hreserve
  cases hreserve
  rw [toMessage_bytes hfits]
  exact hfits

theorem Reached.capture (hreached : Reached data s) (i : ι) (op : Op) :
    Reached data { s with
      encoders := Function.update s.encoders i (perform op (s.encoders i)).2
      unpushed := Function.update s.unpushed i (perform op (s.encoders i)).1.pushed } := by
  have hspec := perform_spec (hreached.encoders i) op
  refine { hreached with encoders := ?_, unpushed := ?_ }
  · intro j
    dsimp only
    by_cases hj : j = i
    · subst hj
      rw [Function.update_self]
      exact hspec.inv
    · rw [Function.update_of_ne hj]
      exact hreached.encoders j
  · intro j
    dsimp only
    by_cases hj : j = i
    · subst hj
      rw [Function.update_self]
      exact hspec.pushed
    · rw [Function.update_of_ne hj]
      exact hreached.unpushed j

theorem Reached.push {i : ι} {bytes : List UInt8} {rest : List (List UInt8)}
    (hreached : Reached data s) (hunpushed : s.unpushed i = bytes :: rest) :
    Reached data { s with unpushed := Function.update s.unpushed i rest } := by
  refine { hreached with unpushed := ?_ }
  intro j message hmessage
  dsimp only at hmessage
  by_cases hj : j = i
  · subst hj
    rw [Function.update_self] at hmessage
    apply hreached.unpushed j message
    rw [hunpushed]
    exact List.mem_cons_of_mem _ hmessage
  · rw [Function.update_of_ne hj] at hmessage
    exact hreached.unpushed j message hmessage

theorem reached_step (hreached : Reached data s) {move : Move ι}
    (hstep : s.step move = some s') : Reached data s' := by
  cases move with
  | capture i op =>
      rw [System.step] at hstep
      split_ifs at hstep
      cases hstep
      exact hreached.capture i op
  | push i =>
      rw [System.step] at hstep
      cases hunpushed : s.unpushed i with
      | nil =>
          rw [hunpushed] at hstep
          cases hstep
      | cons bytes rest =>
          rw [hunpushed] at hstep
          have hbytes : Fits .capture bytes :=
            hreached.unpushed i bytes (by rw [hunpushed]; exact List.mem_cons_self)
          exact (hreached.push hunpushed).pushTo hbytes hstep
  | trace i backend durationUs eventType =>
      have hrecord : Fits .trace (traceRecord backend durationUs eventType) :=
        length_traceRecord backend durationUs eventType
      exact hreached.pushTo hrecord hstep
  | timing i backend type ts =>
      have hrecord : Fits .timing (timingRecord backend type ts) :=
        length_timingRecord backend type ts
      exact hreached.pushTo hrecord hstep
  | ring kind label =>
      cases label with
      | reserve => cases hstep
      | _ =>
          obtain ⟨ring, hring, rfl⟩ := Option.map_eq_some_iff.mp hstep
          apply hreached.setRing hring
          intro j msg hreserve
          cases hreserve

theorem reached_of_reachable (hreachable : Reachable System.step (System.start ι data) s) :
    Reached data s :=
  hreachable.invariant reached_start fun _ _ _ hreached hstep => reached_step hreached hstep

/-- Whatever calls a backend has made before, and however they have ended, the next one
hands over its own complete message or nothing; a ring carries only complete messages or
records of 13 bytes, which fit the buffer of the worker, and `ring_pop` never answers
`RingOverflow`. -/
theorem ringPop_neverOverflows (hreachable : Reachable System.step (System.start ι data) s) :
    (∀ i op, (perform op (s.encoders i)).1 = expected op (s.encoders i) ∧
        (∀ message ∈ (perform op (s.encoders i)).1.pushed, Complete message) ∧
        ∀ message, (perform op (s.encoders i)).1.added = some message → Complete message) ∧
      (∀ kind, ∀ msg ∈ (s.rings kind).accepted,
        Fits kind msg.bytes ∧ msg.bytes.length ≤ bufferSize.toNat) ∧
      ∀ kind, (s.rings kind).consumer = .idle →
        ringPopResult bufferSize (s.rings kind).ring ≠ .overflow := by
  have hreached := reached_of_reachable hreachable
  have hlength : ∀ kind, ∀ msg ∈ (s.rings kind).accepted, msg.bytes.length ≤ bufferSize.toNat :=
    fun kind msg hmsg => (hreached.accepted kind msg hmsg).length_le
  refine ⟨?_, ?_, ?_⟩
  · intro i op
    have hspec := perform_spec (hreached.encoders i) op
    exact ⟨hspec.handed, hspec.pushed, hspec.added⟩
  · intro kind msg hmsg
    exact ⟨hreached.accepted kind msg hmsg, hlength kind msg hmsg⟩
  · intro kind hidle
    have hinv := inv_of_reachable (hreached.rings kind)
    exact ringPopResult_ne_overflow hinv (hlength kind) hidle

/-- A bind that raises an error, and a query before and after its backend goes live. -/
def abandonedRun : List (Move Unit) :=
  [.capture () (.abandonedBind ⟨7, 1⟩ none none 0 Fin.elim0 1
      (some fun _ => ⟨25, some ⟨[65], by decide, by decide⟩⟩) 0),
    .capture () (.call ⟨7, 2⟩ (.simpleQuery ⟨[66], by decide, by decide⟩) false),
    .capture () (.call ⟨7, 3⟩ (.connect ⟨[67], by decide, by decide⟩) false),
    .push (), .ring .capture (.pushFirst ()), .ring .capture (.pushRest ()),
    .ring .capture (.setReady ()), .push ()]

/-- The pending query follows the connect message, and the worker finds the latter. -/
theorem ringPop_neverOverflows_abandonedRun : ∃ s : System Unit,
    run System.step (System.start Unit fun _ _ => 0) abandonedRun = some s ∧
      (s.rings .capture).accepted.map Message.bytes =
        [messageLayout ⟨7, 3⟩ (.connect ⟨[67], by decide, by decide⟩),
          messageLayout ⟨7, 2⟩ (.simpleQuery ⟨[66], by decide, by decide⟩)] ∧
      ringPopResult bufferSize (s.rings .capture).ring = .ok ∧
      ringPopResult bufferSize (s.rings .capture).ring ≠ .overflow := by
  have hrun : ∃ s : System Unit,
      run System.step (System.start Unit fun _ _ => 0) abandonedRun = some s ∧
        (s.rings .capture).accepted.map Message.bytes =
          [messageLayout ⟨7, 3⟩ (.connect ⟨[67], by decide, by decide⟩),
            messageLayout ⟨7, 2⟩ (.simpleQuery ⟨[66], by decide, by decide⟩)] ∧
        ringPopResult bufferSize (s.rings .capture).ring = .ok ∧
        (s.rings .capture).consumer = .idle := ⟨_, rfl, by decide +kernel, by decide +kernel, rfl⟩
  obtain ⟨s, hs, haccepted, hok, hidle⟩ := hrun
  exact ⟨s, hs, haccepted, hok,
    (ringPop_neverOverflows (reachable_of_run hs)).2.2 .capture hidle⟩

end System

end Pgr.WholeMessages
