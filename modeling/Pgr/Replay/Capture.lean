import Pgr.Core.Decoding
import Pgr.Core.Utf8Lossy

/-!
# The capture reader

`capture.rs`: the events of a capture file and the reader that decodes them one
at a time.  The reader works on the unread bytes of the file; a read past the
end reports `UnexpectedEof`, which `read_event` turns into the end of the
capture.
-/

namespace Pgr.Capture

open Pgr.FixedWidth Pgr.Decoding Pgr.Utf8Lossy

abbrev ClientId := UInt32

structure BindParam where
  typeOid : UInt32
  value : Option (List UInt8)
  deriving DecidableEq

inductive ClientEvent where
  | lsn (lsn : UInt64)
  | connect (sessionId : String)
  | disconnect
  | simpleQuery (text : String)
  | parse (name query : String) (paramTypes : List UInt32)
  | bind (portal statement : String) (resultFormats : List UInt16)
      (params : List BindParam)
  | execute (portal : String) (maxRows : Int64)
  | sync
  | txEnd (committed : Bool) (xid : UInt32) (lsn : UInt64)
  | close (kind : UInt8) (name : String)

structure CaptureMessage where
  id : ClientId
  ts : UInt64
  event : ClientEvent

inductive IoError where
  | unexpectedEof
  | invalidData (message : String)
  deriving DecidableEq

abbrev FileReader := Reader IoError

def raw (n : ℕ) : FileReader (List UInt8) :=
  readExact .unexpectedEof n

def u8 : FileReader UInt8 := do
  let bytes ← raw 1
  pure (UInt8.ofNat (ofLeBytes bytes))

def u16 : FileReader UInt16 := do
  let bytes ← raw 2
  pure (UInt16.ofNat (ofLeBytes bytes))

def u32 : FileReader UInt32 := do
  let bytes ← raw 4
  pure (UInt32.ofNat (ofLeBytes bytes))

def u64 : FileReader UInt64 := do
  let bytes ← raw 8
  pure (UInt64.ofNat (ofLeBytes bytes))

def bytes : FileReader (List UInt8) := do
  let n ← u32
  raw n.toNat

def string : FileReader String := do
  let bytes ← bytes
  pure (fromUtf8Lossy bytes)

def readParam : FileReader BindParam := do
  let typeOid ← u32
  let len ← u32
  if len.toNat = 2 ^ 32 - 1 then
    pure ⟨typeOid, none⟩
  else
    let value ← raw len.toNat
    pure ⟨typeOid, some value⟩

def readEventBody (t : UInt8) : FileReader ClientEvent :=
  match t.toNat with
  | 1 => do
      let lsn ← u64
      pure (.lsn lsn)
  | 2 => do
      let sessionId ← string
      pure (.connect sessionId)
  | 3 => pure .disconnect
  | 4 => do
      let text ← string
      pure (.simpleQuery text)
  | 5 => do
      let name ← string
      let query ← string
      let n ← u16
      let paramTypes ← readMany u32 n.toNat
      pure (.parse name query paramTypes)
  | 6 => do
      let portal ← string
      let statement ← string
      let nrf ← u16
      let resultFormats ← readMany u16 nrf.toNat
      let np ← u16
      let params ← readMany readParam np.toNat
      pure (.bind portal statement resultFormats params)
  | 7 => do
      let portal ← string
      let maxRows ← u64
      pure (.execute portal maxRows.toInt64)
  | 8 => pure .sync
  | 9 => do
      let committed ← u8
      let xid ← u32
      let lsn ← u64
      pure (.txEnd (committed != 0) xid lsn)
  | 10 => do
      let kind ← u8
      let name ← string
      pure (.close kind name)
  | _ => throw (.invalidData "unknown message type")

def readBody (t : UInt8) : FileReader CaptureMessage := do
  let id ← u32
  let ts ← u64
  let event ← readEventBody t
  pure ⟨id, ts, event⟩

/-- At the end of the file there is no event; a record that the file ends in
the middle of is dropped. -/
def readEvent : FileReader (Option CaptureMessage)
  | [] => .ok none []
  | t :: rest =>
      match readBody t rest with
      | .ok message rest => .ok (some message) rest
      | .error .unexpectedEof rest => .ok none rest
      | .error error rest => .error error rest

/-- `CaptureReader`: the unread file and the sync point. -/
structure CaptureReader where
  buf : List UInt8
  lsn : UInt64
  startTs : UInt64

/-- `CaptureReader::new`. -/
def CaptureReader.new (file : List UInt8) : Except IoError CaptureReader :=
  match readEvent file with
  | .ok (some ⟨_, ts, .lsn lsn⟩) rest => .ok ⟨rest, lsn, ts⟩
  | .ok _ _ => .error (.invalidData "capture must start with lsn")
  | .error error _ => .error error

/-! ## Field contracts -/

theorem decodes_raw (field : List UInt8) :
    Decodes .unexpectedEof (raw field.length) field field :=
  Decodes.readExact rfl

theorem decodes_u8 (value : UInt8) :
    Decodes .unexpectedEof u8 (leBytes 1 value.toNat) value := by
  simpa only [u8, raw, UInt8.ofNat_toNat] using
    Decodes.leBytes (e := IoError.unexpectedEof) 1 UInt8.ofNat value.toNat_lt

theorem decodes_u16 (value : UInt16) :
    Decodes .unexpectedEof u16 (leBytes 2 value.toNat) value := by
  simpa only [u16, raw, UInt16.ofNat_toNat] using
    Decodes.leBytes (e := IoError.unexpectedEof) 2 UInt16.ofNat value.toNat_lt

theorem decodes_u32 (value : UInt32) :
    Decodes .unexpectedEof u32 (leBytes 4 value.toNat) value := by
  simpa only [u32, raw, UInt32.ofNat_toNat] using
    Decodes.leBytes (e := IoError.unexpectedEof) 4 UInt32.ofNat value.toNat_lt

theorem decodes_u64 (value : UInt64) :
    Decodes .unexpectedEof u64 (leBytes 8 value.toNat) value := by
  simpa only [u64, raw, UInt64.ofNat_toNat] using
    Decodes.leBytes (e := IoError.unexpectedEof) 8 UInt64.ofNat value.toNat_lt

/-- A counted byte string whose length fits the 32-bit count. -/
theorem decodes_bytes {field : List UInt8} (hlength : field.length < 2 ^ 32) :
    Decodes .unexpectedEof bytes (leBytes 4 field.length ++ field) field := by
  have hn : (UInt32.ofNat field.length).toNat = field.length := by
    simpa using Nat.mod_eq_of_lt hlength
  have hcount := decodes_u32 (UInt32.ofNat field.length)
  rw [hn] at hcount
  refine hcount.bind ?_
  rw [hn]
  exact decodes_raw field

theorem decodes_string {field : List UInt8} (hlength : field.length < 2 ^ 32) :
    Decodes .unexpectedEof string (leBytes 4 field.length ++ field)
      (fromUtf8Lossy field) :=
  (decodes_bytes hlength).bind_pure

theorem decodes_readParam_null (typeOid : UInt32) :
    Decodes .unexpectedEof readParam (leBytes 4 typeOid.toNat ++ leBytes 4 (2 ^ 32 - 1))
      ⟨typeOid, none⟩ := by
  have hn : (UInt32.ofNat (2 ^ 32 - 1)).toNat = 2 ^ 32 - 1 := by decide
  have hlen := decodes_u32 (UInt32.ofNat (2 ^ 32 - 1))
  rw [hn] at hlen
  rw [← List.append_nil (leBytes 4 (2 ^ 32 - 1))]
  refine (decodes_u32 typeOid).bind (hlen.bind ?_)
  rw [if_pos hn]
  exact Decodes.pure _

/-- The null sentinel is no length a value can have. -/
theorem decodes_readParam_some (typeOid : UInt32) {field : List UInt8}
    (hlength : field.length < 2 ^ 32 - 1) :
    Decodes .unexpectedEof readParam
      (leBytes 4 typeOid.toNat ++ (leBytes 4 field.length ++ field))
      ⟨typeOid, some field⟩ := by
  have hn : (UInt32.ofNat field.length).toNat = field.length := by
    simpa using Nat.mod_eq_of_lt (by omega : field.length < 2 ^ 32)
  have hlen := decodes_u32 (UInt32.ofNat field.length)
  rw [hn] at hlen
  refine (decodes_u32 typeOid).bind (hlen.bind ?_)
  rw [hn, if_neg (by omega)]
  exact (decodes_raw field).bind_pure

/-- A record whose fields behind the type byte decode is read by `read_event`
whole, and is no record when the file ends inside it. -/
theorem readsRecord_of_decodes {t : UInt8} {body : List UInt8} {message : CaptureMessage}
    (hbody : Decodes .unexpectedEof (readBody t) body message) :
    ReadsRecord readEvent (t :: body) message where
  run_append rest := by
    rw [List.cons_append, readEvent, hbody.run_append]
  run_truncated part hpart hne := by
    cases part with
    | nil => rfl
    | cons first part =>
        obtain ⟨hfirst, htail⟩ := List.cons_prefix_cons.mp hpart
        have hneBody : part ≠ body := fun heq => hne (by rw [hfirst, heq])
        rw [readEvent, hfirst, hbody.run_truncated part htail hneBody]

theorem readEvent_nil : readEvent [] = .ok none [] := rfl

end Pgr.Capture
