import Pgr.Core.CircularMemory
import Pgr.Core.Transition

/-!
# The message ring

`ring.c`: any number of producers reserve header and bytes under the lock, copy
their message in at most two pieces and raise the ready flag; one consumer
copies the message at the tail out, lowers the flag and gives bytes and header
back.  Each of these is one atomic step here, and the steps of all parties may
interleave.  The 64-bit counters wrap.
-/

namespace Pgr.Ring

open Pgr.CircularMemory Pgr.Transition

def ringHeaderSize : ℕ := 128 * 1024

def ringBufferSize : ℕ := 32 * 1024 * 1024

/-- The arguments of `ring_push`; the length is a `uint32`. -/
structure Message where
  bytes : List UInt8
  length_lt : bytes.length < 2 ^ 32

def Message.len (msg : Message) : UInt32 :=
  UInt32.ofNat msg.bytes.length

structure MsgHdr where
  ready : Bool
  len : UInt32
  off : UInt64

structure MpscRing where
  hhead : UInt64
  dhead : UInt64
  htail : UInt64
  dtail : UInt64
  hdrs : ℕ → MsgHdr
  data : ℕ → UInt8

/-- `ring_init`; the bytes of the ring are left as they are. -/
def MpscRing.init (data : ℕ → UInt8) : MpscRing where
  hhead := 0
  dhead := 0
  htail := 0
  dtail := 0
  hdrs := fun _ => ⟨false, 0, 0⟩
  data := data

/-- A reservation of `ring_push`.  The index numbers the accepted messages and
is not read by the code. -/
structure Push where
  h : ℕ
  off : UInt64
  msg : Message
  index : ℕ

inductive Producer where
  | idle
  | reserved (push : Push)
  | copiedFirst (push : Push)
  | copied (push : Push)

def Producer.push? : Producer → Option Push
  | .idle => none
  | .reserved push | .copiedFirst push | .copied push => some push

/-- The local variables of `ring_pop`. -/
structure Pop where
  t : UInt64
  n : UInt32
  buf : List UInt8

inductive Consumer where
  | idle
  | found (pop : Pop)
  | copiedFirst (pop : Pop)
  | copied (pop : Pop)
  | cleared (pop : Pop)
  | freed (pop : Pop)

/-- The ring, its parties, and what `ring_push` has accepted under the lock and
`ring_pop` has returned so far. -/
structure State (ι : Type) where
  ring : MpscRing
  producers : ι → Producer
  consumer : Consumer
  accepted : List Message
  popped : List (List UInt8)

inductive Label (ι : Type) where
  | reserve (i : ι) (msg : Message)
  | pushFirst (i : ι)
  | pushRest (i : ι)
  | setReady (i : ι)
  | testReady
  | popFirst
  | popRest
  | clearReady
  | setDtail
  | setHtail

/-- The slot of a header counter. -/
def slotOf (counter : UInt64) : ℕ :=
  counter.toNat % ringHeaderSize

namespace MpscRing

/-- The test of `ring_push`, in the arithmetic of `uint64`. -/
def hasNoRoom (r : MpscRing) (len : UInt32) : Bool :=
  UInt64.ofNat ringHeaderSize ≤ r.hhead - r.htail ||
    UInt64.ofNat ringBufferSize - (r.dhead - r.dtail) < len.toUInt64

def reserve (r : MpscRing) (len : UInt32) : MpscRing :=
  { r with
    hdrs := Function.update r.hdrs (slotOf r.hhead)
      { r.hdrs (slotOf r.hhead) with off := r.dhead, len := len }
    hhead := r.hhead + 1
    dhead := r.dhead + len.toUInt64 }

def setReady (r : MpscRing) (slot : ℕ) (ready : Bool) : MpscRing :=
  { r with hdrs := Function.update r.hdrs slot { r.hdrs slot with ready := ready } }

end MpscRing

/-- The piece of the message that fits before the end of the buffer. -/
def Push.first (push : Push) : ℕ :=
  firstPart ringBufferSize push.off.toNat push.msg.bytes.length

section Step

variable {ι : Type} [DecidableEq ι] (bufSize : UInt32)

def step (s : State ι) : Label ι → Option (State ι)
  | .reserve i msg =>
      match s.producers i with
      | .idle =>
          if s.ring.hasNoRoom msg.len then some s
          else
            let push : Push := ⟨slotOf s.ring.hhead, s.ring.dhead, msg, s.accepted.length⟩
            some { s with
              ring := s.ring.reserve msg.len
              producers := Function.update s.producers i (.reserved push)
              accepted := s.accepted ++ [msg] }
      | _ => none
  | .pushFirst i =>
      match s.producers i with
      | .reserved push =>
          let pos := push.off.toNat % ringBufferSize
          some { s with
            ring := { s.ring with
              data := copyIn s.ring.data pos (push.msg.bytes.take push.first) }
            producers := Function.update s.producers i (.copiedFirst push) }
      | _ => none
  | .pushRest i =>
      match s.producers i with
      | .copiedFirst push =>
          let data := if push.first < push.msg.bytes.length
            then copyIn s.ring.data 0 (push.msg.bytes.drop push.first) else s.ring.data
          some { s with
            ring := { s.ring with data := data }
            producers := Function.update s.producers i (.copied push) }
      | _ => none
  | .setReady i =>
      match s.producers i with
      | .copied push =>
          some { s with
            ring := s.ring.setReady push.h true
            producers := Function.update s.producers i .idle }
      | _ => none
  | .testReady =>
      match s.consumer with
      | .idle =>
          let t := s.ring.htail
          let h := s.ring.hdrs (slotOf t)
          -- `RingNotReady` and `RingOverflow` leave the ring as it is.
          if h.ready && h.len ≤ bufSize then some { s with consumer := .found ⟨t, h.len, []⟩ }
          else some s
      | _ => none
  | .popFirst =>
      match s.consumer with
      | .found pop =>
          let h := s.ring.hdrs (slotOf pop.t)
          let first := firstPart ringBufferSize h.off.toNat pop.n.toNat
          let buf := copyOut s.ring.data (h.off.toNat % ringBufferSize) first
          some { s with consumer := .copiedFirst { pop with buf := buf } }
      | _ => none
  | .popRest =>
      match s.consumer with
      | .copiedFirst pop =>
          -- What has been copied is the first piece.
          let first := pop.buf.length
          let buf := if first < pop.n.toNat
            then pop.buf ++ copyOut s.ring.data 0 (pop.n.toNat - first) else pop.buf
          some { s with consumer := .copied { pop with buf := buf } }
      | _ => none
  | .clearReady =>
      match s.consumer with
      | .copied pop =>
          some { s with
            ring := s.ring.setReady (slotOf pop.t) false
            consumer := .cleared pop }
      | _ => none
  | .setDtail =>
      match s.consumer with
      | .cleared pop =>
          let h := s.ring.hdrs (slotOf pop.t)
          some { s with
            ring := { s.ring with dtail := h.off + pop.n.toUInt64 }
            consumer := .freed pop }
      | _ => none
  | .setHtail =>
      match s.consumer with
      | .freed pop =>
          some { s with
            ring := { s.ring with htail := pop.t + 1 }
            consumer := .idle
            popped := s.popped ++ [pop.buf] }
      | _ => none

/-- Nobody has called `ring_push` or `ring_pop` yet. -/
def State.init (data : ℕ → UInt8) : State ι where
  ring := MpscRing.init data
  producers := fun _ => .idle
  consumer := .idle
  accepted := []
  popped := []

end Step

end Pgr.Ring
