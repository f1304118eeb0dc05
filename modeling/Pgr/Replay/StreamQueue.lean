import Pgr.Core.Fifo
import Pgr.Core.MachineWord
import Pgr.Core.Transition
import Pgr.Replay.Utils

/-!
# The byte stream on machine words

`Stream` of `utils.rs` once more, with the offsets that it has and everything that can
stop it: sums that overflow, differences below zero, slices out of bounds and a vector
that cannot grow.  As long as the sums fit it does what `Utils.Stream` does, and so it is
a queue of bytes, whatever the threshold.  `mark_read` adds what it is given to an offset
before it cuts the sum down to what there is, so that a large enough count breaks it.
-/

namespace Pgr.StreamQueue

open Pgr.Fifo Pgr.MachineWord Pgr.Transition Pgr.Utils

/-! ## The code -/

/-- The most bytes that a vector can have. -/
def isizeMax : ℕ := 2 ^ 63 - 1

structure WordStream where
  /-- The field `data`. -/
  bytes : List UInt8
  compactThreshold : UInt64
  dataOffset : UInt64
  readOffset : UInt64
  committedOffset : UInt64
  length_le : bytes.length ≤ isizeMax

/-- `copy_within(src.., 0)`: the bytes at the end stay as well. -/
def copyWithin (src : ℕ) (bytes : List UInt8) : List UInt8 :=
  bytes.drop src ++ bytes.drop (bytes.length - src)

namespace WordStream

/-- The vector is allocated with room for `compact_threshold` bytes. -/
def new (compactThreshold : UInt64) : Option WordStream :=
  if compactThreshold.toNat ≤ isizeMax then
    some ⟨[], compactThreshold, 0, 0, 0, Nat.zero_le _⟩
  else none

def len (stream : WordStream) : UInt64 :=
  UInt64.ofNat stream.bytes.length

variable (checks : Bool)

def compact (stream : WordStream) : Option WordStream :=
  (sub checks stream.readOffset stream.dataOffset).bind fun garbageSize =>
    if garbageSize > stream.compactThreshold then
      (sub checks stream.len garbageSize).bind fun remaining =>
        if hinside : garbageSize.toNat ≤ stream.bytes.length then
          some { stream with
            bytes := (copyWithin garbageSize.toNat stream.bytes).take remaining.toNat
            dataOffset := stream.readOffset
            length_le := by
              apply (List.length_take_le' _ _).trans
              have hlength := stream.length_le
              rw [copyWithin, List.length_append, List.length_drop, List.length_drop]
              omega }
        else none
    else some stream

def markRead (n : UInt64) (stream : WordStream) : Option WordStream :=
  (add checks stream.readOffset n).bind fun marked =>
    (add checks stream.dataOffset stream.len).bind fun stop =>
      compact checks { stream with readOffset := min marked stop }

def markReadAll (stream : WordStream) : Option WordStream :=
  compact checks { stream with readOffset := stream.committedOffset }

def data (stream : WordStream) : Option (List UInt8) :=
  (sub checks stream.readOffset stream.dataOffset).bind fun start =>
    (sub checks stream.committedOffset stream.dataOffset).bind fun stop =>
      if start ≤ stop ∧ stop.toNat ≤ stream.bytes.length then
        some ((stream.bytes.take stop.toNat).drop start.toNat)
      else none

def write (bytes : List UInt8) (stream : WordStream) : Option WordStream :=
  if hroom : (stream.bytes ++ bytes).length ≤ isizeMax then
    (add checks stream.dataOffset (UInt64.ofNat (stream.bytes ++ bytes).length)).map
      fun committedOffset =>
        { stream with
          bytes := stream.bytes ++ bytes
          committedOffset := committedOffset
          length_le := hroom }
  else none

end WordStream

/-- A call of one of the methods. -/
inductive Call where
  | write (bytes : List UInt8)
  | markRead (n : UInt64)
  | markReadAll
  | data

variable (checks : Bool)

def callStream (call : Call) (stream : WordStream) : Option WordStream :=
  match call with
  | .write bytes => stream.write checks bytes
  | .markRead n => stream.markRead checks n
  | .markReadAll => stream.markReadAll checks
  | .data => (stream.data checks).map fun _ => stream

/-- What the call is meant to do. -/
def callQueue (call : Call) (queue : Queue UInt8) : Queue UInt8 :=
  match call with
  | .write bytes => queue.write bytes
  | .markRead n => queue.markRead n.toNat
  | .markReadAll => queue.markReadAll
  | .data => queue

/-- The stream, and the queue that it stands for. -/
structure Observed where
  stream : WordStream
  queue : Queue UInt8

def step (s : Observed) (call : Call) : Option Observed :=
  (callStream checks call s.stream).map fun stream => ⟨stream, callQueue call s.queue⟩

/-- The offsets are in order, and `data` is what is unread. -/
structure Refines (s : Observed) : Prop where
  dataOffset_le : s.stream.dataOffset ≤ s.stream.readOffset
  readOffset_le : s.stream.readOffset ≤ s.stream.committedOffset
  committedOffset_eq :
    s.stream.committedOffset.toNat = s.stream.dataOffset.toNat + s.stream.bytes.length
  data_eq : s.stream.data checks = some s.queue.unread

/-- What is added to an offset does not carry it over the end of a word. -/
def CallFits (s : Observed) : Call → Prop
  | .write bytes =>
      s.stream.bytes.length + bytes.length ≤ isizeMax ∧
        s.stream.dataOffset.toNat + (s.stream.bytes.length + bytes.length) < 2 ^ 64
  | .markRead n => s.stream.readOffset.toNat + n.toNat < 2 ^ 64
  | .markReadAll | .data => True

instance (s : Observed) (call : Call) : Decidable (CallFits s call) :=
  match call with
  | .write _ => inferInstanceAs (Decidable (_ ∧ _))
  | .markRead _ => inferInstanceAs (Decidable (_ < _))
  | .markReadAll | .data => inferInstanceAs (Decidable True)

/-! ## The stream without overflow -/

/-- The words stand for the numbers of a stream whose offsets are in order. -/
structure Represents (word : WordStream) (stream : Stream) : Prop where
  bytes : word.bytes = stream.bytes
  compactThreshold : word.compactThreshold.toNat = stream.compactThreshold
  dataOffset : word.dataOffset.toNat = stream.dataOffset
  readOffset : word.readOffset.toNat = stream.readOffset
  committedOffset : word.committedOffset.toNat = stream.committedOffset

variable {word : WordStream} {stream : Stream}

theorem represents_new {compactThreshold : UInt64}
    (hnew : WordStream.new compactThreshold = some word) :
    Represents word (.new compactThreshold.toNat) := by
  rw [WordStream.new] at hnew
  split_ifs at hnew
  cases hnew
  exact ⟨rfl, rfl, rfl, rfl, rfl⟩

theorem toNat_ofNat_length {bytes : List UInt8} (hlength : bytes.length ≤ isizeMax) :
    (UInt64.ofNat bytes.length).toNat = bytes.length := by
  rw [UInt64.toNat_ofNat']
  apply Nat.mod_eq_of_lt
  rw [isizeMax] at hlength
  omega

theorem toNat_len (word : WordStream) : word.len.toNat = word.bytes.length :=
  toNat_ofNat_length word.length_le

namespace Represents

theorem dataOffset_le (hword : Represents word stream) : word.dataOffset ≤ word.readOffset := by
  rw [UInt64.le_iff_toNat_le, hword.dataOffset, hword.readOffset]
  exact stream.dataOffset_le

theorem readOffset_le (hword : Represents word stream) :
    word.readOffset ≤ word.committedOffset := by
  rw [UInt64.le_iff_toNat_le, hword.readOffset, hword.committedOffset]
  exact stream.readOffset_le

theorem committedOffset_eq (hword : Represents word stream) :
    word.committedOffset.toNat = word.dataOffset.toNat + word.bytes.length := by
  rw [hword.committedOffset, hword.dataOffset, hword.bytes]
  exact stream.committedOffset_eq

/-- Reading finds its slice in bounds. -/
theorem data_eq (hword : Represents word stream) : word.data checks = some stream.data := by
  obtain ⟨hstart, hstart'⟩ := sub_eq checks hword.dataOffset_le
  obtain ⟨hstop, hstop'⟩ := sub_eq checks
    (UInt64.le_trans hword.dataOffset_le hword.readOffset_le)
  rw [hword.dataOffset, hword.readOffset] at hstart'
  rw [hword.dataOffset, hword.committedOffset] at hstop'
  have hread := stream.readOffset_le
  have hcommitted := stream.committedOffset_eq
  have hinside : word.readOffset - word.dataOffset ≤ word.committedOffset - word.dataOffset ∧
      (word.committedOffset - word.dataOffset).toNat ≤ word.bytes.length := by
    rw [UInt64.le_iff_toNat_le, hstart', hstop', hword.bytes]
    omega
  rw [WordStream.data, hstart, Option.bind_some, hstop, Option.bind_some, if_pos hinside,
    hstart', hstop', hword.bytes, Stream.data]

theorem compact (hword : Represents word stream) :
    ∃ word', word.compact checks = some word' ∧ Represents word' stream.compact := by
  obtain ⟨hgarbage, hgarbage'⟩ := sub_eq checks hword.dataOffset_le
  rw [hword.dataOffset, hword.readOffset] at hgarbage'
  have hthreshold : word.readOffset - word.dataOffset > word.compactThreshold ↔
      stream.readOffset - stream.dataOffset > stream.compactThreshold := by
    rw [gt_iff_lt, UInt64.lt_iff_toNat_lt, hgarbage', hword.compactThreshold]
  rw [WordStream.compact, hgarbage, Option.bind_some, Stream.compact]
  by_cases hmuch : stream.readOffset - stream.dataOffset > stream.compactThreshold
  · have hread := stream.readOffset_le
    have hcommitted := stream.committedOffset_eq
    have hinside : (word.readOffset - word.dataOffset).toNat ≤ word.bytes.length := by
      rw [hgarbage', hword.bytes]
      omega
    obtain ⟨hremaining, hremaining'⟩ := sub_eq checks (UInt64.le_iff_toNat_le.mpr
      (hinside.trans_eq (toNat_len word).symm))
    rw [toNat_len, hgarbage'] at hremaining'
    rw [if_pos (hthreshold.mpr hmuch), hremaining, Option.bind_some, dif_pos hinside,
      if_pos hmuch]
    refine ⟨_, rfl, ⟨?_, hword.compactThreshold, hword.readOffset, hword.readOffset,
      hword.committedOffset⟩⟩
    have hlength : (word.len - (word.readOffset - word.dataOffset)).toNat =
        (stream.bytes.drop (stream.readOffset - stream.dataOffset)).length := by
      rw [hremaining', List.length_drop, hword.bytes]
    change (copyWithin _ word.bytes).take _ = _
    rw [hlength, hgarbage', hword.bytes, copyWithin, List.take_left]
  · rw [if_neg (mt hthreshold.mp hmuch), if_neg hmuch]
    exact ⟨word, rfl, hword⟩

/-- Where the committed bytes end. -/
theorem stop_eq (hword : Represents word stream) :
    add checks word.dataOffset word.len = some (word.dataOffset + word.len) ∧
      (word.dataOffset + word.len).toNat = stream.committedOffset := by
  have hcommitted := hword.committedOffset_eq
  have hlt := word.committedOffset.toNat_lt
  have hfits : word.dataOffset.toNat + word.len.toNat < 2 ^ 64 := by
    rw [toNat_len, ← hcommitted]
    exact hlt
  obtain ⟨hstop, hstop'⟩ := add_eq checks hfits
  refine ⟨hstop, ?_⟩
  rw [hstop', toNat_len, ← hcommitted, hword.committedOffset]

theorem markRead (hword : Represents word stream) {n : UInt64}
    (hfits : word.readOffset.toNat + n.toNat < 2 ^ 64) :
    ∃ word', word.markRead checks n = some word' ∧
      Represents word' (stream.markRead n.toNat) := by
  obtain ⟨hsum, hsum'⟩ := add_eq checks hfits
  obtain ⟨hstop, hstop'⟩ := hword.stop_eq checks
  rw [WordStream.markRead, hsum, Option.bind_some, hstop, Option.bind_some, Stream.markRead]
  have hread : (min (word.readOffset + n) (word.dataOffset + word.len)).toNat =
      min (stream.readOffset + n.toNat) (stream.dataOffset + stream.bytes.length) := by
    rw [toNat_min, hsum', hstop', hword.readOffset, stream.committedOffset_eq]
  apply Represents.compact
  exact ⟨hword.bytes, hword.compactThreshold, hword.dataOffset, hread, hword.committedOffset⟩

theorem markReadAll (hword : Represents word stream) :
    ∃ word', word.markReadAll checks = some word' ∧ Represents word' stream.markReadAll := by
  rw [WordStream.markReadAll, Stream.markReadAll]
  apply Represents.compact
  exact ⟨hword.bytes, hword.compactThreshold, hword.dataOffset, hword.committedOffset,
    hword.committedOffset⟩

theorem write (hword : Represents word stream) {bytes : List UInt8}
    (hroom : word.bytes.length + bytes.length ≤ isizeMax)
    (hfits : word.dataOffset.toNat + (word.bytes.length + bytes.length) < 2 ^ 64) :
    ∃ word', word.write checks bytes = some word' ∧ Represents word' (stream.write bytes) := by
  rw [← List.length_append] at hroom hfits
  rw [← toNat_ofNat_length hroom] at hfits
  obtain ⟨hsum, hsum'⟩ := add_eq checks hfits
  rw [WordStream.write, dif_pos hroom, hsum, Option.map_some]
  refine ⟨_, rfl, ⟨?_, hword.compactThreshold, hword.dataOffset, hword.readOffset, ?_⟩⟩
  · change word.bytes ++ bytes = stream.bytes ++ bytes
    rw [hword.bytes]
  · change (word.dataOffset + _).toNat = stream.dataOffset + (stream.bytes ++ bytes).length
    rw [hsum', toNat_ofNat_length hroom, hword.dataOffset, hword.bytes]

end Represents

/-! ## The queue -/

/-- The stream that the words stand for when their offsets are in order. -/
def Refines.toStream {s : Observed} (hs : Refines checks s) : Stream where
  bytes := s.stream.bytes
  compactThreshold := s.stream.compactThreshold.toNat
  dataOffset := s.stream.dataOffset.toNat
  readOffset := s.stream.readOffset.toNat
  committedOffset := s.stream.committedOffset.toNat
  dataOffset_le := hs.dataOffset_le
  readOffset_le := hs.readOffset_le
  committedOffset_eq := hs.committedOffset_eq

theorem Refines.represents {s : Observed} (hs : Refines checks s) :
    Represents s.stream hs.toStream :=
  ⟨rfl, rfl, rfl, rfl, rfl⟩

theorem Refines.data_toStream {s : Observed} (hs : Refines checks s) :
    hs.toStream.data = s.queue.unread := by
  have hdata := hs.represents.data_eq checks
  exact Option.some.inj (hdata.symm.trans hs.data_eq)

theorem Refines.length_unread {s : Observed} (hs : Refines checks s) : s.queue.unread.length =
    s.stream.committedOffset.toNat - s.stream.readOffset.toNat := by
  rw [← hs.data_toStream]
  exact hs.toStream.length_data

theorem Represents.refines {queue : Queue UInt8} (hword : Represents word stream)
    (hdata : stream.data = queue.unread) : Refines checks ⟨word, queue⟩ where
  dataOffset_le := hword.dataOffset_le
  readOffset_le := hword.readOffset_le
  committedOffset_eq := hword.committedOffset_eq
  data_eq := by
    rw [hword.data_eq checks, hdata]

/-- A call that fits does to the stream what it is meant to do to the queue. -/
theorem refines_step {s : Observed} (hs : Refines checks s) {call : Call}
    (hfits : CallFits s call) : ∃ s', step checks s call = some s' ∧ Refines checks s' := by
  have hword := hs.represents
  have hdata := hs.data_toStream
  have hresult : ∀ {word' stream'}, callStream checks call s.stream = some word' →
      Represents word' stream' → stream'.data = (callQueue call s.queue).unread →
      ∃ s', step checks s call = some s' ∧ Refines checks s' := by
    intro word' stream' hcall hword' hdata'
    refine ⟨⟨word', callQueue call s.queue⟩, ?_, hword'.refines checks hdata'⟩
    rw [step, hcall, Option.map_some]
  cases call with
  | write bytes =>
      obtain ⟨word', hcall, hword'⟩ := hword.write checks hfits.1 hfits.2
      apply hresult hcall hword'
      rw [Stream.data_write, hdata, callQueue, Queue.unread_write]
  | markRead n =>
      obtain ⟨word', hcall, hword'⟩ := hword.markRead checks hfits
      apply hresult hcall hword'
      rw [Stream.data_markRead, hdata, callQueue, Queue.unread_markRead]
  | markReadAll =>
      obtain ⟨word', hcall, hword'⟩ := hword.markReadAll checks
      apply hresult hcall hword'
      rw [Stream.data_markReadAll, callQueue, Queue.unread_markReadAll]
  | data =>
      have hcall : callStream checks .data s.stream = some s.stream := by
        rw [callStream, hs.data_eq, Option.map_some]
      exact hresult hcall hword hdata

/-! ## Calls that do not fit -/

variable {s s' : Observed}

/-- The committed end wraps around to the front of the bytes. -/
theorem write_overflows {bytes : List UInt8} (hstep : step checks s (.write bytes) = some s')
    (hs' : Refines checks s') : CallFits s (.write bytes) := by
  obtain ⟨word', hcall, hs''⟩ := Option.map_eq_some_iff.mp hstep
  rw [callStream, WordStream.write] at hcall
  split_ifs at hcall with hroom
  obtain ⟨committed, hsum, hword'⟩ := Option.map_eq_some_iff.mp hcall
  have hlength : (s.stream.bytes ++ bytes).length = s.stream.bytes.length + bytes.length :=
    List.length_append
  refine ⟨hlength ▸ hroom, ?_⟩
  by_contra hover
  rw [not_lt, ← hlength, ← toNat_ofNat_length hroom] at hover
  obtain ⟨-, hwrapped⟩ := add_of_overflow checks hover hsum
  have hcommitted := hs'.committedOffset_eq
  rw [← hs'', ← hword'] at hcommitted
  change committed.toNat = s.stream.dataOffset.toNat + (s.stream.bytes ++ bytes).length
    at hcommitted
  rw [toNat_ofNat_length hroom] at hwrapped
  omega

theorem length_copyWithin {src : ℕ} {bytes : List UInt8} (hsrc : src ≤ bytes.length) :
    (copyWithin src bytes).length = bytes.length := by
  rw [copyWithin, List.length_append, List.length_drop, List.length_drop]
  omega

/-- An offset that has gone back to bytes which are still there shows more of them. -/
theorem not_refines_of_back (hs : Refines checks s) {offset : UInt64}
    (hfrom : s.stream.dataOffset ≤ offset) (hback : offset < s.stream.readOffset) {n : ℕ}
    (hcompact : WordStream.compact checks { s.stream with readOffset := offset } =
      some s'.stream) (hqueue : s'.queue = s.queue.markRead n) : ¬Refines checks s' := by
  intro hs'
  have hread := UInt64.lt_iff_toNat_lt.mp hback
  have hcommitted := UInt64.le_iff_toNat_le.mp hs.readOffset_le
  let back : Stream := { hs.toStream with
    readOffset := offset.toNat
    dataOffset_le := hfrom
    readOffset_le := hread.le.trans hcommitted }
  have hword : Represents { s.stream with readOffset := offset } back :=
    ⟨rfl, rfl, rfl, rfl, rfl⟩
  obtain ⟨word', hword', hback'⟩ := hword.compact checks
  cases hcompact.symm.trans hword'
  have hshown : back.data = s.queue.unread.drop n := by
    calc back.data = back.compact.data := back.data_compact.symm
      _ = s'.queue.unread := Option.some.inj ((hback'.data_eq checks).symm.trans hs'.data_eq)
      _ = s.queue.unread.drop n := by rw [hqueue, Queue.unread_markRead]
  have hlength : back.data.length = s.stream.committedOffset.toNat - offset.toNat :=
    back.length_data
  have hunread := hs.length_unread
  rw [hshown, List.length_drop] at hlength
  omega

/-- What moving the bytes down can do, whatever the offsets are. -/
structure Compacted (before after : WordStream) : Prop where
  dataOffset : after.dataOffset = before.dataOffset ∨ after.dataOffset = before.readOffset
  readOffset : after.readOffset = before.readOffset
  committedOffset : after.committedOffset = before.committedOffset
  length_le : after.bytes.length ≤ before.bytes.length

theorem compacted_of_compact {word' : WordStream} (hcompact : word.compact checks = some word') :
    Compacted word word' := by
  rw [WordStream.compact] at hcompact
  obtain ⟨garbage, -, hcompact⟩ := Option.bind_eq_some_iff.mp hcompact
  by_cases hmuch : garbage > word.compactThreshold
  · rw [if_pos hmuch] at hcompact
    obtain ⟨remaining, -, hcompact⟩ := Option.bind_eq_some_iff.mp hcompact
    split_ifs at hcompact with hinside
    rw [← Option.some.inj hcompact]
    refine ⟨.inr rfl, rfl, rfl, ?_⟩
    calc ((copyWithin garbage.toNat word.bytes).take remaining.toNat).length
        ≤ (copyWithin garbage.toNat word.bytes).length := List.length_take_le' _ _
      _ = word.bytes.length := length_copyWithin hinside
  · rw [if_neg hmuch] at hcompact
    rw [← Option.some.inj hcompact]
    exact ⟨.inl rfl, rfl, rfl, le_refl _⟩

/-- An offset in front of the bytes that are still there leaves the offsets in disorder. -/
theorem not_refines_of_front (hs : Refines checks s) {offset : UInt64}
    (hfront : offset < s.stream.dataOffset)
    (hcompact : WordStream.compact checks { s.stream with readOffset := offset } =
      some s'.stream) : ¬Refines checks s' := by
  intro hs'
  obtain ⟨hdata, hread, hcommitted, hlength⟩ := compacted_of_compact checks hcompact
  rcases hdata with hstays | hmoves
  · have hordered := hs'.dataOffset_le
    rw [hstays, hread] at hordered
    exact UInt64.not_le.mpr hfront hordered
  · have hafter := hs'.committedOffset_eq
    have hbefore := hs.committedOffset_eq
    have hlt := UInt64.lt_iff_toNat_lt.mp hfront
    rw [hmoves, hcommitted] at hafter
    change s.stream.committedOffset.toNat = offset.toNat + s'.stream.bytes.length at hafter
    change s'.stream.bytes.length ≤ s.stream.bytes.length at hlength
    omega

theorem markRead_overflows (hs : Refines checks s) {n : UInt64}
    (hstep : step checks s (.markRead n) = some s') (hs' : Refines checks s') :
    CallFits s (.markRead n) := by
  obtain ⟨word', hcall, hs''⟩ := Option.map_eq_some_iff.mp hstep
  rw [callStream, WordStream.markRead] at hcall
  obtain ⟨sum, hsum, hcall⟩ := Option.bind_eq_some_iff.mp hcall
  obtain ⟨hstop, hstop'⟩ := hs.represents.stop_eq checks
  rw [hstop, Option.bind_some] at hcall
  cases hs''
  by_contra hover
  rw [CallFits, not_lt] at hover
  obtain ⟨-, hwrapped⟩ := add_of_overflow checks hover hsum
  have hn := n.toNat_lt
  have hread := UInt64.le_iff_toNat_le.mp hs.readOffset_le
  have hmin : min sum (s.stream.dataOffset + s.stream.len) = sum := by
    apply UInt64.toNat_inj.mp
    rw [toNat_min, hstop']
    apply min_eq_left
    change sum.toNat ≤ s.stream.committedOffset.toNat
    omega
  have hback : sum < s.stream.readOffset := by
    rw [UInt64.lt_iff_toNat_lt]
    omega
  rw [hmin] at hcall
  by_cases hfrom : s.stream.dataOffset ≤ sum
  · exact not_refines_of_back checks hs hfrom hback hcall rfl hs'
  · exact not_refines_of_front checks hs (UInt64.not_le.mp hfrom) hcall hs'

theorem callFits_of_refines (hs : Refines checks s) {call : Call}
    (hstep : step checks s call = some s') (hs' : Refines checks s') : CallFits s call := by
  cases call with
  | write bytes => exact write_overflows checks hstep hs'
  | markRead n => exact markRead_overflows checks hs hstep hs'
  | markReadAll | data => exact trivial

/-- The callers mark no more than they were shown, and that always fits. -/
theorem callFits_markRead (hs : Refines checks s) {n : UInt64}
    (hn : n.toNat ≤ s.queue.unread.length) : CallFits s (.markRead n) := by
  have hunread := hs.length_unread
  have hordered := UInt64.le_iff_toNat_le.mp hs.readOffset_le
  calc s.stream.readOffset.toNat + n.toNat
      ≤ s.stream.readOffset.toNat + s.queue.unread.length := Nat.add_le_add_left hn _
    _ = s.stream.committedOffset.toNat := by omega
    _ < 2 ^ 64 := s.stream.committedOffset.toNat_lt

/-! ## Every sequence of calls -/

/-- A new stream has room for the bytes of its threshold, and after each of the calls its
offsets are in order and `data` is what has been written without what has been marked. -/
def RefinesQueue (compactThreshold : UInt64) (calls : List Call) : Prop :=
  ∃ word, WordStream.new compactThreshold = some word ∧
    HoldsAlong (step checks) (Refines checks) ⟨word, .empty⟩ calls

theorem refines_new {compactThreshold : UInt64}
    (hnew : WordStream.new compactThreshold = some word) : Refines checks ⟨word, .empty⟩ :=
  (represents_new hnew).refines checks rfl

theorem holdsAlong_refines_iff {compactThreshold : UInt64}
    (hnew : WordStream.new compactThreshold = some word) (calls : List Call) :
    HoldsAlong (step checks) (Refines checks) ⟨word, .empty⟩ calls ↔
      MeetsAlong (step checks) CallFits ⟨word, .empty⟩ calls := by
  apply holdsAlong_iff (refines_new checks hnew)
  intro s call hs
  constructor
  · rintro ⟨s', hstep, hs'⟩
    exact callFits_of_refines checks hs hstep hs'
  · exact refines_step checks hs

/-- Whether the build checks for overflow or not, a stream is a queue of bytes exactly as
long as the sums of its offsets fit, and the threshold does not matter. -/
theorem refinesQueue_iff (compactThreshold : UInt64) (calls : List Call) :
    RefinesQueue checks compactThreshold calls ↔
      ∃ word, WordStream.new compactThreshold = some word ∧
        MeetsAlong (step checks) CallFits ⟨word, .empty⟩ calls :=
  exists_congr fun _ => and_congr_right fun hnew => holdsAlong_refines_iff checks hnew calls

/-- The second count is the largest there is: the sum is one too large for a word. -/
def unreadCalls : List Call :=
  [.write [65, 66], .markRead 1, .markRead 18446744073709551615]

/-- It stops the program, or shows both bytes again. -/
theorem not_refinesQueue_unreadCalls :
    ¬RefinesQueue true 65536 unreadCalls ∧ ¬RefinesQueue false 65536 unreadCalls := by
  have hunfit : ∀ checks, ¬RefinesQueue checks 65536 unreadCalls := by
    rintro checks ⟨word, hnew, hholds⟩
    obtain ⟨-, hwrite⟩ := (holdsAlong_refines_iff checks hnew _).mp hholds
    cases hnew
    obtain ⟨-, hmark⟩ := hwrite _ (by cases checks <;> rfl)
    obtain ⟨hfits, -⟩ := hmark _ (by cases checks <;> rfl)
    exact absurd hfits (by decide +kernel)
  exact ⟨hunfit true, hunfit false⟩

end Pgr.StreamQueue
