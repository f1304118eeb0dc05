import Mathlib

/-!
# The byte stream of the replay tool

`Stream` in `utils.rs`: bytes are appended at the end, read at the front and moved
down once more than a threshold of them has been read.  The offsets count from
the first byte ever written.  What a reader sees is `Stream.data`, and the lemmas
say what each operation does to it.
-/

namespace Pgr.Utils

structure Stream where
  /-- The field `data`. -/
  bytes : List UInt8
  compactThreshold : ℕ
  dataOffset : ℕ
  readOffset : ℕ
  committedOffset : ℕ
  dataOffset_le : dataOffset ≤ readOffset
  readOffset_le : readOffset ≤ committedOffset
  committedOffset_eq : committedOffset = dataOffset + bytes.length

namespace Stream

theorem newOffset_le : 0 ≤ 0 :=
  le_refl 0

theorem newOffset_eq : 0 = 0 + ([] : List UInt8).length :=
  rfl

def new (compactThreshold : ℕ) : Stream where
  bytes := []
  compactThreshold := compactThreshold
  dataOffset := 0
  readOffset := 0
  committedOffset := 0
  dataOffset_le := newOffset_le
  readOffset_le := newOffset_le
  committedOffset_eq := newOffset_eq

def data (stream : Stream) : List UInt8 :=
  (stream.bytes.take (stream.committedOffset - stream.dataOffset)).drop
    (stream.readOffset - stream.dataOffset)

def write (bytes : List UInt8) (stream : Stream) : Stream where
  bytes := stream.bytes ++ bytes
  compactThreshold := stream.compactThreshold
  dataOffset := stream.dataOffset
  readOffset := stream.readOffset
  committedOffset := stream.dataOffset + (stream.bytes ++ bytes).length
  dataOffset_le := stream.dataOffset_le
  readOffset_le := by
    have hread := stream.readOffset_le
    have hcommitted := stream.committedOffset_eq
    rw [List.length_append]
    omega
  committedOffset_eq := rfl

def compact (stream : Stream) : Stream :=
  if stream.readOffset - stream.dataOffset > stream.compactThreshold then
    { stream with
      bytes := stream.bytes.drop (stream.readOffset - stream.dataOffset)
      dataOffset := stream.readOffset
      dataOffset_le := le_refl _
      committedOffset_eq := by
        have hdata := stream.dataOffset_le
        have hread := stream.readOffset_le
        have hcommitted := stream.committedOffset_eq
        rw [List.length_drop]
        omega }
  else stream

def markRead (n : ℕ) (stream : Stream) : Stream :=
  compact { stream with
    readOffset := min (stream.readOffset + n) (stream.dataOffset + stream.bytes.length)
    dataOffset_le := by
      have hdata := stream.dataOffset_le
      omega
    readOffset_le := by
      rw [stream.committedOffset_eq]
      exact min_le_right _ _ }

def markReadAll (stream : Stream) : Stream :=
  compact { stream with
    readOffset := stream.committedOffset
    dataOffset_le := stream.dataOffset_le.trans stream.readOffset_le
    readOffset_le := le_refl _ }

variable (stream : Stream)

/-- The committed part is all there is. -/
theorem data_eq_drop :
    stream.data = stream.bytes.drop (stream.readOffset - stream.dataOffset) := by
  rw [data, stream.committedOffset_eq, Nat.add_sub_cancel_left, List.take_length]

theorem length_data : stream.data.length = stream.committedOffset - stream.readOffset := by
  have hread := stream.dataOffset_le
  rw [data_eq_drop, List.length_drop, stream.committedOffset_eq]
  omega

@[simp]
theorem data_new (compactThreshold : ℕ) : (new compactThreshold).data = [] := rfl

@[simp]
theorem data_write (bytes : List UInt8) : (stream.write bytes).data = stream.data ++ bytes := by
  have hread : stream.readOffset - stream.dataOffset ≤ stream.bytes.length := by
    have hle := stream.readOffset_le
    rw [stream.committedOffset_eq] at hle
    omega
  rw [data_eq_drop, data_eq_drop, write, List.drop_append_of_le_length hread]

/-- Moving the bytes down changes nothing for the reader. -/
theorem data_compact : stream.compact.data = stream.data := by
  rw [compact]
  split_ifs with hgarbage
  · rw [data_eq_drop, data_eq_drop, Nat.sub_self, List.drop_zero]
  · rfl

@[simp]
theorem data_markRead (n : ℕ) : (stream.markRead n).data = stream.data.drop n := by
  have hdata := stream.dataOffset_le
  rw [markRead, data_compact, data_eq_drop, data_eq_drop, List.drop_drop]
  change stream.bytes.drop (min (stream.readOffset + n)
    (stream.dataOffset + stream.bytes.length) - stream.dataOffset) = _
  by_cases hn : stream.readOffset + n ≤ stream.dataOffset + stream.bytes.length
  · rw [min_eq_left hn, Nat.sub_add_comm hdata]
  · rw [min_eq_right (le_of_not_ge hn), Nat.add_sub_cancel_left, List.drop_length,
      List.drop_of_length_le]
    omega

@[simp]
theorem data_markReadAll : stream.markReadAll.data = [] := by
  rw [markReadAll, data_compact, data_eq_drop]
  change stream.bytes.drop (stream.committedOffset - stream.dataOffset) = []
  rw [stream.committedOffset_eq, Nat.add_sub_cancel_left, List.drop_length]

end Stream

end Pgr.Utils
