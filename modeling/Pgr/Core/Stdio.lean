import Mathlib

/-!
# A file with a position

The part of a stdio stream that record formats with patched lengths rest on:
bytes are read and written at a position, a write overwrites what is there and
extends the file behind its end, and the position can be moved anywhere.
-/

namespace Pgr.Stdio

structure File where
  bytes : List UInt8
  pos : ℕ

/-- The largest `off_t`. -/
def maxOffset : ℕ := 2 ^ 63 - 1

/-- What `fwrite` leaves; a gap behind the end reads as zeros. -/
def fwrite (data : List UInt8) (f : File) : File where
  bytes := f.bytes.take f.pos ++ List.replicate (f.pos - f.bytes.length) 0 ++ data ++
    f.bytes.drop (f.pos + data.length)
  pos := f.pos + data.length

/-- `fread` of bytes: what there is, up to `count`. -/
def fread (count : ℕ) (f : File) : List UInt8 × File :=
  let data := (f.bytes.drop f.pos).take count
  (data, { f with pos := f.pos + data.length })

/-- `fseeko` from the start of the file; an offset that cannot be is refused. -/
def fseeko (offset : ℤ) (f : File) : File :=
  if 0 ≤ offset ∧ offset ≤ maxOffset then { f with pos := offset.toNat } else f

/-- A file with the position at its end. -/
def atEnd (bytes : List UInt8) : File :=
  ⟨bytes, bytes.length⟩

/-- A file with the position behind `before`. -/
def behind (before after : List UInt8) : File :=
  ⟨before ++ after, before.length⟩

@[simp]
theorem atEnd_bytes (bytes : List UInt8) : (atEnd bytes).bytes = bytes := rfl

@[simp]
theorem atEnd_pos (bytes : List UInt8) : (atEnd bytes).pos = bytes.length := rfl

@[simp]
theorem behind_pos (before after : List UInt8) : (behind before after).pos = before.length := rfl

theorem behind_nil (before : List UInt8) : behind before [] = atEnd before := by
  rw [behind, List.append_nil, atEnd]

/-- A write at the end appends. -/
theorem fwrite_atEnd (data bytes : List UInt8) :
    fwrite data (atEnd bytes) = atEnd (bytes ++ data) := by
  simp [fwrite, atEnd]

/-- A write over as many bytes replaces them. -/
theorem fwrite_behind {data old : List UInt8} (hlength : old.length = data.length)
    (before after : List UInt8) :
    fwrite data (behind before (old ++ after)) = behind (before ++ data) after := by
  have hdrop : (before ++ (old ++ after)).drop (before.length + data.length) = after := by
    rw [← List.drop_drop, List.drop_left, ← hlength, List.drop_left]
  simp only [fwrite, behind, File.mk.injEq, List.length_append, and_true]
  rw [hdrop, List.take_left]
  simp

/-- A read in front of what is asked for. -/
theorem fread_behind (before data after : List UInt8) :
    fread data.length (behind before (data ++ after)) =
      (data, behind (before ++ data) after) := by
  simp [fread, behind]

theorem fread_behind_take (count : ℕ) (before after : List UInt8) :
    fread count (behind before after) =
      (after.take count, behind (before ++ after.take count) (after.drop count)) := by
  simp only [fread, behind, List.drop_left, List.append_assoc, List.take_append_drop,
    List.length_append]

theorem fread_atEnd (count : ℕ) (bytes : List UInt8) :
    fread count (atEnd bytes) = ([], atEnd bytes) := by
  simp [fread, atEnd]

theorem fseeko_of_le {offset : ℕ} (hoffset : offset ≤ maxOffset) (f : File) :
    fseeko offset f = { f with pos := offset } := by
  rw [fseeko, if_pos ⟨Int.natCast_nonneg _, by exact_mod_cast hoffset⟩, Int.toNat_natCast]

/-- Seeking to the end of a part of the file. -/
theorem fseeko_behind {before after : List UInt8} {f : File}
    (hbytes : f.bytes = before ++ after) (hlength : before.length ≤ maxOffset) :
    fseeko before.length f = behind before after := by
  rw [fseeko_of_le hlength, hbytes, behind]

end Pgr.Stdio
