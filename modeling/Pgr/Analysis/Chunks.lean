import Pgr.Core.FixedWidth

/-!
# The chunk table of the trace file

`write_trace` and `finish` of `analyzer.rs`, and `chunk_row_range` and
`get_traces` of `viewer.rs`.  The table says for every chunk of time at which
row it starts; the viewer cuts the rows of a time window out of the trace file
with it.  A float is its bits here, and the two operations on floats are
parameters: the maximum of two durations, and the chunk a time falls into.
-/

namespace Pgr.Chunks

open Pgr.FixedWidth

structure TraceRow where
  queryOffset : UInt64
  paramsOffset : UInt64
  tsSecs : UInt32
  clientId : UInt32
  durationMs : UInt32
  eventType : UInt8
  deriving DecidableEq

def rowBytes (row : TraceRow) : List UInt8 :=
  leBytes 8 row.queryOffset.toNat ++ leBytes 8 row.paramsOffset.toNat ++
    leBytes 4 row.tsSecs.toNat ++ leBytes 4 row.clientId.toNat ++
    leBytes 4 row.durationMs.toNat ++ [row.eventType]

/-- `TRACE_ROW_SIZE`. -/
def traceRowSize : ℕ := 8 + 8 + 4 + 4 + 4 + 1

/-- `CHUNK_HEADER_SIZE`. -/
def chunkHeaderSize : ℕ := 4 + 8

/-- `CHUNK_ENTRY_SIZE`. -/
def chunkEntrySize : ℕ := 4 + 8

/-- A file cannot grow beyond the greatest file offset. -/
def maxFileSize : ℕ := 2 ^ 63 - 1

inductive WriteError where
  | fileTooLarge
  deriving DecidableEq

/-- The trace file and the chunk table of a `StorageWriter`. -/
structure TraceWriter where
  traceFile : List UInt8
  chunkSecs : UInt32
  chunks : List (UInt32 × ℕ)
  traceRowCount : ℕ

def TraceWriter.new (chunkSecs : UInt32) : TraceWriter :=
  ⟨[], chunkSecs, [], 0⟩

/-- `Vec::resize` to a greater length. -/
def resize {A : Type} (length : ℕ) (value : A) (values : List A) : List A :=
  values ++ List.replicate (length - values.length) value

/-- The chunk table with an entry for the chunk: new chunks start at the next row. -/
def growChunks (idx : ℕ) (writer : TraceWriter) : List (UInt32 × ℕ) :=
  if writer.chunks.length ≤ idx then resize (idx + 1) (0, writer.traceRowCount) writer.chunks
  else writer.chunks

section Write

variable (f32Max : UInt32 → UInt32 → UInt32) (chunkIndex : UInt32 → UInt32 → ℕ)

def writeTrace (row : TraceRow) (writer : TraceWriter) : Except WriteError TraceWriter :=
  if maxFileSize < writer.traceFile.length + traceRowSize then .error .fileTooLarge
  else
    let idx := chunkIndex row.tsSecs writer.chunkSecs
    .ok { writer with
      traceFile := writer.traceFile ++ rowBytes row
      chunks := (growChunks idx writer).modify idx fun chunk =>
        (f32Max chunk.1 row.durationMs, chunk.2)
      traceRowCount := writer.traceRowCount + 1 }

def writeTraces : List TraceRow → TraceWriter → Except WriteError TraceWriter
  | [], writer => .ok writer
  | row :: rows, writer => (writeTrace f32Max chunkIndex row writer).bind (writeTraces rows)

def chunkEntryBytes (chunk : UInt32 × ℕ) : List UInt8 :=
  leBytes 4 chunk.1.toNat ++ leBytes 8 chunk.2

/-- The chunk file of `finish`. -/
def finish (writer : TraceWriter) : List UInt8 :=
  leBytes 4 writer.chunkSecs.toNat ++ leBytes 8 writer.traceRowCount ++
    writer.chunks.flatMap chunkEntryBytes

end Write

/-! ## The viewer -/

def entryStartRow (chunks : List UInt8) (i : ℕ) : ℕ :=
  leAt 8 chunks (chunkHeaderSize + i * chunkEntrySize + 4)

def chunkRowRange (chunks : List UInt8) (fromChunk toChunk : ℕ) : ℕ × ℕ :=
  let totalRows := leAt 8 chunks 4
  let numChunks := (chunks.length - chunkHeaderSize) / chunkEntrySize
  if numChunks = 0 then (0, 0)
  else
    let fromChunk := min fromChunk (numChunks - 1)
    let toChunk := min toChunk (numChunks - 1)
    (entryStartRow chunks fromChunk,
      if toChunk + 1 < numChunks then entryStartRow chunks (toChunk + 1) else totalRows)

/-- The body of the response of `get_traces`. -/
def getTraces (chunks traces : List UInt8) (fromChunk toChunk : ℕ) : List UInt8 :=
  let range := chunkRowRange chunks fromChunk toChunk
  let start := range.1 * traceRowSize
  let stop := min (range.2 * traceRowSize) traces.length
  if stop ≤ start ∨ traces.length < start then [] else (traces.take stop).drop start

/-! ## The table -/

section Table

variable {f32Max : UInt32 → UInt32 → UInt32} {chunkIndex : UInt32 → UInt32 → ℕ}
variable {rows : List TraceRow} {row : TraceRow} {writer writer' : TraceWriter}

@[simp]
theorem length_rowBytes (row : TraceRow) : (rowBytes row).length = traceRowSize := by
  simp [rowBytes, traceRowSize]

@[simp]
theorem length_chunkEntryBytes (chunk : UInt32 × ℕ) :
    (chunkEntryBytes chunk).length = chunkEntrySize := by
  simp [chunkEntryBytes, chunkEntrySize]

theorem length_flatMap_chunkEntryBytes (chunks : List (UInt32 × ℕ)) :
    (chunks.flatMap chunkEntryBytes).length = chunks.length * chunkEntrySize := by
  simp [List.length_flatMap]

/-- The first row whose chunk is not before the given one. -/
def firstRow (chunkIndex : UInt32 → UInt32 → ℕ) (chunkSecs : UInt32) (rows : List TraceRow)
    (chunk : ℕ) : ℕ :=
  rows.findIdx fun row => chunk ≤ chunkIndex row.tsSecs chunkSecs

/-- What the rows written so far have left in the writer. -/
structure Tabulates (chunkIndex : UInt32 → UInt32 → ℕ) (rows : List TraceRow)
    (writer : TraceWriter) : Prop where
  traceFile : writer.traceFile = rows.flatMap rowBytes
  traceRowCount : writer.traceRowCount = rows.length
  size : writer.traceFile.length ≤ maxFileSize
  startRows : ∀ i chunk, writer.chunks[i]? = some chunk →
    chunk.2 = firstRow chunkIndex writer.chunkSecs rows i
  covered : ∀ row ∈ rows, chunkIndex row.tsSecs writer.chunkSecs < writer.chunks.length
  needed : ∀ i < writer.chunks.length,
    ∃ row ∈ rows, i ≤ chunkIndex row.tsSecs writer.chunkSecs

theorem tabulates_new (chunkSecs : UInt32) :
    Tabulates chunkIndex [] (TraceWriter.new chunkSecs) :=
  ⟨rfl, rfl, Nat.zero_le _, nofun, nofun, nofun⟩

theorem firstRow_append_of_needed {chunkSecs : UInt32} {i : ℕ}
    (hneeded : ∃ row ∈ rows, i ≤ chunkIndex row.tsSecs chunkSecs) :
    firstRow chunkIndex chunkSecs (rows ++ [row]) i = firstRow chunkIndex chunkSecs rows i := by
  obtain ⟨earlier, hearlier, hle⟩ := hneeded
  have hfound : firstRow chunkIndex chunkSecs rows i < rows.length :=
    List.findIdx_lt_length_of_exists ⟨earlier, hearlier, by simpa using hle⟩
  rw [firstRow, List.findIdx_append]
  exact if_pos hfound

theorem firstRow_append_of_new {chunkSecs : UInt32} {i : ℕ}
    (hbefore : ∀ row ∈ rows, chunkIndex row.tsSecs chunkSecs < i)
    (hle : i ≤ chunkIndex row.tsSecs chunkSecs) :
    firstRow chunkIndex chunkSecs (rows ++ [row]) i = rows.length := by
  have hnone : rows.findIdx (fun row => decide (i ≤ chunkIndex row.tsSecs chunkSecs)) =
      rows.length :=
    List.findIdx_eq_length_of_false fun row hrow => by simpa using hbefore row hrow
  rw [firstRow, List.findIdx_append, hnone]
  simp [hle]

/-- One entry of the table after the resize. -/
theorem getElem?_resize {chunks : List (UInt32 × ℕ)} {length i : ℕ} {value chunk : UInt32 × ℕ}
    (hchunk : (resize length value chunks)[i]? = some chunk) :
    chunks[i]? = some chunk ∨ chunks.length ≤ i ∧ i < length ∧ chunk = value := by
  rw [resize] at hchunk
  by_cases hold : i < chunks.length
  · rw [List.getElem?_append_left hold] at hchunk
    exact Or.inl hchunk
  · rw [List.getElem?_append_right (Nat.le_of_not_lt hold), List.getElem?_replicate] at hchunk
    split_ifs at hchunk with hnew
    exact Or.inr ⟨Nat.le_of_not_lt hold, by omega, (Option.some.inj hchunk).symm⟩

theorem length_growChunks (idx : ℕ) (writer : TraceWriter) :
    (growChunks idx writer).length = max writer.chunks.length (idx + 1) := by
  rw [growChunks]
  split_ifs with hnew
  · simp only [resize, List.length_append, List.length_replicate]
    omega
  · omega

/-- The entries of the new table start where the rows and the new one say. -/
theorem startRow_growChunks {i : ℕ} {chunk : UInt32 × ℕ} (htab : Tabulates chunkIndex rows writer)
    (hchunk : (growChunks (chunkIndex row.tsSecs writer.chunkSecs) writer)[i]? = some chunk) :
    chunk.2 = firstRow chunkIndex writer.chunkSecs (rows ++ [row]) i := by
  have hold : writer.chunks[i]? = some chunk →
      chunk.2 = firstRow chunkIndex writer.chunkSecs (rows ++ [row]) i := fun hchunk => by
    obtain ⟨hlt, -⟩ := List.getElem?_eq_some_iff.mp hchunk
    rw [firstRow_append_of_needed (htab.needed i hlt)]
    exact htab.startRows i chunk hchunk
  rw [growChunks] at hchunk
  split_ifs at hchunk with hnew
  · rcases getElem?_resize hchunk with hbefore | ⟨hle, hlt, rfl⟩
    · exact hold hbefore
    · rw [firstRow_append_of_new (fun earlier hearlier =>
        (htab.covered earlier hearlier).trans_le hle) (Nat.lt_succ_iff.mp hlt)]
      exact htab.traceRowCount
  · exact hold hchunk

/-- Raising a duration keeps the start row. -/
theorem getElem?_modify_duration {chunks : List (UInt32 × ℕ)} {idx i : ℕ} {duration : UInt32}
    {chunk : UInt32 × ℕ}
    (hchunk : (chunks.modify idx fun chunk => (f32Max chunk.1 duration, chunk.2))[i]? =
      some chunk) : ∃ old, chunks[i]? = some old ∧ chunk.2 = old.2 := by
  rw [List.getElem?_modify] at hchunk
  obtain ⟨old, hold, rfl⟩ := Option.map_eq_some_iff.mp hchunk
  refine ⟨old, hold, ?_⟩
  split_ifs <;> rfl

theorem Tabulates.writeTrace (htab : Tabulates chunkIndex rows writer)
    (hwrite : writeTrace f32Max chunkIndex row writer = .ok writer') :
    Tabulates chunkIndex (rows ++ [row]) writer' ∧ writer'.chunkSecs = writer.chunkSecs := by
  rw [Chunks.writeTrace] at hwrite
  split_ifs at hwrite with hfull
  cases hwrite
  refine ⟨?_, rfl⟩
  constructor
  · simp [htab.traceFile]
  · simp [htab.traceRowCount]
  · simpa using Nat.le_of_not_lt hfull
  · intro i chunk hchunk
    obtain ⟨old, hold, hstart⟩ := getElem?_modify_duration hchunk
    have hgrown : old.2 = firstRow chunkIndex writer.chunkSecs (rows ++ [row]) i :=
      startRow_growChunks htab hold
    exact hstart.trans hgrown
  · intro earlier hearlier
    simp only [List.length_modify, length_growChunks]
    rcases List.mem_append.mp hearlier with hbefore | hnew
    · exact lt_max_of_lt_left (htab.covered earlier hbefore)
    · rw [List.mem_singleton.mp hnew]
      exact lt_max_of_lt_right (Nat.lt_succ_self _)
  · intro i hi
    simp only [List.length_modify, length_growChunks] at hi
    rcases lt_max_iff.mp hi with hold | hnew
    · obtain ⟨earlier, hearlier, hle⟩ := htab.needed i hold
      exact ⟨earlier, List.mem_append_left _ hearlier, hle⟩
    · exact ⟨row, List.mem_append_right _ List.mem_cons_self, Nat.lt_succ_iff.mp hnew⟩

theorem Tabulates.writeTraces {later : List TraceRow} (htab : Tabulates chunkIndex rows writer)
    (hwrite : writeTraces f32Max chunkIndex later writer = .ok writer') :
    Tabulates chunkIndex (rows ++ later) writer' ∧ writer'.chunkSecs = writer.chunkSecs := by
  induction later generalizing rows writer with
  | nil =>
      cases hwrite
      exact ⟨by rwa [List.append_nil], rfl⟩
  | cons row later ih =>
      rw [Chunks.writeTraces] at hwrite
      cases hfirst : Chunks.writeTrace f32Max chunkIndex row writer with
      | error failure =>
          rw [hfirst] at hwrite
          nomatch hwrite
      | ok middle =>
          rw [hfirst] at hwrite
          obtain ⟨hmiddle, hsecs⟩ := htab.writeTrace hfirst
          obtain ⟨hlast, hsame⟩ := ih hmiddle hwrite
          rw [List.append_assoc] at hlast
          exact ⟨hlast, hsame.trans hsecs⟩

/-! ## The lookup -/

/-- Rows and start rows fit their fields, as a trace file is not that long. -/
theorem Tabulates.length_lt (htab : Tabulates chunkIndex rows writer) :
    rows.length < 256 ^ 8 := by
  have hsize := htab.size
  have hlength : (rows.flatMap rowBytes).length = rows.length * traceRowSize := by
    simp [List.length_flatMap]
  rw [htab.traceFile, hlength, maxFileSize, traceRowSize] at hsize
  omega

theorem length_finish (writer : TraceWriter) :
    (finish writer).length = chunkHeaderSize + writer.chunks.length * chunkEntrySize := by
  rw [finish, List.length_append, length_flatMap_chunkEntryBytes]
  simp [chunkHeaderSize]

theorem totalRows_finish (htab : Tabulates chunkIndex rows writer) :
    leAt 8 (finish writer) 4 = rows.length := by
  have hlength : writer.traceRowCount < 256 ^ 8 := by
    rw [htab.traceRowCount]
    exact htab.length_lt
  have hread := leAt_append (leBytes 4 writer.chunkSecs.toNat)
    (writer.chunks.flatMap chunkEntryBytes) hlength
  rw [length_leBytes, ← List.append_assoc] at hread
  exact hread.trans htab.traceRowCount

theorem entryStartRow_finish {i : ℕ} (htab : Tabulates chunkIndex rows writer)
    (hi : i < writer.chunks.length) :
    entryStartRow (finish writer) i = firstRow chunkIndex writer.chunkSecs rows i := by
  have hstart := htab.startRows i writer.chunks[i] (List.getElem?_eq_getElem hi)
  have hlt : writer.chunks[i].2 < 256 ^ 8 := by
    rw [hstart]
    exact List.findIdx_le_length.trans_lt htab.length_lt
  have hsplit : finish writer =
      (leBytes 4 writer.chunkSecs.toNat ++ leBytes 8 writer.traceRowCount ++
        (writer.chunks.take i).flatMap chunkEntryBytes ++ leBytes 4 writer.chunks[i].1.toNat) ++
      (leBytes 8 writer.chunks[i].2 ++ (writer.chunks.drop (i + 1)).flatMap chunkEntryBytes) := by
    rw [finish]
    conv_lhs => rw [← List.take_append_drop i writer.chunks, List.drop_eq_getElem_cons hi]
    simp only [List.flatMap_append, List.flatMap_cons, chunkEntryBytes, List.append_assoc]
  have hhead : (leBytes 4 writer.chunkSecs.toNat ++ leBytes 8 writer.traceRowCount ++
      (writer.chunks.take i).flatMap chunkEntryBytes ++
      leBytes 4 writer.chunks[i].1.toNat).length = chunkHeaderSize + i * chunkEntrySize + 4 := by
    simp only [List.length_append, length_leBytes, length_flatMap_chunkEntryBytes,
      List.length_take, chunkHeaderSize, Nat.min_eq_left hi.le]
  rw [entryStartRow, ← hhead, hsplit, leAt_append _ _ hlt]
  exact hstart

theorem numChunks_finish (writer : TraceWriter) :
    ((finish writer).length - chunkHeaderSize) / chunkEntrySize = writer.chunks.length := by
  rw [length_finish, Nat.add_sub_cancel_left]
  exact Nat.mul_div_cancel _ (by decide)

/-- The row is in the range that the viewer looks up for the chunks. -/
def InRange (writer : TraceWriter) (fromChunk toChunk i : ℕ) : Prop :=
  (chunkRowRange (finish writer) fromChunk toChunk).1 ≤ i ∧
    i < (chunkRowRange (finish writer) fromChunk toChunk).2

/-- Every row of the chunks of a window is in the range of the window. -/
def FindsEveryRow (chunkIndex : UInt32 → UInt32 → ℕ) (rows : List TraceRow)
    (writer : TraceWriter) : Prop :=
  ∀ fromChunk toChunk, fromChunk ≤ toChunk → ∀ i row, rows[i]? = some row →
    fromChunk ≤ chunkIndex row.tsSecs writer.chunkSecs →
    chunkIndex row.tsSecs writer.chunkSecs ≤ toChunk → InRange writer fromChunk toChunk i

/-- A window that begins at the chunk of a row: the range starts at or before it. -/
theorem start_le {fromChunk toChunk i : ℕ} (htab : Tabulates chunkIndex rows writer)
    (hrow : rows[i]? = some row) (hfrom : fromChunk ≤ chunkIndex row.tsSecs writer.chunkSecs) :
    (chunkRowRange (finish writer) fromChunk toChunk).1 ≤ i := by
  obtain ⟨hi, rfl⟩ := List.getElem?_eq_some_iff.mp hrow
  have hcovered := htab.covered rows[i] (List.getElem_mem hi)
  have hmin : min fromChunk (writer.chunks.length - 1) = fromChunk := by omega
  simp only [chunkRowRange, numChunks_finish]
  rw [if_neg (by omega), hmin, entryStartRow_finish htab (by omega)]
  by_contra hlt
  have hbefore := (List.lt_findIdx_iff rows _ i).mp (Nat.lt_of_not_le hlt)
  exact absurd hfrom (by simpa using hbefore.2 i (Nat.le_refl i))

/-- The range ends at the first row of a later chunk, or with the last row. -/
theorem lt_stop_iff {fromChunk toChunk i : ℕ} (htab : Tabulates chunkIndex rows writer)
    (hi : i < rows.length) :
    i < (chunkRowRange (finish writer) fromChunk toChunk).2 ↔
      ∀ j (hj : j < rows.length), j ≤ i →
        chunkIndex rows[j].tsSecs writer.chunkSecs ≤ toChunk ∨
          writer.chunks.length ≤ toChunk + 1 := by
  have hcovered := htab.covered rows[i] (List.getElem_mem hi)
  simp only [chunkRowRange, numChunks_finish]
  rw [if_neg (by omega)]
  by_cases hlast : toChunk + 1 < writer.chunks.length
  · have hmin : min toChunk (writer.chunks.length - 1) = toChunk := by omega
    simp only [hmin]
    rw [if_pos hlast, entryStartRow_finish htab hlast, firstRow, List.lt_findIdx_iff]
    constructor
    · rintro ⟨_, hbefore⟩ j hj hji
      exact Or.inl (Nat.lt_succ_iff.mp (by simpa using hbefore j hji))
    · intro hbefore
      refine ⟨hi, fun j hji => ?_⟩
      rcases hbefore j (by omega) hji with hle | hfew
      · simpa using Nat.lt_succ_iff.mpr hle
      · omega
  · rw [if_neg (by omega), totalRows_finish htab]
    exact ⟨fun _ _ _ _ => Or.inr (Nat.le_of_not_lt hlast), fun _ => hi⟩

/-- The viewer finds every row of every window if and only if the rows were written
in the order of their chunks. -/
theorem findsEveryRow_iff {chunkSecs : UInt32}
    (hwrite : writeTraces f32Max chunkIndex rows (TraceWriter.new chunkSecs) = .ok writer) :
    FindsEveryRow chunkIndex rows writer ↔
      rows.Pairwise fun earlier later =>
        chunkIndex earlier.tsSecs chunkSecs ≤ chunkIndex later.tsSecs chunkSecs := by
  obtain ⟨htab, hsecs⟩ := (tabulates_new chunkSecs).writeTraces hwrite
  rw [List.nil_append] at htab
  have hsecs : writer.chunkSecs = chunkSecs := hsecs
  rw [List.pairwise_iff_getElem, ← hsecs]
  constructor
  · intro hfinds i j hi hj hij
    have hinRange := hfinds _ _ (Nat.le_refl _) j rows[j] (List.getElem?_eq_getElem hj)
      (Nat.le_refl _) (Nat.le_refl _)
    rcases (lt_stop_iff htab hj).mp hinRange.2 i hi hij.le with hle | hlast
    · exact hle
    · have hcovered := htab.covered rows[i] (List.getElem_mem hi)
      omega
  · intro hsorted fromChunk toChunk _ i row hrow hfrom hto
    obtain ⟨hi, rfl⟩ := List.getElem?_eq_some_iff.mp hrow
    refine ⟨start_le htab hrow hfrom, (lt_stop_iff htab hi).mpr fun j hj hji => Or.inl ?_⟩
    rcases hji.eq_or_lt with rfl | hlt
    · exact hto
    · exact (hsorted j i hj hi hlt).trans hto

theorem take_flatMap_rowBytes (rows : List TraceRow) (count : ℕ) :
    (rows.flatMap rowBytes).take (count * traceRowSize) = (rows.take count).flatMap rowBytes := by
  induction count generalizing rows with
  | zero => simp
  | succ count ih =>
      cases rows with
      | nil => simp
      | cons row rows =>
          have hsize : (count + 1) * traceRowSize = (rowBytes row).length + count * traceRowSize := by
            rw [length_rowBytes, Nat.succ_mul, Nat.add_comm]
          rw [List.flatMap_cons, hsize, List.take_length_add_append, ih, List.take_succ_cons,
            List.flatMap_cons]

theorem drop_flatMap_rowBytes (rows : List TraceRow) (count : ℕ) :
    (rows.flatMap rowBytes).drop (count * traceRowSize) = (rows.drop count).flatMap rowBytes := by
  induction count generalizing rows with
  | zero => simp
  | succ count ih =>
      cases rows with
      | nil => simp
      | cons row rows =>
          have hsize : (count + 1) * traceRowSize = (rowBytes row).length + count * traceRowSize := by
            rw [length_rowBytes, Nat.succ_mul, Nat.add_comm]
          rw [List.flatMap_cons, hsize, List.drop_length_add_append, ih, List.drop_succ_cons]

/-- `get_traces` sends the rows of the range. -/
theorem getTraces_finish {fromChunk toChunk : ℕ} (htab : Tabulates chunkIndex rows writer) :
    getTraces (finish writer) writer.traceFile fromChunk toChunk =
      ((rows.take (chunkRowRange (finish writer) fromChunk toChunk).2).drop
        (chunkRowRange (finish writer) fromChunk toChunk).1).flatMap rowBytes := by
  have hlength : writer.traceFile.length = rows.length * traceRowSize := by
    rw [htab.traceFile]
    simp [List.length_flatMap]
  have htake : ∀ count, writer.traceFile.take (min (count * traceRowSize) writer.traceFile.length) =
      (rows.take count).flatMap rowBytes := fun count => by
    rw [← take_flatMap_rowBytes, ← htab.traceFile, List.take_eq_take_iff]
    omega
  simp only [getTraces]
  rw [htake, drop_flatMap_rowBytes]
  split_ifs with hempty
  · rw [List.drop_eq_nil_of_le, List.flatMap_nil]
    rw [List.length_take]
    rw [hlength] at hempty
    simp only [traceRowSize] at hempty
    omega
  · rfl

end Table

/-! ## Two rows in chunks of one second -/

/-- `0.0` lies in the first chunk, `1.0` in the second. -/
def secondChunk (tsSecs _chunkSecs : UInt32) : ℕ :=
  if tsSecs = 0 then 0 else 1

/-- A row at the second of the given bits. -/
def rowAt (tsSecs : UInt32) : TraceRow :=
  ⟨0, 0, tsSecs, 1, 0, 0⟩

/-- The bits of `1.0`. -/
def oneSecond : UInt32 := 0x3F800000

theorem findsEveryRow_inOrder : ∃ writer,
    writeTraces max secondChunk [rowAt 0, rowAt oneSecond] (TraceWriter.new oneSecond) =
      .ok writer ∧ FindsEveryRow secondChunk [rowAt 0, rowAt oneSecond] writer := by
  have hsorted : [rowAt 0, rowAt oneSecond].Pairwise fun earlier later =>
      secondChunk earlier.tsSecs oneSecond ≤ secondChunk later.tsSecs oneSecond := by decide
  exact ⟨_, rfl, (findsEveryRow_iff rfl).mpr hsorted⟩

/-- The row of the first chunk comes second, and no window but the whole finds it. -/
theorem not_findsEveryRow_backwards : ∃ writer,
    writeTraces max secondChunk [rowAt oneSecond, rowAt 0] (TraceWriter.new oneSecond) =
      .ok writer ∧ ¬FindsEveryRow secondChunk [rowAt oneSecond, rowAt 0] writer ∧
        chunkRowRange (finish writer) 0 0 = (0, 0) := by
  have hrange : ∃ writer,
      writeTraces max secondChunk [rowAt oneSecond, rowAt 0] (TraceWriter.new oneSecond) =
        .ok writer ∧ chunkRowRange (finish writer) 0 0 = (0, 0) := ⟨_, rfl, by decide +kernel⟩
  obtain ⟨writer, hwrite, hrange⟩ := hrange
  refine ⟨writer, hwrite, fun hfinds => ?_, hrange⟩
  have hinRange := hfinds 0 0 (Nat.le_refl 0) 1 (rowAt 0) rfl (Nat.zero_le _) (Nat.le_refl 0)
  rw [InRange, hrange] at hinRange
  exact absurd hinRange.2 (Nat.not_lt_zero 1)

end Pgr.Chunks
