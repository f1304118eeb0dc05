import Pgr.Analysis.Chunks
import Pgr.Pipeline.QueriesFile

/-!
# The chart of the viewer

`parseChunks` and `parseTraces` of `api.ts`, and `selectChunk` of `main.ts`.  The chart has a
bar for each chunk of the table, and a click on one asks for the rows of this chunk and its
two neighbours.  A float is its bits here, as in the tables.
-/

namespace Pgr.ViewerChart

open Pgr.FixedWidth Pgr.Decoding Pgr.Viewer Pgr.QueriesFile Pgr.Chunks

/-- A row as the page has it. -/
structure ShownRow where
  queryOffset : ℕ
  paramsOffset : ℕ
  tsSecs : UInt32
  clientId : UInt32
  durationMs : UInt32
  eventType : UInt8
  deriving DecidableEq

def getUint8 : ViewReader UInt8 := do
  let value ← getUint 1
  pure (UInt8.ofNat value)

def parseTraceRow : ViewReader ShownRow := do
  let queryOffset ← getUint 8
  let paramsOffset ← getUint 8
  let tsSecs ← getUint32
  let clientId ← getUint32
  let durationMs ← getUint32
  let eventType ← getUint8
  pure ⟨numberOfBigInt queryOffset, numberOfBigInt paramsOffset, tsSecs, clientId, durationMs,
    eventType⟩

/-- `parseTraces`; there is no array of a length that is not whole. -/
def parseTraces (buf : List UInt8) : Option (List ShownRow) :=
  if buf.length % traceRowSize ≠ 0 then none
  else
    match readMany parseTraceRow (buf.length / traceRowSize) buf with
    | .ok rows _ => some rows
    | .error _ _ => none

structure ChunkData where
  chunkSeconds : UInt32
  durations : List UInt32
  startRows : List ℕ
  deriving DecidableEq

def parseChunk : ViewReader (UInt32 × ℕ) := do
  let duration ← getUint32
  let startRow ← getUint 8
  pure (duration, numberOfBigInt startRow)

def parseChunkData (numChunks : ℕ) : ViewReader ChunkData := do
  let chunkSeconds ← getUint32
  let _totalRows ← getUint 8
  let chunks ← readMany parseChunk numChunks
  pure ⟨chunkSeconds, chunks.map Prod.fst, chunks.map Prod.snd⟩

/-- `parseChunks`; a piece of an entry at the end is read past the end. -/
def parseChunks (buf : List UInt8) : Option ChunkData :=
  if (buf.length - 12) % 12 ≠ 0 then none
  else
    match parseChunkData ((buf.length - 12) / 12) buf with
    | .ok data _ => some data
    | .error _ _ => none

/-- The rows that `selectChunk` shows. -/
def selectChunk (chunks traces : List UInt8) (idx : ℕ) : Option (List ShownRow) :=
  parseTraces (getTraces chunks traces (idx - 1) (idx + 1))

/-! ## Rows -/

def shown (row : TraceRow) : ShownRow where
  queryOffset := numberOfBigInt row.queryOffset.toNat
  paramsOffset := numberOfBigInt row.paramsOffset.toNat
  tsSecs := row.tsSecs
  clientId := row.clientId
  durationMs := row.durationMs
  eventType := row.eventType

theorem decodes_getUint8 (byte : UInt8) : Decodes .outOfBounds getUint8 [byte] byte := by
  have hbyte := (decodes_getUint 1 byte.toNat_lt).bind_pure (f := UInt8.ofNat)
  have hone : leBytes 1 byte.toNat = [byte] := by
    simp [leBytes]
  rwa [UInt8.ofNat_toNat, hone] at hbyte

theorem decodes_parseTraceRow (row : TraceRow) :
    Decodes .outOfBounds parseTraceRow (rowBytes row) (shown row) := by
  simp only [rowBytes, List.append_assoc]
  apply (decodes_getUint 8 row.queryOffset.toNat_lt).bind
  apply (decodes_getUint 8 row.paramsOffset.toNat_lt).bind
  apply (decodes_getUint32 row.tsSecs).bind
  apply (decodes_getUint32 row.clientId).bind
  apply (decodes_getUint32 row.durationMs).bind
  exact (decodes_getUint8 row.eventType).bind_pure

theorem parseTraces_rows (rows : List TraceRow) :
    parseTraces (rows.flatMap rowBytes) = some (rows.map shown) := by
  have hlength : (rows.flatMap rowBytes).length = rows.length * traceRowSize := by
    simp [List.length_flatMap]
  have hread := (Decodes.readMany fun row (_ : row ∈ rows) => decodes_parseTraceRow row).run
  rw [parseTraces, hlength, Nat.mul_mod_left, if_neg (by decide),
    Nat.mul_div_cancel _ (by decide), hread]

/-! ## A window of sorted rows -/

/-- The items of a range of indices, when a test holds exactly there. -/
theorem drop_take_eq_filter {A : Type} (test : A → Bool) (items : List A) {start stop : ℕ}
    (htest : ∀ i (hi : i < items.length), test items[i] = true ↔ start ≤ i ∧ i < stop) :
    (items.take stop).drop start = items.filter test := by
  induction items generalizing start stop with
  | nil => simp
  | cons item items ih =>
      have hhead := htest 0 (Nat.succ_pos _)
      have htail : ∀ i (hi : i < items.length), test items[i] = true ↔
          start ≤ i + 1 ∧ i + 1 < stop := fun i hi => htest (i + 1) (Nat.succ_lt_succ hi)
      rw [List.getElem_cons_zero] at hhead
      cases stop with
      | zero =>
          have hrest := @ih (start - 1) 0 fun i hi => by
            rw [htail i hi]
            omega
          rw [List.filter_cons_of_neg (by simp [hhead]), ← hrest]
          simp
      | succ stop =>
          have hrest := @ih (start - 1) stop fun i hi => by
            rw [htail i hi]
            omega
          cases start with
          | zero =>
              rw [List.filter_cons_of_pos (hhead.mpr ⟨Nat.le_refl 0, Nat.succ_pos stop⟩), ← hrest]
              rfl
          | succ start =>
              rw [List.filter_cons_of_neg (by simp [hhead]), ← hrest]
              rfl

section Window

variable {f32Max : UInt32 → UInt32 → UInt32} {chunkIndex : UInt32 → UInt32 → ℕ}
variable {rows : List TraceRow} {writer : TraceWriter} {fromChunk toChunk : ℕ}

/-- Rows in the order of their chunks: a range has the rows of its window and no others. -/
theorem inRange_iff (htab : Tabulates chunkIndex rows writer)
    (hsorted : rows.Pairwise fun earlier later =>
      chunkIndex earlier.tsSecs writer.chunkSecs ≤ chunkIndex later.tsSecs writer.chunkSecs)
    (hfrom : fromChunk < writer.chunks.length) {i : ℕ} (hi : i < rows.length) :
    InRange writer fromChunk toChunk i ↔
      fromChunk ≤ chunkIndex rows[i].tsSecs writer.chunkSecs ∧
        chunkIndex rows[i].tsSecs writer.chunkSecs ≤ toChunk := by
  have hcovered := htab.covered rows[i] (List.getElem_mem hi)
  have hordered := List.pairwise_iff_getElem.mp hsorted
  constructor
  · rintro ⟨hstart, hstop⟩
    constructor
    · -- The range starts at the first row that is not before the window.
      have hmin : min fromChunk (writer.chunks.length - 1) = fromChunk := by omega
      simp only [chunkRowRange, numChunks_finish] at hstart
      rw [if_neg (by omega), hmin, entryStartRow_finish htab hfrom, firstRow] at hstart
      have hfound := List.findIdx_getElem (w := hstart.trans_lt hi)
      have hfirst := of_decide_eq_true hfound
      rcases hstart.eq_or_lt with hsame | hlater
      · subst hsame
        exact hfirst
      · exact hfirst.trans (hordered _ i _ hi hlater)
    · rcases (lt_stop_iff htab hi).mp hstop i hi (Nat.le_refl i) with hle | hfew
      · exact hle
      · omega
  · rintro ⟨hle, hge⟩
    refine ⟨start_le htab (List.getElem?_eq_getElem hi) hle, ?_⟩
    apply (lt_stop_iff htab hi).mpr
    intro j hj hji
    left
    rcases hji.eq_or_lt with rfl | hlt
    · exact hge
    · exact (hordered j i hj hi hlt).trans hge

/-- A click on a bar shows the rows of its chunk and of the two next to it, each of them
and in their order, when the rows have been written in the order of their chunks. -/
theorem selectChunk_shows_window {chunkSecs : UInt32} {idx : ℕ}
    (hwrite : writeTraces f32Max chunkIndex rows (TraceWriter.new chunkSecs) = .ok writer)
    (hsorted : rows.Pairwise fun earlier later =>
      chunkIndex earlier.tsSecs chunkSecs ≤ chunkIndex later.tsSecs chunkSecs)
    (hidx : idx < writer.chunks.length) :
    selectChunk (finish writer) writer.traceFile idx =
      some ((rows.filter fun row =>
        idx - 1 ≤ chunkIndex row.tsSecs chunkSecs ∧ chunkIndex row.tsSecs chunkSecs ≤ idx + 1).map
          shown) := by
  obtain ⟨htab, hsecs⟩ := (tabulates_new chunkSecs).writeTraces hwrite
  rw [List.nil_append] at htab
  have hsecs : writer.chunkSecs = chunkSecs := hsecs
  subst hsecs
  have hwindow := drop_take_eq_filter (fun row => decide
    (idx - 1 ≤ chunkIndex row.tsSecs writer.chunkSecs ∧
      chunkIndex row.tsSecs writer.chunkSecs ≤ idx + 1)) rows fun i hi => by
    rw [decide_eq_true_iff]
    exact (inRange_iff htab hsorted (by omega) hi).symm
  rw [selectChunk, getTraces_finish htab, parseTraces_rows, hwindow]

/-! ## Bars -/

/-- The greatest duration of the rows of a chunk, as `write_trace` compares them. -/
def barOf (f32Max : UInt32 → UInt32 → UInt32) (chunkIndex : UInt32 → UInt32 → ℕ)
    (chunkSecs : UInt32) (rows : List TraceRow) (i : ℕ) : UInt32 :=
  ((rows.filter fun row => chunkIndex row.tsSecs chunkSecs = i).map TraceRow.durationMs).foldl
    f32Max 0

def HasBars (f32Max : UInt32 → UInt32 → UInt32) (chunkIndex : UInt32 → UInt32 → ℕ)
    (rows : List TraceRow) (writer : TraceWriter) : Prop :=
  ∀ i chunk, writer.chunks[i]? = some chunk →
    chunk.1 = barOf f32Max chunkIndex writer.chunkSecs rows i

theorem barOf_append {chunkSecs : UInt32} {row : TraceRow} {i : ℕ} :
    barOf f32Max chunkIndex chunkSecs (rows ++ [row]) i =
      if chunkIndex row.tsSecs chunkSecs = i
        then f32Max (barOf f32Max chunkIndex chunkSecs rows i) row.durationMs
        else barOf f32Max chunkIndex chunkSecs rows i := by
  rw [barOf, List.filter_append]
  by_cases hchunk : chunkIndex row.tsSecs chunkSecs = i
  · rw [if_pos hchunk, List.filter_cons_of_pos (by simpa using hchunk), List.filter_nil,
      List.map_append, List.foldl_append]
    rfl
  · rw [if_neg hchunk, List.filter_cons_of_neg (by simpa using hchunk), List.filter_nil,
      List.append_nil]
    rfl

/-- A chunk behind all rows has no bar yet. -/
theorem barOf_of_new {chunkSecs : UInt32} {i : ℕ}
    (hbefore : ∀ row ∈ rows, chunkIndex row.tsSecs chunkSecs < i) :
    barOf f32Max chunkIndex chunkSecs rows i = 0 := by
  have hnone : (rows.filter fun row => chunkIndex row.tsSecs chunkSecs = i) = [] := by
    apply List.filter_eq_nil_iff.mpr
    intro row hrow
    simpa using (hbefore row hrow).ne
  rw [barOf, hnone]
  rfl

/-- The entries of the table for the next row, before its duration is noted. -/
theorem bar_growChunks {idx i : ℕ} {chunk : UInt32 × ℕ} (htab : Tabulates chunkIndex rows writer)
    (hbars : HasBars f32Max chunkIndex rows writer)
    (hchunk : (growChunks idx writer)[i]? = some chunk) :
    chunk.1 = barOf f32Max chunkIndex writer.chunkSecs rows i := by
  rw [growChunks] at hchunk
  split_ifs at hchunk with hnew
  · rcases getElem?_resize hchunk with hbefore | ⟨hle, -, rfl⟩
    · exact hbars i chunk hbefore
    · rw [barOf_of_new fun row hrow => (htab.covered row hrow).trans_le hle]
  · exact hbars i chunk hchunk

theorem HasBars.writeTrace {row : TraceRow} {writer' : TraceWriter}
    (hbars : HasBars f32Max chunkIndex rows writer) (htab : Tabulates chunkIndex rows writer)
    (hwrite : writeTrace f32Max chunkIndex row writer = .ok writer') :
    HasBars f32Max chunkIndex (rows ++ [row]) writer' := by
  rw [Chunks.writeTrace] at hwrite
  split_ifs at hwrite with hfull
  cases hwrite
  intro i chunk hchunk
  dsimp only at hchunk
  rw [List.getElem?_modify] at hchunk
  obtain ⟨old, hold, rfl⟩ := Option.map_eq_some_iff.mp hchunk
  have hbar := bar_growChunks htab hbars hold
  dsimp only
  rw [barOf_append]
  by_cases hsame : chunkIndex row.tsSecs writer.chunkSecs = i
  · rw [if_pos hsame, if_pos hsame, ← hbar]
  · rw [if_neg hsame, if_neg hsame]
    exact hbar

theorem HasBars.writeTraces {later : List TraceRow} {writer' : TraceWriter}
    (hbars : HasBars f32Max chunkIndex rows writer) (htab : Tabulates chunkIndex rows writer)
    (hwrite : writeTraces f32Max chunkIndex later writer = .ok writer') :
    HasBars f32Max chunkIndex (rows ++ later) writer' := by
  induction later generalizing rows writer with
  | nil =>
      cases hwrite
      rwa [List.append_nil]
  | cons row later ih =>
      rw [Chunks.writeTraces] at hwrite
      cases hfirst : Chunks.writeTrace f32Max chunkIndex row writer with
      | error failure =>
          rw [hfirst] at hwrite
          cases hwrite
      | ok middle =>
          rw [hfirst] at hwrite
          have hlast := ih (hbars.writeTrace htab hfirst) (htab.writeTrace hfirst).1 hwrite
          rwa [List.append_assoc] at hlast

theorem decodes_parseChunk {chunk : UInt32 × ℕ} (hstart : chunk.2 < 256 ^ 8) :
    Decodes .outOfBounds parseChunk (chunkEntryBytes chunk) (chunk.1, numberOfBigInt chunk.2) :=
  (decodes_getUint32 chunk.1).bind (decodes_getUint 8 hstart).bind_pure

theorem parseChunks_table {secs : UInt32} {total : ℕ} {chunks : List (UInt32 × ℕ)}
    (htotal : total < 256 ^ 8) (hstarts : ∀ chunk ∈ chunks, chunk.2 < 256 ^ 8) :
    parseChunks (leBytes 4 secs.toNat ++ leBytes 8 total ++ chunks.flatMap chunkEntryBytes) =
      some ⟨secs, chunks.map Prod.fst, chunks.map fun chunk => numberOfBigInt chunk.2⟩ := by
  have hlength : (leBytes 4 secs.toNat ++ leBytes 8 total ++
      chunks.flatMap chunkEntryBytes).length - 12 = chunks.length * 12 := by
    rw [List.length_append, length_flatMap_chunkEntryBytes]
    simp [chunkEntrySize]
  have hchunks := Decodes.readMany fun chunk hchunk => decodes_parseChunk (hstarts chunk hchunk)
  have hread : Decodes .outOfBounds (parseChunkData chunks.length)
      (leBytes 4 secs.toNat ++ leBytes 8 total ++ chunks.flatMap chunkEntryBytes)
      ⟨secs, chunks.map Prod.fst, chunks.map fun chunk => numberOfBigInt chunk.2⟩ := by
    rw [List.append_assoc]
    apply (decodes_getUint32 secs).bind
    apply (decodes_getUint 8 htotal).bind
    have hdata := hchunks.bind_pure (f := fun parsed : List (UInt32 × ℕ) =>
      (⟨secs, parsed.map Prod.fst, parsed.map Prod.snd⟩ : ChunkData))
    simpa only [List.map_map, Function.comp_def] using hdata
  rw [parseChunks, hlength, Nat.mul_mod_left, if_neg (by decide),
    Nat.mul_div_cancel _ (by decide), hread.run]

/-- The chart has a bar for each chunk up to the last that has a row, the greatest duration
of its rows, and knows the first row that is not before the chunk. -/
theorem parseChunks_shows_bars {chunkSecs : UInt32}
    (hwrite : writeTraces f32Max chunkIndex rows (TraceWriter.new chunkSecs) = .ok writer) :
    ∃ numChunks, (∀ i, i < numChunks ↔ ∃ row ∈ rows, i ≤ chunkIndex row.tsSecs chunkSecs) ∧
      parseChunks (finish writer) = some {
        chunkSeconds := chunkSecs
        durations := (List.range numChunks).map (barOf f32Max chunkIndex chunkSecs rows)
        startRows := (List.range numChunks).map fun i =>
          numberOfBigInt (firstRow chunkIndex chunkSecs rows i) } := by
  obtain ⟨htab, hsecs⟩ := (tabulates_new chunkSecs).writeTraces hwrite
  have hnone : HasBars f32Max chunkIndex [] (TraceWriter.new chunkSecs) := by
    rintro i chunk ⟨⟩
  have hbars := hnone.writeTraces (tabulates_new chunkSecs) hwrite
  rw [List.nil_append] at htab hbars
  have hsecs : writer.chunkSecs = chunkSecs := hsecs
  subst hsecs
  have hlt : rows.length < 256 ^ 8 := htab.length_lt
  refine ⟨writer.chunks.length, fun i => ⟨htab.needed i, ?_⟩, ?_⟩
  · rintro ⟨row, hrow, hle⟩
    exact hle.trans_lt (htab.covered row hrow)
  · have htotal : writer.traceRowCount < 256 ^ 8 := by
      rw [htab.traceRowCount]
      exact hlt
    have hstarts : ∀ chunk ∈ writer.chunks, chunk.2 < 256 ^ 8 := by
      intro chunk hchunk
      obtain ⟨i, hi⟩ := List.getElem?_of_mem hchunk
      rw [htab.startRows i chunk hi]
      exact List.findIdx_le_length.trans_lt hlt
    rw [finish, parseChunks_table htotal hstarts]
    have hcolumn : ∀ {B : Type} (f : UInt32 × ℕ → B) (g : ℕ → B),
        (∀ i chunk, writer.chunks[i]? = some chunk → f chunk = g i) →
          writer.chunks.map f = (List.range writer.chunks.length).map g := by
      intro B f g hfg
      apply List.ext_getElem
      · simp
      · intro i hleft hright
        have hi : i < writer.chunks.length := by simpa using hright
        rw [List.getElem_map, List.getElem_map, List.getElem_range]
        exact hfg i _ (List.getElem?_eq_getElem hi)
    rw [hcolumn _ _ hbars, hcolumn _ _ fun i chunk hchunk =>
      congrArg numberOfBigInt (htab.startRows i chunk hchunk)]

end Window

/-! ## Two rows in chunks of one second -/

theorem selectChunk_shows_window_inOrder : ∃ writer,
    writeTraces max secondChunk [rowAt 0, rowAt oneSecond] (TraceWriter.new oneSecond) =
      .ok writer ∧ selectChunk (finish writer) writer.traceFile 1 =
        some [shown (rowAt 0), shown (rowAt oneSecond)] := by
  have hsorted : [rowAt 0, rowAt oneSecond].Pairwise fun earlier later =>
      secondChunk earlier.tsSecs oneSecond ≤ secondChunk later.tsSecs oneSecond := by decide
  exact ⟨_, rfl, selectChunk_shows_window rfl hsorted (Nat.lt_succ_self 1)⟩

theorem parseChunks_shows_bars_inOrder : ∃ writer,
    writeTraces max secondChunk [rowAt 0, rowAt oneSecond] (TraceWriter.new oneSecond) =
      .ok writer ∧ ∃ data, parseChunks (finish writer) = some data ∧
        data.chunkSeconds = oneSecond := by
  obtain ⟨numChunks, -, hdata⟩ :=
    @parseChunks_shows_bars max secondChunk [rowAt 0, rowAt oneSecond] _ oneSecond rfl
  exact ⟨_, rfl, _, hdata, rfl⟩

end Pgr.ViewerChart
