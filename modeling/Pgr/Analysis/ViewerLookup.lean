import Pgr.Pipeline.QueriesFile

/-!
# Lookups by offset

`parse_offsets`, `read_queries` and `read_params` of `viewer.rs` on offsets from a
request.  Here every slice and every sum of 64 bits can fail, and none behind the
first slice of an offset does: the checks cover what is sliced.  The first one,
`file[offset..]`, is not checked, and an offset past the end of the file panics.
-/

namespace Pgr.ViewerLookup

open Pgr.FixedWidth Pgr.Viewer

/-- How a lookup fails; a panic is a slice out of range, or a sum that overflows. -/
inductive Failure where
  | panic
  | invalidData (message : String)
  | unexpectedEof (message : String)
  deriving DecidableEq

def sliceFrom (bytes : List UInt8) (start : ℕ) : Except Failure (List UInt8) :=
  if start ≤ bytes.length then .ok (bytes.drop start) else .error .panic

def slice (bytes : List UInt8) (start stop : ℕ) : Except Failure (List UInt8) :=
  if start ≤ stop ∧ stop ≤ bytes.length then .ok ((bytes.drop start).take (stop - start))
  else .error .panic

def addUsize (left right : ℕ) : Except Failure ℕ :=
  if left + right < 2 ^ 64 then .ok (left + right) else .error .panic

/-- `from_le_bytes` of a slice of `width` bytes. -/
def leSlice (width : ℕ) (bytes : List UInt8) (start : ℕ) : Except Failure ℕ := do
  let stop ← addUsize start width
  let value ← slice bytes start stop
  pure (ofLeBytes value)

/-- `buf.len() < idx + width`. -/
def checkRoom (buf : List UInt8) (idx width : ℕ) (message : String) : Except Failure Unit := do
  let stop ← addUsize idx width
  if buf.length < stop then .error (.unexpectedEof message) else .ok ()

/-- `chunks_exact(8)`, each chunk as a number. -/
def chunkOffsets : (count : ℕ) → List UInt8 → List UInt64
  | 0, _ => []
  | count + 1, body =>
      UInt64.ofNat (ofLeBytes (body.take 8)) :: chunkOffsets count (body.drop 8)

def parseOffsets (body : List UInt8) : Except Failure (List UInt64) :=
  if body.length % 8 ≠ 0 then .error (.invalidData "body length not a multiple of 8")
  else .ok (chunkOffsets (body.length / 8) body)

/-- The length of the entry at the front of `buf`. -/
def queryEntryLength (buf : List UInt8) : Except Failure ℕ := do
  checkRoom buf 0 4 "truncated query text len"
  let textLen ← leSlice 4 buf 0
  let afterText ← addUsize 4 textLen
  checkRoom buf afterText 2 "truncated oid count"
  let oidCount ← leSlice 2 buf afterText
  let afterCount ← addUsize afterText 2
  let total ← addUsize afterCount (oidCount * 4)
  checkRoom buf total 0 "truncated oids"
  pure total

/-- The loop over the values of an entry. -/
def skipParams (buf : List UInt8) : (paramCount idx : ℕ) → Except Failure ℕ
  | 0, idx => .ok idx
  | paramCount + 1, idx => do
      checkRoom buf idx 4 "truncated param len"
      let len ← leSlice 4 buf idx
      let afterLen ← addUsize idx 4
      let afterValue ← if len ≠ nullLength then addUsize afterLen len else .ok afterLen
      skipParams buf paramCount afterValue

def paramsEntryLength (buf : List UInt8) : Except Failure ℕ := do
  checkRoom buf 0 8 "truncated params query_offset"
  checkRoom buf 8 2 "truncated fmt code count"
  let fmtCount ← leSlice 2 buf 8
  let afterCodes ← addUsize 8 (2 + fmtCount * 2)
  checkRoom buf afterCodes 2 "truncated param count"
  let paramCount ← leSlice 2 buf afterCodes
  let afterCount ← addUsize afterCodes 2
  let afterParams ← skipParams buf paramCount afterCount
  checkRoom buf afterParams 2 "truncated result fmt count"
  let resultFmtCount ← leSlice 2 buf afterParams
  let total ← addUsize afterParams (2 + resultFmtCount * 2)
  checkRoom buf total 0 "truncated params entry"
  pure total

variable (entryLength : List UInt8 → Except Failure ℕ)

/-- The loop over the offsets. -/
def readEntries (file : List UInt8) : (offsets : List UInt64) → Except Failure (List UInt8)
  | [] => .ok []
  | offset :: offsets => do
      let buf ← sliceFrom file offset.toNat
      let total ← entryLength buf
      let entry ← slice buf 0 total
      let out ← readEntries file offsets
      pure (entry ++ out)

def readQueries : List UInt8 → List UInt64 → Except Failure (List UInt8) :=
  readEntries queryEntryLength

def readParams : List UInt8 → List UInt64 → Except Failure (List UInt8) :=
  readEntries paramsEntryLength

inductive Response where
  | badRequest (message : String)
  | internalServerError (message : String)
  | ok (data : List UInt8)

/-- `post_queries` and `post_params`; behind a panic there is no response. -/
def post (read : List UInt64 → Except Failure (List UInt8)) (body : List UInt8) :
    Option Response :=
  match parseOffsets body with
  | .error .panic => none
  | .error (.invalidData message) | .error (.unexpectedEof message) => some (.badRequest message)
  | .ok offsets =>
      match read offsets with
      | .error .panic => none
      | .error (.invalidData message) | .error (.unexpectedEof message) =>
          some (.internalServerError message)
      | .ok data => some (.ok data)

def postQueries (queries : List UInt8) : List UInt8 → Option Response :=
  post (readQueries queries)

def postParams (params : List UInt8) : List UInt8 → Option Response :=
  post (readParams params)

/-! ## Checked slices and sums -/

section Checks

variable {buf : List UInt8} {idx width : ℕ}

theorem addUsize_eq (hsum : idx + width < 2 ^ 64) : addUsize idx width = .ok (idx + width) :=
  if_pos hsum

theorem checkRoom_of_lt (hsum : idx + width < 2 ^ 64) (hshort : buf.length < idx + width)
    (message : String) : checkRoom buf idx width message = .error (.unexpectedEof message) := by
  rw [checkRoom, addUsize_eq hsum]
  exact if_pos hshort

theorem checkRoom_of_le (hsum : idx + width < 2 ^ 64) (hroom : idx + width ≤ buf.length)
    (message : String) : checkRoom buf idx width message = .ok () := by
  rw [checkRoom, addUsize_eq hsum]
  exact if_neg (Nat.not_lt.mpr hroom)

/-- A number whose bytes are there is read without a panic. -/
theorem leSlice_eq (hsum : idx + width < 2 ^ 64) (hroom : idx + width ≤ buf.length) :
    leSlice width buf idx = .ok (leAt width buf idx) := by
  have hslice : slice buf idx (idx + width) = .ok ((buf.drop idx).take (idx + width - idx)) :=
    if_pos ⟨Nat.le_add_right idx width, hroom⟩
  rw [leSlice, addUsize_eq hsum]
  simp only [bind, Except.bind, hslice, pure, Except.pure, leAt, Nat.add_sub_cancel_left]

theorem leAt_lt (width : ℕ) (buf : List UInt8) (idx : ℕ) : leAt width buf idx < 256 ^ width := by
  apply (ofLeBytes_lt _).trans_le
  apply Nat.pow_le_pow_right (by decide)
  rw [List.length_take]
  exact min_le_left _ _

end Checks

/-- A result of the unchecked walk. -/
def lift : Except ReadError ℕ → Except Failure ℕ
  | .ok total => .ok total
  | .error .outOfRange => .error .panic
  | .error (.unexpectedEof message) => .error (.unexpectedEof message)

theorem bind_checkLength_of_lt {buf : List UInt8} {stop : ℕ} {message : String}
    (hshort : buf.length < stop) (next : Unit → Except ReadError ℕ) :
    lift (checkLength buf stop message >>= next) = .error (.unexpectedEof message) := by
  rw [checkLength, if_pos hshort]
  rfl

theorem bind_checkLength_of_le {buf : List UInt8} {stop : ℕ} {message : String}
    (hroom : stop ≤ buf.length) (next : Unit → Except ReadError ℕ) :
    (checkLength buf stop message >>= next) = next () := by
  rw [checkLength_eq_ok message hroom]
  rfl

/-- A check in front of both walks. -/
theorem bind_checkRoom {buf : List UInt8} {idx width stop : ℕ} {message : String}
    {next : Unit → Except Failure ℕ} {next' : Unit → Except ReadError ℕ}
    (hstop : idx + width = stop) (hsum : stop < 2 ^ 64)
    (hnext : stop ≤ buf.length → next () = lift (next' ())) :
    (checkRoom buf idx width message >>= next) =
      lift (checkLength buf stop message >>= next') := by
  subst hstop
  by_cases hshort : buf.length < idx + width
  · rw [bind_checkLength_of_lt hshort, checkRoom_of_lt hsum hshort]
    rfl
  · have hroom := not_lt.mp hshort
    rw [bind_checkLength_of_le hroom, checkRoom_of_le hsum hroom]
    exact hnext hroom

theorem ok_bind {A B : Type} (value : A) (next : A → Except Failure B) :
    (Except.ok value >>= next) = next value := rfl

/-- The checked walk over a query entry does not panic. -/
theorem queryEntryLength_eq (buf : List UInt8) :
    queryEntryLength buf = lift (QueriesFile.queryEntryLength buf) := by
  have htext := leAt_lt 4 buf 0
  apply bind_checkRoom rfl (by decide)
  intro hroom
  rw [leSlice_eq (by decide) hroom, ok_bind, addUsize_eq (by omega), ok_bind]
  apply bind_checkRoom rfl (by omega)
  intro hroom
  have hoids := leAt_lt 2 buf (4 + leAt 4 buf 0)
  rw [leSlice_eq (by omega) hroom, ok_bind, addUsize_eq (by omega), ok_bind,
    addUsize_eq (by omega), ok_bind]
  apply bind_checkRoom (Nat.add_zero _) (by omega)
  exact fun _ => rfl

theorem skipParams_le {buf : List UInt8} {paramCount idx stop : ℕ}
    (hskip : Viewer.skipParams buf paramCount idx = .ok stop) :
    stop ≤ idx + paramCount * (4 + 2 ^ 32) := by
  induction paramCount generalizing idx with
  | zero =>
      cases hskip
      exact Nat.le_add_right _ _
  | succ paramCount ih =>
      rw [Viewer.skipParams] at hskip
      by_cases hroom : idx + 4 ≤ buf.length
      · rw [bind_checkLength_of_le hroom] at hskip
        have hlen := leAt_lt 4 buf idx
        have hstop := ih hskip
        split_ifs at hstop with hnull
        · omega
        · omega
      · rw [checkLength, if_pos (not_le.mp hroom)] at hskip
        cases hskip

/-- The checked loop over the values does not panic. -/
theorem skipParams_eq (buf : List UInt8) {paramCount idx : ℕ}
    (hidx : idx + paramCount * (4 + 2 ^ 32) + 4 < 2 ^ 64) :
    skipParams buf paramCount idx = lift (Viewer.skipParams buf paramCount idx) := by
  induction paramCount generalizing idx with
  | zero => rfl
  | succ paramCount ih =>
      rw [skipParams, Viewer.skipParams]
      apply bind_checkRoom rfl (by omega)
      intro hroom
      have hlen := leAt_lt 4 buf idx
      rw [leSlice_eq (by omega) hroom, ok_bind, addUsize_eq (by omega), ok_bind]
      by_cases hnull : leAt 4 buf idx = nullLength
      · rw [if_neg (not_not.mpr hnull), ok_bind]
        dsimp only
        rw [if_pos hnull]
        exact ih (by omega)
      · rw [if_pos hnull, addUsize_eq (by omega), ok_bind]
        dsimp only
        rw [if_neg hnull]
        exact ih (by omega)

/-- The checked walk over a params entry does not panic. -/
theorem paramsEntryLength_eq (buf : List UInt8) :
    paramsEntryLength buf = lift (Viewer.paramsEntryLength buf) := by
  apply bind_checkRoom rfl (by decide)
  intro _
  apply bind_checkRoom rfl (by decide)
  intro hroom
  have hcodes := leAt_lt 2 buf 8
  rw [leSlice_eq (by decide) hroom, ok_bind, addUsize_eq (by omega), ok_bind]
  obtain ⟨afterCodes, hafterCodes⟩ : ∃ afterCodes, 8 + (2 + leAt 2 buf 8 * 2) = afterCodes :=
    ⟨_, rfl⟩
  dsimp only
  rw [hafterCodes]
  apply bind_checkRoom rfl (by omega)
  intro hroom
  have hparams := leAt_lt 2 buf afterCodes
  rw [leSlice_eq (by omega) hroom, ok_bind, addUsize_eq (by omega), ok_bind]
  have hbound : afterCodes + 2 + leAt 2 buf afterCodes * (4 + 2 ^ 32) < 2 ^ 63 := by omega
  rw [skipParams_eq buf (by omega)]
  cases hskip : Viewer.skipParams buf (leAt 2 buf afterCodes) (afterCodes + 2) with
  | error error => cases error <;> rfl
  | ok afterParams =>
      have hle := skipParams_le hskip
      apply bind_checkRoom rfl (by omega)
      intro hroom
      have hresults := leAt_lt 2 buf afterParams
      rw [leSlice_eq (by omega) hroom, ok_bind, addUsize_eq (by omega), ok_bind]
      apply bind_checkRoom (Nat.add_zero _) (by omega)
      exact fun _ => rfl

/-! ## Entries -/

/-- An entry of the queries file whose counts fit their fields. -/
structure QueryRecord where
  text : List UInt8
  oids : List UInt32
  text_lt : text.length < 2 ^ 32
  oids_lt : oids.length < 2 ^ 16

def QueryRecord.layout (record : QueryRecord) : List UInt8 :=
  leBytes 4 record.text.length ++ (record.text ++
    (leBytes 2 record.oids.length ++ record.oids.flatMap fun oid => leBytes 4 oid.toNat))

/-- A number at an index is the bytes that stand there. -/
theorem take_add_leAt {buf : List UInt8} {idx width : ℕ} (hroom : idx + width ≤ buf.length) :
    buf.take (idx + width) = buf.take idx ++ leBytes width (leAt width buf idx) := by
  have hlength : ((buf.drop idx).take width).length = width := by
    rw [List.length_take, List.length_drop]
    omega
  have hbytes := leBytes_ofLeBytes ((buf.drop idx).take width)
  rw [hlength] at hbytes
  rw [List.take_add, leAt, hbytes]

/-- Bytes that are cut into pieces of the same length, each the layout of an item. -/
theorem exists_flatMap_layout {A : Type} {layout : A → List UInt8} {width : ℕ}
    (hlayout : ∀ chunk : List UInt8, chunk.length = width → ∃ item, chunk = layout item)
    {count : ℕ} {bytes : List UInt8} (hbytes : bytes.length = count * width) :
    ∃ items : List A, items.length = count ∧ bytes = items.flatMap layout := by
  induction count generalizing bytes with
  | zero =>
      rw [Nat.zero_mul] at hbytes
      exact ⟨[], rfl, List.length_eq_zero_iff.mp hbytes⟩
  | succ count ih =>
      rw [Nat.succ_mul] at hbytes
      have htake : (bytes.take width).length = width := by
        rw [List.length_take]
        omega
      have hdrop : (bytes.drop width).length = count * width := by
        rw [List.length_drop]
        omega
      obtain ⟨item, hitem⟩ := hlayout _ htake
      obtain ⟨items, hcount, hitems⟩ := ih hdrop
      refine ⟨item :: items, by rw [List.length_cons, hcount], ?_⟩
      rw [List.flatMap_cons, ← hitem, ← hitems, List.take_append_drop]

theorem exists_oid (chunk : List UInt8) (hchunk : chunk.length = 4) :
    ∃ oid : UInt32, chunk = leBytes 4 oid.toNat := by
  have hlt := ofLeBytes_lt chunk
  rw [hchunk] at hlt
  refine ⟨UInt32.ofNat (ofLeBytes chunk), ?_⟩
  rw [UInt32.toNat_ofNat_of_lt' hlt, ← hchunk, leBytes_ofLeBytes]

theorem exists_code (chunk : List UInt8) (hchunk : chunk.length = 2) :
    ∃ code : Int16, chunk = codeLayout code := by
  have hlt := ofLeBytes_lt chunk
  rw [hchunk] at hlt
  refine ⟨(UInt16.ofNat (ofLeBytes chunk)).toInt16, ?_⟩
  rw [codeLayout, UInt16.toUInt16_toInt16, UInt16.toNat_ofNat_of_lt' hlt, ← hchunk,
    leBytes_ofLeBytes]

/-- The values a walk has stepped over. -/
theorem exists_params_of_skipParams {buf : List UInt8} {paramCount idx stop : ℕ}
    (hskip : Viewer.skipParams buf paramCount idx = .ok stop) (hstop : stop ≤ buf.length) :
    ∃ params : List (Option (List UInt8)), params.length = paramCount ∧
      (∀ param ∈ params, ParamFits param) ∧ idx ≤ stop ∧
      buf.take stop = buf.take idx ++ params.flatMap paramLayout := by
  induction paramCount generalizing idx with
  | zero =>
      cases hskip
      exact ⟨[], rfl, List.forall_mem_nil _, le_rfl, (List.append_nil _).symm⟩
  | succ paramCount ih =>
      rw [Viewer.skipParams] at hskip
      by_cases hroom : idx + 4 ≤ buf.length
      · rw [bind_checkLength_of_le hroom] at hskip
        have hhead := take_add_leAt hroom
        obtain ⟨params, hcount, hfits, hle, htake⟩ := ih hskip
        by_cases hnull : leAt 4 buf idx = nullLength
        · rw [if_pos hnull] at hle htake
          refine ⟨none :: params, by rw [List.length_cons, hcount],
            List.forall_mem_cons.mpr ⟨by rintro bytes ⟨⟩, hfits⟩, by omega, ?_⟩
          rw [htake, hhead, hnull, List.flatMap_cons, paramLayout, List.append_assoc]
        · rw [if_neg hnull] at hle htake
          have hvalue : ((buf.drop (idx + 4)).take (leAt 4 buf idx)).length = leAt 4 buf idx := by
            rw [List.length_take, List.length_drop]
            omega
          refine ⟨some ((buf.drop (idx + 4)).take (leAt 4 buf idx)) :: params,
            by rw [List.length_cons, hcount], List.forall_mem_cons.mpr ⟨?_, hfits⟩, by omega, ?_⟩
          · rintro bytes ⟨⟩
            have hlt := leAt_lt 4 buf idx
            rw [hvalue, nullLength]
            rw [nullLength] at hnull
            omega
          · rw [htake, List.take_add, hhead, List.flatMap_cons, paramLayout, hvalue]
            simp only [List.append_assoc]
      · rw [checkLength, if_pos (not_le.mp hroom)] at hskip
        cases hskip

theorem of_bind_checkLength {buf : List UInt8} {stop total : ℕ} {message : String}
    {next : Unit → Except ReadError ℕ}
    (hwalk : (checkLength buf stop message >>= next) = .ok total) :
    stop ≤ buf.length ∧ next () = .ok total := by
  by_cases hroom : stop ≤ buf.length
  · rw [bind_checkLength_of_le hroom] at hwalk
    exact ⟨hroom, hwalk⟩
  · rw [checkLength, if_pos (not_le.mp hroom)] at hwalk
    cases hwalk

/-- The walk over a query entry succeeds where an entry begins, and nowhere else. -/
theorem queryEntryLength_ok_iff {buf : List UInt8} {total : ℕ} :
    QueriesFile.queryEntryLength buf = .ok total ↔
      ∃ record : QueryRecord, record.layout <+: buf ∧ total = record.layout.length := by
  constructor
  · intro hwalk
    obtain ⟨hroom, hwalk⟩ := of_bind_checkLength hwalk
    obtain ⟨hroomCount, hwalk⟩ := of_bind_checkLength hwalk
    obtain ⟨hroomOids, hwalk⟩ := of_bind_checkLength hwalk
    cases hwalk
    obtain ⟨textLen, htextLen⟩ : ∃ textLen, leAt 4 buf 0 = textLen := ⟨_, rfl⟩
    rw [htextLen] at hroomCount hroomOids ⊢
    obtain ⟨oidCount, hoidCount⟩ : ∃ oidCount, leAt 2 buf (4 + textLen) = oidCount := ⟨_, rfl⟩
    rw [hoidCount] at hroomOids ⊢
    have htext : ((buf.drop 4).take textLen).length = textLen := by
      rw [List.length_take, List.length_drop]
      omega
    have hoids : ((buf.drop (4 + textLen + 2)).take (oidCount * 4)).length = oidCount * 4 := by
      rw [List.length_take, List.length_drop]
      omega
    obtain ⟨oids, hcount, hflat⟩ := exists_flatMap_layout exists_oid hoids
    have htextLt : ((buf.drop 4).take textLen).length < 2 ^ 32 := by
      rw [htext, ← htextLen]
      exact leAt_lt 4 buf 0
    have hoidsLt : oids.length < 2 ^ 16 := by
      rw [hcount, ← hoidCount]
      exact leAt_lt 2 buf _
    have hhead := @take_add_leAt buf 0 4 (by omega)
    rw [Nat.zero_add, List.take_zero, List.nil_append, htextLen] at hhead
    have hlayout : buf.take (4 + textLen + 2 + oidCount * 4) =
        (⟨_, oids, htextLt, hoidsLt⟩ : QueryRecord).layout := by
      rw [List.take_add, hflat, take_add_leAt hroomCount, hoidCount, List.take_add, hhead,
        QueryRecord.layout]
      simp only [htext, hcount, List.append_assoc]
    refine ⟨⟨_, oids, htextLt, hoidsLt⟩, ?_, ?_⟩
    · rw [← hlayout]
      exact List.take_prefix _ _
    · rw [← hlayout, List.length_take, min_eq_left hroomOids]
  · rintro ⟨record, ⟨tail, rfl⟩, rfl⟩
    have hlength : record.layout.length = 4 + record.text.length + 2 + record.oids.length * 4 := by
      simp only [QueryRecord.layout, List.length_append, length_leBytes, List.length_flatMap,
        List.map_const', List.sum_replicate_nat]
      omega
    have htextLt : record.text.length < 256 ^ 4 := record.text_lt
    have hoidsLt : record.oids.length < 256 ^ 2 := record.oids_lt
    have htext : leAt 4 (record.layout ++ tail) 0 = record.text.length := by
      have hread := leAt_append [] ((record.text ++ (leBytes 2 record.oids.length ++
        record.oids.flatMap fun oid => leBytes 4 oid.toNat)) ++ tail) htextLt
      simpa [QueryRecord.layout] using hread
    have hoids : leAt 2 (record.layout ++ tail) (4 + record.text.length) = record.oids.length := by
      have hread := leAt_append (leBytes 4 record.text.length ++ record.text)
        ((record.oids.flatMap fun oid => leBytes 4 oid.toNat) ++ tail) hoidsLt
      simpa [QueryRecord.layout] using hread
    have hfits : ∀ stop, stop ≤ record.layout.length → stop ≤ (record.layout ++ tail).length := by
      intro stop hstop
      rw [List.length_append]
      exact Nat.le_add_right_of_le hstop
    rw [QueriesFile.queryEntryLength]
    simp only [htext, hoids]
    rw [checkLength_eq_ok _ (hfits _ (by omega)), checkLength_eq_ok _ (hfits _ (by omega)),
      checkLength_eq_ok _ (hfits _ (by omega)), hlength]
    rfl

/-- The walk over a params entry succeeds where an entry begins, and nowhere else. -/
theorem paramsEntryLength_ok_iff {buf : List UInt8} {total : ℕ} :
    Viewer.paramsEntryLength buf = .ok total ↔
      ∃ record : ParamsRecord, record.layout <+: buf ∧ total = record.layout.length := by
  constructor
  · intro hwalk
    obtain ⟨hroomOffset, hwalk⟩ := of_bind_checkLength hwalk
    obtain ⟨hroomCodes, hwalk⟩ := of_bind_checkLength hwalk
    obtain ⟨hroomParams, hwalk⟩ := of_bind_checkLength hwalk
    obtain ⟨fmtCount, hfmtCount⟩ : ∃ fmtCount, leAt 2 buf 8 = fmtCount := ⟨_, rfl⟩
    rw [hfmtCount] at hroomParams hwalk
    obtain ⟨afterCodes, hafterCodes⟩ : ∃ afterCodes, 8 + (2 + fmtCount * 2) = afterCodes :=
      ⟨_, rfl⟩
    rw [hafterCodes] at hroomParams hwalk
    obtain ⟨paramCount, hparamCount⟩ : ∃ paramCount, leAt 2 buf afterCodes = paramCount :=
      ⟨_, rfl⟩
    rw [hparamCount] at hwalk
    dsimp only at hwalk
    cases hskip : Viewer.skipParams buf paramCount (afterCodes + 2) with
    | error error =>
        rw [hskip] at hwalk
        cases hwalk
    | ok afterParams =>
        rw [hskip] at hwalk
        obtain ⟨hroomResults, hwalk⟩ := of_bind_checkLength hwalk
        obtain ⟨hroom, hwalk⟩ := of_bind_checkLength hwalk
        cases hwalk
        obtain ⟨resultCount, hresultCount⟩ : ∃ resultCount, leAt 2 buf afterParams = resultCount :=
          ⟨_, rfl⟩
        rw [hresultCount] at hroom ⊢
        have hcodesLength : ((buf.drop (8 + 2)).take (fmtCount * 2)).length = fmtCount * 2 := by
          rw [List.length_take, List.length_drop]
          omega
        have hresultsLength :
            ((buf.drop (afterParams + 2)).take (resultCount * 2)).length = resultCount * 2 := by
          rw [List.length_take, List.length_drop]
          omega
        obtain ⟨codes, hcodes, hcodesFlat⟩ := exists_flatMap_layout exists_code hcodesLength
        obtain ⟨results, hresults, hresultsFlat⟩ :=
          exists_flatMap_layout exists_code hresultsLength
        obtain ⟨params, hparams, hfits, hle, htake⟩ :=
          exists_params_of_skipParams hskip (by omega)
        have hoffset := @take_add_leAt buf 0 8 (by omega)
        rw [Nat.zero_add, List.take_zero, List.nil_append] at hoffset
        obtain ⟨record, hrecord⟩ : ∃ record : ParamsRecord, record =
            ⟨leAt 8 buf 0, codes, params, results, leAt_lt 8 buf 0,
              by rw [hcodes, ← hfmtCount]; exact leAt_lt 2 buf 8,
              by rw [hparams, ← hparamCount]; exact leAt_lt 2 buf afterCodes, hfits,
              by rw [hresults, ← hresultCount]; exact leAt_lt 2 buf afterParams⟩ := ⟨_, rfl⟩
        have hlayout : buf.take (afterParams + (2 + resultCount * 2)) = record.layout := by
          have hcodesTake : buf.take afterCodes =
              leBytes 8 (leAt 8 buf 0) ++ leBytes 2 fmtCount ++ codes.flatMap codeLayout := by
            rw [← hafterCodes, ← Nat.add_assoc, List.take_add, hcodesFlat,
              take_add_leAt hroomCodes, hoffset, hfmtCount]
          rw [← Nat.add_assoc, List.take_add, hresultsFlat, take_add_leAt hroomResults, htake,
            take_add_leAt hroomParams, hcodesTake, hparamCount, hresultCount, hrecord,
            ParamsRecord.layout]
          simp only [hcodes, hparams, hresults, List.append_assoc]
        refine ⟨record, ?_, ?_⟩
        · rw [← hlayout]
          exact List.take_prefix _ _
        · rw [← hlayout, List.length_take, min_eq_left hroom]
  · rintro ⟨record, ⟨tail, rfl⟩, rfl⟩
    exact paramsEntryLength_layout record tail

/-! ## Lookups -/

def IsQueryEntry (bytes : List UInt8) : Prop :=
  ∃ record : QueryRecord, bytes = record.layout

def IsParamsEntry (bytes : List UInt8) : Prop :=
  ∃ record : ParamsRecord, bytes = record.layout

section Lookup

variable (IsEntry : List UInt8 → Prop)

/-- A complete entry inside the file. -/
def StartsEntry (file : List UInt8) (offset : UInt64) (entry : List UInt8) : Prop :=
  IsEntry entry ∧ offset.toNat ≤ file.length ∧ entry <+: file.drop offset.toNat

/-- What a lookup is for: the entries at the offsets when each starts one, and an
error otherwise. -/
structure LooksUp (read : List UInt8 → List UInt64 → Except Failure (List UInt8))
    (file : List UInt8) (offsets : List UInt64) : Prop where
  ok_iff : ∀ out, read file offsets = .ok out ↔
    ∃ entries, List.Forall₂ (StartsEntry IsEntry file) offsets entries ∧ out = entries.flatten
  noPanic : read file offsets ≠ .error .panic

/-- The first offset that starts no entry, if there is one, is not past the end of
the file. -/
def FailsInside (file : List UInt8) (offsets : List UInt64) : Prop :=
  ∀ earlier offset later, offsets = earlier ++ offset :: later →
    (∀ other ∈ earlier, ∃ entry, StartsEntry IsEntry file other entry) →
      offset.toNat ≤ file.length

/-- The walk over an entry tells whether there is one, and how long it is. -/
structure Walks (entryLength : List UInt8 → Except Failure ℕ) : Prop where
  ok_iff : ∀ buf total, entryLength buf = .ok total ↔
    ∃ entry, IsEntry entry ∧ entry <+: buf ∧ total = entry.length
  noPanic : ∀ buf, entryLength buf ≠ .error .panic

variable {IsEntry entryLength}

theorem lift_ok_iff {result : Except ReadError ℕ} {total : ℕ} :
    lift result = .ok total ↔ result = .ok total := by
  cases result with
  | ok other => simp [lift]
  | error error => cases error <;> simp [lift]

theorem lift_ne_panic {result : Except ReadError ℕ} (hresult : result ≠ .error .outOfRange) :
    lift result ≠ .error .panic := by
  cases result with
  | ok total => exact nofun
  | error error =>
      cases error with
      | outOfRange => exact absurd rfl hresult
      | unexpectedEof message => exact nofun

theorem bind_checkLength_ne {buf : List UInt8} {stop : ℕ} {message : String}
    {next : Unit → Except ReadError ℕ} (hnext : next () ≠ .error .outOfRange) :
    (checkLength buf stop message >>= next) ≠ .error .outOfRange := by
  by_cases hroom : stop ≤ buf.length
  · rw [bind_checkLength_of_le hroom]
    exact hnext
  · rw [checkLength, if_pos (not_le.mp hroom)]
    exact nofun

theorem skipParams_ne (buf : List UInt8) (paramCount idx : ℕ) :
    Viewer.skipParams buf paramCount idx ≠ .error .outOfRange := by
  induction paramCount generalizing idx with
  | zero => exact nofun
  | succ paramCount ih =>
      rw [Viewer.skipParams]
      exact bind_checkLength_ne (ih _)

theorem walks_queries : Walks IsQueryEntry queryEntryLength where
  ok_iff buf total := by
    rw [queryEntryLength_eq, lift_ok_iff, queryEntryLength_ok_iff]
    constructor
    · rintro ⟨record, hrecord, htotal⟩
      exact ⟨record.layout, ⟨record, rfl⟩, hrecord, htotal⟩
    · rintro ⟨_, ⟨record, rfl⟩, hrecord, htotal⟩
      exact ⟨record, hrecord, htotal⟩
  noPanic buf := by
    rw [queryEntryLength_eq]
    apply lift_ne_panic
    apply bind_checkLength_ne
    apply bind_checkLength_ne
    apply bind_checkLength_ne
    exact nofun

theorem walks_params : Walks IsParamsEntry paramsEntryLength where
  ok_iff buf total := by
    rw [paramsEntryLength_eq, lift_ok_iff, paramsEntryLength_ok_iff]
    constructor
    · rintro ⟨record, hrecord, htotal⟩
      exact ⟨record.layout, ⟨record, rfl⟩, hrecord, htotal⟩
    · rintro ⟨_, ⟨record, rfl⟩, hrecord, htotal⟩
      exact ⟨record, hrecord, htotal⟩
  noPanic buf := by
    rw [paramsEntryLength_eq]
    apply lift_ne_panic
    apply bind_checkLength_ne
    apply bind_checkLength_ne
    apply bind_checkLength_ne
    obtain ⟨afterCodes, hafterCodes⟩ : ∃ afterCodes, 8 + (2 + leAt 2 buf 8 * 2) = afterCodes :=
      ⟨_, rfl⟩
    have hne := skipParams_ne buf (leAt 2 buf afterCodes) (afterCodes + 2)
    dsimp only
    rw [hafterCodes]
    cases hskip : Viewer.skipParams buf (leAt 2 buf afterCodes) (afterCodes + 2) with
    | error error =>
        rw [hskip] at hne
        exact hne
    | ok afterParams =>
        apply bind_checkLength_ne
        apply bind_checkLength_ne
        exact nofun

variable {file : List UInt8} {offset : UInt64} {offsets : List UInt64}

/-- At most one entry starts at an offset. -/
theorem StartsEntry.unique (hwalks : Walks IsEntry entryLength) {entry other : List UInt8}
    (hentry : StartsEntry IsEntry file offset entry)
    (hother : StartsEntry IsEntry file offset other) : entry = other := by
  have hwalk := (hwalks.ok_iff _ _).mpr ⟨entry, hentry.1, hentry.2.2, rfl⟩
  have hwalk' := (hwalks.ok_iff _ _).mpr ⟨other, hother.1, hother.2.2, rfl⟩
  have hlength : entry.length = other.length := Except.ok.inj (hwalk.symm.trans hwalk')
  exact (List.prefix_of_prefix_length_le hentry.2.2 hother.2.2 hlength.le).eq_of_length hlength

theorem readEntries_of_lt (hpast : file.length < offset.toNat) :
    readEntries entryLength file (offset :: offsets) = .error .panic := by
  rw [readEntries, sliceFrom, if_neg (not_le.mpr hpast)]
  rfl

theorem readEntries_of_entry (hwalks : Walks IsEntry entryLength) {entry : List UInt8}
    (hentry : StartsEntry IsEntry file offset entry) :
    readEntries entryLength file (offset :: offsets) =
      (readEntries entryLength file offsets).map (entry ++ ·) := by
  obtain ⟨hisEntry, hinside, hinitial⟩ := hentry
  have hwalk := (hwalks.ok_iff _ _).mpr ⟨entry, hisEntry, hinitial, rfl⟩
  have hslice : slice (file.drop offset.toNat) 0 entry.length = .ok entry := by
    rw [slice, if_pos ⟨Nat.zero_le _, hinitial.length_le⟩]
    exact congrArg Except.ok (List.prefix_iff_eq_take.mp hinitial).symm
  rw [readEntries, sliceFrom, if_pos hinside, ok_bind, hwalk, ok_bind, hslice, ok_bind]
  cases readEntries entryLength file offsets with
  | ok out => rfl
  | error failure => rfl

theorem readEntries_of_no_entry (hwalks : Walks IsEntry entryLength)
    (hinside : offset.toNat ≤ file.length)
    (hnone : ∀ entry, ¬StartsEntry IsEntry file offset entry) :
    ∃ failure, failure ≠ .panic ∧
      readEntries entryLength file (offset :: offsets) = .error failure := by
  cases hwalk : entryLength (file.drop offset.toNat) with
  | ok total =>
      obtain ⟨entry, hentry, hinitial, -⟩ := (hwalks.ok_iff _ _).mp hwalk
      exact absurd ⟨hentry, hinside, hinitial⟩ (hnone entry)
  | error failure =>
      refine ⟨failure, ?_, ?_⟩
      · intro hpanic
        rw [hpanic] at hwalk
        exact hwalks.noPanic _ hwalk
      · rw [readEntries, sliceFrom, if_pos hinside, ok_bind, hwalk]
        rfl

/-- A lookup returns exactly the entries at its offsets. -/
theorem readEntries_ok_iff (hwalks : Walks IsEntry entryLength) {out : List UInt8} :
    readEntries entryLength file offsets = .ok out ↔
      ∃ entries, List.Forall₂ (StartsEntry IsEntry file) offsets entries ∧
        out = entries.flatten := by
  induction offsets generalizing out with
  | nil =>
      constructor
      · intro hread
        cases hread
        exact ⟨[], .nil, rfl⟩
      · rintro ⟨entries, hentries, rfl⟩
        cases hentries
        rfl
  | cons offset offsets ih =>
      by_cases hstarts : ∃ entry, StartsEntry IsEntry file offset entry
      · obtain ⟨entry, hentry⟩ := hstarts
        rw [readEntries_of_entry hwalks hentry]
        constructor
        · intro hread
          obtain ⟨rest, hrest, hout⟩ : ∃ rest,
              readEntries entryLength file offsets = .ok rest ∧ entry ++ rest = out := by
            cases hread' : readEntries entryLength file offsets with
            | ok rest =>
                rw [hread'] at hread
                exact ⟨rest, rfl, Except.ok.inj hread⟩
            | error failure =>
                rw [hread'] at hread
                cases hread
          obtain ⟨entries, hentries, hrest⟩ := ih.mp hrest
          exact ⟨entry :: entries, .cons hentry hentries, by rw [List.flatten_cons, ← hrest, hout]⟩
        · rintro ⟨entries, hentries, rfl⟩
          cases hentries with
          | cons hother hentries =>
              rw [ih.mpr ⟨_, hentries, rfl⟩, hother.unique hwalks hentry]
              rfl
      · have hnone := not_exists.mp hstarts
        constructor
        · intro hread
          by_cases hinside : offset.toNat ≤ file.length
          · obtain ⟨failure, -, hfailure⟩ := readEntries_of_no_entry hwalks hinside hnone
            cases hfailure.symm.trans hread
          · cases (readEntries_of_lt (not_le.mp hinside)).symm.trans hread
        · rintro ⟨entries, hentries, -⟩
          cases hentries with
          | cons hentry _ => exact absurd hentry (hnone _)

/-- A lookup panics at an offset past the end of the file that it comes to. -/
theorem readEntries_panic_iff (hwalks : Walks IsEntry entryLength) :
    readEntries entryLength file offsets ≠ .error .panic ↔ FailsInside IsEntry file offsets := by
  induction offsets with
  | nil =>
      refine ⟨fun _ earlier offset later hsplit => ?_, fun _ => nofun⟩
      cases earlier <;> cases hsplit
  | cons offset offsets ih =>
      by_cases hstarts : ∃ entry, StartsEntry IsEntry file offset entry
      · obtain ⟨entry, hentry⟩ := hstarts
        have hmap : readEntries entryLength file (offset :: offsets) ≠ .error .panic ↔
            readEntries entryLength file offsets ≠ .error .panic := by
          rw [readEntries_of_entry hwalks hentry]
          cases readEntries entryLength file offsets with
          | ok out => simp [Except.map]
          | error failure => simp [Except.map]
        rw [hmap, ih]
        constructor
        · intro hfails earlier other later hsplit hearlier
          cases earlier with
          | nil =>
              cases hsplit
              exact hentry.2.1
          | cons first earlier =>
              cases hsplit
              exact hfails earlier other later rfl fun before hbefore =>
                hearlier before (List.mem_cons_of_mem _ hbefore)
        · intro hfails earlier other later hsplit hearlier
          apply hfails (offset :: earlier) other later (congrArg (offset :: ·) hsplit)
          exact List.forall_mem_cons.mpr ⟨⟨entry, hentry⟩, hearlier⟩
      · have hnone := not_exists.mp hstarts
        by_cases hinside : offset.toNat ≤ file.length
        · obtain ⟨failure, hfailure, hread⟩ := readEntries_of_no_entry hwalks hinside hnone
          constructor
          · intro _ earlier other later hsplit hearlier
            cases earlier with
            | nil =>
                cases hsplit
                exact hinside
            | cons first earlier =>
                cases hsplit
                exact absurd (hearlier offset List.mem_cons_self) hstarts
          · intro _ hpanic
            cases hread.symm.trans hpanic
            exact hfailure rfl
        · constructor
          · intro hread
            exact absurd (readEntries_of_lt (not_le.mp hinside)) hread
          · intro hfails
            exact absurd (hfails [] offset offsets rfl nofun) hinside

theorem looksUp_iff (hwalks : Walks IsEntry entryLength) :
    LooksUp IsEntry (readEntries entryLength) file offsets ↔
      FailsInside IsEntry file offsets :=
  ⟨fun hlooksUp => (readEntries_panic_iff hwalks).mp hlooksUp.noPanic, fun hfails =>
    ⟨fun _ => readEntries_ok_iff hwalks, (readEntries_panic_iff hwalks).mpr hfails⟩⟩

end Lookup

/-- Either lookup returns the entries at its offsets, or an error when one of them
starts none, if and only if the first that starts none is not past the end of the
file. -/
theorem lookups_iff (file : List UInt8) (offsets : List UInt64) :
    (LooksUp IsQueryEntry readQueries file offsets ↔ FailsInside IsQueryEntry file offsets) ∧
      (LooksUp IsParamsEntry readParams file offsets ↔
        FailsInside IsParamsEntry file offsets) :=
  ⟨looksUp_iff walks_queries, looksUp_iff walks_params⟩

/-- An offset past the end of a file of one entry. -/
theorem lookups_panic :
    ¬LooksUp IsQueryEntry readQueries [0, 0, 0, 0, 0, 0] [7] ∧
      ¬LooksUp IsParamsEntry readParams [] [1] :=
  ⟨fun hlooksUp => hlooksUp.noPanic rfl, fun hlooksUp => hlooksUp.noPanic rfl⟩

/-! ## Requests -/

/-- Any list of offsets can be requested. -/
theorem parseOffsets_flatMap (offsets : List UInt64) :
    parseOffsets (offsets.flatMap fun offset => leBytes 8 offset.toNat) = .ok offsets := by
  have hlength : (offsets.flatMap fun offset => leBytes 8 offset.toNat).length =
      offsets.length * 8 := by
    simp [List.length_flatMap]
  rw [parseOffsets, hlength, if_neg (by omega), Nat.mul_div_cancel _ (by decide)]
  apply congrArg Except.ok
  clear hlength
  induction offsets with
  | nil => rfl
  | cons offset offsets ih =>
      have hchunk : (leBytes 8 offset.toNat).length = 8 := length_leBytes 8 _
      rw [List.flatMap_cons, List.length_cons, chunkOffsets, List.take_left' hchunk,
        List.drop_left' hchunk, ih, ofLeBytes_leBytes_of_lt offset.toNat_lt, UInt64.ofNat_toNat]

variable {IsEntry : List UInt8 → Prop} {entryLength}

theorem post_eq_none_iff (hwalks : Walks IsEntry entryLength) (file : List UInt8)
    (offsets : List UInt64) :
    post (readEntries entryLength file) (offsets.flatMap fun offset => leBytes 8 offset.toNat) =
        none ↔ ¬FailsInside IsEntry file offsets := by
  rw [post, parseOffsets_flatMap, ← readEntries_panic_iff hwalks, not_not]
  dsimp only
  cases readEntries entryLength file offsets with
  | ok data => simp
  | error failure => cases failure <;> simp

/-- A request is left without a response where the lookup panics. -/
theorem requests_eq_none_iff (file : List UInt8) (offsets : List UInt64) :
    (postQueries file (offsets.flatMap fun offset => leBytes 8 offset.toNat) = none ↔
        ¬FailsInside IsQueryEntry file offsets) ∧
      (postParams file (offsets.flatMap fun offset => leBytes 8 offset.toNat) = none ↔
        ¬FailsInside IsParamsEntry file offsets) :=
  ⟨post_eq_none_iff walks_queries file offsets, post_eq_none_iff walks_params file offsets⟩

end Pgr.ViewerLookup
