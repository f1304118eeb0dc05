import Pgr.Core.Utf8Lossy
import Pgr.Pipeline.SessionRoundTrip

/-!
# The listing of a session file

`session.py` prints what a session file holds, one row for each setting, statement and
table, with the number of rows that `COPY` has sent for a table.  A slice of Python stops at
the end of its string, so a text that is cut off is printed as far as it goes; a number that
is cut off ends the script, and the rows printed before it stay.

The format of `COPY` is that of the server: a signature, the flags, an extension of the
header, the tuples and a trailer.
-/

namespace Pgr.SessionListing

open Pgr.FixedWidth Pgr.Decoding Pgr.Utf8Lossy Pgr.Stdio Pgr.CaptureEncoder Pgr.SessionFile
open Pgr.SessionRoundTrip

/-! ## The script -/

/-- `IndexError` and `struct.error`. -/
inductive ScriptError where
  | index
  | unpack
  deriving DecidableEq

/-- `Cur`, as what is left of the bytes of a record. -/
abbrev ScriptCur := Reader ScriptError

def u8 : ScriptCur UInt8 := fun d =>
  match d with
  | [] => .error .index []
  | v :: d => .ok v d

def unpackFrom (width : ℕ) : ScriptCur ℕ := do
  let bytes ← readExact .unpack width
  pure (ofLeBytes bytes)

def u16 : ScriptCur ℕ := unpackFrom 2

def u32 : ScriptCur ℕ := unpackFrom 4

/-- `self.d[self.p : self.p + n]`. -/
def sliceOf (n : ℕ) : ScriptCur (List UInt8) := fun d => .ok (d.take n) (d.drop n)

def s : ScriptCur String := do
  let n ← u32
  let v ← sliceOf n
  pure (fromUtf8Lossy v)

def rest : ScriptCur (List UInt8) := fun d => .ok d []

/-- `struct.unpack_from` of a signed number in network order. -/
def signedBe (bytes : List UInt8) : ℤ :=
  if ofBeBytes bytes < 2 ^ (8 * bytes.length - 1) then ofBeBytes bytes
  else ofBeBytes bytes - 2 ^ (8 * bytes.length)

/-- The loop over the values of a tuple. -/
def skipValues : (nf : ℕ) → List UInt8 → Except ScriptError (List UInt8)
  | 0, d => .ok d
  | nf + 1, d =>
      if d.length < 4 then .error .unpack
      else
        let l := signedBe (d.take 4)
        skipValues nf (if 0 < l then (d.drop 4).drop l.toNat else d.drop 4)

/-- The loop over the tuples.  Each takes two bytes at least, so it ends within as many
rounds as there are bytes. -/
def countTuples : (rounds : ℕ) → List UInt8 → (n : ℕ) → Except ScriptError ℕ
  | 0, _, n => .ok n
  | rounds + 1, d, n =>
      if d.length < 2 then .ok n
      else
        let nf := signedBe (d.take 2)
        if nf = -1 then .ok n
        else do
          let d ← skipValues nf.toNat (d.drop 2)
          countTuples rounds d (n + 1)

def copySignature : List UInt8 := [80, 71, 67, 79, 80, 89, 10, 255, 13, 10, 0]

def copyRows (d : List UInt8) : Except ScriptError ℤ :=
  if d.length < 19 ∨ ¬copySignature <+: d then .ok (-1)
  else do
    let pos := 15 + (4 + ofBeBytes ((d.drop 15).take 4))
    let n ← countTuples d.length (d.drop pos) 0
    pure n

/-- A row of the listing: the number of its record, where that starts, and its fields. -/
inductive Row where
  | guc (record offset : ℕ) (name val : String)
  | prepared (record offset : ℕ) (name : String) (fromSql : UInt8) (q : String)
      (types : List ℕ)
  | table (record offset : ℕ) (name cols post : String) (size : ℕ) (rows : ℤ)
  | dropAll (record offset : ℕ)
  | unknown (record offset : ℕ) (type : UInt8) (ln : ℕ)
  | truncated (record offset : ℕ) (size : ℤ)
  deriving DecidableEq

def gucRow (record offset : ℕ) : ScriptCur Row := do
  let name ← s
  let val ← s
  pure (.guc record offset name val)

def preparedRow (record offset : ℕ) : ScriptCur Row := do
  let name ← s
  let fromSql ← u8
  let q ← s
  let np ← u16
  let types ← readMany u32 np
  pure (.prepared record offset name fromSql q types)

def tableRow (record offset : ℕ) : ScriptCur Row := do
  let name ← s
  let cols ← s
  let post ← s
  let raw ← rest
  match copyRows raw with
  | .ok rows => pure (.table record offset name cols post raw.length rows)
  | .error error => throw error

/-- What has been printed, and how the script has ended if it has. -/
abbrev Printed := List Row × Option ScriptError

/-- A loop that prints a row in each round. -/
def printRows (row : ScriptCur Row) : (n : ℕ) → List UInt8 → Printed
  | 0, _ => ([], none)
  | n + 1, d =>
      match row d with
      | .error error _ => ([], some error)
      | .ok printed d =>
          let later := printRows row n d
          (printed :: later.1, later.2)

/-- A loop behind its count. -/
def printCounted (row : ScriptCur Row) (d : List UInt8) : Printed :=
  match u32 d with
  | .error error _ => ([], some error)
  | .ok n d => printRows row n d

def printRecord (record offset : ℕ) (t : UInt8) (ln : ℕ) (body : List UInt8) : Printed :=
  if t = 1 then printCounted (gucRow record offset) body
  else if t = 2 then printCounted (preparedRow record offset) body
  else if t = 3 then printRows (tableRow record offset) 1 body
  else if t = 4 then ([.dropAll record offset], none)
  else ([.unknown record offset t ln], none)

/-- The loop over the records, on the bytes from `offset` on.  Each takes nine bytes at
least, so it ends within as many rounds as there are bytes. -/
def printRecords (size : ℕ) : (rounds record offset : ℕ) → List UInt8 → Printed
  | 0, record, offset, _ => printEnd size record offset
  | rounds + 1, record, offset, d =>
      if d.length < 9 then printEnd size record offset
      else
        let ln := leAt 8 d 1
        let printed := printRecord record offset (d.getD 0 0) ln ((d.drop 9).take ln)
        match printed.2 with
        | some error => (printed.1, some error)
        | none =>
            let later := printRecords size rounds (record + 1) (offset + (9 + ln)) (d.drop (9 + ln))
            (printed.1 ++ later.1, later.2)
where
  printEnd (size record offset : ℕ) : Printed :=
    if offset ≠ size then ([.truncated record offset ((size : ℤ) - offset)], none) else ([], none)

/-- The rows of `session.csv` behind its head. -/
def listSession (data : List UInt8) : Printed :=
  printRecords data.length data.length 0 0 data

/-! ## What `COPY` sends -/

/-- A tuple as the server can send it. -/
structure CopyTuple where
  values : List (Option (List UInt8))
  values_lt : values.length < 2 ^ 15
  sizes_lt : ∀ bytes, some bytes ∈ values → bytes.length < 2 ^ 31

def valueLayout : Option (List UInt8) → List UInt8
  | some bytes => beBytes 4 bytes.length ++ bytes
  | none => [255, 255, 255, 255]

def tupleLayout (tuple : CopyTuple) : List UInt8 :=
  beBytes 2 tuple.values.length ++ tuple.values.flatMap valueLayout

/-- No flags, no extension of the header. -/
def copyLayout (tuples : List CopyTuple) : List UInt8 :=
  copySignature ++ ([0, 0, 0, 0] ++ ([0, 0, 0, 0] ++
    (tuples.flatMap tupleLayout ++ [255, 255])))

theorem signedBe_beBytes {width n : ℕ} (hn : n < 2 ^ (8 * width - 1)) :
    signedBe (beBytes width n) = n := by
  have hlt : n < 256 ^ width := by
    calc n < 2 ^ (8 * width - 1) := hn
      _ ≤ 2 ^ (8 * width) := Nat.pow_le_pow_right Nat.two_pos (Nat.sub_le _ _)
      _ = 256 ^ width := by
        rw [pow_mul]
        norm_num
  rw [signedBe, ofBeBytes_beBytes_of_lt hlt, length_beBytes, if_pos hn]

/-- A value is skipped, null or not. -/
theorem skipValues_value {value : Option (List UInt8)}
    (hvalue : ∀ bytes, value = some bytes → bytes.length < 2 ^ 31) (nf : ℕ) (d : List UInt8) :
    skipValues (nf + 1) (valueLayout value ++ d) = skipValues nf d := by
  cases value with
  | none =>
      have hnull : signedBe [255, 255, 255, 255] = -1 := by decide
      simp [skipValues, valueLayout, hnull]
  | some bytes =>
      have hsize := @signedBe_beBytes 4 _ (hvalue bytes rfl)
      have hfront : (beBytes 4 bytes.length ++ bytes ++ d).take 4 = beBytes 4 bytes.length := by
        rw [List.append_assoc, List.take_left' (length_beBytes _ _)]
      have hback : (beBytes 4 bytes.length ++ bytes ++ d).drop 4 = bytes ++ d := by
        rw [List.append_assoc, List.drop_left' (length_beBytes _ _)]
      have hlong : ¬(beBytes 4 bytes.length ++ bytes ++ d).length < 4 := by
        simp
      have hskip : (if (0 : ℤ) < bytes.length
          then (bytes ++ d).drop (bytes.length : ℤ).toNat else bytes ++ d) = d := by
        by_cases hempty : (0 : ℤ) < bytes.length
        · rw [if_pos hempty, Int.toNat_natCast, List.drop_left]
        · have hnil : bytes = [] := by simpa using hempty
          rw [if_neg hempty, hnil, List.nil_append]
      rw [skipValues, valueLayout, if_neg hlong]
      dsimp only
      rw [hfront, hback, hsize, hskip]

theorem skipValues_values {values : List (Option (List UInt8))}
    (hvalues : ∀ bytes, some bytes ∈ values → bytes.length < 2 ^ 31) (d : List UInt8) :
    skipValues values.length (values.flatMap valueLayout ++ d) = .ok d := by
  induction values with
  | nil => rfl
  | cons value values ih =>
      rw [List.flatMap_cons, List.append_assoc, List.length_cons, skipValues_value]
      · exact ih fun bytes hmem => hvalues bytes (List.mem_cons_of_mem _ hmem)
      · rintro bytes rfl
        exact hvalues bytes List.mem_cons_self

theorem countTuples_tuples (tuples : List CopyTuple) {rounds : ℕ} (hrounds : tuples.length < rounds)
    (n : ℕ) : countTuples rounds (tuples.flatMap tupleLayout ++ [255, 255]) n =
      .ok (n + tuples.length) := by
  induction tuples generalizing rounds n with
  | nil =>
      cases rounds with
      | zero => cases hrounds
      | succ rounds =>
          have hend : signedBe [255, 255] = -1 := by decide
          simp [countTuples, hend]
  | cons tuple tuples ih =>
      cases rounds with
      | zero => cases hrounds
      | succ rounds =>
          have hcount := @signedBe_beBytes 2 _ tuple.values_lt
          obtain ⟨d, hd⟩ : ∃ d, tuples.flatMap tupleLayout ++ [255, 255] = d := ⟨_, rfl⟩
          have hsplit : (tuple :: tuples).flatMap tupleLayout ++ [255, 255] =
              beBytes 2 tuple.values.length ++ (tuple.values.flatMap valueLayout ++ d) := by
            rw [← hd]
            simp [tupleLayout]
          have hlong : ¬(beBytes 2 tuple.values.length ++
              (tuple.values.flatMap valueLayout ++ d)).length < 2 := by
            rw [List.length_append, length_beBytes]
            omega
          have hmore : ((tuple.values.length : ℕ) : ℤ) ≠ -1 := by omega
          rw [hsplit, countTuples, if_neg hlong]
          dsimp only
          rw [List.take_left' (length_beBytes _ _), List.drop_left' (length_beBytes _ _), hcount,
            if_neg hmore, Int.toNat_natCast, skipValues_values tuple.sizes_lt]
          have hrest := ih (Nat.lt_of_succ_lt_succ hrounds) (n + 1)
          rw [hd] at hrest
          simp only [bind, Except.bind]
          rw [hrest, List.length_cons]
          congr 1
          omega

theorem length_le_tuples (tuples : List CopyTuple) :
    tuples.length * 2 ≤ (tuples.flatMap tupleLayout).length := by
  induction tuples with
  | nil => exact Nat.le_refl _
  | cons tuple tuples ih =>
      rw [List.flatMap_cons, List.length_append, List.length_cons, tupleLayout, List.length_append,
        length_beBytes]
      omega

/-- The script counts the tuples that have been sent. -/
theorem copyRows_copyLayout (tuples : List CopyTuple) :
    copyRows (copyLayout tuples) = .ok tuples.length := by
  have hsize := length_le_tuples tuples
  have hlength : (copyLayout tuples).length = (tuples.flatMap tupleLayout).length + 21 := by
    simp [copyLayout, copySignature]
  have hhead : copySignature <+: copyLayout tuples := List.prefix_append _ _
  have hsigned : ¬((copyLayout tuples).length < 19 ∨ ¬copySignature <+: copyLayout tuples) := by
    rw [not_or, not_not]
    exact ⟨by omega, hhead⟩
  have hext : ofBeBytes (((copyLayout tuples).drop 15).take 4) = 0 := by
    have hfour : ((copyLayout tuples).drop 15).take 4 = [0, 0, 0, 0] := by
      simp [copyLayout, copySignature]
    rw [hfour]
    rfl
  have hbody : (copyLayout tuples).drop (15 + (4 + 0)) =
      tuples.flatMap tupleLayout ++ [255, 255] := by
    simp [copyLayout, copySignature]
  rw [copyRows, if_neg hsigned]
  dsimp only
  rw [hext, hbody, countTuples_tuples tuples (by omega), Nat.zero_add]
  rfl

/-! ## What is printed for a record -/

theorem reads_unpackFrom {width n : ℕ} (hn : n < 256 ^ width) :
    Reads (unpackFrom width) (leBytes width n) n :=
  (Decodes.leBytes width id hn).reads

theorem reads_u8 (v : UInt8) : Reads u8 [v] v := fun _ => rfl

theorem reads_s {bytes : List UInt8} (hbytes : bytes.length < 2 ^ 32) :
    Reads s (stringLayout bytes) (fromUtf8Lossy bytes) := by
  have hslice : Reads (sliceOf bytes.length) bytes bytes := by
    intro d
    rw [sliceOf, List.take_left, List.drop_left]
  exact (reads_unpackFrom hbytes).bind (hslice.bind_pure fromUtf8Lossy)

theorem printRows_flatMap {A : Type} {row : ScriptCur Row} {layout : A → List UInt8}
    {printed : A → Row} {items : List A}
    (hitems : ∀ item ∈ items, Reads row (layout item) (printed item)) (d : List UInt8) :
    printRows row items.length (items.flatMap layout ++ d) = (items.map printed, none) := by
  induction items with
  | nil => rfl
  | cons item items ih =>
      obtain ⟨hitem, hrest⟩ := List.forall_mem_cons.mp hitems
      rw [List.length_cons, List.flatMap_cons, List.append_assoc, printRows, hitem]
      dsimp only
      rw [ih hrest]
      rfl

theorem printCounted_layout {A : Type} {row : ScriptCur Row} {layout : A → List UInt8}
    {printed : A → Row} {items : List A}
    (hitems : ∀ item ∈ items, Reads row (layout item) (printed item))
    (hcount : items.length < 2 ^ 32) :
    printCounted row (countedLayout layout items) = (items.map printed, none) := by
  have hu32 : Reads u32 (leBytes 4 items.length) items.length := reads_unpackFrom hcount
  have hrows := printRows_flatMap hitems []
  rw [List.append_nil] at hrows
  rw [printCounted, countedLayout, hu32]
  exact hrows

def settingRow (record offset : ℕ) (guc : ConfigGeneric) : Row :=
  .guc record offset (fromUtf8Lossy guc.name.bytes)
    (fromUtf8Lossy (guc.val.getD CString.empty).bytes)

theorem reads_settingRow (record offset : ℕ) (guc : ConfigGeneric) :
    Reads (gucRow record offset) (settingLayout guc) (settingRow record offset guc) := by
  have hshort : ∀ text : CString, text.bytes.length < 2 ^ 32 := fun text =>
    text.length_lt.trans (by decide)
  apply (reads_s (hshort guc.name)).bind
  exact (reads_s (hshort _)).bind_pure _

def statementRow (record offset : ℕ) (statement : WrittenStatement) : Row :=
  .prepared record offset (fromUtf8Lossy statement.name.bytes)
    (if statement.fromSql then 1 else 0) (fromUtf8Lossy statement.src.text)
    (statement.src.paramTypes.map UInt32.toNat)

theorem length_text_le (src : CachedPlanSource) :
    src.text.length ≤ src.queryString.bytes.length := by
  rw [CachedPlanSource.text]
  split
  · simp only
    split_ifs
    · rw [List.length_take, List.length_drop]
      omega
    · rw [List.length_drop]
      omega
    · exact Nat.le_refl _
  · exact Nat.le_refl _

theorem reads_statementRow (record offset : ℕ) (statement : WrittenStatement) :
    Reads (preparedRow record offset) (statementLayout statement)
      (statementRow record offset statement) := by
  have htext : statement.src.text.length < 2 ^ 32 :=
    ((length_text_le _).trans_lt statement.src.queryString.length_lt).trans (by decide)
  have htypes : Reads (readMany u32 statement.src.paramTypes.length)
      (typesLayout statement.src.paramTypes) (statement.src.paramTypes.map UInt32.toNat) :=
    Reads.readMany fun type _ => reads_unpackFrom type.toNat_lt
  apply (reads_s (statement.name.length_lt.trans (by decide))).bind
  apply (reads_u8 _).bind
  apply (reads_s htext).bind
  apply (reads_unpackFrom statement.src.paramTypes_lt).bind
  exact htypes.bind_pure _

def tableRowOf (tuples : TempTable → List CopyTuple) (record offset : ℕ) (table : TempTable) :
    Row :=
  .table record offset (fromUtf8Lossy (field table.tableName))
    (fromUtf8Lossy (field table.columnsDdl)) (fromUtf8Lossy (field table.postDdl))
    table.copy.flatten.length (tuples table).length

theorem printRows_tableRow {tuples : TempTable → List CopyTuple} (record offset : ℕ)
    {table : TempTable} (hcopy : table.copy.flatten = copyLayout (tuples table)) :
    printRows (tableRow record offset) 1 (tableLayout table) =
      ([tableRowOf tuples record offset table], none) := by
  have hshort : ∀ text ∈ [table.tableName, table.columnsDdl, table.postDdl],
      (field text).length < 2 ^ 32 := fun text htext =>
    (table.strings_lt text htext).trans (by decide)
  have hname := reads_s (hshort table.tableName (by simp))
  have hcols := reads_s (hshort table.columnsDdl (by simp))
  have hpost := reads_s (hshort table.postDdl (by simp))
  have hrow : tableRow record offset (tableLayout table) =
      .ok (tableRowOf tuples record offset table) [] := by
    rw [tableRow, tableLayout, bind_of_ok (hname _), bind_of_ok (hcols _), bind_of_ok (hpost _)]
    change (match copyRows table.copy.flatten with
      | .ok rows => (pure (Row.table record offset _ _ _ table.copy.flatten.length rows) :
          ScriptCur Row)
      | .error error => throw error) [] = _
    rw [hcopy, copyRows_copyLayout]
    rw [tableRowOf, hcopy]
    rfl
  rw [printRows, hrow]
  rfl

/-! ## The walk -/

section Walk

variable (size rounds : ℕ) {record offset : ℕ}

/-- A record that is printed as a whole, and what is printed behind it. -/
theorem printRecords_record {t : UInt8} {body d : List UInt8} {rows : List Row}
    (hbody : body.length < 2 ^ 64)
    (hrows : printRecord record offset t body.length body = (rows, none)) :
    printRecords size (rounds + 1) record offset (recordLayout t body ++ d) =
      (rows ++ (printRecords size rounds (record + 1)
          (offset + (recordLayout t body).length) d).1,
        (printRecords size rounds (record + 1) (offset + (recordLayout t body).length) d).2) := by
  have hlayout : recordLayout t body ++ d = [t] ++ (leBytes 8 body.length ++ (body ++ d)) := by
    simp [recordLayout]
  have hsize : (recordLayout t body).length = 9 + body.length := by
    simp [recordLayout]
    omega
  have hln : leAt 8 (recordLayout t body ++ d) 1 = body.length := by
    rw [hlayout]
    exact leAt_append [t] (body ++ d) hbody
  have hdrop : (recordLayout t body ++ d).drop 9 = body ++ d := by
    rw [hlayout, ← List.append_assoc]
    exact List.drop_left' (by simp)
  have hbehind : (recordLayout t body ++ d).drop (9 + body.length) = d := by
    rw [← hsize, List.drop_left]
  have hlong : ¬(recordLayout t body ++ d).length < 9 := by
    rw [List.length_append, hsize]
    omega
  have htype : (recordLayout t body ++ d).getD 0 0 = t := rfl
  rw [printRecords, if_neg hlong, hln, hdrop, htype]
  dsimp only
  rw [List.take_left, hrows, hbehind, hsize]

/-- The rows of the tables from one on. -/
def tableRows (tuples : TempTable → List CopyTuple) : (record offset : ℕ) → List TempTable →
    List Row
  | _, _, [] => []
  | record, offset, table :: tables =>
      tableRowOf tuples record offset table :: tableRows tuples (record + 1)
        (offset + (recordLayout sessTable (tableLayout table)).length) tables

theorem printRecords_tables {tuples : TempTable → List CopyTuple} {tables : List TempTable}
    (record offset : ℕ) (hcopy : ∀ table ∈ tables, table.copy.flatten = copyLayout (tuples table))
    (hsize : ∀ table ∈ tables, (tableLayout table).length < 2 ^ 64) (d : List UInt8) :
    ∃ later, printRecords size (rounds + tables.length) record offset
        ((tables.flatMap fun table => recordLayout sessTable (tableLayout table)) ++ d) =
          (tableRows tuples record offset tables ++ later.1, later.2) ∧
      later = printRecords size rounds (record + tables.length) (offset +
        (tables.flatMap fun table => recordLayout sessTable (tableLayout table)).length) d := by
  induction tables generalizing record offset with
  | nil => exact ⟨_, rfl, rfl⟩
  | cons table tables ih =>
      obtain ⟨hfirst, hcopies⟩ := List.forall_mem_cons.mp hcopy
      obtain ⟨hshort, hsizes⟩ := List.forall_mem_cons.mp hsize
      have hrows : printRecord record offset sessTable (tableLayout table).length
          (tableLayout table) = ([tableRowOf tuples record offset table], none) := by
        rw [printRecord, if_neg (by decide), if_neg (by decide), if_pos (by decide)]
        exact printRows_tableRow record offset hfirst
      obtain ⟨later, hprinted, hlater⟩ := ih (record + 1)
        (offset + (recordLayout sessTable (tableLayout table)).length) hcopies hsizes
      refine ⟨later, ?_, ?_⟩
      · rw [List.flatMap_cons, List.append_assoc, List.length_cons, ← Nat.add_assoc,
          printRecords_record size _ hshort hrows, hprinted]
        rfl
      · rw [hlater, List.length_cons, List.flatMap_cons, List.length_append]
        congr 1 <;> omega

/-- The rows of a session: its settings, its statements with the unnamed one, and its
tables. -/
def sessionRows (tuples : TempTable → List CopyTuple) (gucs : List ConfigGeneric)
    (unnamed : Option CachedPlanSource) (prepared : List PreparedStatement)
    (tables : List TempTable) : List Row :=
  let settings := recordLayout sessGucs (countedLayout settingLayout (sessionGucs gucs))
  let statements := recordLayout sessPrepared
    (countedLayout statementLayout (writtenStatements unnamed prepared))
  (sessionGucs gucs).map (settingRow 0 0) ++
    ((writtenStatements unnamed prepared).map (statementRow 1 settings.length) ++
      tableRows tuples 2 (settings.length + statements.length) tables)

variable {tuples : TempTable → List CopyTuple} {gucs : List ConfigGeneric}
variable {unnamed : Option CachedPlanSource} {prepared : List PreparedStatement}
variable {tables : List TempTable}

/-- The rows of a session are printed whatever comes behind it. -/
theorem printRecords_session
    (hgucs : (countedLayout settingLayout (sessionGucs gucs)).length < maxAllocSize)
    (hgucsCount : (sessionGucs gucs).length < 2 ^ 32)
    (hprep : (countedLayout statementLayout (writtenStatements unnamed prepared)).length <
      maxAllocSize)
    (hprepCount : (writtenStatements unnamed prepared).length < 2 ^ 32)
    (hcopy : ∀ table ∈ tables, table.copy.flatten = copyLayout (tuples table))
    (hsize : ∀ table ∈ tables, (tableLayout table).length < 2 ^ 64) (d : List UInt8) :
    ∃ later, printRecords size (rounds + tables.length + 2) 0 0
        (sessionBytes gucs unnamed prepared tables ++ d) =
          (sessionRows tuples gucs unnamed prepared tables ++ later.1, later.2) ∧
      later = printRecords size rounds (2 + tables.length)
        (sessionBytes gucs unnamed prepared tables).length d := by
  obtain ⟨settings, hsettings⟩ : ∃ settings,
      recordLayout sessGucs (countedLayout settingLayout (sessionGucs gucs)) = settings := ⟨_, rfl⟩
  obtain ⟨statements, hstatements⟩ : ∃ statements, recordLayout sessPrepared
      (countedLayout statementLayout (writtenStatements unnamed prepared)) = statements :=
    ⟨_, rfl⟩
  have hshort : maxAllocSize < 2 ^ 64 := by decide
  have hgucRows : ∀ ln, printRecord 0 0 sessGucs ln
      (countedLayout settingLayout (sessionGucs gucs)) =
        ((sessionGucs gucs).map (settingRow 0 0), none) := by
    intro ln
    rw [printRecord, if_pos (by decide)]
    exact printCounted_layout (fun guc _ => reads_settingRow 0 0 guc) hgucsCount
  have hprepRows : ∀ offset ln, printRecord 1 offset sessPrepared ln
      (countedLayout statementLayout (writtenStatements unnamed prepared)) =
        ((writtenStatements unnamed prepared).map (statementRow 1 offset), none) := by
    intro offset ln
    rw [printRecord, if_neg (by decide), if_pos (by decide)]
    exact printCounted_layout (fun statement _ => reads_statementRow 1 offset statement) hprepCount
  obtain ⟨later, hprinted, hlater⟩ := printRecords_tables size rounds 2
    (settings.length + statements.length) hcopy hsize d
  have hsession : sessionBytes gucs unnamed prepared tables = settings ++ (statements ++
      tables.flatMap fun table => recordLayout sessTable (tableLayout table)) := by
    rw [← hsettings, ← hstatements, sessionBytes]
  have hfirst := fun d rounds => printRecords_record size rounds (d := d)
    (hgucs.trans hshort) (hgucRows _)
  have hsecond := fun d rounds => printRecords_record size rounds (d := d)
    (hprep.trans hshort) (hprepRows settings.length _)
  refine ⟨later, ?_, ?_⟩
  · rw [hsession, List.append_assoc, List.append_assoc]
    have hopened := hfirst (statements ++ ((tables.flatMap fun table =>
      recordLayout sessTable (tableLayout table)) ++ d)) (rounds + tables.length + 1)
    rw [hsettings, Nat.zero_add, Nat.zero_add, ← hstatements, hsecond, hstatements, hprinted]
      at hopened
    rw [hopened, sessionRows, hsettings, hstatements]
    simp only [List.append_assoc]
  · rw [hlater, hsession]
    simp only [List.length_append, Nat.add_assoc]

end Walk

/-- `session.py` lists what a session has dumped: each of its settings, its prepared
statements with the unnamed one, and its tables with the number of rows that `COPY` has
sent, each in its order.  Whatever follows a dump of the first tables, such as a table whose
dump was interrupted, the rows of what is there in whole are printed first. -/
theorem listSession_startBody {tuples : TempTable → List CopyTuple} {gucs : List ConfigGeneric}
    {unnamed : Option CachedPlanSource} {prepared : List PreparedStatement}
    {tables : List TempTable} {f : File}
    (hwrite : startBody gucs unnamed prepared tables = .ok f)
    (hcopy : ∀ table ∈ tables, table.copy.flatten = copyLayout (tuples table)) :
    listSession f.bytes = (sessionRows tuples gucs unnamed prepared tables, none) ∧
      ∀ n tail, sessionRows tuples gucs unnamed prepared (tables.take n) <+:
        (listSession (sessionBytes gucs unnamed prepared (tables.take n) ++ tail)).1 := by
  obtain ⟨rfl, hlimit, hgucs, hgucsCount, hprep, hprepCount⟩ := startBody_eq_ok hwrite
  have hsize : ∀ table ∈ tables, (tableLayout table).length < 2 ^ 64 := by
    intro table htable
    have hin : (recordLayout sessTable (tableLayout table)).length ≤
        (sessionBytes gucs unnamed prepared tables).length := by
      have hrecord := @length_le_of_mem_flatMap _
        (fun table => recordLayout sessTable (tableLayout table)) tables table htable
      rw [sessionBytes, List.length_append, List.length_append]
      omega
    have hrecord : (recordLayout sessTable (tableLayout table)).length =
        9 + (tableLayout table).length := by
      simp [recordLayout]
      omega
    rw [maxOffset] at hlimit
    omega
  -- As many rounds as bytes are enough for the records.
  have hrounds : ∀ some tail, some <+: tables → ∃ rounds,
      (sessionBytes gucs unnamed prepared some ++ tail).length = rounds + some.length + 2 := by
    intro some tail _
    refine ⟨(sessionBytes gucs unnamed prepared some ++ tail).length - some.length - 2, ?_⟩
    have htables : some.length ≤ (some.flatMap fun table =>
        recordLayout sessTable (tableLayout table)).length := by
      apply length_le_length_flatMap some
      intro table
      simp [recordLayout]
    have hsettings : 1 ≤ (recordLayout sessGucs
        (countedLayout settingLayout (sessionGucs gucs))).length := by
      simp [recordLayout]
    have hstatements : 1 ≤ (recordLayout sessPrepared
        (countedLayout statementLayout (writtenStatements unnamed prepared))).length := by
      simp [recordLayout]
    rw [List.length_append, sessionBytes, List.length_append, List.length_append]
    omega
  constructor
  · obtain ⟨rounds, hlength⟩ := hrounds tables [] (List.prefix_refl _)
    obtain ⟨later, hprinted, hlater⟩ := printRecords_session
      (sessionBytes gucs unnamed prepared tables).length rounds hgucs hgucsCount hprep hprepCount
      hcopy hsize []
    have hend : later = ([], none) := by
      rw [hlater]
      cases rounds <;> simp [printRecords, printRecords.printEnd]
    rw [List.append_nil] at hprinted hlength
    rw [atEnd_bytes, listSession]
    nth_rewrite 2 [hlength]
    rw [hprinted, hend, List.append_nil]
  · intro n tail
    have hpart : tables.take n <+: tables := List.take_prefix _ _
    obtain ⟨rounds, hlength⟩ := hrounds _ tail hpart
    obtain ⟨later, hprinted, -⟩ := printRecords_session
      (sessionBytes gucs unnamed prepared (tables.take n) ++ tail).length rounds hgucs hgucsCount
      hprep hprepCount
      (fun table htable => hcopy table (hpart.subset htable))
      (fun table htable => hsize table (hpart.subset htable)) tail
    rw [listSession]
    nth_rewrite 2 [hlength]
    rw [hprinted]
    exact List.prefix_append _ _

/-- A tuple of one value and a tuple of a null. -/
def twoTuples : List CopyTuple :=
  [⟨[some [49]], by decide, by simp⟩, ⟨[none], by decide, by simp⟩]

/-- The temporary table `t` of the two tuples, each of which `COPY` sends by itself. -/
def tableOfTwo : TempTable :=
  { tableT with copy := [copySignature ++ [0, 0, 0, 0] ++ [0, 0, 0, 0], [0, 1, 0, 0, 0, 1, 49],
      [0, 1, 255, 255, 255, 255], [255, 255]] }

theorem listSession_startBody_tableOfTwo :
    ∃ f, startBody [settingS] (some statementP.plansource) [statementP] [tableOfTwo] = .ok f ∧
      listSession f.bytes = (sessionRows (fun _ => twoTuples) [settingS]
        (some statementP.plansource) [statementP] [tableOfTwo], none) ∧
      (listSession f.bytes).1.length = 4 := by
  have hok : (startBody [settingS] (some statementP.plansource) [statementP]
      [tableOfTwo]).isOk = true := by
    decide +kernel
  have hcopy : ∀ table ∈ [tableOfTwo], table.copy.flatten = copyLayout twoTuples := by
    intro table htable
    rw [List.mem_singleton.mp htable]
    rfl
  cases hwrite : startBody [settingS] (some statementP.plansource) [statementP] [tableOfTwo] with
  | error error =>
      rw [hwrite] at hok
      cases hok
  | ok f =>
      obtain ⟨hlisted, -⟩ := listSession_startBody hwrite hcopy
      refine ⟨f, rfl, hlisted, ?_⟩
      rw [hlisted]
      rfl

end Pgr.SessionListing
