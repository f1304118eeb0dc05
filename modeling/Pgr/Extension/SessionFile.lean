import Pgr.Core.Decoding
import Pgr.Core.Stdio
import Pgr.Extension.CaptureEncoder

/-!
# The session file

`session.c`: the settings and the prepared statements of a session are built in
memory and written as one record each; a temporary table is streamed, and the
length in front of it is patched when its end is known.  The restore walks over
the records by their lengths, restores a table when it meets it, and applies the
settings and the prepared statements at the end.

An error of the code is an `Except` here.  What the restore steps do in the
database is not modelled, only what they are handed.
-/

namespace Pgr.SessionFile

open Pgr.FixedWidth Pgr.Decoding Pgr.Stdio Pgr.CaptureEncoder

inductive SessionError where
  /-- `invalid memory alloc request size` or `out of memory` of a `StringInfo`. -/
  | allocation
  /-- `pgr: write failed`. -/
  | writeFailed
  /-- `pgr: session file is truncated`. -/
  | truncated
  /-- A cursor has left its buffer, which the code does not notice. -/
  | outOfBounds
  /-- More records than the walk was given steps for. -/
  | outOfFuel
  deriving DecidableEq

/-- `MaxAllocSize`. -/
def maxAllocSize : ℕ := 0x3fffffff

def sessGucs : UInt8 := 1
def sessPrepared : UInt8 := 2
def sessTable : UInt8 := 3

/-! ## Building a record in memory -/

/-- `appendBinaryStringInfo`. -/
def sbRaw (data b : List UInt8) : Except SessionError (List UInt8) :=
  if b.length + data.length < maxAllocSize then .ok (b ++ data) else .error .allocation

def sbU8 (value : UInt8) : List UInt8 → Except SessionError (List UInt8) :=
  sbRaw [value]

def sbU16 (value : UInt16) : List UInt8 → Except SessionError (List UInt8) :=
  sbRaw (leBytes 2 value.toNat)

def sbU32 (value : UInt32) : List UInt8 → Except SessionError (List UInt8) :=
  sbRaw (leBytes 4 value.toNat)

def sbBytes (data b : List UInt8) : Except SessionError (List UInt8) := do
  let b ← sbU32 (UInt32.ofNat data.length) b
  sbRaw data b

def sbStr (s : CString) : List UInt8 → Except SessionError (List UInt8) :=
  sbBytes s.bytes

/-- `memcpy` of a count to its place. -/
def patchU32 (pos : ℕ) (value : UInt32) (b : List UInt8) : List UInt8 :=
  b.take pos ++ leBytes 4 value.toNat ++ b.drop (pos + 4)

inductive GucContext where
  | internal
  | postmaster
  | sighup
  | suBackend
  | backend
  | suset
  | userset
  deriving DecidableEq

inductive GucSource where
  | default
  | dynamicDefault
  | envVar
  | file
  | argv
  | global
  | database
  | user
  | databaseUser
  | client
  | override
  | interactive
  | test
  | session
  deriving DecidableEq

/-- `source >= PGC_S_DATABASE`. -/
def GucSource.fromDatabase : GucSource → Bool
  | .default | .dynamicDefault | .envVar | .file | .argv | .global => false
  | .database | .user | .databaseUser | .client | .override | .interactive | .test
  | .session => true

structure ConfigGeneric where
  context : GucContext
  source : GucSource
  name : CString
  /-- `ShowGUCOption`. -/
  val : Option CString

def gucIsSessionState (guc : ConfigGeneric) : Bool :=
  if guc.context = .internal ∨ guc.context = .postmaster then false
  else guc.source.fromDatabase ∧ guc.source ≠ .override

/-- The loop of `build_gucs`, with its count. -/
def eachGuc : List ConfigGeneric → UInt32 → List UInt8 →
    Except SessionError (UInt32 × List UInt8)
  | [], count, b => .ok (count, b)
  | guc :: gucs, count, b =>
      if gucIsSessionState guc then do
        let b ← sbStr guc.name b
        let b ← sbStr (guc.val.getD CString.empty) b
        eachGuc gucs (count + 1) b
      else eachGuc gucs count b

def buildGucs (gucs : List ConfigGeneric) (b : List UInt8) : Except SessionError (List UInt8) := do
  let pos := b.length
  let b ← sbU32 0 b
  let (count, b) ← eachGuc gucs 0 b
  pure (patchU32 pos count b)

structure RawStmt where
  stmtLocation : ℤ
  stmtLen : ℤ

structure CachedPlanSource where
  queryString : CString
  rawParseTree : Option RawStmt
  paramTypes : List UInt32
  paramTypes_lt : paramTypes.length < 2 ^ 16

/-- The statement's own part of the query string. -/
def CachedPlanSource.text (src : CachedPlanSource) : List UInt8 :=
  let q := src.queryString.bytes
  match src.rawParseTree with
  | some raw =>
      if 0 ≤ raw.stmtLocation ∧ raw.stmtLocation ≤ q.length then
        let q := q.drop raw.stmtLocation.toNat
        if 0 < raw.stmtLen ∧ raw.stmtLen < q.length then q.take raw.stmtLen.toNat else q
      else q
  | none => q

def sbPlansource (name : CString) (fromSql : Bool) (src : CachedPlanSource) (b : List UInt8) :
    Except SessionError (List UInt8) := do
  let b ← sbStr name b
  let b ← sbU8 (if fromSql then 1 else 0) b
  let b ← sbBytes src.text b
  let b ← sbU16 (UInt16.ofNat src.paramTypes.length) b
  src.paramTypes.foldlM (fun b type => sbU32 type b) b

/-- An entry of the table of prepared statements, none of which is unnamed. -/
structure PreparedStatement where
  stmtName : CString
  stmtName_ne_nil : stmtName.bytes ≠ []
  fromSql : Bool
  plansource : CachedPlanSource

/-- `each_prepared`. -/
def eachPrepared (c : UInt32 × List UInt8) (ps : PreparedStatement) :
    Except SessionError (UInt32 × List UInt8) := do
  let b ← sbPlansource ps.stmtName ps.fromSql ps.plansource c.2
  pure (c.1 + 1, b)

/-- The unnamed statement, with the count. -/
def putUnnamed (unnamed : Option CachedPlanSource) (b : List UInt8) :
    Except SessionError (UInt32 × List UInt8) :=
  match unnamed with
  | some src => do
      let b ← sbPlansource CString.empty false src b
      pure (1, b)
  | none => pure (0, b)

def buildPrepared (unnamed : Option CachedPlanSource) (prepared : List PreparedStatement)
    (b : List UInt8) : Except SessionError (List UInt8) := do
  let pos := b.length
  let b ← sbU32 0 b
  let c ← putUnnamed unnamed b
  let (n, b) ← prepared.foldlM eachPrepared c
  pure (patchU32 pos n b)

/-! ## Writing -/

def wr (data : List UInt8) (f : File) : Except SessionError File :=
  if f.pos + data.length ≤ maxOffset then .ok (fwrite data f) else .error .writeFailed

def wrU32 (value : UInt32) : File → Except SessionError File :=
  wr (leBytes 4 value.toNat)

/-- `s` is a null pointer or a string. -/
def wrStr (s : Option CString) (f : File) : Except SessionError File := do
  let bytes := (s.getD CString.empty).bytes
  let f ← wrU32 (UInt32.ofNat bytes.length) f
  if bytes = [] then pure f else wr bytes f

def putRec (type : UInt8) (b : List UInt8) (f : File) : Except SessionError File := do
  let f ← wr [type] f
  let f ← wr (leBytes 8 b.length) f
  if b = [] then pure f else wr b f

def writeState (gucs : List ConfigGeneric) (unnamed : Option CachedPlanSource)
    (prepared : List PreparedStatement) (f : File) : Except SessionError File := do
  let cur ← buildGucs gucs []
  let f ← putRec sessGucs cur f
  let cur ← buildPrepared unnamed prepared []
  putRec sessPrepared cur f

/-- A row of `pgr.ttdescribe()` and what `COPY` sends for its table.  The strings
are in memory, so they are shorter than what can be allocated. -/
structure TempTable where
  tableName : Option CString
  columnsDdl : Option CString
  postDdl : Option CString
  copy : List (List UInt8)
  strings_lt : ∀ s ∈ [tableName, columnsDdl, postDdl],
    (s.getD CString.empty).bytes.length < maxAllocSize

def dumpTable (f : File) (table : TempTable) : Except SessionError File := do
  let f ← wr [sessTable] f
  let f ← wr (leBytes 8 0) f
  let start := f.pos
  let f ← wrStr table.tableName f
  let f ← wrStr table.columnsDdl f
  let f ← wrStr table.postDdl f
  -- `dump_cb`, as often as `COPY` calls it.
  let f ← table.copy.foldlM (fun f data => wr data f) f
  let finish := f.pos
  let len := finish - start
  let f ← wr (leBytes 8 len) (fseeko ((start : ℤ) - 8) f)
  pure (fseeko finish f)

def dumpTables (tables : List TempTable) (f : File) : Except SessionError File :=
  tables.foldlM dumpTable f

/-- `start_body` on the file that `session_start` has opened. -/
def startBody (gucs : List ConfigGeneric) (unnamed : Option CachedPlanSource)
    (prepared : List PreparedStatement) (tables : List TempTable) :
    Except SessionError File := do
  let f ← writeState gucs unnamed prepared (atEnd [])
  dumpTables tables f

/-! ## The cursors of the restore -/

abbrev Cur := Reader SessionError

def cU8 : Cur UInt8 := do
  let bytes ← readExact .outOfBounds 1
  pure (UInt8.ofNat (ofLeBytes bytes))

def cU16 : Cur UInt16 := do
  let bytes ← readExact .outOfBounds 2
  pure (UInt16.ofNat (ofLeBytes bytes))

def cU32 : Cur UInt32 := do
  let bytes ← readExact .outOfBounds 4
  pure (UInt32.ofNat (ofLeBytes bytes))

/-- The bytes as a C string. -/
def cutAtNul (bytes : List UInt8) : List UInt8 :=
  bytes.takeWhile (· != 0)

def cStr : Cur (List UInt8) := do
  let n ← cU32
  let bytes ← readExact .outOfBounds n.toNat
  pure (cutAtNul bytes)

/-- The arguments of `set_config_option`. -/
structure RestoredSetting where
  name : List UInt8
  val : List UInt8
  deriving DecidableEq

def applyGucs : Cur (List RestoredSetting) := do
  let n ← cU32
  readMany (do
    let name ← cStr
    let val ← cStr
    pure ⟨name, val⟩) n.toNat

/-- The arguments of `apply_one_prepared`. -/
structure RestoredStatement where
  name : List UInt8
  fromSql : Bool
  q : List UInt8
  types : List UInt32
  deriving DecidableEq

def applyPrepared : Cur (List RestoredStatement) := do
  let n ← cU32
  let statements ← readMany (do
    let name ← cStr
    let fromSql ← cU8
    let q ← cStr
    let np ← cU16
    let types ← readMany cU32 np.toNat
    pure ⟨name, fromSql != 0, q, types⟩) n.toNat
  pure (statements.filter fun statement => statement.name ≠ [])

/-! ## Reading -/

def palloc (size : ℕ) : Except SessionError Unit :=
  if size ≤ maxAllocSize then .ok () else .error .allocation

def rd (n : ℕ) (f : File) : Except SessionError (List UInt8 × File) :=
  let got := fread n f
  if got.1.length = n then .ok got else .error .truncated

def rdU32 (f : File) : Except SessionError (UInt32 × File) := do
  let (bytes, f) ← rd 4 f
  pure (UInt32.ofNat (ofLeBytes bytes), f)

def rdU64 (f : File) : Except SessionError (UInt64 × File) := do
  let (bytes, f) ← rd 8 f
  pure (UInt64.ofNat (ofLeBytes bytes), f)

def rdStr (f : File) : Except SessionError (List UInt8 × File) := do
  let (n, f) ← rdU32 f
  palloc (n + 1).toNat
  let (bytes, f) ← rd n.toNat f
  pure (cutAtNul bytes, f)

/-- `load_cb` for `COPY`, with `ReadLeft`. -/
def loadCb (maxread readLeft : ℕ) (f : File) : List UInt8 × ℕ × File :=
  let got := fread (min maxread readLeft) f
  (got.1, readLeft - got.1.length, got.2)

/-- What `COPY` gets when it calls `load_cb` with one `maxread` after the other. -/
def loadAll : (maxreads : List ℕ) → (readLeft : ℕ) → File → List (List UInt8) × File
  | [], _, f => ([], f)
  | maxread :: maxreads, readLeft, f =>
      let (chunk, readLeft, f) := loadCb maxread readLeft f
      let (chunks, f) := loadAll maxreads readLeft f
      (chunk :: chunks, f)

structure RestoredTable where
  tname : List UInt8
  cols : List UInt8
  post : List UInt8
  chunks : List (List UInt8)
  deriving DecidableEq

def restoreTable (maxreads : List ℕ) (len : UInt64) (f : File) :
    Except SessionError (RestoredTable × File) := do
  let start := f.pos
  let (tname, f) ← rdStr f
  let (cols, f) ← rdStr f
  let (post, f) ← rdStr f
  let readLeft := len - UInt64.ofNat (f.pos - start)
  let (chunks, f) := loadAll maxreads readLeft.toNat f
  pure (⟨tname, cols, post, chunks⟩, f)

/-- The walk over the records, with the tables restored so far. -/
structure RestoreWalk where
  file : File
  gucs : Option (List UInt8)
  prep : Option (List UInt8)
  tables : List RestoredTable

def restoreRecord (maxreads : List ℕ) (type : UInt8) (len : UInt64) (w : RestoreWalk) :
    Except SessionError RestoreWalk :=
  if type = sessGucs then do
    palloc len.toNat
    let (gucs, f) ← rd len.toNat w.file
    pure { w with file := f, gucs := some gucs }
  else if type = sessPrepared then do
    palloc len.toNat
    let (prep, f) ← rd len.toNat w.file
    pure { w with file := f, prep := some prep }
  else if type = sessTable then do
    let (table, f) ← restoreTable maxreads len w.file
    pure { w with file := f, tables := w.tables ++ [table] }
  else pure w

/-- The loop of `restore_body`.  `maxreads` are the calls of `load_cb` that `COPY`
makes for each table. -/
def restoreRecords (maxreads : ℕ → List ℕ) : (fuel : ℕ) → RestoreWalk →
    Except SessionError RestoreWalk
  | 0, _ => .error .outOfFuel
  | fuel + 1, w =>
      match fread 1 w.file with
      | ([], _) => .ok w
      | (type :: _, f) => do
          let (len, f) ← rdU64 f
          let next := (f.pos : ℤ) + len.toInt64.toInt
          let w ← restoreRecord (maxreads w.tables.length) type len { w with file := f }
          restoreRecords maxreads fuel { w with file := fseeko next w.file }

/-- What the restore steps are handed, and what the cursors have left over. -/
structure Restored where
  tables : List RestoredTable
  settings : List RestoredSetting
  gucsLeft : List UInt8
  prepared : List RestoredStatement
  prepLeft : List UInt8
  deriving DecidableEq

/-- A cursor over a buffer, if there is one. -/
def applyCur {A : Type} (cur : Cur (List A)) : Option (List UInt8) →
    Except SessionError (List A × List UInt8)
  | none => .ok ([], [])
  | some buf =>
      match cur buf with
      | .ok values rest => .ok (values, rest)
      | .error error _ => .error error

def restoreBody (maxreads : ℕ → List ℕ) (fuel : ℕ) (f : File) :
    Except SessionError Restored := do
  let w ← restoreRecords maxreads fuel ⟨f, none, none, []⟩
  let (settings, gucsLeft) ← applyCur applyGucs w.gucs
  let (prepared, prepLeft) ← applyCur applyPrepared w.prep
  pure ⟨w.tables, settings, gucsLeft, prepared, prepLeft⟩

end Pgr.SessionFile
