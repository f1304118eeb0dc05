import Pgr.Extension.SessionFile

/-!
# Round trip of the session file

What `start_body` writes is a sequence of records: a type, a length, and as many
bytes.  A record built in memory and a streamed one have the same layout, the
count in front of the first and the length in front of the second being patched
in later.  The restore walks over these records whatever `COPY` reads of a table.
-/

namespace Pgr.SessionRoundTrip

open Pgr.FixedWidth Pgr.Decoding Pgr.Stdio Pgr.CaptureEncoder Pgr.SessionFile

/-! ## The layout -/

def stringLayout (bytes : List UInt8) : List UInt8 :=
  leBytes 4 bytes.length ++ bytes

/-- The name and the value of a setting as they are written. -/
def settingLayout (guc : ConfigGeneric) : List UInt8 :=
  stringLayout guc.name.bytes ++ stringLayout (guc.val.getD CString.empty).bytes

def countedLayout {A : Type} (layout : A → List UInt8) (items : List A) : List UInt8 :=
  leBytes 4 items.length ++ items.flatMap layout

def typesLayout (types : List UInt32) : List UInt8 :=
  types.flatMap fun type => leBytes 4 type.toNat

/-- A statement as it is written, the unnamed one among them. -/
structure WrittenStatement where
  name : CString
  fromSql : Bool
  src : CachedPlanSource

def statementLayout (statement : WrittenStatement) : List UInt8 :=
  stringLayout statement.name.bytes ++ ([if statement.fromSql then 1 else 0] ++
    (stringLayout statement.src.text ++ (leBytes 2 statement.src.paramTypes.length ++
      typesLayout statement.src.paramTypes)))

def recordLayout (type : UInt8) (body : List UInt8) : List UInt8 :=
  [type] ++ (leBytes 8 body.length ++ body)

def field (s : Option CString) : List UInt8 :=
  (s.getD CString.empty).bytes

def tableLayout (table : TempTable) : List UInt8 :=
  stringLayout (field table.tableName) ++ (stringLayout (field table.columnsDdl) ++
    (stringLayout (field table.postDdl) ++ table.copy.flatten))

theorem length_stringLayout (bytes : List UInt8) :
    (stringLayout bytes).length = 4 + bytes.length := by
  simp [stringLayout]

/-! ## Building -/

section Building

variable {E A B : Type}

theorem bind_eq_ok {first : Except E A} {next : A → Except E B} {result : B}
    (hbind : first >>= next = .ok result) : ∃ value, first = .ok value ∧ next value = .ok result := by
  cases first with
  | error error => cases hbind
  | ok value => exact ⟨value, rfl, hbind⟩

/-- The step appends `data`, within the limit of a `StringInfo`. -/
def Builds (step : List UInt8 → Except SessionError (List UInt8)) (data : List UInt8) : Prop :=
  ∀ b b', b.length < maxAllocSize → step b = .ok b' →
    b' = b ++ data ∧ b'.length < maxAllocSize

variable {step next : List UInt8 → Except SessionError (List UInt8)} {data more : List UInt8}

theorem builds_sbRaw (data : List UInt8) : Builds (sbRaw data) data := by
  intro b b' _ hstep
  rw [sbRaw] at hstep
  split_ifs at hstep with hlimit
  cases hstep
  exact ⟨rfl, by rwa [List.length_append]⟩

theorem Builds.bind (hstep : Builds step data) (hnext : Builds next more) :
    Builds (fun b => step b >>= next) (data ++ more) := by
  intro b b' hb hbind
  obtain ⟨middle, hmiddle, hlast⟩ := bind_eq_ok hbind
  obtain ⟨rfl, hlimit⟩ := hstep b middle hb hmiddle
  obtain ⟨hresult, hend⟩ := hnext _ b' hlimit hlast
  exact ⟨by rw [hresult, List.append_assoc], hend⟩

theorem builds_foldlM {step : List UInt8 → A → Except SessionError (List UInt8)}
    {layout : A → List UInt8} {items : List A}
    (hitems : ∀ item ∈ items, Builds (fun b => step b item) (layout item)) :
    Builds (fun b => items.foldlM step b) (items.flatMap layout) := by
  induction items with
  | nil =>
      intro b b' hb hfold
      cases hfold
      exact ⟨(List.append_nil b).symm, hb⟩
  | cons item items ih =>
      rw [List.flatMap_cons]
      exact (hitems item (by simp)).bind (ih fun other hother => hitems other (by simp [hother]))

theorem builds_sbBytes (data : List UInt8) : Builds (sbBytes data) (stringLayout data) := by
  intro b b' hb hstep
  obtain ⟨rfl, hlimit⟩ := (builds_sbRaw _).bind (builds_sbRaw data) b b' hb hstep
  have hlength : (UInt32.ofNat data.length).toNat = data.length := by
    simp only [List.length_append, maxAllocSize] at hlimit
    rw [UInt32.toNat_ofNat', Nat.mod_eq_of_lt (by omega)]
  rw [hlength] at hlimit ⊢
  exact ⟨rfl, hlimit⟩

theorem builds_types (types : List UInt32) :
    Builds (fun b => types.foldlM (fun b type => sbU32 type b) b) (typesLayout types) :=
  builds_foldlM fun _ _ => builds_sbRaw _

theorem builds_sbPlansource (statement : WrittenStatement) :
    Builds (sbPlansource statement.name statement.fromSql statement.src)
      (statementLayout statement) := by
  have hcount : leBytes 2 (UInt16.ofNat statement.src.paramTypes.length).toNat =
      leBytes 2 statement.src.paramTypes.length := by
    rw [UInt16.toNat_ofNat', Nat.mod_eq_of_lt statement.src.paramTypes_lt]
  rw [statementLayout, ← hcount]
  exact (builds_sbBytes _).bind ((builds_sbRaw _).bind ((builds_sbBytes _).bind
    ((builds_sbRaw _).bind (builds_types _))))

/-- The settings of the session, in the order of the table. -/
def sessionGucs (gucs : List ConfigGeneric) : List ConfigGeneric :=
  gucs.filter gucIsSessionState

theorem builds_setting (guc : ConfigGeneric) :
    Builds (fun b => sbStr guc.name b >>= sbStr (guc.val.getD CString.empty))
      (settingLayout guc) :=
  (builds_sbBytes _).bind (builds_sbBytes _)

theorem eachGuc_eq_ok {gucs : List ConfigGeneric} {count count' : UInt32} {b b' : List UInt8}
    (hb : b.length < maxAllocSize) (hloop : eachGuc gucs count b = .ok (count', b')) :
    b' = b ++ (sessionGucs gucs).flatMap settingLayout ∧ b'.length < maxAllocSize ∧
      count' = count + UInt32.ofNat (sessionGucs gucs).length := by
  induction gucs generalizing count b with
  | nil =>
      cases hloop
      simpa [sessionGucs] using hb
  | cons guc gucs ih =>
      rw [eachGuc] at hloop
      split_ifs at hloop with hstate
      · obtain ⟨named, hname, hvalue⟩ := bind_eq_ok hloop
        obtain ⟨valued, hval, hrest⟩ := bind_eq_ok hvalue
        have hboth : (sbStr guc.name b >>= sbStr (guc.val.getD CString.empty)) = .ok valued := by
          rw [hname]
          exact hval
        obtain ⟨rfl, hlimit⟩ := builds_setting guc b valued hb hboth
        obtain ⟨hresult, hlast, hcount⟩ := ih hlimit hrest
        rw [sessionGucs, List.filter_cons_of_pos hstate, List.flatMap_cons, List.length_cons]
        refine ⟨by rw [hresult, List.append_assoc, sessionGucs], hlast, ?_⟩
        rw [hcount, sessionGucs, UInt32.ofNat_add, add_assoc, add_comm 1]
        rfl
      · rw [sessionGucs, List.filter_cons_of_neg (by simpa using hstate)]
        exact ih hb hloop

theorem length_le_length_flatMap {layout : A → List UInt8} (items : List A)
    (hlayout : ∀ item, 0 < (layout item).length) :
    items.length ≤ (items.flatMap layout).length := by
  induction items with
  | nil => exact Nat.le_refl 0
  | cons item items ih =>
      have hitem := hlayout item
      rw [List.flatMap_cons, List.length_append, List.length_cons]
      omega

/-- The count is patched in front of the items. -/
theorem patchU32_counted {layout : A → List UInt8} {items : List A} {b : List UInt8}
    {count : UInt32} (hlayout : ∀ item, 0 < (layout item).length)
    (hbuilt : b = leBytes 4 (0 : UInt32).toNat ++ items.flatMap layout)
    (hlimit : b.length < maxAllocSize) (hcount : count = UInt32.ofNat items.length) :
    patchU32 0 count b = countedLayout layout items ∧
      (countedLayout layout items).length < maxAllocSize ∧ items.length < 2 ^ 32 := by
  have hitems := length_le_length_flatMap items hlayout
  have hsmall : items.length < 2 ^ 32 := by
    rw [hbuilt, List.length_append, length_leBytes, maxAllocSize] at hlimit
    omega
  have hvalue : count.toNat = items.length := by
    rw [hcount, UInt32.toNat_ofNat', Nat.mod_eq_of_lt hsmall]
  refine ⟨?_, ?_, hsmall⟩
  · rw [patchU32, hvalue, hbuilt, countedLayout, Nat.zero_add, List.take_zero, List.nil_append]
    congr 1
  · rw [hbuilt] at hlimit
    rwa [countedLayout, List.length_append, length_leBytes, ← length_leBytes 4 (0 : UInt32).toNat,
      ← List.length_append]

theorem length_settingLayout_pos (guc : ConfigGeneric) : 0 < (settingLayout guc).length := by
  rw [settingLayout, List.length_append, length_stringLayout]
  omega

theorem length_statementLayout_pos (statement : WrittenStatement) :
    0 < (statementLayout statement).length := by
  rw [statementLayout, List.length_append, length_stringLayout]
  omega

theorem buildGucs_eq_ok {gucs : List ConfigGeneric} {b : List UInt8}
    (hbuild : buildGucs gucs [] = .ok b) :
    b = countedLayout settingLayout (sessionGucs gucs) ∧ b.length < maxAllocSize ∧
      (sessionGucs gucs).length < 2 ^ 32 := by
  obtain ⟨headed, hhead, hloop⟩ := bind_eq_ok hbuild
  obtain ⟨⟨count, built⟩, heach, hpatch⟩ := bind_eq_ok hloop
  obtain ⟨rfl, hheadLimit⟩ := builds_sbRaw _ [] headed (by decide) hhead
  obtain ⟨hbuilt, hlimit, hcount⟩ := eachGuc_eq_ok hheadLimit heach
  rw [zero_add] at hcount
  obtain ⟨hpatched, hlast, hsmall⟩ :=
    patchU32_counted length_settingLayout_pos hbuilt hlimit hcount
  cases hpatch
  exact ⟨hpatched, hpatched ▸ hlast, hsmall⟩

/-- The statements as they are written. -/
def writtenStatements (unnamed : Option CachedPlanSource) (prepared : List PreparedStatement) :
    List WrittenStatement :=
  (unnamed.map fun src => ⟨CString.empty, false, src⟩).toList ++
    prepared.map fun ps => ⟨ps.stmtName, ps.fromSql, ps.plansource⟩

theorem eachPrepared_eq_ok {prepared : List PreparedStatement} {count n : UInt32}
    {b b' : List UInt8} (hb : b.length < maxAllocSize)
    (hfold : prepared.foldlM eachPrepared (count, b) = .ok (n, b')) :
    b' = b ++ (writtenStatements none prepared).flatMap statementLayout ∧
      b'.length < maxAllocSize ∧ n = count + UInt32.ofNat prepared.length := by
  induction prepared generalizing count b with
  | nil =>
      cases hfold
      simpa [writtenStatements] using hb
  | cons ps prepared ih =>
      obtain ⟨⟨one, middle⟩, hfirst, hrest⟩ := bind_eq_ok hfold
      obtain ⟨appended, happend, hpair⟩ := bind_eq_ok hfirst
      cases hpair
      obtain ⟨rfl, hlimit⟩ :=
        builds_sbPlansource ⟨ps.stmtName, ps.fromSql, ps.plansource⟩ b middle hb happend
      obtain ⟨hresult, hlast, hcount⟩ := ih hlimit hrest
      refine ⟨?_, hlast, ?_⟩
      · rw [hresult, List.append_assoc]
        rfl
      · rw [hcount, List.length_cons, UInt32.ofNat_add, add_assoc, add_comm 1]
        rfl

theorem buildPrepared_eq_ok {unnamed : Option CachedPlanSource}
    {prepared : List PreparedStatement} {b : List UInt8}
    (hbuild : buildPrepared unnamed prepared [] = .ok b) :
    b = countedLayout statementLayout (writtenStatements unnamed prepared) ∧
      b.length < maxAllocSize ∧ (writtenStatements unnamed prepared).length < 2 ^ 32 := by
  obtain ⟨headed, hhead, hrest⟩ := bind_eq_ok hbuild
  obtain ⟨c, hunnamed, hloop⟩ := bind_eq_ok hrest
  obtain ⟨⟨n, built⟩, heach, hpatch⟩ := bind_eq_ok hloop
  obtain ⟨rfl, hheadLimit⟩ := builds_sbRaw _ [] headed (by decide) hhead
  have hwritten : built = leBytes 4 (0 : UInt32).toNat ++
        (writtenStatements unnamed prepared).flatMap statementLayout ∧
      built.length < maxAllocSize ∧
      n = UInt32.ofNat (writtenStatements unnamed prepared).length := by
    cases unnamed with
    | none =>
        cases hunnamed
        obtain ⟨hbuilt, hlimit, hcount⟩ := eachPrepared_eq_ok hheadLimit heach
        refine ⟨hbuilt, hlimit, ?_⟩
        rw [hcount, zero_add, writtenStatements]
        simp
    | some src =>
        obtain ⟨first, hfirst, hpair⟩ := bind_eq_ok hunnamed
        cases hpair
        obtain ⟨rfl, hfirstLimit⟩ :=
          builds_sbPlansource ⟨CString.empty, false, src⟩ _ first hheadLimit hfirst
        obtain ⟨hbuilt, hlimit, hcount⟩ := eachPrepared_eq_ok hfirstLimit heach
        refine ⟨?_, hlimit, ?_⟩
        · rw [hbuilt, List.append_assoc]
          rfl
        · rw [hcount, writtenStatements]
          simp [add_comm]
  obtain ⟨hbuilt, hlimit, hcount⟩ := hwritten
  obtain ⟨hpatched, hlast, hsmall⟩ :=
    patchU32_counted length_statementLayout_pos hbuilt hlimit hcount
  cases hpatch
  exact ⟨hpatched, hpatched ▸ hlast, hsmall⟩

end Building

/-! ## Writing -/

section Writing

variable {A : Type}

/-- The step appends `data` to the file. -/
def Writes (step : File → Except SessionError File) (data : List UInt8) : Prop :=
  ∀ bytes f, bytes.length ≤ maxOffset → step (atEnd bytes) = .ok f →
    f = atEnd (bytes ++ data) ∧ (bytes ++ data).length ≤ maxOffset

variable {step next : File → Except SessionError File} {data more : List UInt8}

theorem writes_wr (data : List UInt8) : Writes (wr data) data := by
  intro bytes f _ hstep
  rw [wr] at hstep
  split_ifs at hstep with hlimit
  cases hstep
  exact ⟨fwrite_atEnd data bytes, by rwa [List.length_append]⟩

theorem writes_pure : Writes pure [] := by
  intro bytes f hbytes hstep
  cases hstep
  rw [List.append_nil]
  exact ⟨rfl, hbytes⟩

theorem Writes.bind (hstep : Writes step data) (hnext : Writes next more) :
    Writes (fun f => step f >>= next) (data ++ more) := by
  intro bytes f hbytes hbind
  obtain ⟨middle, hmiddle, hlast⟩ := bind_eq_ok hbind
  obtain ⟨rfl, hlimit⟩ := hstep bytes middle hbytes hmiddle
  obtain ⟨hresult, hend⟩ := hnext _ f hlimit hlast
  rw [List.append_assoc] at hresult hend
  exact ⟨hresult, hend⟩

theorem writes_foldlM {step : File → A → Except SessionError File} {layout : A → List UInt8}
    {items : List A} (hitems : ∀ item ∈ items, Writes (fun f => step f item) (layout item)) :
    Writes (fun f => items.foldlM step f) (items.flatMap layout) := by
  induction items with
  | nil => exact writes_pure
  | cons item items ih =>
      rw [List.flatMap_cons]
      exact (hitems item (by simp)).bind (ih fun other hother => hitems other (by simp [hother]))

/-- Nothing is written where there is nothing to write. -/
theorem writes_unless_nil (data : List UInt8) :
    Writes (fun f => if data = [] then pure f else wr data f) data := by
  by_cases hdata : data = []
  · subst hdata
    exact writes_pure
  · simp only [hdata, if_false]
    exact writes_wr data

theorem writes_wrStr {s : Option CString} (hs : (field s).length < maxAllocSize) :
    Writes (wrStr s) (stringLayout (field s)) := by
  have hlength : (UInt32.ofNat (field s).length).toNat = (field s).length := by
    rw [UInt32.toNat_ofNat', Nat.mod_eq_of_lt (hs.trans (by decide))]
  have hwrites := (writes_wr (leBytes 4 (UInt32.ofNat (field s).length).toNat)).bind
    (writes_unless_nil (field s))
  rw [hlength] at hwrites
  rw [stringLayout]
  intro bytes f hbytes hstep
  apply hwrites bytes f hbytes
  rw [← hlength]
  exact hstep

theorem writes_putRec (type : UInt8) (b : List UInt8) :
    Writes (putRec type b) (recordLayout type b) :=
  (writes_wr [type]).bind ((writes_wr _).bind (writes_unless_nil b))

theorem writes_copy (copy : List (List UInt8)) :
    Writes (fun f => copy.foldlM (fun f data => wr data f) f) copy.flatten := by
  have hfold : Writes (fun f => copy.foldlM (fun f data => wr data f) f) (copy.flatMap id) :=
    writes_foldlM fun data _ => writes_wr data
  rwa [List.flatMap_id] at hfold

/-- Seeking back, patching the length and seeking to the end again. -/
theorem seek_patched {head body : List UInt8} {f : File}
    (hlimit : (head ++ (leBytes 8 0 ++ body)).length ≤ maxOffset)
    (hpatch : wr (leBytes 8 body.length)
      (fseeko head.length (atEnd (head ++ (leBytes 8 0 ++ body)))) = .ok f) :
    fseeko (head ++ (leBytes 8 0 ++ body)).length f =
      atEnd (head ++ (leBytes 8 body.length ++ body)) := by
  have hhead : head.length ≤ maxOffset := by
    rw [List.length_append] at hlimit
    omega
  have hold : (leBytes 8 0).length = (leBytes 8 body.length).length := by simp
  rw [fseeko_behind rfl hhead, wr] at hpatch
  split_ifs at hpatch with hroom
  cases hpatch
  rw [fwrite_behind hold, fseeko_of_le hlimit, behind, atEnd, List.append_assoc]
  simp

theorem writes_dumpTable (table : TempTable) :
    Writes (fun f => dumpTable f table) (recordLayout sessTable (tableLayout table)) := by
  intro bytes f hbytes hstep
  obtain ⟨typed, htype, hstep⟩ := bind_eq_ok hstep
  obtain ⟨rfl, htyped⟩ := writes_wr _ bytes typed hbytes htype
  obtain ⟨headed, hhead, hstep⟩ := bind_eq_ok hstep
  obtain ⟨rfl, hheaded⟩ := writes_wr _ _ headed htyped hhead
  obtain ⟨named, hname, hstep⟩ := bind_eq_ok hstep
  obtain ⟨rfl, hnamed⟩ := writes_wrStr (table.strings_lt _ (by simp)) _ named hheaded hname
  obtain ⟨listed, hcols, hstep⟩ := bind_eq_ok hstep
  obtain ⟨rfl, hlisted⟩ := writes_wrStr (table.strings_lt _ (by simp)) _ listed hnamed hcols
  obtain ⟨posted, hpost, hstep⟩ := bind_eq_ok hstep
  obtain ⟨rfl, hposted⟩ := writes_wrStr (table.strings_lt _ (by simp)) _ posted hlisted hpost
  obtain ⟨copied, hcopy, hstep⟩ := bind_eq_ok hstep
  obtain ⟨rfl, hcopied⟩ := writes_copy table.copy _ copied hposted hcopy
  obtain ⟨patched, hpatch, hstep⟩ := bind_eq_ok hstep
  cases hstep
  obtain ⟨head, hheadEq⟩ : ∃ head, bytes ++ [sessTable] = head := ⟨_, rfl⟩
  obtain ⟨body, hbody⟩ : ∃ body, tableLayout table = body := ⟨_, rfl⟩
  have hwhole : bytes ++ [sessTable] ++ leBytes 8 0 ++ stringLayout (field table.tableName) ++
      stringLayout (field table.columnsDdl) ++ stringLayout (field table.postDdl) ++
        table.copy.flatten = head ++ (leBytes 8 0 ++ body) := by
    rw [← hheadEq, ← hbody, tableLayout]
    simp only [List.append_assoc]
  rw [hwhole] at hcopied hpatch ⊢
  have hstart : ((bytes ++ [sessTable] ++ leBytes 8 0).length : ℤ) - 8 = head.length := by
    rw [hheadEq, List.length_append, length_leBytes]
    push_cast
    omega
  have hlen : (head ++ (leBytes 8 0 ++ body)).length -
      (bytes ++ [sessTable] ++ leBytes 8 0).length = body.length := by
    rw [hheadEq]
    simp only [List.length_append]
    omega
  simp only [atEnd_pos, hstart, hlen] at hpatch ⊢
  have hrecord : bytes ++ recordLayout sessTable body =
      head ++ (leBytes 8 body.length ++ body) := by
    rw [recordLayout, ← hheadEq, List.append_assoc]
  rw [seek_patched hcopied hpatch, hbody, hrecord]
  refine ⟨rfl, le_trans (le_of_eq ?_) hcopied⟩
  simp

/-- The file of a session. -/
def sessionBytes (gucs : List ConfigGeneric) (unnamed : Option CachedPlanSource)
    (prepared : List PreparedStatement) (tables : List TempTable) : List UInt8 :=
  recordLayout sessGucs (countedLayout settingLayout (sessionGucs gucs)) ++
    (recordLayout sessPrepared
        (countedLayout statementLayout (writtenStatements unnamed prepared)) ++
      tables.flatMap fun table => recordLayout sessTable (tableLayout table))

/-- What `start_body` has written when it succeeds, and the limits that it then
has kept. -/
theorem startBody_eq_ok {gucs : List ConfigGeneric} {unnamed : Option CachedPlanSource}
    {prepared : List PreparedStatement} {tables : List TempTable} {f : File}
    (hwrite : startBody gucs unnamed prepared tables = .ok f) :
    f = atEnd (sessionBytes gucs unnamed prepared tables) ∧
      (sessionBytes gucs unnamed prepared tables).length ≤ maxOffset ∧
      (countedLayout settingLayout (sessionGucs gucs)).length < maxAllocSize ∧
      (sessionGucs gucs).length < 2 ^ 32 ∧
      (countedLayout statementLayout (writtenStatements unnamed prepared)).length <
        maxAllocSize ∧
      (writtenStatements unnamed prepared).length < 2 ^ 32 := by
  obtain ⟨stated, hstate, htables⟩ := bind_eq_ok hwrite
  obtain ⟨gucsRecord, hgucs, hstate⟩ := bind_eq_ok hstate
  obtain ⟨rfl, hgucsLimit, hgucsCount⟩ := buildGucs_eq_ok hgucs
  obtain ⟨put, hput, hstate⟩ := bind_eq_ok hstate
  obtain ⟨prepRecord, hprep, hstate⟩ := bind_eq_ok hstate
  obtain ⟨rfl, hprepLimit, hprepCount⟩ := buildPrepared_eq_ok hprep
  obtain ⟨rfl, hputLimit⟩ := writes_putRec _ _ [] put (Nat.zero_le _) hput
  obtain ⟨rfl, hstateLimit⟩ := writes_putRec _ _ _ stated hputLimit hstate
  obtain ⟨hfile, hlimit⟩ := writes_foldlM (fun table _ => writes_dumpTable table) _ f
    hstateLimit htables
  rw [List.nil_append, List.append_assoc] at hfile hlimit
  exact ⟨hfile, hlimit, hgucsLimit, hgucsCount, hprepLimit, hprepCount⟩

end Writing

/-! ## The cursors -/

theorem cutAtNul_of_nul_free {bytes : List UInt8} (hbytes : 0 ∉ bytes) :
    cutAtNul bytes = bytes := by
  have htake := Decodes.takeWhile_nul_free hbytes []
  rwa [List.append_nil, List.takeWhile_nil, List.append_nil] at htake

theorem decodes_cU8 (byte : UInt8) : Decodes .outOfBounds cU8 [byte] byte := by
  have hread := Decodes.leBytes (e := SessionError.outOfBounds) 1 UInt8.ofNat byte.toNat_lt
  have hbyte : leBytes 1 byte.toNat = [byte] := by simp [leBytes]
  rwa [hbyte, UInt8.ofNat_toNat] at hread

theorem decodes_cU16 {n : ℕ} (hn : n < 2 ^ 16) :
    Decodes .outOfBounds cU16 (leBytes 2 n) (UInt16.ofNat n) :=
  Decodes.leBytes 2 UInt16.ofNat hn

theorem decodes_cU32 {n : ℕ} (hn : n < 2 ^ 32) :
    Decodes .outOfBounds cU32 (leBytes 4 n) (UInt32.ofNat n) :=
  Decodes.leBytes 4 UInt32.ofNat hn

theorem decodes_cStr {bytes : List UInt8} (hfree : 0 ∉ bytes) (hlength : bytes.length < 2 ^ 32) :
    Decodes .outOfBounds cStr (stringLayout bytes) bytes := by
  have hn : (UInt32.ofNat bytes.length).toNat = bytes.length := by
    rw [UInt32.toNat_ofNat', Nat.mod_eq_of_lt hlength]
  have hbytes := (Decodes.readExact (e := SessionError.outOfBounds) hn.symm).bind_pure
    (f := cutAtNul)
  rw [cutAtNul_of_nul_free hfree] at hbytes
  exact (decodes_cU32 hlength).bind hbytes

/-- A setting as it is handed to `set_config_option`. -/
def restoredSetting (guc : ConfigGeneric) : RestoredSetting :=
  ⟨guc.name.bytes, (guc.val.getD CString.empty).bytes⟩

/-- A statement as it is handed to `apply_one_prepared`. -/
def restoredStatement (statement : WrittenStatement) : RestoredStatement where
  name := statement.name.bytes
  fromSql := statement.fromSql
  q := statement.src.text
  types := statement.src.paramTypes

/-- The text of a statement is a part of its query string. -/
theorem text_nul_free (src : CachedPlanSource) : 0 ∉ src.text := by
  have hpart : src.text.Sublist src.queryString.bytes := by
    rw [CachedPlanSource.text]
    split
    · simp only
      split_ifs
      · exact (List.take_sublist _ _).trans (List.drop_sublist _ _)
      · exact List.drop_sublist _ _
      · exact List.Sublist.refl _
    · exact List.Sublist.refl _
  exact fun hmem => src.queryString.nul_free (hpart.subset hmem)

theorem length_le_of_mem_flatMap {A : Type} {layout : A → List UInt8} {items : List A} {item : A}
    (hitem : item ∈ items) : (layout item).length ≤ (items.flatMap layout).length := by
  rw [List.length_flatMap]
  exact List.le_sum_of_mem (List.mem_map.mpr ⟨item, hitem, rfl⟩)

theorem decodes_setting {guc : ConfigGeneric} (hlimit : (settingLayout guc).length < maxAllocSize) :
    Decodes .outOfBounds (do
      let name ← cStr
      let val ← cStr
      pure (⟨name, val⟩ : RestoredSetting)) (settingLayout guc) (restoredSetting guc) := by
  rw [settingLayout, List.length_append, length_stringLayout, length_stringLayout,
    maxAllocSize] at hlimit
  exact (decodes_cStr guc.name.nul_free (by omega)).bind
    (decodes_cStr (guc.val.getD CString.empty).nul_free (by omega)).bind_pure

/-- The cursor over the settings stops at the end of their record. -/
theorem decodes_applyGucs {gucs : List ConfigGeneric}
    (hlimit : (countedLayout settingLayout gucs).length < maxAllocSize)
    (hcount : gucs.length < 2 ^ 32) :
    Decodes .outOfBounds applyGucs (countedLayout settingLayout gucs)
      (gucs.map restoredSetting) := by
  have hn : (UInt32.ofNat gucs.length).toNat = gucs.length := by
    rw [UInt32.toNat_ofNat', Nat.mod_eq_of_lt hcount]
  rw [countedLayout, List.length_append] at hlimit
  apply (decodes_cU32 hcount).bind
  rw [hn]
  exact Decodes.readMany fun guc hguc =>
    decodes_setting (lt_of_le_of_lt (length_le_of_mem_flatMap hguc) (by omega))

theorem decodes_types (types : List UInt32) :
    Decodes .outOfBounds (readMany cU32 types.length) (typesLayout types) types := by
  apply Decodes.readMany_self types
  intro type _
  have htype := decodes_cU32 type.toNat_lt
  rwa [UInt32.ofNat_toNat] at htype

theorem decodes_statement {statement : WrittenStatement}
    (hlimit : (statementLayout statement).length < maxAllocSize) :
    Decodes .outOfBounds (do
      let name ← cStr
      let fromSql ← cU8
      let q ← cStr
      let np ← cU16
      let types ← readMany cU32 np.toNat
      pure (⟨name, fromSql != 0, q, types⟩ : RestoredStatement))
      (statementLayout statement) (restoredStatement statement) := by
  have hnp : (UInt16.ofNat statement.src.paramTypes.length).toNat =
      statement.src.paramTypes.length := by
    rw [UInt16.toNat_ofNat', Nat.mod_eq_of_lt statement.src.paramTypes_lt]
  have hflag : ((if statement.fromSql then 1 else 0 : UInt8) != 0) = statement.fromSql := by
    cases statement.fromSql <;> rfl
  simp only [statementLayout, List.length_append, length_stringLayout, maxAllocSize] at hlimit
  apply (decodes_cStr statement.name.nul_free (by omega)).bind
  apply (decodes_cU8 _).bind
  apply (decodes_cStr (text_nul_free statement.src) (by omega)).bind
  apply (decodes_cU16 statement.src.paramTypes_lt).bind
  rw [hnp, hflag]
  exact (decodes_types statement.src.paramTypes).bind_pure

/-- So does the cursor over the statements, which skips the unnamed one. -/
theorem decodes_applyPrepared {statements : List WrittenStatement}
    (hlimit : (countedLayout statementLayout statements).length < maxAllocSize)
    (hcount : statements.length < 2 ^ 32) :
    Decodes .outOfBounds applyPrepared (countedLayout statementLayout statements)
      ((statements.map restoredStatement).filter fun statement => statement.name ≠ []) := by
  have hn : (UInt32.ofNat statements.length).toNat = statements.length := by
    rw [UInt32.toNat_ofNat', Nat.mod_eq_of_lt hcount]
  rw [countedLayout, List.length_append] at hlimit
  apply (decodes_cU32 hcount).bind
  rw [hn]
  have hmany : ∀ statement ∈ statements, (statementLayout statement).length < maxAllocSize :=
    fun statement hstatement =>
      lt_of_le_of_lt (length_le_of_mem_flatMap hstatement) (by omega)
  exact (Decodes.readMany fun statement hstatement =>
    decodes_statement (hmany statement hstatement)).bind_pure

theorem named_writtenStatements (unnamed : Option CachedPlanSource)
    (prepared : List PreparedStatement) :
    ((writtenStatements unnamed prepared).map restoredStatement).filter
        (fun statement => statement.name ≠ []) =
      prepared.map fun ps => restoredStatement ⟨ps.stmtName, ps.fromSql, ps.plansource⟩ := by
  have hunnamed : ((unnamed.map fun src => (⟨CString.empty, false, src⟩ : WrittenStatement)).toList.map
      restoredStatement).filter (fun statement => statement.name ≠ []) = [] := by
    cases unnamed <;> simp [restoredStatement, CString.empty]
  have hnamed : ∀ statement ∈ prepared.map fun ps =>
      restoredStatement ⟨ps.stmtName, ps.fromSql, ps.plansource⟩, statement.name ≠ [] := by
    intro statement hstatement
    obtain ⟨ps, -, rfl⟩ := List.mem_map.mp hstatement
    exact ps.stmtName_ne_nil
  rw [writtenStatements, List.map_append, List.filter_append, hunnamed, List.nil_append,
    List.map_map]
  exact List.filter_eq_self.mpr fun statement hstatement => by simpa using hnamed _ hstatement

/-! ## Reading -/

theorem rd_behind {n : ℕ} {data : List UInt8} (hn : data.length = n)
    (before after : List UInt8) :
    rd n (behind before (data ++ after)) = .ok (data, behind (before ++ data) after) := by
  subst hn
  rw [rd, fread_behind]
  exact if_pos rfl

theorem rdU64_behind {n : ℕ} (hn : n < 2 ^ 64) (before after : List UInt8) :
    rdU64 (behind before (leBytes 8 n ++ after)) =
      .ok (UInt64.ofNat n, behind (before ++ leBytes 8 n) after) := by
  rw [rdU64, rd_behind (length_leBytes 8 n)]
  exact congrArg Except.ok (Prod.ext (by rw [ofLeBytes_leBytes_of_lt hn]) rfl)

theorem rdStr_behind {bytes : List UInt8} (hfree : 0 ∉ bytes)
    (hlength : bytes.length < maxAllocSize) (before after : List UInt8) :
    rdStr (behind before (stringLayout bytes ++ after)) =
      .ok (bytes, behind (before ++ stringLayout bytes) after) := by
  have hsmall : bytes.length + 1 < 2 ^ 32 := by
    rw [maxAllocSize] at hlength
    omega
  have hn : (UInt32.ofNat bytes.length).toNat = bytes.length := by
    rw [UInt32.toNat_ofNat', Nat.mod_eq_of_lt (by omega)]
  have hroom : palloc (UInt32.ofNat bytes.length + 1).toNat = .ok () := by
    rw [palloc, if_pos]
    rw [UInt32.toNat_add, hn]
    exact (Nat.mod_le _ _).trans hlength
  rw [stringLayout, List.append_assoc, rdStr, rdU32, rd_behind (length_leBytes 4 _)]
  simp only [bind, Except.bind, pure, Except.pure, ofLeBytes_leBytes_of_lt
    (show bytes.length < 256 ^ 4 by omega), hroom]
  rw [rd_behind hn.symm]
  simp only [cutAtNul_of_nul_free hfree, List.append_assoc]

/-- What the calls of `load_cb` are due, if they get the data of their table and
nothing else. -/
def dueChunks : (maxreads : List ℕ) → (data : List UInt8) → List (List UInt8)
  | [], _ => []
  | maxread :: maxreads, data => data.take maxread :: dueChunks maxreads (data.drop maxread)

theorem flatten_dueChunks (maxreads : List ℕ) (data : List UInt8) :
    (dueChunks maxreads data).flatten = data.take maxreads.sum := by
  induction maxreads generalizing data with
  | nil => simp [dueChunks]
  | cons maxread maxreads ih =>
      rw [dueChunks, List.flatten_cons, ih, List.sum_cons, List.take_add]

theorem length_dueChunks (maxreads : List ℕ) (data : List UInt8) :
    (dueChunks maxreads data).length = maxreads.length := by
  induction maxreads generalizing data with
  | nil => rfl
  | cons maxread maxreads ih => rw [dueChunks, List.length_cons, ih, List.length_cons]

/-- A call that gets nothing has all the data behind it. -/
theorem flatten_dueChunks_of_nil {maxreads : List ℕ} {data : List UInt8}
    (hpositive : ∀ maxread ∈ maxreads, 0 < maxread) (hnil : [] ∈ dueChunks maxreads data) :
    (dueChunks maxreads data).flatten = data := by
  induction maxreads generalizing data with
  | nil => exact absurd hnil List.not_mem_nil
  | cons maxread maxreads ih =>
      rw [dueChunks, List.flatten_cons]
      rcases List.mem_cons.mp hnil with hfirst | hlater
      · have hpos := hpositive maxread (by simp)
        have hdata : data = [] := by
          cases data with
          | nil => rfl
          | cons byte data =>
              rw [← Nat.succ_pred hpos.ne', List.take_succ_cons] at hfirst
              cases hfirst
        subst hdata
        rw [flatten_dueChunks]
        simp
      · rw [ih (fun other hother => hpositive other (by simp [hother])) hlater,
          List.take_append_drop]

theorem loadAll_behind (maxreads : List ℕ) (before data after : List UInt8) :
    ∃ consumed left, data = consumed ++ left ∧
      loadAll maxreads data.length (behind before (data ++ after)) =
        (dueChunks maxreads data, behind (before ++ consumed) (left ++ after)) := by
  induction maxreads generalizing before data with
  | nil => exact ⟨[], data, rfl, by simp [loadAll, dueChunks]⟩
  | cons maxread maxreads ih =>
      obtain ⟨consumed, left, hdrop, hrest⟩ :=
        ih (before ++ data.take maxread) (data.drop maxread)
      have htake : (data ++ after).take (min maxread data.length) = data.take maxread := by
        rw [List.take_append_of_le_length (min_le_right _ _), ← List.take_eq_take_min]
      have hdropAll : (data ++ after).drop (min maxread data.length) =
          data.drop maxread ++ after := by
        rw [List.drop_append_of_le_length (min_le_right _ _)]
        congr 1
        rcases le_total maxread data.length with hle | hle
        · rw [min_eq_left hle]
        · rw [min_eq_right hle, List.drop_length, List.drop_eq_nil_of_le hle]
      refine ⟨data.take maxread ++ consumed, left, ?_, ?_⟩
      · rw [List.append_assoc, ← hdrop, List.take_append_drop]
      · have hleft : data.length - (data.take maxread).length = (data.drop maxread).length := by
          simp only [List.length_take, List.length_drop]
          omega
        rw [loadAll, loadCb, fread_behind_take, htake, hdropAll]
        simp only [hleft, hrest, dueChunks, List.append_assoc]

/-- A table as it is handed to the restore steps, and to `COPY` through `load_cb`. -/
def restoredTable (maxreads : List ℕ) (table : TempTable) : RestoredTable where
  tname := field table.tableName
  cols := field table.columnsDdl
  post := field table.postDdl
  chunks := dueChunks maxreads table.copy.flatten

theorem field_nul_free (s : Option CString) : 0 ∉ field s :=
  (s.getD CString.empty).nul_free

/-- A table gets its own strings and bytes, and the file is left somewhere. -/
theorem restoreTable_behind (maxreads : List ℕ) (table : TempTable)
    {before after : List UInt8}
    (hlimit : (before ++ (tableLayout table ++ after)).length ≤ maxOffset) :
    ∃ f, restoreTable maxreads (UInt64.ofNat (tableLayout table).length)
        (behind before (tableLayout table ++ after)) = .ok (restoredTable maxreads table, f) ∧
      f.bytes = before ++ (tableLayout table ++ after) := by
  have hstrings := table.strings_lt
  have htname : (field table.tableName).length < maxAllocSize := hstrings _ (by simp)
  have hcols : (field table.columnsDdl).length < maxAllocSize := hstrings _ (by simp)
  have hpost : (field table.postDdl).length < maxAllocSize := hstrings _ (by simp)
  obtain ⟨head, hhead⟩ : ∃ head, before ++ stringLayout (field table.tableName) ++
      stringLayout (field table.columnsDdl) ++ stringLayout (field table.postDdl) = head :=
    ⟨_, rfl⟩
  obtain ⟨copy, hcopy⟩ : ∃ copy, table.copy.flatten = copy := ⟨_, rfl⟩
  obtain ⟨consumed, left, hsplit, hload⟩ := loadAll_behind maxreads head copy after
  have hbytes : before ++ (tableLayout table ++ after) = head ++ (copy ++ after) := by
    rw [tableLayout, ← hhead, ← hcopy]
    simp only [List.append_assoc]
  have hleft : (UInt64.ofNat (tableLayout table).length -
      UInt64.ofNat (head.length - before.length)).toNat = copy.length := by
    have hlength : (tableLayout table).length = head.length - before.length + copy.length := by
      rw [tableLayout, ← hhead, ← hcopy]
      simp only [List.length_append]
      omega
    rw [List.length_append, List.length_append, maxOffset] at hlimit
    rw [← UInt64.ofNat_sub (by omega), hlength, Nat.add_sub_cancel_left, UInt64.toNat_ofNat',
      Nat.mod_eq_of_lt (by omega)]
  refine ⟨behind (head ++ consumed) (left ++ after), ?_, ?_⟩
  · have htable : behind before (tableLayout table ++ after) = behind before
        (stringLayout (field table.tableName) ++ (stringLayout (field table.columnsDdl) ++
          (stringLayout (field table.postDdl) ++ (copy ++ after)))) := by
      rw [tableLayout, ← hcopy]
      simp only [List.append_assoc]
    rw [restoreTable, htable, rdStr_behind (field_nul_free _) htname]
    simp only [bind, Except.bind]
    rw [rdStr_behind (field_nul_free _) hcols]
    simp only
    rw [rdStr_behind (field_nul_free _) hpost]
    simp only [hhead, behind_pos, hleft, hload]
    rw [restoredTable, hcopy]
    rfl
  · rw [hbytes, hsplit, behind]
    simp only [List.append_assoc]

/-! ## The walk -/

theorem toInt_toInt64_ofNat {n : ℕ} (hn : n ≤ maxOffset) :
    (UInt64.ofNat n).toInt64.toInt = n := by
  have hofNat : (UInt64.ofNat n).toInt64 = Int64.ofNat n := rfl
  rw [hofNat, Int64.toInt_ofNat_of_lt (by rw [maxOffset] at hn; omega)]

/-- One record, whatever its handler has consumed: the walk goes on at the next. -/
theorem restoreRecords_record {maxreads : ℕ → List ℕ} {fuel : ℕ} {w w' : RestoreWalk}
    {type : UInt8} {body before after : List UInt8}
    (hfile : w.file = behind before (recordLayout type body ++ after))
    (hlimit : (before ++ (recordLayout type body ++ after)).length ≤ maxOffset)
    (hrecord : restoreRecord (maxreads w.tables.length) type (UInt64.ofNat body.length)
      { w with file := behind (before ++ [type] ++ leBytes 8 body.length) (body ++ after) } =
        .ok w')
    (hbytes : w'.file.bytes = before ++ (recordLayout type body ++ after)) :
    restoreRecords maxreads (fuel + 1) w = restoreRecords maxreads fuel
      { w' with file := behind (before ++ recordLayout type body) after } := by
  have hlengths : before.length + (1 + (8 + body.length)) + after.length ≤ maxOffset := by
    simpa [recordLayout, add_assoc, add_comm, add_left_comm] using hlimit
  have hbody : body.length ≤ maxOffset := by omega
  have htype : fread 1 w.file =
      ([type], behind (before ++ [type]) (leBytes 8 body.length ++ (body ++ after))) := by
    rw [hfile, recordLayout]
    simpa using fread_behind before [type] (leBytes 8 body.length ++ (body ++ after))
  have hlen : rdU64 (behind (before ++ [type]) (leBytes 8 body.length ++ (body ++ after))) =
      .ok (UInt64.ofNat body.length,
        behind (before ++ [type] ++ leBytes 8 body.length) (body ++ after)) :=
    rdU64_behind (lt_of_le_of_lt hbody (by decide)) _ _
  have hnext : ((before ++ [type] ++ leBytes 8 body.length).length : ℤ) +
      (UInt64.ofNat body.length).toInt64.toInt = (before ++ recordLayout type body).length := by
    rw [toInt_toInt64_ofNat hbody, recordLayout]
    simp only [List.length_append]
    push_cast
    ring
  have hseek : fseeko (before ++ recordLayout type body).length w'.file =
      behind (before ++ recordLayout type body) after := by
    apply fseeko_behind
    · rw [hbytes, List.append_assoc]
    · simp only [recordLayout, List.length_append, List.length_singleton, length_leBytes]
      omega
  rw [restoreRecords, htype]
  simp only [bind, Except.bind, hlen, hrecord, behind_pos, hnext, hseek]

theorem restoreRecord_gucs {maxreads : List ℕ} {w : RestoreWalk} {body before after : List UInt8}
    (hfile : w.file = behind before (body ++ after)) (hlimit : body.length < maxAllocSize) :
    restoreRecord maxreads sessGucs (UInt64.ofNat body.length) w =
      .ok { w with file := behind (before ++ body) after, gucs := some body } := by
  have hlength : (UInt64.ofNat body.length).toNat = body.length := by
    rw [UInt64.toNat_ofNat', Nat.mod_eq_of_lt (hlimit.trans (by decide))]
  rw [restoreRecord, if_pos rfl, hlength, palloc, if_pos hlimit.le]
  simp only [bind, Except.bind, hfile, rd_behind rfl]
  rfl

theorem restoreRecord_prepared {maxreads : List ℕ} {w : RestoreWalk}
    {body before after : List UInt8} (hfile : w.file = behind before (body ++ after))
    (hlimit : body.length < maxAllocSize) :
    restoreRecord maxreads sessPrepared (UInt64.ofNat body.length) w =
      .ok { w with file := behind (before ++ body) after, prep := some body } := by
  have hlength : (UInt64.ofNat body.length).toNat = body.length := by
    rw [UInt64.toNat_ofNat', Nat.mod_eq_of_lt (hlimit.trans (by decide))]
  rw [restoreRecord, if_neg (by decide), if_pos rfl, hlength, palloc, if_pos hlimit.le]
  simp only [bind, Except.bind, hfile, rd_behind rfl]
  rfl

theorem restoreRecord_table (maxreads : List ℕ) (table : TempTable) {w : RestoreWalk}
    {before after : List UInt8} (hfile : w.file = behind before (tableLayout table ++ after))
    (hlimit : (before ++ (tableLayout table ++ after)).length ≤ maxOffset) :
    ∃ f, restoreRecord maxreads sessTable (UInt64.ofNat (tableLayout table).length) w =
        .ok { w with file := f, tables := w.tables ++ [restoredTable maxreads table] } ∧
      f.bytes = before ++ (tableLayout table ++ after) := by
  obtain ⟨f, hrestore, hbytes⟩ := restoreTable_behind maxreads table hlimit
  refine ⟨f, ?_, hbytes⟩
  rw [restoreRecord, if_neg (by decide), if_neg (by decide), if_pos rfl, hfile, hrestore]
  rfl

theorem restoreRecords_atEnd {maxreads : ℕ → List ℕ} {fuel : ℕ} {w : RestoreWalk}
    {bytes : List UInt8} (hfile : w.file = atEnd bytes) :
    restoreRecords maxreads (fuel + 1) w = .ok w := by
  rw [restoreRecords, hfile, fread_atEnd]

/-- The tables from the `k`-th on, as they are restored. -/
def restoredTables (maxreads : ℕ → List ℕ) : (k : ℕ) → List TempTable → List RestoredTable
  | _, [] => []
  | k, table :: tables =>
      restoredTable (maxreads k) table :: restoredTables maxreads (k + 1) tables

theorem restoreRecords_tables {maxreads : ℕ → List ℕ} {fuel : ℕ} {tables : List TempTable}
    (hfuel : tables.length < fuel) {w : RestoreWalk} {before : List UInt8}
    (hfile : w.file = behind before
      (tables.flatMap fun table => recordLayout sessTable (tableLayout table)))
    (hlimit : (before ++
      tables.flatMap fun table => recordLayout sessTable (tableLayout table)).length ≤
        maxOffset) :
    ∃ f, restoreRecords maxreads fuel w = .ok { w with
      file := f
      tables := w.tables ++ restoredTables maxreads w.tables.length tables } := by
  induction tables generalizing fuel w before with
  | nil =>
      obtain ⟨fuel, rfl⟩ := Nat.exists_eq_succ_of_ne_zero hfuel.ne'
      rw [List.flatMap_nil, behind_nil] at hfile
      refine ⟨w.file, ?_⟩
      rw [restoreRecords_atEnd hfile, restoredTables, List.append_nil]
  | cons table tables ih =>
      obtain ⟨fuel, rfl⟩ := Nat.exists_eq_succ_of_ne_zero (Nat.ne_zero_of_lt hfuel)
      rw [List.flatMap_cons] at hfile hlimit
      obtain ⟨after, hafter⟩ : ∃ after,
          (tables.flatMap fun table => recordLayout sessTable (tableLayout table)) = after :=
        ⟨_, rfl⟩
      rw [hafter] at hfile hlimit
      have hwhole : before ++ [sessTable] ++ leBytes 8 (tableLayout table).length ++
          (tableLayout table ++ after) =
            before ++ (recordLayout sessTable (tableLayout table) ++ after) := by
        simp [recordLayout]
      obtain ⟨f, hrecord, hbytes⟩ := restoreRecord_table (maxreads w.tables.length) table
        (w := { w with file := behind (before ++ [sessTable] ++
          leBytes 8 (tableLayout table).length) (tableLayout table ++ after) }) rfl
        (by rwa [hwhole])
      rw [restoreRecords_record hfile hlimit hrecord (hbytes.trans hwhole)]
      obtain ⟨last, hrest⟩ := ih (w := { w with
          file := behind (before ++ recordLayout sessTable (tableLayout table)) after
          tables := w.tables ++ [restoredTable (maxreads w.tables.length) table] })
        (Nat.lt_of_succ_lt_succ hfuel) (by rw [hafter]) (by rwa [hafter, List.append_assoc])
      refine ⟨last, hrest.trans ?_⟩
      rw [restoredTables, List.length_append, List.length_singleton, List.append_assoc]
      rfl

theorem length_restoredTables (maxreads : ℕ → List ℕ) (k : ℕ) (tables : List TempTable) :
    (restoredTables maxreads k tables).length = tables.length := by
  induction tables generalizing k with
  | nil => rfl
  | cons table tables ih => rw [restoredTables, List.length_cons, ih, List.length_cons]

theorem getElem?_restoredTables (maxreads : ℕ → List ℕ) (k i : ℕ) (tables : List TempTable) :
    (restoredTables maxreads k tables)[i]? =
      tables[i]?.map (restoredTable (maxreads (k + i))) := by
  induction tables generalizing k i with
  | nil => rfl
  | cons table tables ih =>
      cases i with
      | zero => rfl
      | succ i =>
          rw [restoredTables, List.getElem?_cons_succ, List.getElem?_cons_succ, ih,
            Nat.add_assoc, Nat.add_comm 1 i]

/-! ## The round trip -/

/-- The restore is handed a table's own strings, and `COPY` the table's own bytes:
all there is up to what it has asked for. -/
structure IsRestored (maxreads : List ℕ) (table : TempTable) (restored : RestoredTable) :
    Prop where
  tname : restored.tname = field table.tableName
  cols : restored.cols = field table.columnsDdl
  post : restored.post = field table.postDdl
  calls : restored.chunks.length = maxreads.length
  own : restored.chunks.flatten = table.copy.flatten.take maxreads.sum
  /-- `load_cb` reports the end of the data there and nowhere else. -/
  whole : [] ∈ restored.chunks → restored.chunks.flatten = table.copy.flatten

theorem isRestored_restoredTable {maxreads : List ℕ} (table : TempTable)
    (hpositive : ∀ maxread ∈ maxreads, 0 < maxread) :
    IsRestored maxreads table (restoredTable maxreads table) where
  tname := rfl
  cols := rfl
  post := rfl
  calls := length_dueChunks _ _
  own := flatten_dueChunks _ _
  whole := flatten_dueChunks_of_nil hpositive

theorem restoreRecords_session {gucs : List ConfigGeneric} {unnamed : Option CachedPlanSource}
    {prepared : List PreparedStatement} {tables : List TempTable}
    (hlimit : (sessionBytes gucs unnamed prepared tables).length ≤ maxOffset)
    (hgucs : (countedLayout settingLayout (sessionGucs gucs)).length < maxAllocSize)
    (hprep : (countedLayout statementLayout (writtenStatements unnamed prepared)).length <
      maxAllocSize) (maxreads : ℕ → List ℕ) {fuel : ℕ} (hfuel : tables.length + 2 < fuel) :
    ∃ f, restoreRecords maxreads fuel
        ⟨behind [] (sessionBytes gucs unnamed prepared tables), none, none, []⟩ =
      .ok ⟨f, some (countedLayout settingLayout (sessionGucs gucs)),
        some (countedLayout statementLayout (writtenStatements unnamed prepared)),
        restoredTables maxreads 0 tables⟩ := by
  obtain ⟨fuel, rfl⟩ : ∃ rest, fuel = rest + 1 + 1 := ⟨fuel - 2, by omega⟩
  obtain ⟨gucsBody, hgucsBody⟩ : ∃ body, countedLayout settingLayout (sessionGucs gucs) = body :=
    ⟨_, rfl⟩
  obtain ⟨prepBody, hprepBody⟩ : ∃ body,
      countedLayout statementLayout (writtenStatements unnamed prepared) = body := ⟨_, rfl⟩
  rw [sessionBytes, hgucsBody, hprepBody] at hlimit ⊢
  rw [hgucsBody] at hgucs
  rw [hprepBody] at hprep
  obtain ⟨rest, hrest⟩ : ∃ rest,
      (tables.flatMap fun table => recordLayout sessTable (tableLayout table)) = rest := ⟨_, rfl⟩
  rw [hrest] at hlimit ⊢
  have hfirst : restoreRecords maxreads (fuel + 1 + 1)
      ⟨behind [] (recordLayout sessGucs gucsBody ++ (recordLayout sessPrepared prepBody ++ rest)),
        none, none, []⟩ = restoreRecords maxreads (fuel + 1)
      ⟨behind (recordLayout sessGucs gucsBody) (recordLayout sessPrepared prepBody ++ rest),
        some gucsBody, none, []⟩ := by
    have hstart : ([] ++ (recordLayout sessGucs gucsBody ++
        (recordLayout sessPrepared prepBody ++ rest))).length ≤ maxOffset := hlimit
    exact restoreRecords_record rfl hstart (restoreRecord_gucs rfl hgucs)
      (by simp [behind, recordLayout])
  have hsecond : restoreRecords maxreads (fuel + 1)
      ⟨behind (recordLayout sessGucs gucsBody) (recordLayout sessPrepared prepBody ++ rest),
        some gucsBody, none, []⟩ = restoreRecords maxreads fuel
      ⟨behind (recordLayout sessGucs gucsBody ++ recordLayout sessPrepared prepBody) rest,
        some gucsBody, some prepBody, []⟩ := by
    exact restoreRecords_record rfl hlimit (restoreRecord_prepared rfl hprep)
      (by simp [behind, recordLayout])
  rw [hfirst, hsecond]
  subst hrest
  exact restoreRecords_tables (by omega) rfl (by rwa [List.append_assoc])

/-- What `write_state` and `dump_tables` have written, `restore_body` hands to the
restore steps: every table in order with its own strings and bytes, every setting
in order, and every prepared statement but the unnamed one in order.  Both
cursors stop at the end of their record. -/
theorem restoreBody_startBody {gucs : List ConfigGeneric} {unnamed : Option CachedPlanSource}
    {prepared : List PreparedStatement} {tables : List TempTable} {f : File}
    (hwrite : startBody gucs unnamed prepared tables = .ok f) {maxreads : ℕ → List ℕ}
    (hpositive : ∀ k, ∀ maxread ∈ maxreads k, 0 < maxread) {fuel : ℕ}
    (hfuel : tables.length + 2 < fuel) :
    ∃ restored, restoreBody maxreads fuel { f with pos := 0 } = .ok restored ∧
      restored.tables.length = tables.length ∧
      (∀ k table, tables[k]? = some table →
        ∃ t, restored.tables[k]? = some t ∧ IsRestored (maxreads k) table t) ∧
      restored.settings = (sessionGucs gucs).map restoredSetting ∧
      restored.gucsLeft = [] ∧
      restored.prepared = (prepared.map fun ps =>
        restoredStatement ⟨ps.stmtName, ps.fromSql, ps.plansource⟩) ∧
      restored.prepLeft = [] := by
  obtain ⟨rfl, hlimit, hgucs, hgucsCount, hprep, hprepCount⟩ := startBody_eq_ok hwrite
  obtain ⟨last, hwalk⟩ := restoreRecords_session hlimit hgucs hprep maxreads hfuel
  have hstart : ({ atEnd (sessionBytes gucs unnamed prepared tables) with pos := 0 } : File) =
      behind [] (sessionBytes gucs unnamed prepared tables) := rfl
  refine ⟨⟨restoredTables maxreads 0 tables, (sessionGucs gucs).map restoredSetting, [],
    prepared.map fun ps => restoredStatement ⟨ps.stmtName, ps.fromSql, ps.plansource⟩, []⟩,
    ?_, length_restoredTables _ _ _, fun k table htable => ?_, rfl, rfl, rfl, rfl⟩
  · have hprepared := (decodes_applyPrepared hprep hprepCount).run
    rw [named_writtenStatements] at hprepared
    rw [restoreBody, hstart, hwalk]
    simp only [bind, Except.bind, applyCur, (decodes_applyGucs hgucs hgucsCount).run, hprepared]
    rfl
  · refine ⟨restoredTable (maxreads k) table, ?_, isRestored_restoredTable table (hpositive k)⟩
    rw [getElem?_restoredTables, htable, Nat.zero_add]
    rfl

/-- `SET s = '1'`. -/
def settingS : ConfigGeneric :=
  ⟨.userset, .session, ⟨[115], by decide, by decide⟩, some ⟨[49], by decide, by decide⟩⟩

/-- The protocol statement `p` for `$1`, an `int4`. -/
def statementP : PreparedStatement where
  stmtName := ⟨[112], by decide, by decide⟩
  stmtName_ne_nil := by decide
  fromSql := false
  plansource := ⟨⟨[36, 49], by decide, by decide⟩, none, [23], by decide⟩

/-- The temporary table `t` of two rows, which `COPY` sends one by one. -/
def tableT : TempTable :=
  ⟨some ⟨[116], by decide, by decide⟩, some ⟨[97], by decide, by decide⟩, none,
    [[49, 10], [50, 10]], by decide⟩

/-- One setting, an unnamed and a named statement and a table that `COPY` reads
in three calls. -/
theorem restoreBody_startBody_tableT :
    ∃ f restored, startBody [settingS] (some statementP.plansource) [statementP] [tableT] = .ok f ∧
      restoreBody (fun _ => [3, 3, 3]) 4 { f with pos := 0 } = .ok restored ∧
      restored.settings = [⟨[115], [49]⟩] ∧ restored.prepared = [⟨[112], false, [36, 49], [23]⟩] ∧
      ∃ t, restored.tables[0]? = some t ∧ IsRestored [3, 3, 3] tableT t := by
  have hok : (startBody [settingS] (some statementP.plansource) [statementP] [tableT]).isOk =
      true := by
    decide +kernel
  cases hwrite : startBody [settingS] (some statementP.plansource) [statementP] [tableT] with
  | error error =>
      rw [hwrite] at hok
      cases hok
  | ok f =>
      have hpositive : ∀ _ : ℕ, ∀ maxread ∈ [3, 3, 3], 0 < maxread := by
        intro k maxread hmaxread
        simp only [List.mem_cons, List.not_mem_nil, or_false, or_self] at hmaxread
        rw [hmaxread]
        exact Nat.succ_pos 2
      have hfuel : [tableT].length + 2 < 4 := Nat.lt_succ_self 3
      obtain ⟨restored, hrestore, -, htables, hsettings, -, hprepared, -⟩ :=
        restoreBody_startBody hwrite hpositive hfuel
      exact ⟨f, restored, rfl, hrestore, hsettings, hprepared, htables 0 tableT rfl⟩
end Pgr.SessionRoundTrip
