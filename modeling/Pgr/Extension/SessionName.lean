import Pgr.Core.Decimal
import Pgr.Core.Utf8Lossy

/-!
# Session names and their files

`session_path` in `session.c` scans the name of a session and makes a path of it, and
`session_start` creates the directory in front of the last slash of that path.  The
names come from SQL, and from `capture_gate` and `pgr_exit`, which print numbers.  A
name is a C string: its bytes in front of the terminating NUL.
-/

namespace Pgr.SessionName

open Pgr.Decimal Pgr.Utf8Lossy

/-! ## The code -/

def slashByte : UInt8 := 0x2F

/-- `MAXPGPATH`. -/
def maxPgPath : ℕ := 1024

/-- `isalnum` in the C locale. -/
def isAlnum (c : UInt8) : Bool :=
  0x30 ≤ c ∧ c ≤ 0x39 ∨ 0x41 ≤ c ∧ c ≤ 0x5A ∨ 0x61 ≤ c ∧ c ≤ 0x7A

/-- `strchr`, as the place of the byte. -/
def strchr (c : UInt8) : List UInt8 → Option ℕ
  | [] => none
  | byte :: s => if byte = c then some 0 else (strchr c s).map Nat.succ

/-- `strrchr`. -/
def strrchr (c : UInt8) : List UInt8 → Option ℕ
  | [] => none
  | byte :: s =>
      match strrchr c s with
      | some place => some (place + 1)
      | none => if byte = c then some 0 else none

/-- What `snprintf` leaves of a text in a buffer of the size. -/
def snprintf (size : ℕ) (text : List UInt8) : List UInt8 :=
  text.take (size - 1)

/-- The loop of `session_path` from the place `p` on. -/
def scanName (slash : Option ℕ) : (ok : Bool) → (p : ℕ) → List UInt8 → Bool
  | ok, _, [] => ok
  | ok, p, c :: rest =>
      if ok then
        scanName slash
          (if slash ≠ some p ∧ isAlnum c = false ∧ c ≠ 0x5F ∧ c ≠ 0x2D then false else ok)
          (p + 1) rest
      else ok

/-- The first value of `ok`. -/
def startsOk (name : List UInt8) : (slash : Option ℕ) → Bool
  | none => false
  | some place => place ≠ 0 ∧ name.getD (place + 1) 0 ≠ 0 ∧ name.length ≤ 40

def sessionPath (name : List UInt8) : Except String (List UInt8) :=
  let slash := strchr slashByte name
  if scanName slash (startsOk name slash) 0 name then
    .ok (snprintf maxPgPath (asBytes "sessions/" ++ name ++ asBytes ".pgs"))
  else .error "pgr: invalid session name"

/-- The directory that `session_start` creates.  `none` is a write through the null
pointer. -/
def sessionDir (path : List UInt8) : Option (List UInt8) :=
  let dir := snprintf maxPgPath path
  (strrchr slashByte dir).map fun place => dir.take place

/-- `%u`. -/
def formatU32 (value : UInt32) : List UInt8 :=
  decimal value.toNat

/-- `%d`, which takes the bits of its argument as a signed number. -/
def formatD32 (value : Int32) : List UInt8 :=
  signed value.toInt (decimal value.toInt.natAbs)

/-- The `SessionName` of `capture_gate`. -/
def captureName (captureId clientId : UInt32) : List UInt8 :=
  snprintf 64 (formatU32 captureId ++ slashByte :: formatU32 clientId)

/-- The names of `pgr_exit`, for a captured client and for a replay client. -/
def capturedExitName (myClientId : UInt32) : List UInt8 :=
  snprintf 64 (asBytes "d/" ++ formatD32 myClientId.toInt32)

def replayExitName (myReplayId : Int32) : List UInt8 :=
  snprintf 64 (asBytes "r/" ++ formatD32 myReplayId)

/-! ## The names that are meant -/

def isWord (c : UInt8) : Bool :=
  isAlnum c ∨ c = 0x5F ∨ c = 0x2D

structure IsSegment (segment : List UInt8) : Prop where
  nonempty : segment ≠ []
  word : ∀ c ∈ segment, isWord c = true

/-- Two segments and a slash between them. -/
def IsSessionName (name : List UInt8) : Prop :=
  name.length ≤ 40 ∧ ∃ first second, IsSegment first ∧ IsSegment second ∧
    name = first ++ slashByte :: second

theorem isWord_slashByte : isWord slashByte = false := by decide

theorem IsSegment.slash_not_mem {segment : List UInt8} (hsegment : IsSegment segment) :
    slashByte ∉ segment := by
  intro hmem
  cases isWord_slashByte.symm.trans (hsegment.word _ hmem)

/-! ## The scan -/

theorem strchr_append {c : UInt8} {before : List UInt8} (hbefore : c ∉ before)
    (after : List UInt8) : strchr c (before ++ c :: after) = some before.length := by
  induction before with
  | nil => exact if_pos rfl
  | cons byte before ih =>
      obtain ⟨hbyte, hrest⟩ := not_or.mp (mt List.mem_cons.mpr hbefore)
      rw [List.cons_append, strchr, if_neg (Ne.symm hbyte), ih hrest]
      rfl

theorem strchr_eq_none {c : UInt8} {s : List UInt8} (hs : c ∉ s) : strchr c s = none := by
  induction s with
  | nil => rfl
  | cons byte s ih =>
      obtain ⟨hbyte, hrest⟩ := not_or.mp (mt List.mem_cons.mpr hs)
      rw [strchr, if_neg (Ne.symm hbyte), ih hrest]
      rfl

theorem strrchr_eq_none {c : UInt8} {s : List UInt8} (hs : c ∉ s) : strrchr c s = none := by
  induction s with
  | nil => rfl
  | cons byte s ih =>
      obtain ⟨hbyte, hrest⟩ := not_or.mp (mt List.mem_cons.mpr hs)
      rw [strrchr, ih hrest]
      exact if_neg (Ne.symm hbyte)

theorem strrchr_append {c : UInt8} {after : List UInt8} (hafter : c ∉ after)
    (before : List UInt8) : strrchr c (before ++ c :: after) = some before.length := by
  induction before with
  | nil =>
      rw [List.nil_append, strrchr, strrchr_eq_none hafter]
      exact if_pos rfl
  | cons byte before ih =>
      rw [List.cons_append, strrchr, ih]
      rfl

theorem scanName_false (slash : Option ℕ) (p : ℕ) (name : List UInt8) :
    scanName slash false p name = false := by
  cases name <;> rfl

theorem scanName_cons (slash : Option ℕ) (ok : Bool) (p : ℕ) (c : UInt8) (rest : List UInt8) :
    scanName slash ok p (c :: rest) =
      scanName slash (ok && (decide (slash = some p) || isWord c)) (p + 1) rest := by
  rw [scanName]
  cases ok with
  | false => exact (scanName_false slash (p + 1) rest).symm
  | true =>
      rw [if_pos rfl, Bool.true_and]
      congr 1
      by_cases hslash : slash = some p
      · simp [hslash]
      · cases halnum : isAlnum c with
        | true => simp [isWord, halnum]
        | false =>
            by_cases hunder : c = 0x5F
            · simp [isWord, hunder]
            · by_cases hdash : c = 0x2D
              · simp [isWord, hdash]
              · simp [isWord, hslash, halnum, hunder, hdash]

theorem scanName_append (slash : Option ℕ) (ok : Bool) (p : ℕ) (before after : List UInt8) :
    scanName slash ok p (before ++ after) =
      scanName slash (scanName slash ok p before) (p + before.length) after := by
  induction before generalizing ok p with
  | nil => rfl
  | cons c before ih =>
      rw [List.cons_append, scanName_cons, scanName_cons, ih, List.length_cons, Nat.add_assoc,
        Nat.add_comm 1]

/-- Away from the slash all bytes have to be of a word. -/
theorem scanName_away {slash : Option ℕ} {p : ℕ} {part : List UInt8}
    (hslash : ∀ place, p ≤ place → place < p + part.length → slash ≠ some place) (ok : Bool) :
    scanName slash ok p part = (ok && part.all isWord) := by
  induction part generalizing p ok with
  | nil => exact (Bool.and_true ok).symm
  | cons c part ih =>
      have hhere : slash ≠ some p := hslash p (le_refl p) (by simp)
      have hrest : ∀ place, p + 1 ≤ place → place < p + 1 + part.length → slash ≠ some place := by
        intro place hfrom hto
        apply hslash place (Nat.le_of_succ_le hfrom)
        rw [List.length_cons]
        omega
      rw [scanName_cons, ih hrest, decide_eq_false hhere, Bool.false_or, List.all_cons,
        Bool.and_assoc]

/-- A name with a slash, the first one in front of `after`. -/
theorem scanName_slash {before : List UInt8} (ok : Bool) (after : List UInt8) :
    scanName (some before.length) ok 0 (before ++ slashByte :: after) =
      (ok && before.all isWord && after.all isWord) := by
  have hbefore : ∀ place, 0 ≤ place → place < 0 + before.length →
      some before.length ≠ some place := by
    intro place _ hto hsome
    cases hsome
    omega
  have hafter : ∀ place, before.length + 1 ≤ place →
      place < before.length + 1 + after.length → some before.length ≠ some place := by
    intro place hfrom _ hsome
    cases hsome
    omega
  rw [scanName_append, scanName_away hbefore, Nat.zero_add, scanName_cons, decide_eq_true rfl,
    Bool.true_or, Bool.and_true, scanName_away hafter]

theorem ne_zero_of_isWord {c : UInt8} (hword : isWord c = true) : c ≠ 0 := by
  intro hzero
  rw [hzero] at hword
  cases hword

theorem all_isWord_iff {segment : List UInt8} :
    segment ≠ [] ∧ segment.all isWord = true ↔ IsSegment segment := by
  rw [List.all_eq_true]
  exact ⟨fun hsegment => ⟨hsegment.1, hsegment.2⟩, fun hsegment => ⟨hsegment.nonempty, hsegment.word⟩⟩

/-- A name has only one place to be cut at. -/
theorem isSessionName_append_iff {before after : List UInt8} (hbefore : slashByte ∉ before) :
    IsSessionName (before ++ slashByte :: after) ↔
      (before ++ slashByte :: after).length ≤ 40 ∧ IsSegment before ∧ IsSegment after := by
  constructor
  · rintro ⟨hlength, first, second, hfirst, hsecond, hname⟩
    have hplace := strchr_append hbefore after
    rw [hname, strchr_append hfirst.slash_not_mem second] at hplace
    obtain ⟨hsame, hrest⟩ := List.append_inj hname.symm (Option.some.inj hplace)
    rw [← hsame, ← (List.cons.inj hrest).2]
    exact ⟨by rwa [hname] at hlength, hfirst, hsecond⟩
  · rintro ⟨hlength, hfirst, hsecond⟩
    exact ⟨hlength, before, after, hfirst, hsecond, rfl⟩

/-- The byte behind the slash is the terminating NUL when nothing follows. -/
theorem getD_behind_slash (before after : List UInt8) :
    (before ++ slashByte :: after).getD (before.length + 1) 0 = after.headD 0 := by
  rw [List.getD_append_right _ _ _ _ (Nat.le_succ _), Nat.succ_sub (le_refl _), Nat.sub_self]
  cases after <;> rfl

theorem headD_ne_zero_iff {after : List UInt8} (hword : after.all isWord = true) :
    after.headD 0 ≠ 0 ↔ after ≠ [] := by
  cases after with
  | nil => simp
  | cons c after =>
      have hc : isWord c = true := List.all_eq_true.mp hword c List.mem_cons_self
      simpa using ne_zero_of_isWord hc

theorem snprintf_path {name : List UInt8} (hlength : name.length ≤ 40) :
    snprintf maxPgPath (asBytes "sessions/" ++ name ++ asBytes ".pgs") =
      asBytes "sessions/" ++ name ++ asBytes ".pgs" := by
  apply List.take_of_length_le
  have hfront : (asBytes "sessions/").length = 9 := by decide +kernel
  have hback : (asBytes ".pgs").length = 4 := by decide +kernel
  rw [List.length_append, List.length_append, hfront, hback, maxPgPath]
  omega

/-- The scan accepts the session names, and no others. -/
theorem sessionPath_eq (name : List UInt8) :
    sessionPath name = .ok (asBytes "sessions/" ++ name ++ asBytes ".pgs") ∧ IsSessionName name ∨
      sessionPath name = .error "pgr: invalid session name" ∧ ¬IsSessionName name := by
  by_cases hslash : slashByte ∈ name
  · obtain ⟨before, after, hname, hbefore⟩ := List.eq_append_cons_of_mem hslash
    have hplace : strchr slashByte name = some before.length := by
      rw [hname]
      exact strchr_append hbefore after
    obtain ⟨ok, hok⟩ : ∃ ok, startsOk name (some before.length) = ok := ⟨_, rfl⟩
    have hconditions : ok = true ↔
        before.length ≠ 0 ∧ after.headD 0 ≠ 0 ∧ name.length ≤ 40 := by
      rw [← hok, startsOk, decide_eq_true_iff, hname, getD_behind_slash]
    have hscan : scanName (some before.length) ok 0 name =
        (ok && before.all isWord && after.all isWord) := by
      rw [hname]
      exact scanName_slash ok after
    have hmeant : IsSessionName (before ++ slashByte :: after) ↔ _ :=
      isSessionName_append_iff hbefore
    rw [← hname] at hmeant
    rw [sessionPath, hplace]
    rw [hok, hscan, hmeant]
    split_ifs with haccepted
    · left
      rw [Bool.and_eq_true, Bool.and_eq_true] at haccepted
      obtain ⟨⟨htrue, hfirst⟩, hsecond⟩ := haccepted
      obtain ⟨hnonempty, hnext, hlength⟩ := hconditions.mp htrue
      rw [snprintf_path hlength]
      exact ⟨rfl, hlength, all_isWord_iff.mp ⟨by simpa using hnonempty, hfirst⟩,
        all_isWord_iff.mp ⟨(headD_ne_zero_iff hsecond).mp hnext, hsecond⟩⟩
    · right
      refine ⟨rfl, ?_⟩
      rintro ⟨hlength, hfirst, hsecond⟩
      obtain ⟨hnonempty, hword⟩ := all_isWord_iff.mpr hfirst
      obtain ⟨hnonempty', hword'⟩ := all_isWord_iff.mpr hsecond
      apply haccepted
      rw [hword, hword', Bool.and_true, Bool.and_true, hconditions]
      exact ⟨by simpa using hnonempty, (headD_ne_zero_iff hword').mpr hnonempty', hlength⟩
  · right
    rw [sessionPath, strchr_eq_none hslash]
    rw [startsOk, scanName_false, if_neg Bool.false_ne_true]
    refine ⟨rfl, ?_⟩
    rintro ⟨-, first, second, -, -, hname⟩
    apply hslash
    rw [hname]
    exact List.mem_append_right _ List.mem_cons_self

theorem sessionPath_eq_ok_iff (name path : List UInt8) : sessionPath name = .ok path ↔
    IsSessionName name ∧ path = asBytes "sessions/" ++ name ++ asBytes ".pgs" := by
  rcases sessionPath_eq name with ⟨hok, hname⟩ | ⟨herror, hname⟩
  · rw [hok, Except.ok.injEq]
    exact ⟨fun hpath => ⟨hname, hpath.symm⟩, fun hpath => hpath.2.symm⟩
  · rw [herror]
    constructor
    · intro hpath
      cases hpath
    · intro hpath
      exact absurd hpath.1 hname

/-! ## The paths -/

def dotByte : UInt8 := 0x2E

theorem IsSegment.dot_not_mem {segment : List UInt8} (hsegment : IsSegment segment) :
    dotByte ∉ segment := by
  intro hmem
  have hdot : isWord dotByte = false := by decide
  cases hdot.symm.trans (hsegment.word _ hmem)

/-- A path of two segments below the session directory. -/
structure IsSessionPath (path first second : List UInt8) : Prop where
  segments : IsSegment first ∧ IsSegment second
  layout : path = asBytes "sessions/" ++ first ++ slashByte :: second ++ asBytes ".pgs"
  /-- Its components, none of which leads to a parent. -/
  components : path.splitOn slashByte = [asBytes "sessions", first, second ++ asBytes ".pgs"]
  noParent : asBytes ".." ∉ path.splitOn slashByte
  dir : sessionDir path = some (asBytes "sessions/" ++ first)

theorem isSessionPath_of_ok {name path : List UInt8} (hpath : sessionPath name = .ok path) :
    ∃ first second, name = first ++ slashByte :: second ∧ IsSessionPath path first second := by
  obtain ⟨⟨hlength, first, second, hfirst, hsecond, hname⟩, hbytes⟩ :=
    (sessionPath_eq_ok_iff name path).mp hpath
  have hfront : asBytes "sessions/" = asBytes "sessions" ++ [slashByte] := by decide +kernel
  have hback : slashByte ∉ asBytes ".pgs" := by decide +kernel
  have hlast : slashByte ∉ second ++ asBytes ".pgs" := by
    intro hmem
    exact (List.mem_append.mp hmem).elim hsecond.slash_not_mem hback
  have hpath : path = asBytes "sessions/" ++ first ++ slashByte :: second ++ asBytes ".pgs" := by
    rw [hbytes, hname]
    simp
  have hcomponents : path.splitOn slashByte =
      [asBytes "sessions", first, second ++ asBytes ".pgs"] := by
    have hjoined : path = [slashByte].intercalate
        [asBytes "sessions", first, second ++ asBytes ".pgs"] := by
      rw [hpath, hfront]
      simp [List.intercalate]
    rw [hjoined]
    apply List.splitOn_intercalate
    · intro component hcomponent
      rcases List.mem_cons.mp hcomponent with hdirectory | hrest
      · rw [hdirectory]
        decide +kernel
      · rcases List.mem_pair.mp hrest with hsame | hsame
        · rw [hsame]
          exact hfirst.slash_not_mem
        · rw [hsame]
          exact hlast
    · exact List.cons_ne_nil _ _
  refine ⟨first, second, hname, ⟨hfirst, hsecond⟩, hpath, hcomponents, ?_, ?_⟩
  · rw [hcomponents]
    intro hmem
    have hparent : asBytes ".." = [dotByte, dotByte] := by decide +kernel
    have hdirectory : asBytes ".." ≠ asBytes "sessions" := by decide +kernel
    rcases List.mem_cons.mp hmem with hsame | hrest
    · exact hdirectory hsame
    · rcases List.mem_pair.mp hrest with hsame | hsame
      · apply hfirst.dot_not_mem
        rw [← hsame, hparent]
        exact List.mem_cons_self
      · have hdots : (second ++ asBytes ".pgs").length = 2 := by
          rw [← hsame, hparent]
          rfl
        have hsuffix : (asBytes ".pgs").length = 4 := by decide +kernel
        rw [List.length_append, hsuffix] at hdots
        omega
  · have hwhole : snprintf maxPgPath path = path := by
      rw [hbytes]
      exact snprintf_path hlength
    rw [sessionDir, hwhole, hpath, List.append_assoc, List.cons_append, strrchr_append hlast,
      Option.map_some, List.take_left]

/-! ## The producers -/

theorem isWord_of_isDigit {c : UInt8} (hdigit : isDigit c = true) : isWord c = true := by
  rw [isDigit, decide_eq_true_iff] at hdigit
  have halnum : isAlnum c = true := by
    rw [isAlnum, decide_eq_true_iff, UInt8.le_iff_toNat_le, UInt8.le_iff_toNat_le]
    exact .inl hdigit
  rw [isWord, halnum]
  rfl

theorem isSegment_formatU32 (value : UInt32) :
    IsSegment (formatU32 value) ∧ (formatU32 value).length ≤ 10 := by
  refine ⟨⟨decimal_ne_nil _, fun c hc => isWord_of_isDigit (isDigit_of_mem_decimal hc)⟩, ?_⟩
  apply (length_decimal_le_iff (by decide)).mpr
  exact value.toNat_lt.trans (by decide)

theorem isSegment_formatD32 (value : Int32) :
    IsSegment (formatD32 value) ∧ (formatD32 value).length ≤ 11 := by
  have hmagnitude : value.toInt.natAbs < 10 ^ 10 := by
    have hlow := value.le_toInt
    have hhigh := value.toInt_lt
    omega
  have hlength := (length_decimal_le_iff (by decide)).mpr hmagnitude
  have hword : ∀ c ∈ decimal value.toInt.natAbs, isWord c = true := fun c hc =>
    isWord_of_isDigit (isDigit_of_mem_decimal hc)
  rw [formatD32, signed]
  split_ifs with hnegative
  · refine ⟨⟨List.cons_ne_nil _ _, ?_⟩, Nat.succ_le_succ hlength⟩
    intro c hc
    rcases List.mem_cons.mp hc with hminus | hdigit
    · rw [hminus]
      decide
    · exact hword c hdigit
  · exact ⟨⟨decimal_ne_nil _, hword⟩, hlength.trans (by decide)⟩

/-- Two short segments make a name, which `snprintf` does not cut off. -/
theorem isSessionName_snprintf {first second : List UInt8} (hfirst : IsSegment first)
    (hsecond : IsSegment second) (hlength : first.length + second.length ≤ 39) :
    IsSessionName (snprintf 64 (first ++ slashByte :: second)) := by
  have htotal : (first ++ slashByte :: second).length ≤ 40 := by
    rw [List.length_append, List.length_cons]
    omega
  rw [snprintf, List.take_of_length_le (htotal.trans (by decide))]
  exact ⟨htotal, first, second, hfirst, hsecond, rfl⟩

theorem isSessionName_captureName (captureId clientId : UInt32) :
    IsSessionName (captureName captureId clientId) := by
  obtain ⟨hfirst, hshort⟩ := isSegment_formatU32 captureId
  obtain ⟨hsecond, hshort'⟩ := isSegment_formatU32 clientId
  exact isSessionName_snprintf hfirst hsecond (by omega)

theorem isSessionName_letter (letter : UInt8) (hletter : isWord letter = true) (value : Int32) :
    IsSessionName (snprintf 64 ([letter] ++ slashByte :: formatD32 value)) := by
  obtain ⟨hsecond, hshort⟩ := isSegment_formatD32 value
  have hfirst : IsSegment [letter] :=
    ⟨List.cons_ne_nil _ _, fun c hc => by rwa [List.mem_singleton.mp hc]⟩
  apply isSessionName_snprintf hfirst hsecond
  rw [List.length_singleton]
  omega

theorem isSessionName_capturedExitName (myClientId : UInt32) :
    IsSessionName (capturedExitName myClientId) := by
  have hletter : asBytes "d/" = [0x64, slashByte] := by decide +kernel
  rw [capturedExitName, hletter]
  exact isSessionName_letter 0x64 (by decide) myClientId.toInt32

theorem isSessionName_replayExitName (myReplayId : Int32) :
    IsSessionName (replayExitName myReplayId) := by
  have hletter : asBytes "r/" = [0x72, slashByte] := by decide +kernel
  rw [replayExitName, hletter]
  exact isSessionName_letter 0x72 (by decide) myReplayId

end Pgr.SessionName
