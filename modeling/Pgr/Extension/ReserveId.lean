import Pgr.Core.Decimal
import Pgr.Core.Transition

/-!
# Capture ids

`reserve_id` of `helpers.c`: a call lists the directory, takes the first free
number and creates its file exclusively; when the file exists, it starts again.  A
listing is not atomic: it holds every file that was there when the directory was
opened, and of the files created since any.

Names and extensions are byte strings without a NUL.  Numbers are natural numbers,
and `id++` wraps around.
-/

namespace Pgr.ReserveId

open Pgr.Decimal Pgr.Transition

abbrev Name := List UInt8

/-! ## Numbers of files -/

def ulongMax : ℕ := 2 ^ 64 - 1

def uint32Max : ℕ := 2 ^ 32 - 1

def isSpace (byte : UInt8) : Bool :=
  byte = 0x20 ∨ 0x09 ≤ byte.toNat ∧ byte.toNat ≤ 0x0D

def isSign (byte : UInt8) : Bool :=
  byte = 0x2B ∨ byte = 0x2D

/-- The value of a run of digits behind a sign. -/
def ulongOf (negative : Bool) (digits : List UInt8) : ℕ :=
  if ulongMax < ofDecimal digits then ulongMax
  else if negative then (2 ^ 64 - ofDecimal digits) % 2 ^ 64
  else ofDecimal digits

/-- `strtoul` to the base 10, with what is left behind the number; where there are no
digits this is the whole string. -/
def strtoul (str : List UInt8) : ℕ × List UInt8 :=
  let text := str.dropWhile isSpace
  let unsigned := if text.head?.any isSign then text.tail else text
  let digits := unsigned.takeWhile isDigit
  if digits = [] then (0, str)
  else (ulongOf (text.head? = some 0x2D) digits, unsigned.dropWhile isDigit)

variable (ext : List UInt8)

/-- The number of a file with the extension. -/
def fileId (name : Name) : Option ℕ :=
  let parsed := strtoul name
  let value := parsed.1
  let rest := parsed.2
  if rest = name ∨ rest.head? ≠ some 0x2E ∨ rest.tail ≠ ext ∨ value = 0 ∨ value > uint32Max then
    none
  else some value

/-- The file that is created for a number. -/
def fileName (id : ℕ) : Name :=
  decimal id ++ 0x2E :: ext

/-- The scan over the sorted numbers. -/
def firstGap : List ℕ → (id : ℕ) → ℕ
  | [], id => id
  | used :: ids, id =>
      if used = id then firstGap ids ((id + 1) % 2 ^ 32)
      else if used > id then id
      else firstGap ids id

/-- The number a call takes from a listing. -/
def freeId (names : List Name) : ℕ :=
  firstGap ((names.filterMap (fileId ext)).insertionSort (· ≤ ·)) 1

/-! ## Concurrent calls -/

/-- Where a call is. -/
inductive Caller where
  | ready
  /-- The directory is open; `opened` is what was in it then. -/
  | listing (opened : List Name)
  | chosen (id : ℕ)
  | returned (id : ℕ)
  | failed
  deriving DecidableEq

structure State (ι : Type) where
  files : List Name
  callers : ι → Caller

def start (ι : Type) (files : List Name) : State ι :=
  ⟨files, fun _ => .ready⟩

inductive Label (ι : Type) where
  | openDir (caller : ι)
  | closeDir (caller : ι) (names : List Name)
  | create (caller : ι)
  /-- An error other than `EEXIST`. -/
  | fail (caller : ι)

variable {ι : Type} [DecidableEq ι]

def State.setCaller (s : State ι) (caller : ι) (place : Caller) : State ι :=
  { s with callers := Function.update s.callers caller place }

def step (s : State ι) : Label ι → Option (State ι)
  | .openDir caller =>
      match s.callers caller with
      | .ready => some (s.setCaller caller (.listing s.files))
      | _ => none
  | .closeDir caller names =>
      match s.callers caller with
      | .listing opened =>
          if (∀ name ∈ opened, name ∈ names) ∧ ∀ name ∈ names, name ∈ s.files then
            some (s.setCaller caller (.chosen (freeId ext names)))
          else none
      | _ => none
  | .create caller =>
      match s.callers caller with
      | .chosen id =>
          if fileName ext id ∈ s.files then some (s.setCaller caller .ready)
          else
            some ({ s with files := fileName ext id :: s.files }.setCaller caller
              (.returned id))
      | _ => none
  | .fail caller =>
      match s.callers caller with
      | .ready | .listing _ | .chosen _ => some (s.setCaller caller .failed)
      | .returned _ | .failed => none

/-! ## The first gap -/

section FirstGap

variable {ids : List ℕ} {id : ℕ}

/-- A scan that has wrapped around ends at once. -/
theorem firstGap_zero (hids : ∀ used ∈ ids, 0 < used) : firstGap ids 0 = 0 := by
  cases ids with
  | nil => rfl
  | cons used ids =>
      have hused : 0 < used := hids used List.mem_cons_self
      rw [firstGap, if_neg hused.ne', if_pos hused]

/-- What a scan from `id` finds: a number that is not used, with no free one in front
of it; 0 when none is free. -/
structure Gap (ids : List ℕ) (id gap : ℕ) : Prop where
  free : gap ∉ ids
  le : gap ≤ uint32Max
  behind : gap = 0 ∨ id ≤ gap
  first : ∀ other, id ≤ other → other ≤ uint32Max → gap = 0 ∨ other < gap → other ∈ ids

theorem Gap.cons {used gap : ℕ} (hgap : Gap ids id gap) (hused : used ≠ gap) :
    Gap (used :: ids) id gap where
  free hmem := (List.mem_cons.mp hmem).elim (fun heq => hused heq.symm) hgap.free
  le := hgap.le
  behind := hgap.behind
  first other hother hmax hless := List.mem_cons_of_mem _ (hgap.first other hother hmax hless)

theorem firstGap_gap (hsorted : ids.Pairwise (· ≤ ·)) (hids : ∀ used ∈ ids, 0 < used)
    (hpos : 0 < id) (hid : id ≤ uint32Max) : Gap ids id (firstGap ids id) := by
  induction ids generalizing id with
  | nil =>
      refine ⟨List.not_mem_nil, hid, .inr le_rfl, fun other hother _ hless => ?_⟩
      rw [firstGap] at hless
      omega
  | cons used ids ih =>
      obtain ⟨hfirst, htail⟩ := List.pairwise_cons.mp hsorted
      obtain ⟨hused, hrest⟩ := List.forall_mem_cons.mp hids
      rw [firstGap]
      split_ifs with hsame hgap
      · by_cases hmax : id = uint32Max
        · have hwrap : (id + 1) % 2 ^ 32 = 0 := by
            rw [hmax]
            rfl
          rw [hwrap, firstGap_zero hrest]
          refine ⟨fun hmem => (hids 0 hmem).false, Nat.zero_le _, .inl rfl, ?_⟩
          intro other hother hle _
          rw [hsame, hmax, le_antisymm hle (hmax ▸ hother)]
          exact List.mem_cons_self
        · have hsucc : (id + 1) % 2 ^ 32 = id + 1 := by
            apply Nat.mod_eq_of_lt
            rw [uint32Max] at hid hmax
            omega
          have hnext := ih htail hrest id.succ_pos (lt_of_le_of_ne hid hmax)
          rw [hsucc, hsame]
          refine ⟨?_, hnext.le, ?_, ?_⟩
          · have hbehind := hnext.behind
            exact (hnext.cons (by omega)).free
          · exact hnext.behind.imp_right fun hless => (Nat.le_succ id).trans hless
          · intro other hother hle hless
            obtain hequal | hgreater := hother.eq_or_lt
            · rw [hequal]
              exact List.mem_cons_self
            · exact List.mem_cons_of_mem _ (hnext.first other hgreater hle hless)
      · refine ⟨fun hmem => ?_, hid, .inr le_rfl, fun other hother _ hless => ?_⟩
        · obtain heq | hmem := List.mem_cons.mp hmem
          · exact hsame heq.symm
          · exact absurd (hfirst id hmem) (not_le.mpr hgap)
        · omega
      · have hnext := ih htail hrest hpos hid
        have hbehind := hnext.behind
        exact hnext.cons (by omega)

end FirstGap

/-! ## The number of a listing -/

theorem fileId_pos {name : Name} {id : ℕ} (hid : fileId ext name = some id) :
    0 < id ∧ id ≤ uint32Max := by
  rw [fileId] at hid
  split_ifs at hid with hskip
  cases hid
  simp only [not_or, not_lt] at hskip
  exact ⟨Nat.pos_of_ne_zero hskip.2.2.2.1, hskip.2.2.2.2⟩

theorem freeId_gap (names : List Name) :
    Gap (names.filterMap (fileId ext)) 1 (freeId ext names) := by
  have hmem : ∀ id, id ∈ (names.filterMap (fileId ext)).insertionSort (· ≤ ·) ↔
      id ∈ names.filterMap (fileId ext) := fun id => List.mem_insertionSort _
  have hgap : Gap ((names.filterMap (fileId ext)).insertionSort (· ≤ ·)) 1
      (freeId ext names) := by
    apply firstGap_gap
    · exact List.pairwise_insertionSort _ _
    · intro used hused
      obtain ⟨name, -, hname⟩ := List.mem_filterMap.mp ((hmem used).mp hused)
      exact (fileId_pos ext hname).1
    · exact Nat.one_pos
    · decide
  exact ⟨fun hfree => hgap.free ((hmem _).mpr hfree), hgap.le, hgap.behind,
    fun other hother hle hless => (hmem other).mp (hgap.first other hother hle hless)⟩

/-- With a number left, the number a call takes from a listing is the least positive
one that no listed file has. -/
theorem freeId_isLeast {names : List Name}
    (hfew : (names.filterMap (fileId ext)).toFinset.card < 2 ^ 32 - 1) :
    IsLeast {id | 0 < id ∧ ∀ name ∈ names, fileId ext name ≠ some id} (freeId ext names) := by
  have hgap := freeId_gap ext names
  have hpos : freeId ext names ≠ 0 := by
    intro hzero
    have hall : Finset.Icc 1 uint32Max ⊆ (names.filterMap (fileId ext)).toFinset := by
      intro id hid
      obtain ⟨hone, hmax⟩ := Finset.mem_Icc.mp hid
      exact List.mem_toFinset.mpr (hgap.first id hone hmax (.inl hzero))
    have hcard := Finset.card_le_card hall
    rw [Nat.card_Icc, uint32Max] at hcard
    omega
  refine ⟨⟨Nat.pos_of_ne_zero hpos, fun name hname heq => ?_⟩, fun id hid => ?_⟩
  · exact hgap.free (List.mem_filterMap.mpr ⟨name, hname, heq⟩)
  · by_contra hless
    have hless' := not_le.mp hless
    obtain ⟨name, hname, heq⟩ := List.mem_filterMap.mp
      (hgap.first id hid.1 (hless'.le.trans hgap.le) (.inr hless'))
    exact hid.2 name hname heq

/-! ## The file of a number -/

theorem isSpace_of_isDigit {byte : UInt8} (hdigit : isDigit byte = true) :
    isSpace byte = false := by
  have hrange := of_decide_eq_true hdigit
  apply decide_eq_false
  rintro (hblank | hcontrol)
  · rw [hblank] at hrange
    exact absurd hrange.1 (by decide)
  · omega

theorem isSign_of_isDigit {byte : UInt8} (hdigit : isDigit byte = true) :
    isSign byte = false := by
  have hrange := of_decide_eq_true hdigit
  apply decide_eq_false
  rintro (hplus | hminus)
  · rw [hplus] at hrange
    exact absurd hrange.1 (by decide)
  · rw [hminus] at hrange
    exact absurd hrange.1 (by decide)

theorem strtoul_fileName {id : ℕ} (hid : id ≤ uint32Max) :
    strtoul (fileName ext id) = (id, 0x2E :: ext) := by
  obtain ⟨byte, digits, hdecimal⟩ := List.exists_cons_of_ne_nil (decimal_ne_nil id)
  have hbyte : isDigit byte = true := by
    apply isDigit_of_mem_decimal
    rw [hdecimal]
    exact List.mem_cons_self
  have hrest : ∀ other, (0x2E :: ext).head? = some other → isDigit other = false := by
    intro other hother
    cases hother
    rfl
  have hname : fileName ext id = byte :: (digits ++ 0x2E :: ext) := by
    rw [fileName, hdecimal, List.cons_append]
  have hspace : (fileName ext id).dropWhile isSpace = fileName ext id := by
    rw [hname, List.dropWhile_cons, isSpace_of_isDigit hbyte, if_neg (by decide)]
  have hsign : (fileName ext id).head?.any isSign = false := by
    rw [hname]
    exact isSign_of_isDigit hbyte
  have hminus : ((fileName ext id).head? = some 0x2D) = False := by
    rw [hname, List.head?_cons, eq_iff_iff, iff_false, Option.some.injEq]
    intro heq
    rw [heq] at hbyte
    exact absurd hbyte (by decide)
  have hvalue : ulongOf false (decimal id) = id := by
    rw [ulongOf, ofDecimal_decimal, if_neg, if_neg (by decide)]
    rw [uint32Max] at hid
    rw [ulongMax]
    omega
  rw [strtoul]
  simp only [hspace, hsign, hminus, Bool.false_eq_true, if_false, decide_false]
  rw [fileName, takeWhile_decimal_append hrest, dropWhile_decimal_append hrest,
    if_neg (decimal_ne_nil id), hvalue]

theorem fileId_fileName {id : ℕ} (hid : id ≤ uint32Max) :
    fileId ext (fileName ext id) = if id = 0 then none else some id := by
  have hlength : (0x2E :: ext) ≠ fileName ext id := by
    intro heq
    have hlengths := congrArg List.length heq
    rw [fileName, List.length_append] at hlengths
    have hpositive := List.length_pos_of_ne_nil (decimal_ne_nil id)
    omega
  rw [fileId, strtoul_fileName ext hid]
  split_ifs with hskip hzero hzero
  · rfl
  · exact absurd hskip (by simp [hlength, hzero, hid])
  · exact absurd (.inr (.inr (.inr (.inl hzero)))) hskip
  · rfl

/-! ## Freshness -/

/-- What a call knows about the directory: `files` is what was there before all
calls, and `now` what is there. -/
def Placed (files now : List Name) : Caller → Prop
  | .ready | .failed => True
  | .listing opened =>
      (∀ name ∈ files, name ∈ opened) ∧
        ∀ name ∈ now, name ∈ opened ∨ ∃ id ≤ uint32Max, name = fileName ext id
  | .chosen id =>
      id ≤ uint32Max ∧ ∀ name ∈ now, fileId ext name = some id → name = fileName ext id
  | .returned id =>
      fileName ext id ∈ now ∧ ∀ name ∈ files, fileId ext name ≠ some id ∧ name ≠ fileName ext id

structure Fresh (files : List Name) (s : State ι) : Prop where
  kept : ∀ name ∈ files, name ∈ s.files
  placed : ∀ caller, Placed ext files s.files (s.callers caller)
  distinct : ∀ caller other id, s.callers caller = .returned id →
    s.callers other = .returned id → caller = other

variable {ext} {files : List Name} {s : State ι} {caller : ι}

@[simp]
theorem callers_setCaller (s : State ι) (caller : ι) (place : Caller) :
    (s.setCaller caller place).callers caller = place := by
  simp [State.setCaller]

theorem callers_setCaller_ne {other : ι} (hother : other ≠ caller) (s : State ι)
    (place : Caller) : (s.setCaller caller place).callers other = s.callers other := by
  simp [State.setCaller, hother]

/-- A call goes on, and does not return. -/
theorem Fresh.setCaller (hfresh : Fresh ext files s) {place : Caller}
    (hplace : Placed ext files s.files place) (hreturned : ∀ id, place ≠ .returned id) :
    Fresh ext files (s.setCaller caller place) where
  kept := hfresh.kept
  placed other := by
    by_cases hother : other = caller
    · rw [hother, callers_setCaller]
      exact hplace
    · rw [callers_setCaller_ne hother]
      exact hfresh.placed other
  distinct first second id hfirst hsecond := by
    by_cases hself : first = caller
    · rw [hself, callers_setCaller] at hfirst
      exact absurd hfirst (hreturned id)
    · by_cases hself' : second = caller
      · rw [hself', callers_setCaller] at hsecond
        exact absurd hsecond (hreturned id)
      · rw [callers_setCaller_ne hself] at hfirst
        rw [callers_setCaller_ne hself'] at hsecond
        exact hfresh.distinct first second id hfirst hsecond

/-- The listing of a call leaves no file with the number it takes, except the file
that another call creates for this number. -/
theorem placed_chosen {now opened names : List Name}
    (hlisting : Placed ext files now (.listing opened)) (hopened : ∀ name ∈ opened, name ∈ names) :
    Placed ext files now (.chosen (freeId ext names)) := by
  have hgap := freeId_gap ext names
  refine ⟨hgap.le, fun name hname hid => ?_⟩
  obtain hlisted | ⟨id, hmax, hcreated⟩ := hlisting.2 name hname
  · exact absurd (List.mem_filterMap.mpr ⟨name, hopened name hlisted, hid⟩) hgap.free
  · rw [hcreated, fileId_fileName ext hmax] at hid
    split_ifs at hid with hzero
    cases hid
    exact hcreated

omit [DecidableEq ι] in
/-- A call that creates its file finds none with its number. -/
theorem Fresh.noFile (hfresh : Fresh ext files s) {id : ℕ}
    (hchosen : s.callers caller = .chosen id) (hnew : fileName ext id ∉ s.files) :
    ∀ name ∈ s.files, fileId ext name ≠ some id ∧ name ≠ fileName ext id := by
  have hplaced := hfresh.placed caller
  rw [hchosen] at hplaced
  intro name hname
  have hother : name ≠ fileName ext id := by
    intro heq
    rw [heq] at hname
    exact hnew hname
  exact ⟨fun hid => hother (hplaced.2 name hname hid), hother⟩

/-- The other calls stay where they are when a file is created. -/
theorem Placed.create {now : List Name} {place : Caller} {id : ℕ} (hmax : id ≤ uint32Max)
    (hplace : Placed ext files now place) : Placed ext files (fileName ext id :: now) place := by
  cases place with
  | ready => trivial
  | failed => trivial
  | listing opened =>
      refine ⟨hplace.1, List.forall_mem_cons.mpr ⟨?_, hplace.2⟩⟩
      exact .inr ⟨id, hmax, rfl⟩
  | chosen other =>
      refine ⟨hplace.1, List.forall_mem_cons.mpr ⟨fun hid => ?_, hplace.2⟩⟩
      rw [fileId_fileName ext hmax] at hid
      split_ifs at hid with hzero
      cases hid
      rfl
  | returned other => exact ⟨List.mem_cons_of_mem _ hplace.1, hplace.2⟩

theorem Fresh.create (hfresh : Fresh ext files s) {id : ℕ}
    (hchosen : s.callers caller = .chosen id) (hnew : fileName ext id ∉ s.files) :
    Fresh ext files
      ({ s with files := fileName ext id :: s.files }.setCaller caller (.returned id)) := by
  have hmax : id ≤ uint32Max := by
    have hplaced := hfresh.placed caller
    rw [hchosen] at hplaced
    exact hplaced.1
  have hnone : ∀ other, s.callers other ≠ .returned id := by
    intro other hreturned
    have hplaced := hfresh.placed other
    rw [hreturned] at hplaced
    exact hnew hplaced.1
  constructor
  · exact fun name hname => List.mem_cons_of_mem _ (hfresh.kept name hname)
  · intro other
    by_cases hother : other = caller
    · rw [hother, callers_setCaller]
      exact ⟨List.mem_cons_self, fun name hname =>
        hfresh.noFile hchosen hnew name (hfresh.kept name hname)⟩
    · rw [callers_setCaller_ne hother]
      exact (hfresh.placed other).create hmax
  · intro first second other hfirst hsecond
    by_cases hself : first = caller
    · by_cases hself' : second = caller
      · rw [hself, hself']
      · rw [hself, callers_setCaller] at hfirst
        cases hfirst
        rw [callers_setCaller_ne hself'] at hsecond
        exact absurd hsecond (hnone second)
    · rw [callers_setCaller_ne hself] at hfirst
      by_cases hself' : second = caller
      · rw [hself', callers_setCaller] at hsecond
        cases hsecond
        exact absurd hfirst (hnone first)
      · rw [callers_setCaller_ne hself'] at hsecond
        exact hfresh.distinct first second other hfirst hsecond

theorem Fresh.step (hfresh : Fresh ext files s) {label : Label ι} {s' : State ι}
    (hstep : step ext s label = some s') : Fresh ext files s' := by
  cases label with
  | openDir caller =>
      cases hcaller : s.callers caller with
      | ready =>
          simp only [ReserveId.step, hcaller] at hstep
          cases hstep
          exact hfresh.setCaller ⟨hfresh.kept, fun name hname => .inl hname⟩ nofun
      | _ =>
          simp only [ReserveId.step, hcaller] at hstep
          cases hstep
  | closeDir caller names =>
      cases hcaller : s.callers caller with
      | listing opened =>
          simp only [ReserveId.step, hcaller] at hstep
          split_ifs at hstep with hnames
          cases hstep
          have hplaced := hfresh.placed caller
          rw [hcaller] at hplaced
          exact hfresh.setCaller (placed_chosen hplaced hnames.1) nofun
      | _ =>
          simp only [ReserveId.step, hcaller] at hstep
          cases hstep
  | create caller =>
      cases hcaller : s.callers caller with
      | chosen id =>
          simp only [ReserveId.step, hcaller] at hstep
          split_ifs at hstep with hexists
          · cases hstep
            exact hfresh.setCaller trivial nofun
          · cases hstep
            exact hfresh.create hcaller hexists
      | _ =>
          simp only [ReserveId.step, hcaller] at hstep
          cases hstep
  | fail caller =>
      cases hcaller : s.callers caller with
      | ready | listing | chosen =>
          simp only [ReserveId.step, hcaller] at hstep
          cases hstep
          exact hfresh.setCaller trivial nofun
      | returned id =>
          simp only [ReserveId.step, hcaller] at hstep
          cases hstep
      | failed =>
          simp only [ReserveId.step, hcaller] at hstep
          cases hstep

variable (ext)

omit [DecidableEq ι] in
theorem fresh_start (files : List Name) : Fresh ext files (start ι files) where
  kept name hname := hname
  placed caller := trivial
  distinct caller other id hcaller := by
    cases hcaller

/-- A call takes from a listing the least positive number that no listed file has, as
long as one is left.  And in every interleaving of calls, no two return the same
number, and none returns a number whose file was there: neither before the calls
nor when it creates its own. -/
theorem reserveId_fresh (files : List Name) :
    (∀ names : List Name, (names.filterMap (fileId ext)).toFinset.card < 2 ^ 32 - 1 →
      IsLeast {id | 0 < id ∧ ∀ name ∈ names, fileId ext name ≠ some id} (freeId ext names)) ∧
    ∀ s : State ι, Reachable (step ext) (start ι files) s →
      (∀ caller other id, s.callers caller = .returned id →
        s.callers other = .returned id → caller = other) ∧
      (∀ caller id, s.callers caller = .returned id →
        ∀ name ∈ files, fileId ext name ≠ some id ∧ name ≠ fileName ext id) ∧
      ∀ caller s' id, step ext s (.create caller) = some s' →
        s'.callers caller = .returned id →
          ∀ name ∈ s.files, fileId ext name ≠ some id ∧ name ≠ fileName ext id := by
  refine ⟨fun names => freeId_isLeast ext, fun s hreachable => ?_⟩
  have hfresh : Fresh ext files s := by
    apply hreachable.invariant (fresh_start ext files)
    exact fun s label s' hs hstep => hs.step hstep
  refine ⟨hfresh.distinct, fun caller id hreturned => ?_, fun caller s' id hstep hreturned => ?_⟩
  · have hplaced := hfresh.placed caller
    rw [hreturned] at hplaced
    exact hplaced.2
  · cases hcaller : s.callers caller with
    | chosen chosen =>
        simp only [step, hcaller] at hstep
        split_ifs at hstep with hexists
        · cases hstep
          rw [callers_setCaller] at hreturned
          cases hreturned
        · cases hstep
          rw [callers_setCaller] at hreturned
          cases hreturned
          exact hfresh.noFile hcaller hexists
    | _ =>
        simp only [step, hcaller] at hstep
        cases hstep

/-- Next to "01.pr", "3.pr" and "pr" the first free number is 2; two calls that both
take it end up with 2 and 4. -/
theorem reserveId_fresh_twoCalls :
    let pr : List UInt8 := [0x70, 0x72]
    let files : List Name := [[0x33, 0x2E] ++ pr, pr, [0x30, 0x31, 0x2E] ++ pr]
    IsLeast {id | 0 < id ∧ ∀ name ∈ files, fileId pr name ≠ some id} 2 ∧
      ∃ s, run (step pr) (start (Fin 2) files)
          [.openDir 0, .openDir 1, .closeDir 0 files, .closeDir 1 files, .create 0, .create 1,
            .openDir 1, .closeDir 1 (fileName pr 2 :: files), .create 1] = some s ∧
        s.callers 0 = .returned 2 ∧ s.callers 1 = .returned 4 ∧
        ∀ name ∈ files, fileId pr name ≠ some 4 ∧ name ≠ fileName pr 4 := by
  intro pr files
  have hfree : freeId pr files = 2 := by decide
  have hfresh := @reserveId_fresh pr (Fin 2) _ files
  have hleast := hfresh.1 files (by decide)
  rw [hfree] at hleast
  have hcalls : (run (step pr) (start (Fin 2) files)
      [.openDir 0, .openDir 1, .closeDir 0 files, .closeDir 1 files, .create 0, .create 1,
        .openDir 1, .closeDir 1 (fileName pr 2 :: files), .create 1]).map
          (fun s => (s.callers 0, s.callers 1)) = some (.returned 2, .returned 4) := by
    decide +kernel
  obtain ⟨s, hrun, hcallers⟩ := Option.map_eq_some_iff.mp hcalls
  obtain ⟨hfirst, hsecond⟩ := Prod.mk.inj hcallers
  exact ⟨hleast, s, hrun, hfirst, hsecond,
    (hfresh.2 s (reachable_of_run hrun)).2.1 1 4 hsecond⟩

end Pgr.ReserveId
