import Pgr.Core.Counting
import Pgr.Extension.System

/-!
# Transactions in front of the sync point

What the capture counters mean.  A capture may emit its LSN message once the
transactions that were open when it was published have left.  The counters keep
track of them through any number of starts and stops, but a sync that was
decided for an earlier generation is carried out without looking at the
generation again.  The results here are about runs in which a sync is carried
out while the generation it was decided for is current.
-/

namespace Pgr.SyncPoint

open Pgr.Counting Pgr.Transition Pgr.Shmem Pgr.Hooks Pgr.Worker Pgr.System

/-- The part of a backend that the counters are about. -/
structure View where
  txOpen : Bool
  txGen : UInt32
  isPre : Bool
  sync : Sync
  syncGen : UInt32

def view (b : Backend) : View :=
  ⟨b.txOpen, b.txGen, b.isPre, b.sync, b.syncGen⟩

def View.IsOpen (v : View) : Prop :=
  v.txOpen = true

instance : DecidablePred View.IsOpen := fun v =>
  inferInstanceAs (Decidable (v.txOpen = true))

/-- An open transaction that was not entered under the generation. -/
def View.IsPending (generation : UInt32) (v : View) : Prop :=
  v.txOpen = true ∧ v.txGen ≠ generation

instance (generation : UInt32) : DecidablePred (View.IsPending generation) := fun v =>
  inferInstanceAs (Decidable (v.txOpen = true ∧ v.txGen ≠ generation))

/-- A sync decided for the generation that has not pushed its message. -/
def View.IsUnsent (generation : UInt32) (v : View) : Prop :=
  v.sync ≠ .none ∧ v.sync ≠ .pushed ∧ v.syncGen = generation

instance (generation : UInt32) : DecidablePred (View.IsUnsent generation) := fun v =>
  inferInstanceAs (Decidable (v.sync ≠ .none ∧ v.sync ≠ .pushed ∧ v.syncGen = generation))

/-- The part of shared memory that the counters are about. -/
structure Counters where
  running : Bool
  generation : UInt32
  walReady : Bool
  openXacts : ℕ
  pendingXacts : ℕ

def counters (c : SharedMemory) : Counters :=
  ⟨c.running, c.generation, c.walReady, c.openXacts, c.pendingXacts⟩

theorem counters_of_sameCapture {c c' : SharedMemory} (hsame : SameCapture c c') :
    counters c' = counters c := by
  obtain ⟨_, _, rfl⟩ := hsame
  rfl

/-! ## Hooks outside the lock leave the counters alone -/

@[simp]
theorem view_resetTxBuf (b : Backend) : view b.resetTxBuf = view b := rfl

@[simp]
theorem view_goLiveIfReady (b : Backend) (c : SharedMemory) :
    view (goLiveIfReady b c).1 = view b := by
  rw [goLiveIfReady]
  split_ifs <;> rfl

@[simp]
theorem view_noteStatement (kind : HookKind) (b : Backend) (c : SharedMemory) :
    view (noteStatement kind b c).1 = view b := by
  rw [noteStatement]
  split_ifs <;> rfl

@[simp]
theorem view_noteGeneration (b : Backend) (c : SharedMemory) :
    view (noteGeneration b c).1 = view b := by
  rw [noteGeneration]
  split_ifs <;> rfl

@[simp]
theorem view_noteSession (sessionOk : Bool) (b : Backend) :
    view (noteSession sessionOk b) = view b := by
  rw [noteSession]
  split_ifs <;> rfl

@[simp]
theorem view_markCaptured (b : Backend) : view (markCaptured b) = view b := by
  rw [markCaptured]
  split_ifs <;> rfl

@[simp]
theorem view_txBufAdd (entry : Entry) (b : Backend) : view (txBufAdd entry b) = view b := by
  rw [txBufAdd]
  split_ifs <;> rfl

@[simp]
theorem view_capEnd (kind : HookKind) (body : List UInt8) (b : Backend) :
    view (capEnd kind body b) = view b := by
  rw [capEnd]
  split_ifs
  · rfl
  · exact view_txBufAdd _ _

theorem view_decideSync (decision : Bool × SharedMemory) (b : Backend) :
    view (b.decideSync decision) = if decision.1 then
      { view b with sync := .decided, syncGen := decision.2.generation } else view b := by
  rw [Backend.decideSync]
  split_ifs <;> rfl

@[simp]
theorem view_abandonedGate (sessionOk : Bool) (b : Backend) (c : SharedMemory) :
    view (abandonedGate sessionOk b c).1 = view b := by
  have hcounted : ∀ count : ℕ, view { (noteGeneration b c).1 with
      lastTxStatementCount := count } = view b := fun _ => view_noteGeneration b c
  simp only [abandonedGate, passGate]
  split_ifs
  · rfl
  · rfl
  · exact hcounted _
  · simp [hcounted]

@[simp]
theorem view_captureGate (sessionOk : Bool) (kind : HookKind) (body : List UInt8)
    (b : Backend) (c : SharedMemory) : view (captureGate sessionOk kind body b c).1 = view b := by
  rw [captureGate_fst]
  split_ifs
  · rw [view_capEnd, view_abandonedGate]
  · exact view_abandonedGate sessionOk b c

@[simp]
theorem view_txFinish (b : Backend) (c : SharedMemory) : view (txFinish b c).1 = view b := by
  have hreset : ∀ live : Backend,
      view { (if live.captureLive then live else live.resetTxBuf) with
        txCaptured := false, finishing := false } = view live := fun live => by
    split_ifs <;> rfl
  simp only [txFinish, hreset]
  split_ifs
  · exact view_goLiveIfReady b c
  · rfl

@[simp]
theorem view_pgrExit (b : Backend) (c : SharedMemory) : view (pgrExit b c) = view b := by
  rw [pgrExit]
  split_ifs <;> rfl

/-! ## The invariant -/

section

variable {ι : Type} [Fintype ι]

/-- What a backend and the counters say about each other. -/
structure View.Agrees (c : Counters) (v : View) : Prop where
  sync : v.sync ≠ .none → v.syncGen = c.generation → c.pendingXacts = 0
  isPre : c.running = true → v.IsOpen → (v.isPre = true ↔ v.txGen ≠ c.generation)
  txGen_le : v.txGen ≤ c.generation
  syncGen_le : v.syncGen ≤ c.generation

structure SyncInv (c : Counters) (views : ι → View) (lsnCount : ℕ) : Prop where
  openXacts : c.openXacts = countIf View.IsOpen views
  pendingXacts : c.running = true →
    c.pendingXacts = countIf (View.IsPending c.generation) views
  /-- Of all duties to emit the LSN message, done ones included, there is one. -/
  duties : lsnCount + countIf (View.IsUnsent c.generation) views +
    (if 0 < c.pendingXacts then 1 else 0) ≤ 1
  walReady : c.walReady = true → c.pendingXacts = 0
  agrees : ∀ i, (views i).Agrees c

variable {c : Counters} {views : ι → View} {lsnCount : ℕ} {i : ι}

theorem SyncInv.stop (hinv : SyncInv c views lsnCount) :
    SyncInv { c with running := false } views lsnCount where
  openXacts := hinv.openXacts
  pendingXacts := nofun
  duties := hinv.duties
  walReady := hinv.walReady
  agrees j := ⟨(hinv.agrees j).sync, nofun, (hinv.agrees j).txGen_le, (hinv.agrees j).syncGen_le⟩

variable [DecidableEq ι] {v : View}

omit [Fintype ι] in
theorem agrees_update (hagrees : ∀ j, (views j).Agrees c) (hv : v.Agrees c) (j : ι) :
    (Function.update views i v j).Agrees c := by
  by_cases hj : j = i
  · subst hj
    rwa [Function.update_self]
  · rw [Function.update_of_ne hj]
    exact hagrees j

/-- A backend changes in what the counters are not about. -/
theorem SyncInv.same (hinv : SyncInv c views lsnCount) (hsame : v = views i) :
    SyncInv c (Function.update views i v) lsnCount := by
  rwa [hsame, Function.update_eq_self]

/-- A fresh transaction counts as open and is not pending. -/
theorem SyncInv.enter (hinv : SyncInv c views lsnCount)
    (hclosed : ¬(views i).IsOpen) (hopen : v.IsOpen)
    (hgen : v.txGen = if c.running then c.generation else 0) (hpre : v.isPre = false)
    (hsync : v.sync = (views i).sync) (hsyncGen : v.syncGen = (views i).syncGen) :
    SyncInv { c with openXacts := c.openXacts + 1 } (Function.update views i v) lsnCount := by
  have hcurrent : c.running = true → v.txGen = c.generation := fun hrunning => by
    rw [hgen, if_pos hrunning]
  have hle : v.txGen ≤ c.generation := by
    rw [hgen]
    split_ifs
    · exact UInt32.le_refl _
    · exact UInt32.zero_le
  constructor
  · rw [countIf_update_gain hclosed hopen, hinv.openXacts]
  · intro hrunning
    have hbefore : ¬(views i).IsPending c.generation := fun hpending => hclosed hpending.1
    have hafter : ¬v.IsPending c.generation := fun hpending => hpending.2 (hcurrent hrunning)
    rw [countIf_update_same (iff_of_false hafter hbefore)]
    exact hinv.pendingXacts hrunning
  · rw [countIf_update_same (by rw [View.IsUnsent, View.IsUnsent, hsync, hsyncGen])]
    exact hinv.duties
  · exact hinv.walReady
  · apply agrees_update
    · exact fun j => ⟨(hinv.agrees j).sync, (hinv.agrees j).isPre, (hinv.agrees j).txGen_le,
        (hinv.agrees j).syncGen_le⟩
    · constructor
      · rw [hsync, hsyncGen]
        exact (hinv.agrees i).sync
      · intro hrunning _
        simp [hpre, hcurrent hrunning]
      · exact hle
      · rw [hsyncGen]
        exact (hinv.agrees i).syncGen_le

/-- A transaction leaves that is not waited for. -/
theorem SyncInv.leave (hinv : SyncInv c views lsnCount) (hopen : (views i).IsOpen)
    (hclosed : ¬v.IsOpen) (hgen : v.txGen = (views i).txGen)
    (hcounted : ¬(c.running = true ∧ (views i).txGen ≠ c.generation ∧ 0 < c.pendingXacts))
    (hsync : v.sync = (views i).sync) (hsyncGen : v.syncGen = (views i).syncGen) :
    SyncInv { c with openXacts := c.openXacts - 1 } (Function.update views i v) lsnCount := by
  constructor
  · rw [hinv.openXacts]
    exact Nat.sub_eq_of_eq_add (countIf_update_loss hopen hclosed).symm
  · intro hrunning
    have hbefore : ¬(views i).IsPending c.generation := fun hpending => by
      have hpos := countIf_pos (P := View.IsPending c.generation) hpending
      rw [← hinv.pendingXacts hrunning] at hpos
      exact hcounted ⟨hrunning, hpending.2, hpos⟩
    have hafter : ¬v.IsPending c.generation := fun hpending => hclosed hpending.1
    rw [countIf_update_same (iff_of_false hafter hbefore)]
    exact hinv.pendingXacts hrunning
  · rw [countIf_update_same (by rw [View.IsUnsent, View.IsUnsent, hsync, hsyncGen])]
    exact hinv.duties
  · exact hinv.walReady
  · apply agrees_update
    · exact fun j => ⟨(hinv.agrees j).sync, (hinv.agrees j).isPre, (hinv.agrees j).txGen_le,
        (hinv.agrees j).syncGen_le⟩
    · constructor
      · rw [hsync, hsyncGen]
        exact (hinv.agrees i).sync
      · exact fun _ hstill => absurd hstill hclosed
      · rw [hgen]
        exact (hinv.agrees i).txGen_le
      · rw [hsyncGen]
        exact (hinv.agrees i).syncGen_le

/-- A transaction leaves that is waited for; the last one decides the sync. -/
theorem SyncInv.leavePending (hinv : SyncInv c views lsnCount) (hopen : (views i).IsOpen)
    (hclosed : ¬v.IsOpen) (hgen : v.txGen = (views i).txGen)
    (hrunning : c.running = true) (hold : (views i).txGen ≠ c.generation)
    (hpos : 0 < c.pendingXacts)
    (hdecided : if c.pendingXacts - 1 = 0 then v.sync = .decided ∧ v.syncGen = c.generation
      else v.sync = (views i).sync ∧ v.syncGen = (views i).syncGen) :
    SyncInv { c with openXacts := c.openXacts - 1, pendingXacts := c.pendingXacts - 1 }
      (Function.update views i v) lsnCount := by
  have hunsynced : ∀ j, (views j).sync ≠ .none → (views j).syncGen ≠ c.generation :=
    fun j hsync hsyncGen => hpos.ne' ((hinv.agrees j).sync hsync hsyncGen)
  have hduties := hinv.duties
  rw [if_pos hpos] at hduties
  constructor
  · rw [hinv.openXacts]
    exact Nat.sub_eq_of_eq_add (countIf_update_loss hopen hclosed).symm
  · intro _
    have hafter : ¬v.IsPending c.generation := fun hpending => hclosed hpending.1
    rw [hinv.pendingXacts hrunning]
    exact Nat.sub_eq_of_eq_add
      (countIf_update_loss (P := View.IsPending c.generation) ⟨hopen, hold⟩ hafter).symm
  · have hbefore : ¬(views i).IsUnsent c.generation := fun hunsent =>
      hunsynced i hunsent.1 hunsent.2.2
    by_cases hlast : c.pendingXacts - 1 = 0
    · rw [if_pos hlast] at hdecided
      have hafter : v.IsUnsent c.generation := by
        rw [View.IsUnsent, hdecided.1, hdecided.2]
        exact ⟨nofun, nofun, rfl⟩
      rw [countIf_update_gain hbefore hafter, hlast]
      exact hduties
    · rw [if_neg hlast] at hdecided
      rw [countIf_update_same (by rw [View.IsUnsent, View.IsUnsent, hdecided.1, hdecided.2]),
        if_pos (Nat.pos_of_ne_zero hlast)]
      exact hduties
  · intro hready
    exact absurd (hinv.walReady hready) hpos.ne'
  · apply agrees_update
    · exact fun j => ⟨fun hsync hsyncGen => absurd hsyncGen (hunsynced j hsync),
        (hinv.agrees j).isPre, (hinv.agrees j).txGen_le, (hinv.agrees j).syncGen_le⟩
    · constructor
      · intro hsync hsyncGen
        by_contra hmore
        rw [if_neg hmore] at hdecided
        rw [hdecided.1] at hsync
        rw [hdecided.2] at hsyncGen
        exact hunsynced i hsync hsyncGen
      · exact fun _ hstill => absurd hstill hclosed
      · rw [hgen]
        exact (hinv.agrees i).txGen_le
      · split_ifs at hdecided
        · rw [hdecided.2]
          exact UInt32.le_refl _
        · rw [hdecided.2]
          exact (hinv.agrees i).syncGen_le

/-- A publication makes every open transaction pending. -/
theorem SyncInv.publish {published : ι → View} (hinv : SyncInv c views lsnCount)
    (hgeneration : c.generation ≠ 4294967295)
    (hopen : ∀ j, (published j).txOpen = (views j).txOpen)
    (hgen : ∀ j, (published j).txGen = (views j).txGen)
    (hpre : ∀ j, (published j).isPre = true)
    (hstarter : if c.openXacts = 0 then
      (published i).sync = .decided ∧ (published i).syncGen = c.generation + 1
      else (published i).sync = (views i).sync ∧ (published i).syncGen = (views i).syncGen)
    (hother : ∀ j, j ≠ i → (published j).sync = (views j).sync ∧
      (published j).syncGen = (views j).syncGen) :
    SyncInv ⟨true, c.generation + 1, false, c.openXacts, c.openXacts⟩ published 0 := by
  have hle : ∀ gen, gen ≤ c.generation → gen ≤ c.generation + 1 := by
    intro gen hgen
    grind
  have hne : ∀ gen, gen ≤ c.generation → gen ≠ c.generation + 1 := by
    intro gen hgen
    grind
  have hopenIff : ∀ j, (published j).IsOpen ↔ (views j).IsOpen := fun j => by
    rw [View.IsOpen, View.IsOpen, hopen j]
  have hpreGen : ∀ j, (published j).txGen ≠ c.generation + 1 := fun j => by
    rw [hgen j]
    exact hne _ (hinv.agrees j).txGen_le
  have hstale : ∀ j, j ≠ i → (published j).syncGen ≠ c.generation + 1 := fun j hj => by
    rw [(hother j hj).2]
    exact hne _ (hinv.agrees j).syncGen_le
  constructor
  · exact hinv.openXacts.trans (countIf_congr hopenIff).symm
  · intro _
    apply hinv.openXacts.trans
    apply countIf_congr
    exact fun j => ⟨fun hj => ⟨(hopenIff j).mpr hj, hpreGen j⟩, fun hj => (hopenIff j).mp hj.1⟩
  · rw [Nat.zero_add]
    by_cases hzero : c.openXacts = 0
    · rw [hzero]
      exact countIf_le_one fun j hj hunsent => hstale j hj hunsent.2.2
    · rw [if_neg hzero] at hstarter
      have hnone : countIf (View.IsUnsent (c.generation + 1)) published = 0 := by
        rw [countIf_eq_zero_iff]
        intro j hunsent
        by_cases hj : j = i
        · subst hj
          have hgeneration := hunsent.2.2
          rw [hstarter.2] at hgeneration
          exact hne _ (hinv.agrees j).syncGen_le hgeneration
        · exact hstale j hj hunsent.2.2
      rw [hnone]
      split_ifs <;> omega
  · nofun
  · intro j
    constructor
    · intro _ hsyncGen
      by_contra hmore
      rw [if_neg hmore] at hstarter
      by_cases hj : j = i
      · subst hj
        rw [hstarter.2] at hsyncGen
        exact hne _ (hinv.agrees j).syncGen_le hsyncGen
      · exact hstale j hj hsyncGen
    · exact fun _ _ => iff_of_true (hpre j) (hpreGen j)
    · rw [hgen j]
      exact hle _ (hinv.agrees j).txGen_le
    · by_cases hj : j = i
      · subst hj
        split_ifs at hstarter
        · rw [hstarter.2]
          exact UInt32.le_refl _
        · rw [hstarter.2]
          exact hle _ (hinv.agrees j).syncGen_le
      · rw [(hother j hj).2]
        exact hle _ (hinv.agrees j).syncGen_le

/-- A sync goes on; only the duty to emit the message can change. -/
theorem SyncInv.syncStep {lsnCount' : ℕ} (hinv : SyncInv c views lsnCount)
    (hactive : (views i).sync ≠ .none) (hopen : v.txOpen = (views i).txOpen)
    (hgen : v.txGen = (views i).txGen) (hpre : v.isPre = (views i).isPre)
    (hsyncGen : v.syncGen = (views i).syncGen)
    (hduties : lsnCount' + countIf (View.IsUnsent c.generation) (Function.update views i v) =
      lsnCount + countIf (View.IsUnsent c.generation) views) :
    SyncInv c (Function.update views i v) lsnCount' := by
  constructor
  · rw [countIf_update_same (by rw [View.IsOpen, View.IsOpen, hopen])]
    exact hinv.openXacts
  · rw [countIf_update_same (by rw [View.IsPending, View.IsPending, hopen, hgen])]
    exact hinv.pendingXacts
  · rw [hduties]
    exact hinv.duties
  · exact hinv.walReady
  · apply agrees_update hinv.agrees
    constructor
    · rw [hsyncGen]
      exact fun _ hcurrent => (hinv.agrees i).sync hactive hcurrent
    · rw [View.IsOpen, hopen, hgen, hpre]
      exact (hinv.agrees i).isPre
    · rw [hgen]
      exact (hinv.agrees i).txGen_le
    · rw [hsyncGen]
      exact (hinv.agrees i).syncGen_le

/-- A sync reads the insert position. -/
theorem SyncInv.readInsertPtr {insertPtr : ℕ} (hinv : SyncInv c views lsnCount)
    (hdecided : (views i).sync = .decided) :
    SyncInv c (Function.update views i { views i with sync := .read insertPtr }) lsnCount := by
  refine hinv.syncStep (by simp [hdecided]) rfl rfl rfl rfl ?_
  rw [countIf_update_same (by simp [View.IsUnsent, hdecided])]

/-- The sync of the current generation pushes its message. -/
theorem SyncInv.pushLsn {insertPtr : ℕ} (hinv : SyncInv c views lsnCount)
    (hread : (views i).sync = .read insertPtr) (hcurrent : (views i).syncGen = c.generation) :
    SyncInv c (Function.update views i { views i with sync := .pushed }) (lsnCount + 1) := by
  have hbefore : (views i).IsUnsent c.generation := ⟨by simp [hread], by simp [hread], hcurrent⟩
  have hafter : ¬View.IsUnsent c.generation { views i with sync := .pushed } := fun hunsent =>
    hunsent.2.1 rfl
  refine hinv.syncStep (by simp [hread]) rfl rfl rfl rfl ?_
  rw [← countIf_update_loss hbefore hafter]
  ring

/-- The sync of the current generation lets the backends go live. -/
theorem SyncInv.setWalReady (hinv : SyncInv c views lsnCount)
    (hpushed : (views i).sync = .pushed) (hcurrent : (views i).syncGen = c.generation) :
    SyncInv { c with walReady := true }
      (Function.update views i { views i with sync := .none }) lsnCount := by
  have hdone : SyncInv c (Function.update views i { views i with sync := .none }) lsnCount := by
    refine hinv.syncStep (by simp [hpushed]) rfl rfl rfl rfl ?_
    rw [countIf_update_same (by simp [View.IsUnsent, hpushed])]
  constructor
  · exact hdone.openXacts
  · exact hdone.pendingXacts
  · exact hdone.duties
  · exact fun _ => (hinv.agrees i).sync (by simp [hpushed]) hcurrent
  · exact fun j => ⟨(hdone.agrees j).sync, (hdone.agrees j).isPre, (hdone.agrees j).txGen_le,
      (hdone.agrees j).syncGen_le⟩

/-- A new backend takes the place of one that has ended. -/
theorem SyncInv.connect (hinv : SyncInv c views lsnCount) (hbefore : ¬(views i).IsOpen)
    (hnone : (views i).sync = .none) (hv : v = ⟨false, 0, false, .none, 0⟩) :
    SyncInv c (Function.update views i v) lsnCount := by
  subst hv
  have hafter : ¬View.IsOpen ⟨false, 0, false, .none, 0⟩ := nofun
  constructor
  · rw [countIf_update_same (iff_of_false hafter hbefore)]
    exact hinv.openXacts
  · rw [countIf_update_same
      (iff_of_false (fun hpending => hafter hpending.1) fun hpending => hbefore hpending.1)]
    exact hinv.pendingXacts
  · rw [countIf_update_same (by simp [View.IsUnsent, hnone])]
    exact hinv.duties
  · exact hinv.walReady
  · apply agrees_update hinv.agrees
    exact ⟨fun hsync => absurd rfl hsync, fun _ hopen => absurd hopen hafter, UInt32.zero_le,
      UInt32.zero_le⟩

end

/-! ## Runs -/

section

variable {ι : Type} [Fintype ι] [DecidableEq ι]

/-- A capture is not started for the 2^32nd time, and a sync is carried out
while the generation it was decided for is the current one. -/
def CurrentSync (s : State ι) : Label ι → Prop
  | .start _ _ => s.shmem.generation ≠ 4294967295
  | .pushLsn i | .setWalReady i => (s.backends i).syncGen = s.shmem.generation
  | _ => True

instance (s : State ι) : DecidablePred (CurrentSync s)
  | .start _ _ => inferInstanceAs (Decidable (s.shmem.generation ≠ 4294967295))
  | .pushLsn i | .setWalReady i =>
      inferInstanceAs (Decidable ((s.backends i).syncGen = s.shmem.generation))
  | .stop _ | .hook .. | .gate .. | .abandon .. | .push _ | .insertCommit .. | .insertRecord _
  | .leave _ | .finish _ | .readInsertPtr _ | .exit _ | .connect .. | .workerTop | .workerPop
  | .workerCheck | .workerOpen | .workerDone _ | .workerTryExit | .workerShutdown
  | .workerSpawn => isTrue trivial

/-- The invariant of a state of the system. -/
def Inv (s : State ι) : Prop :=
  SyncInv (counters s.shmem) (fun i => view (s.backends i)) s.lsnCount

omit [Fintype ι] in
theorem view_update (s : State ι) (i : ι) (b : Backend) :
    (fun j => view (Function.update s.backends i b j)) =
      Function.update (fun j => view (s.backends j)) i (view b) := by
  funext j
  exact Function.apply_update (fun _ => view) s.backends i b j

omit [DecidableEq ι] in
theorem inv_init (isPsql : ι → Bool) : Inv (State.init isPsql) := by
  have hnone : countIf View.IsOpen (fun i => view ((State.init isPsql).backends i)) = 0 :=
    countIf_eq_zero_iff.mpr fun _ => nofun
  have hunsent : countIf (View.IsUnsent 0) (fun i => view ((State.init isPsql).backends i)) = 0 :=
    countIf_eq_zero_iff.mpr fun _ hunsent => hunsent.1 rfl
  constructor
  · exact hnone.symm
  · nofun
  · show 0 + countIf (View.IsUnsent 0) _ + 0 ≤ 1
    rw [hunsent]
    decide
  · nofun
  · exact fun i => ⟨fun hsync => absurd rfl hsync, nofun, UInt32.le_refl _, UInt32.le_refl _⟩

/-- A step that changes neither the counters nor what they are about. -/
theorem Inv.same {s s' : State ι} {i : ι} {b : Backend} (hinv : Inv s)
    (hbackends : s'.backends = Function.update s.backends i b)
    (hview : view b = view (s.backends i)) (hshmem : SameCapture s.shmem s'.shmem)
    (hcount : s'.lsnCount = s.lsnCount) : Inv s' := by
  rw [Inv, counters_of_sameCapture hshmem, hcount, hbackends, view_update]
  exact SyncInv.same hinv hview

theorem inv_start {s : State ι} {i : ι} {id : UInt32} (hinv : Inv s)
    (hgeneration : s.shmem.generation ≠ 4294967295) : Inv (start s i id) := by
  have hother : ∀ j, j ≠ i → view ((start s i id).backends j) = view (s.backends j).markPre := by
    intro j hj
    rw [start_backends, Function.update_of_ne hj]
  have hstarter : view ((start s i id).backends i) = if s.shmem.openXacts = 0 then
      { view (s.backends i).markPre with
        sync := .decided, syncGen := s.shmem.generation + 1 }
      else view (s.backends i).markPre := by
    rw [start_backends, Function.update_self, view_decideSync]
    simp [captureStart, channelPublish]
  have hfields : ∀ j, (view ((start s i id).backends j)).txOpen = (s.backends j).txOpen ∧
      (view ((start s i id).backends j)).txGen = (s.backends j).txGen ∧
      (view ((start s i id).backends j)).isPre = true := fun j => by
    by_cases hj : j = i
    · subst hj
      rw [hstarter]
      split_ifs <;> exact ⟨rfl, rfl, rfl⟩
    · rw [hother j hj]
      exact ⟨rfl, rfl, rfl⟩
  refine SyncInv.publish hinv hgeneration (fun j => (hfields j).1) (fun j => (hfields j).2.1)
    (fun j => (hfields j).2.2) (i := i) ?_ fun j hj => ?_
  · simp only [hstarter]
    by_cases hzero : s.shmem.openXacts = 0
    · rw [if_pos hzero]
      exact (if_pos hzero).mpr ⟨rfl, rfl⟩
    · rw [if_neg hzero]
      exact (if_neg hzero).mpr ⟨rfl, rfl⟩
  · simp only [hother j hj]
    exact ⟨rfl, rfl⟩

theorem inv_enter {s : State ι} {i : ι} {b : Backend} {c : SharedMemory} {xact : ℕ}
    (hinv : Inv s) (hclosed : b.txOpen = false) (hb : view b = view (s.backends i))
    (hc : counters c = counters s.shmem) :
    SyncInv (counters (enterXact xact b c).2)
      (Function.update (fun j => view (s.backends j)) i (view (enterXact xact b c).1))
      s.lsnCount := by
  have hentered : view (enterXact xact b c).1 =
      ⟨true, if c.running then c.generation else 0, false, b.sync, b.syncGen⟩ := by
    simp only [enterXact, xactEnterShared]
    split_ifs <;> rfl
  have hcounted : counters (enterXact xact b c).2 =
      { counters c with openXacts := (counters c).openXacts + 1 } := rfl
  have hgen : (if c.running then c.generation else 0) =
      if (counters s.shmem).running then (counters s.shmem).generation else 0 := by
    rw [← hc]
    rfl
  rw [hentered, hcounted, hc]
  apply SyncInv.enter hinv
  · rw [← hb, View.IsOpen]
    simp [view, hclosed]
  · rfl
  · exact hgen
  · rfl
  · show (view b).sync = _
    rw [hb]
  · show (view b).syncGen = _
    rw [hb]

theorem inv_hook {s : State ι} {i : ι} {kind : HookKind} {body : List UInt8}
    {inTransaction : Bool} (hinv : Inv s) : Inv (hook s i kind body inTransaction) := by
  have hview := view_noteStatement kind (s.backends i) s.shmem
  have hsame := sameCapture_noteStatement kind (s.backends i) s.shmem
  simp only [hook]
  split_ifs with henter
  · rw [Inv, State.setBackend, view_update]
    exact inv_enter hinv henter.1 hview (counters_of_sameCapture hsame)
  · exact hinv.same rfl hview hsame rfl

theorem inv_leave {s : State ι} {i : ι} (hinv : Inv s) (hopen : (s.backends i).txOpen = true) :
    Inv (leave s i) := by
  have hleft : xactLeaveShared (s.backends i).txGen s.shmem = if s.shmem.running ∧
      (s.backends i).txGen ≠ s.shmem.generation ∧ 0 < s.shmem.pendingXacts then
      (decide (s.shmem.pendingXacts - 1 = 0), { s.shmem with
        openXacts := s.shmem.openXacts - 1, pendingXacts := s.shmem.pendingXacts - 1 })
      else (false, { s.shmem with openXacts := s.shmem.openXacts - 1 }) := rfl
  have hclosed : ∀ v : View, v.txOpen = false → ¬v.IsOpen := fun v hv => by
    simp [View.IsOpen, hv]
  simp only [Inv, leave, State.setBackend, view_update, view_decideSync]
  rw [hleft]
  by_cases hcounted : s.shmem.running = true ∧ (s.backends i).txGen ≠ s.shmem.generation ∧
      0 < s.shmem.pendingXacts
  · rw [if_pos hcounted]
    refine SyncInv.leavePending hinv hopen (hclosed _ ?_) ?_ hcounted.1 hcounted.2.1
      hcounted.2.2 ?_
    · split_ifs <;> rfl
    · split_ifs <;> rfl
    · by_cases hlast : s.shmem.pendingXacts - 1 = 0
      · simp [hlast, counters]
      · simp [hlast, counters, view]
  · rw [if_neg hcounted]
    exact SyncInv.leave hinv hopen (hclosed _ rfl) rfl hcounted rfl rfl

theorem inv_step (s : State ι) (l : Label ι) (s' : State ι) (hinv : Inv s)
    (hcurrent : CurrentSync s l) (hstep : step s l = some s') : Inv s' := by
  cases stepped_of_step hstep with
  | start hidle hid => exact inv_start hinv hcurrent
  | stop hidle => exact SyncInv.stop hinv
  | hook hidle hpsql hptr => exact inv_hook hinv
  | gate hgating =>
      exact hinv.same rfl (view_captureGate ..) (sameCapture_captureGate ..) rfl
  | abandon hbind hpasses =>
      exact hinv.same rfl (view_abandonedGate ..) (sameCapture_abandonedGate ..) rfl
  | push hout => exact hinv.same rfl rfl (SameCapture.refl _) rfl
  | insertCommit hidle hopen hptr => exact hinv.same rfl rfl (SameCapture.refl _) rfl
  | insertRecord => exact hinv
  | leave hidle hopen => exact inv_leave hinv hopen
  | finish hfinishing => exact hinv.same rfl (view_txFinish ..) (sameCapture_txFinish ..) rfl
  | readInsertPtr hdecided hfinishing hout =>
      rw [Inv, State.setBackend, view_update]
      exact SyncInv.readInsertPtr hinv hdecided
  | pushLsn hread =>
      rw [Inv, channelPush, State.setBackend, view_update]
      exact SyncInv.pushLsn hinv hread hcurrent
  | setWalReady hpushed =>
      rw [Inv, State.setBackend, view_update]
      exact SyncInv.setWalReady hinv hpushed hcurrent
  | exit hidle hclosed => exact hinv.same rfl (view_pgrExit _ _) (SameCapture.refl _) rfl
  | connect hgone =>
      rw [Inv, State.setBackend, view_update]
      simp only [Backend.isGone, decide_eq_true_eq] at hgone
      exact SyncInv.connect hinv (by simp [View.IsOpen, view, hgone]) (by simp [view, hgone]) rfl
  | workerTop | workerWrite | workerHold | workerDiscard | workerRunning | workerStopped
  | workerOpen | workerDone | workerTryExit | workerShutdown | workerSpawn => exact hinv

/-- What the counters are meant to say in every state of the server. -/
structure CountersMeaning (s : State ι) : Prop where
  openXacts : s.shmem.openXacts =
    (Finset.univ.filter fun i => (s.backends i).txOpen = true).card
  /-- A transaction that leaves finds itself counted. -/
  counted : ∀ i, (s.backends i).txOpen = true → 0 < s.shmem.openXacts
  pendingXacts : s.shmem.running = true → s.shmem.pendingXacts =
    (Finset.univ.filter fun i => (s.backends i).txOpen = true ∧
      (s.backends i).txGen ≠ s.shmem.generation).card
  /-- One LSN message for a generation. -/
  lsnCount : s.lsnCount ≤ 1
  /-- Once live capturing is allowed, what the publication found open has left. -/
  left : s.shmem.running = true → s.shmem.walReady = true → ∀ i,
    (s.backends i).txOpen = true → (s.backends i).isPre = false

omit [DecidableEq ι] in
theorem Inv.countersMeaning {s : State ι} (hinv : Inv s) : CountersMeaning s := by
  have hopen := hinv.openXacts
  constructor
  · exact hopen
  · intro i hi
    have hpos : 0 < countIf View.IsOpen fun j => view (s.backends j) := countIf_pos (i := i) hi
    rwa [← hopen] at hpos
  · exact hinv.pendingXacts
  · exact (Nat.le_add_right _ _).trans ((Nat.le_add_right _ _).trans hinv.duties)
  · intro hrunning hready i hi
    have hzero := (hinv.pendingXacts hrunning).symm.trans (hinv.walReady hready)
    have hnotPending := countIf_eq_zero_iff.mp hzero i
    have hcurrent : (s.backends i).txGen = s.shmem.generation := by
      by_contra hold
      exact hnotPending ⟨hi, hold⟩
    have hiff := (hinv.agrees i).isPre hrunning hi
    by_contra hpre
    exact hiff.mp (Bool.not_eq_false _ ▸ hpre) hcurrent

/-- If every sync is carried out for the current generation, the counters mean
what they should in every state reached. -/
theorem countersMeaning_of_reaches (isPsql : ι → Bool) {s : State ι}
    (hreaches : Reaches step CurrentSync (State.init isPsql) s) : CountersMeaning s :=
  (hreaches.invariant (inv_init isPsql) inv_step).countersMeaning

end

/-- A transaction is open at the first start, and the last to leave emits the LSN. -/
def awaitedSync : List (Label (Fin 2)) :=
  [.hook 1 .simpleQuery [] true, .gate 1 true, .start 0 1, .leave 1, .finish 1,
    .readInsertPtr 1, .pushLsn 1, .setWalReady 1]

theorem countersMeaning_awaitedSync : ∃ s : State (Fin 2),
    runWhile step CurrentSync (State.init fun i => i = 0) awaitedSync = some s ∧
      s.shmem.walReady = true ∧ CountersMeaning s := by
  have hready : (runWhile step CurrentSync (State.init fun i => i = 0) awaitedSync).map
      (fun s => s.shmem.walReady) = some true := by decide +kernel
  obtain ⟨s, hrun, hs⟩ := Option.map_eq_some_iff.mp hready
  exact ⟨s, hrun, hs, countersMeaning_of_reaches _ (reaches_of_runWhile hrun)⟩

/-- The starter carries out its sync after a second start, for which a transaction
is waited for. -/
def staleSync : List (Label (Fin 3)) :=
  [.start 0 1, .hook 2 .simpleQuery [] true, .gate 2 true, .start 1 2, .readInsertPtr 0,
    .pushLsn 0, .setWalReady 0]

/-- The capture is live in front of the awaited transaction, whose end then emits
a second LSN. -/
theorem not_countersMeaning_staleSync : ∃ s s' : State (Fin 3),
    run step (State.init fun i => i ≠ 2) staleSync = some s ∧ ¬CountersMeaning s ∧
      run step s [.leave 2, .finish 2, .readInsertPtr 2, .pushLsn 2] = some s' ∧
        s'.lsnCount = 2 := by
  refine ⟨_, _, rfl, fun hmeaning => ?_, rfl, rfl⟩
  have hleft := hmeaning.left rfl rfl 2 rfl
  nomatch hleft

end Pgr.SyncPoint
