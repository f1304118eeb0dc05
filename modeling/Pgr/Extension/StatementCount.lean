import Pgr.Extension.OneBackend

/-!
# The statements counter

What a backend adds to `stats.statements` against the statements it pushes to
the capture channel.  While `CaptureLive` is set a message is counted in front
of the gate; otherwise it is counted with its transaction when the backend goes
live.  The flag outlives its capture, so a message can be counted that the gate
then holds back, and a Bind can be counted that is abandoned behind the gate.
-/

namespace Pgr.StatementCount

open Pgr.Shmem Pgr.Hooks Pgr.OneBackend Pgr.Transition

def isStatement (entry : Entry) : Bool :=
  match entry.msg with
  | .hooked .. => true
  | .lsn _ | .connect _ | .disconnect => false

/-- Everything the backend has pushed. -/
def pushed (s : State) : List Entry :=
  s.archive ++ s.backend.out

/-- No message of the transaction has been dropped for its size when the next one
passes the gate or the transaction ends. -/
def NothingDropped (s : State) : Label → Prop
  | .gate _ | .finish => s.backend.txBufOverflow = false
  | _ => True

/-- A backend with `CaptureLive` set is at the gate only while the capture runs
that it went live in, and in a transaction of that capture if it is in one. -/
def LiveIsCurrent (s : State) : Label → Prop
  | .gate _ | .abandon _ => s.backend.captureLive = true →
      Passes s.backend s.shmem ∧ s.backend.myCaptureGen = s.shmem.generation
  | _ => True

instance (s : State) : DecidablePred (NothingDropped s)
  | .gate _ | .finish => inferInstanceAs (Decidable (s.backend.txBufOverflow = false))
  | .start _ | .stop | .setWalReady | .others .. | .hook .. | .abandon _ | .leave =>
      .isTrue trivial

instance (s : State) : DecidablePred (LiveIsCurrent s)
  | .gate _ | .abandon _ => inferInstanceAs (Decidable (s.backend.captureLive = true →
      Passes s.backend s.shmem ∧ s.backend.myCaptureGen = s.shmem.generation))
  | .start _ | .stop | .setWalReady | .others .. | .hook .. | .leave | .finish => .isTrue trivial

def CountCond (s : State) (l : Label) : Prop :=
  NothingDropped s l ∧ LiveIsCurrent s l ∧ AbandonedDropped s l

instance (s : State) (l : Label) : Decidable (CountCond s l) :=
  inferInstanceAs (Decidable (_ ∧ _ ∧ _))

/-- The message at the gate has been counted. -/
def atGate (b : Backend) : ℕ :=
  if b.gating ≠ none ∧ b.captureLive = true then 1 else 0

structure CountInv (s : State) : Prop where
  total : s.shmem.statements = UInt64.ofNat ((pushed s).countP isStatement + atGate s.backend)
  buffered : s.backend.captureLive = false →
    s.backend.txOpen = true ∨ s.backend.finishing = true →
    s.backend.txBufOverflow = false → s.abandoned = false →
    s.backend.lastTxStatementCount = s.backend.txBuf.countP isStatement
  gating : s.backend.gating ≠ none → s.backend.finishing = false

theorem atGate_of_none {b : Backend} (hgating : b.gating = none) : atGate b = 0 := by
  simp [atGate, hgating]

theorem atGate_of_some {b : Backend} {m : HookKind × List UInt8} (hgating : b.gating = some m) :
    atGate b = if b.captureLive then 1 else 0 := by
  simp [atGate, hgating]

theorem isStatement_entry (b : Backend) (kind : HookKind) (body : List UInt8) (xact : Option ℕ) :
    isStatement (b.entry (.hooked kind body) xact) = true := rfl

theorem countInv_init : CountInv State.init where
  total := rfl
  buffered := fun _ _ _ _ => rfl
  gating := fun _ => rfl

/-- A step that leaves the backend's accounts alone. -/
theorem CountInv.congr {s s' : State} (hinv : CountInv s) (hpushed : pushed s' = pushed s)
    (hstatements : s'.shmem.statements = s.shmem.statements)
    (hlive : s'.backend.captureLive = s.backend.captureLive)
    (hgating : s'.backend.gating = s.backend.gating)
    (hactive : s'.backend.txOpen = true ∨ s'.backend.finishing = true →
      s.backend.txOpen = true ∨ s.backend.finishing = true)
    (hfinishing : s'.backend.gating ≠ none → s'.backend.finishing = false)
    (hbuffer : s'.backend.txBuf = s.backend.txBuf)
    (hoverflow : s'.backend.txBufOverflow = s.backend.txBufOverflow)
    (hcount : s'.backend.lastTxStatementCount = s.backend.lastTxStatementCount)
    (habandoned : s'.abandoned = s.abandoned) : CountInv s' where
  total := by
    rw [hstatements, hpushed, atGate, hgating, hlive]
    exact hinv.total
  buffered := by
    rw [hlive, hoverflow, hcount, hbuffer, habandoned]
    exact fun hnot hat => hinv.buffered hnot (hactive hat)
  gating := hfinishing

/-- With nothing at the gate the statements are those pushed. -/
theorem CountInv.of_ungated {s : State} (hgating : s.backend.gating = none)
    (htotal : s.shmem.statements =
      UInt64.ofNat (s.archive.countP isStatement + s.backend.out.countP isStatement))
    (hbuffered : s.backend.captureLive = false →
      s.backend.txOpen = true ∨ s.backend.finishing = true →
      s.backend.txBufOverflow = false → s.abandoned = false →
      s.backend.lastTxStatementCount = s.backend.txBuf.countP isStatement) :
    CountInv s where
  total := by rw [atGate_of_none hgating, pushed, List.countP_append, htotal, add_zero]
  buffered := hbuffered
  gating := fun hnone => absurd hgating hnone

theorem start_countInv {s : State} (hinv : CountInv s) (id : UInt32) :
    CountInv (start s id) := by
  have hpushed : pushed (start s id) = pushed s := by
    simp [pushed, start, Backend.markPre]
  exact hinv.congr hpushed rfl rfl rfl (fun hactive => hactive) hinv.gating rfl rfl rfl rfl

theorem hook_countInv {s : State} (hinv : CountInv s) (hgating : s.backend.gating = none)
    (hfinishing : s.backend.finishing = false) (kind : HookKind) (body : List UInt8)
    (inTransaction : Bool) : CountInv (hook s kind body inTransaction) := by
  have hcounted : (noteStatement kind s.backend s.shmem).2.statements =
      UInt64.ofNat ((pushed s).countP isStatement + if s.backend.captureLive then 1 else 0) := by
    have htotal := hinv.total
    rw [atGate_of_none hgating] at htotal
    rw [noteStatement_shmem]
    split_ifs with hlive
    · rw [UInt64.ofNat_add]
      exact congrArg (· + UInt64.ofNat 1) htotal
    · exact htotal
  by_cases henters : s.backend.txOpen = false ∧ inTransaction = true
  · obtain ⟨statementIndex, txBuf, txBufOverflow, count, hhook, hreset⟩ :=
      hook_enters kind body henters
    rw [hhook]
    refine ⟨?_, fun hlive _ _ _ => ?_, fun _ => hfinishing⟩
    · rw [atGate_of_some rfl]
      exact hcounted
    · obtain ⟨rfl, -, rfl⟩ := hreset hlive
      rfl
  · obtain ⟨statementIndex, hhook⟩ := hook_same kind body henters
    rw [hhook]
    refine ⟨?_, hinv.buffered, fun _ => hfinishing⟩
    rw [atGate_of_some rfl]
    exact hcounted

/-- The account of the buffer behind the generation check of the gate, for a buffer that is
whole if it is of the generation. -/
theorem noteGeneration_countInv {b : Backend} {c : SharedMemory} {noted : Backend × SharedMemory}
    (hnoted : noteGeneration b c = noted) (hlive : b.captureLive = true →
      b.myCaptureGen = c.generation) (hoverflow : b.txBufOverflow = false) {whole : Prop}
    (hbuffered : b.captureLive = false → b.txOpen = true → whole →
      b.lastTxStatementCount = b.txBuf.countP isStatement) :
    noted.1.captureLive = b.captureLive ∧ noted.1.txOpen = b.txOpen ∧
      noted.1.gating = b.gating ∧ noted.1.finishing = b.finishing ∧
      noted.1.out = b.out ∧ noted.2.statements = c.statements ∧
      noted.2.walReady = c.walReady ∧ noted.1.txBufOverflow = false ∧
      (noted.1.captureLive = false → noted.1.txOpen = true →
        (b.myCaptureGen = c.generation → whole) →
        noted.1.lastTxStatementCount = noted.1.txBuf.countP isStatement) := by
  by_cases hgen : b.myCaptureGen = c.generation
  · rw [noteGeneration_of_eq hgen] at hnoted
    subst hnoted
    exact ⟨rfl, rfl, rfl, rfl, rfl, rfl, rfl, hoverflow, fun hdead hopen hwhole =>
      hbuffered hdead hopen (hwhole hgen)⟩
  · have hdead : b.captureLive = false := by
      by_contra hnot
      exact hgen (hlive (by simpa using hnot))
    obtain ⟨sessionName, skipSnap, hfresh⟩ := noteGeneration_of_ne hgen
    rw [hfresh] at hnoted
    subst hnoted
    exact ⟨hdead.symm, rfl, rfl, rfl, rfl, rfl, rfl, rfl, fun _ _ _ => rfl⟩

/-- Going live pushes what it counts, and one more message if it is in the gate. -/
theorem bulk_total {b : Backend} {c : SharedMemory} {archive last : List Entry}
    (session : String) {more : ℕ}
    (htotal : c.statements =
      UInt64.ofNat (archive.countP isStatement + b.out.countP isStatement))
    (hbuffer : b.lastTxStatementCount = b.txBuf.countP isStatement)
    (hoverflow : b.txBufOverflow = false) (hlast : last.countP isStatement = more) :
    (statsAddStatements (b.lastTxStatementCount + more) c).statements =
      UInt64.ofNat (archive.countP isStatement +
        (b.out ++ b.entry (.connect session) none ::
          (if b.txBufOverflow then [] else b.txBuf) ++ last).countP isStatement) := by
  have hconnect : isStatement (b.entry (.connect session) none) = false := rfl
  simp only [statsAddStatements, hoverflow, Bool.false_eq_true, if_false, List.countP_append,
    List.countP_cons, hconnect, hlast, htotal, hbuffer]
  rw [← UInt64.ofNat_add]
  congr 1
  omega

theorem gate_countInv {s : State} {kind : HookKind} {body : List UInt8} (hinv : CountInv s)
    (hgating : s.backend.gating = some (kind, body)) (sessionOk : Bool)
    (hdropped : s.backend.txBufOverflow = false)
    (hcurrent : s.backend.captureLive = true →
      Passes s.backend s.shmem ∧ s.backend.myCaptureGen = s.shmem.generation)
    (habandoned : AbandonedDropped s (.gate sessionOk)) :
    CountInv (gate s sessionOk kind body) := by
  have htotal := hinv.total
  rw [atGate_of_some hgating, pushed, List.countP_append] at htotal
  have hfinishing : s.backend.finishing = false := hinv.gating (by simp [hgating])
  have hbuffered : s.backend.captureLive = false → s.backend.txOpen = true →
      s.abandoned = false → s.backend.lastTxStatementCount = s.backend.txBuf.countP isStatement :=
    fun hlive hopen => hinv.buffered hlive (.inl hopen) hdropped
  by_cases hpasses : Passes (ungated s.backend) s.shmem
  · obtain ⟨noted, hnoted⟩ : ∃ noted,
        noteGeneration (ungated s.backend) s.shmem = noted := ⟨_, rfl⟩
    obtain ⟨hsameLive, hsameOpen, hsameGating, hsameFinishing, hsameOut, hsameStatements,
      hsameReady, hsameOverflow, hsameBuffered⟩ := noteGeneration_countInv hnoted
        (fun hlive => (hcurrent hlive).2) hdropped hbuffered
    have hsameLive : noted.1.captureLive = s.backend.captureLive := hsameLive
    have hsameOut : noted.1.out = s.backend.out := hsameOut
    rw [← hsameLive, ← hsameOut, ← hsameStatements] at htotal
    cases hlive : noted.1.captureLive with
    | true =>
        obtain ⟨txCaptured, xactMessages, hgate⟩ := captureGate_live sessionOk kind body
          hpasses hnoted hlive
        rw [gate, hgate]
        apply CountInv.of_ungated hsameGating
        · simp only [List.countP_append, List.countP_singleton, isStatement_entry, if_true]
          rw [htotal, if_pos hlive, add_assoc]
        · intro hdead
          simp [hlive] at hdead
    | false =>
        rw [hlive, if_neg Bool.false_ne_true, add_zero] at htotal
        cases hopen : noted.1.txOpen with
        | false =>
            rw [gate, captureGate_outside _ _ _ hpasses hnoted hlive hopen]
            apply CountInv.of_ungated hsameGating htotal
            rintro _ (hactive | hactive)
            · simp [hopen] at hactive
            · simp [hsameFinishing, ungated, hfinishing] at hactive
        | true =>
            cases hready : noted.2.walReady with
            | true =>
                have hbuffer := hsameBuffered hlive hopen fun hknown =>
                  habandoned (hsameLive.symm.trans hlive) (hsameOpen.symm.trans hopen) hpasses
                    hknown (hsameReady.symm.trans hready)
                obtain ⟨skipSnap, txCaptured, xactMessages, session, hgate⟩ :=
                  captureGate_ready sessionOk kind body hpasses hnoted hlive hopen hready
                rw [gate, hgate]
                apply CountInv.of_ungated hsameGating
                · exact bulk_total session htotal hbuffer hsameOverflow
                    (by simp [isStatement_entry])
                · intro hdead
                  simp at hdead
            | false =>
                obtain ⟨sessionActive, skipSnap, txCaptured, xactMessages, hgate⟩ :=
                  captureGate_waiting sessionOk kind body hpasses hnoted hlive hopen hready
                obtain ⟨txBufOverflow, txBuf, hadd, hfits⟩ := txBufAdd_eq
                  (noted.1.entry (.hooked kind body) noted.1.openXact) { noted.1 with
                    sessionActive := sessionActive
                    skipSnap := skipSnap
                    lastTxStatementCount := noted.1.lastTxStatementCount + 1
                    txCaptured := txCaptured
                    xactMessages := xactMessages }
                rw [gate, hgate, hadd]
                apply CountInv.of_ungated hsameGating htotal
                intro _ _ hnoOverflow hkept
                have hbuffer := hsameBuffered hlive hopen fun _ => hkept
                rw [(hfits hnoOverflow).2, List.countP_append, List.countP_singleton,
                  isStatement_entry, ← hbuffer]
                rfl
  · have hlive : s.backend.captureLive = false := by
      by_contra hnot
      exact hpasses (hcurrent (by simpa using hnot)).1
    rw [gate, captureGate_of_not_passes _ _ _ hpasses]
    rw [hlive] at htotal
    exact CountInv.of_ungated rfl htotal fun _ => hinv.buffered hlive

theorem noteGeneration_of_dead {b : Backend} {c : SharedMemory} {noted : Backend × SharedMemory}
    (hnoted : noteGeneration b c = noted) (hdead : b.captureLive = false) :
    noted.1.captureLive = false ∧ noted.1.gating = b.gating ∧ noted.1.out = b.out ∧
      noted.2.statements = c.statements ∧ noted.2.walReady = c.walReady := by
  by_cases hgen : b.myCaptureGen = c.generation
  · rw [noteGeneration_of_eq hgen] at hnoted
    subst hnoted
    exact ⟨hdead, rfl, rfl, rfl, rfl⟩
  · obtain ⟨sessionName, skipSnap, hfresh⟩ := noteGeneration_of_ne hgen
    rw [hfresh] at hnoted
    subst hnoted
    exact ⟨rfl, rfl, rfl, rfl, rfl⟩

/-- A Bind that is abandoned has not been counted, and its transaction is not to be. -/
theorem abandon_countInv {s : State} {body : List UInt8} (hinv : CountInv s)
    (hgating : s.backend.gating = some (.bind, body)) {sessionOk : Bool}
    (hpass : (passGate sessionOk (ungated s.backend) s.shmem).1 = true)
    (hcurrent : LiveIsCurrent s (.abandon sessionOk))
    (hdropped : AbandonedDropped s (.abandon sessionOk)) :
    CountInv (abandon s sessionOk body) := by
  have hdead : s.backend.captureLive = false := by
    by_contra hlive
    have hisLive : s.backend.captureLive = true := by simpa using hlive
    exact hdropped.1 ⟨hisLive, (hcurrent hisLive).2⟩
  have htotal := hinv.total
  rw [atGate_of_some hgating, hdead, if_neg Bool.false_ne_true, add_zero, pushed,
    List.countP_append] at htotal
  obtain ⟨noted, hnoted⟩ : ∃ noted,
      noteGeneration (ungated s.backend) s.shmem = noted := ⟨_, rfl⟩
  obtain ⟨hstillDead, hsameGating, hsameOut, hsameStatements, hsameReady⟩ :=
    noteGeneration_of_dead hnoted hdead
  obtain ⟨-, -, sessionActive, skipSnap, habandoned⟩ := abandonedGate_buffering sessionOk hpass
    hnoted hstillDead (hsameReady.trans hdropped.2)
  rw [abandon, habandoned]
  apply CountInv.of_ungated
  · exact hsameGating
  · exact (hsameOut.symm ▸ hsameStatements.trans htotal)
  · exact fun _ _ _ hkept => by simp at hkept

theorem leave_countInv {s : State} (hinv : CountInv s) (hgating : s.backend.gating = none)
    (hopen : s.backend.txOpen = true) : CountInv (leave s) := by
  have htotal := hinv.total
  rw [atGate_of_none hgating, pushed, List.countP_append] at htotal
  have hshared : (xactLeaveShared s.backend.txGen s.shmem).2.statements = s.shmem.statements := by
    rw [xactLeaveShared]
    split_ifs <;> rfl
  apply CountInv.of_ungated
  · exact hgating
  · exact hshared.trans htotal
  · exact fun hlive _ => hinv.buffered hlive (.inl hopen)

theorem finish_countInv {s : State} (hinv : CountInv s) (hfinishing : s.backend.finishing = true)
    (hdropped : s.backend.txBufOverflow = false) (habandoned : AbandonedDropped s .finish) :
    CountInv (finish s) := by
  have hgating : s.backend.gating = none := by
    by_contra hnone
    simp [hinv.gating hnone] at hfinishing
  have htotal := hinv.total
  rw [atGate_of_none hgating, pushed, List.countP_append] at htotal
  cases hlive : s.backend.captureLive with
  | true =>
      rw [finish, txFinish_live hlive]
      apply CountInv.of_ungated
      · exact hgating
      · exact htotal
      · intro hdead
        simp [hlive] at hdead
  | false =>
      by_cases hready : GoesLiveAtFinish s.backend s.shmem
      · obtain ⟨session, hlives⟩ := txFinish_ready hlive hready
        rw [finish, hlives]
        apply CountInv.of_ungated
        · exact hgating
        · have hnothing : ([] : List Entry).countP isStatement = 0 := rfl
          have hbulk := bulk_total session htotal
            (hinv.buffered hlive (.inr hfinishing) hdropped (habandoned hlive hready)) hdropped
            hnothing
          rw [List.append_nil] at hbulk
          exact hbulk
        · intro hdead
          simp at hdead
      · rw [finish, txFinish_dropped hlive hready]
        apply CountInv.of_ungated
        · exact hgating
        · exact htotal
        · exact fun _ _ _ _ => rfl

theorem step_countInv {s s' : State} {l : Label} (hinv : CountInv s)
    (hcond : CountCond s l) (hstep : step s l = some s') : CountInv s' := by
  obtain ⟨hdropped, hcurrent, habandoned⟩ := hcond
  cases l with
  | start id =>
      cases hstep
      exact start_countInv hinv id
  | stop | setWalReady | others =>
      cases hstep
      exact hinv.congr rfl rfl rfl rfl (fun hactive => hactive) hinv.gating rfl rfl rfl rfl
  | hook kind body inTransaction =>
      simp only [step] at hstep
      split_ifs at hstep with hready
      cases hstep
      exact hook_countInv hinv hready.1 hready.2.1 kind body inTransaction
  | gate sessionOk =>
      simp only [step] at hstep
      split at hstep
      · next hgating =>
          cases hstep
          exact gate_countInv hinv hgating sessionOk hdropped hcurrent habandoned
      · cases hstep
  | abandon sessionOk =>
      simp only [step] at hstep
      split at hstep
      · next hgating =>
          split_ifs at hstep with hpass
          cases hstep
          exact abandon_countInv hinv hgating hpass hcurrent habandoned
      · cases hstep
  | leave =>
      simp only [step] at hstep
      split_ifs at hstep with hready
      cases hstep
      exact leave_countInv hinv hready.1 hready.2.2
  | finish =>
      simp only [step] at hstep
      split_ifs at hstep with hready
      cases hstep
      exact finish_countInv hinv hready hdropped habandoned

/-- The counter counts the statements pushed. -/
def CountsPushed (s : State) : Prop :=
  s.shmem.statements = UInt64.ofNat ((pushed s).countP isStatement)

/-- In a run in which `CaptureLive` is never stale at the gate, and no Bind is abandoned
by a live backend or in a transaction that goes live, the counter counts the statements
pushed. -/
theorem countsPushed_of_reaches {s : State} (hreaches : Reaches step CountCond State.init s)
    (hgating : s.backend.gating = none) : CountsPushed s := by
  have hinv : CountInv s :=
    hreaches.invariant countInv_init fun _ _ _ hinv hcond hstep =>
      step_countInv hinv hcond hstep
  rw [CountsPushed, hinv.total, atGate_of_none hgating, add_zero]

/-- A transaction that is dropped with an abandoned Bind, and one of two messages that is
captured when it ends. -/
def twoTransactions : List Label :=
  [.start 1, .hook .parse [1] true, .gate true, .hook .bind [2] true, .abandon true, .leave,
    .finish, .hook .parse [3] true, .gate true, .hook .execute [4] true, .gate true,
    .setWalReady, .leave, .finish]

theorem countsPushed_twoTransactions : ∃ s : State,
    runWhile step CountCond State.init twoTransactions = some s ∧
      s.shmem.statements = 2 ∧ CountsPushed s := by
  have hcounted : (runWhile step CountCond State.init twoTransactions).map
      (fun s => (decide (s.backend.gating = none), s.shmem.statements)) = some (true, 2) := by
    decide +kernel
  obtain ⟨s, hrun, hvalues⟩ := Option.map_eq_some_iff.mp hcounted
  obtain ⟨hgating, hstatements⟩ := Prod.mk.inj hvalues
  exact ⟨s, hrun, hstatements,
    countsPushed_of_reaches (reaches_of_runWhile hrun) (of_decide_eq_true hgating)⟩

/-- A message of a live backend after the capture has been stopped. -/
def afterStop : List Label :=
  [.start 1, .setWalReady, .hook .simpleQuery [1] true, .gate true, .leave, .finish, .stop,
    .hook .simpleQuery [2] true, .gate true]

/-- A Bind that a live backend abandons. -/
def abandonedLive : List Label :=
  [.start 1, .setWalReady, .hook .parse [1] true, .gate true, .hook .bind [2] true, .abandon true]

theorem not_countsPushed_of_run {labels : List Label}
    (hcounted : (run step State.init labels).map (fun s =>
      (decide (s.backend.gating = none), s.shmem.statements,
        (pushed s).countP isStatement)) = some (true, 2, 1)) : ∃ s : State,
    run step State.init labels = some s ∧ s.backend.gating = none ∧
      s.shmem.statements = 2 ∧ (pushed s).countP isStatement = 1 ∧ ¬CountsPushed s := by
  obtain ⟨s, hrun, hvalues⟩ := Option.map_eq_some_iff.mp hcounted
  obtain ⟨hgating, hstatements, hpushed⟩ : decide (s.backend.gating = none) = true ∧
      s.shmem.statements = 2 ∧ (pushed s).countP isStatement = 1 := by simpa using hvalues
  refine ⟨s, hrun, of_decide_eq_true hgating, hstatements, hpushed, ?_⟩
  rw [CountsPushed, hstatements, hpushed]
  decide

/-- Each of the two is counted and not pushed. -/
theorem not_countsPushed_uncaptured :
    (∃ s : State, run step State.init afterStop = some s ∧ s.backend.gating = none ∧
      s.shmem.statements = 2 ∧ (pushed s).countP isStatement = 1 ∧ ¬CountsPushed s) ∧
    ∃ s : State, run step State.init abandonedLive = some s ∧ s.backend.gating = none ∧
      s.shmem.statements = 2 ∧ (pushed s).countP isStatement = 1 ∧ ¬CountsPushed s :=
  ⟨not_countsPushed_of_run (by decide +kernel), not_countsPushed_of_run (by decide +kernel)⟩

end Pgr.StatementCount
