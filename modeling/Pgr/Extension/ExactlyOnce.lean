import Pgr.Extension.XactMessages

/-!
# Exactly once around the sync point

One capture, the first of the server, which is not stopped.  Restoring the WAL up to the
LSN that the sync reads and then replaying the capture is to apply every transaction
entered since the publication once.  A backend decides in `tx_finish` what becomes of its
transaction, by `wal_ready`, which is set after the LSN has been read and knows nothing of
where the commit record went.  The results are about the runs in which the two do not
come apart; `AroundCut` is what they come to.
-/

namespace Pgr.ExactlyOnce

open Pgr.Counting Pgr.Transition Pgr.Shmem Pgr.Hooks Pgr.Worker Pgr.System Pgr.SyncPoint
  Pgr.AroundCut Pgr.XactMessages

/-! ## The server -/

section

variable {ι : Type} [DecidableEq ι]

/-- A finished transaction, if it was entered after the publication. -/
def closedOf (finished : FinishedXact) : Option (Closed Entry) :=
  if finished.gen = 1 then some ⟨finished.xact, finished.messages, finished.commitPtr⟩ else none

/-- What the server is about: transactions around the LSN of the sync. -/
def ledger (s : State ι) : Ledger ι Entry where
  boxes := ⟨s.pushed, fun i => (s.backends i).out⟩
  xacts := s.xacts
  current := fun i => currentOf (s.backends i)
  insertPtr := s.insertPtr
  cut := s.lsn
  ready := s.shmem.walReady
  closed := s.finished.filterMap closedOf

/-- One capture, which is never stopped. -/
def OneCapture (s : State ι) : Label ι → Prop
  | .start _ _ => s.published = []
  | .stop _ => False
  | _ => True

/-- No buffer overflows. -/
def NoOverflow (s : State ι) (l : Label ι) : Prop :=
  ∀ s' ∈ step s l, ∀ i, (s'.backends i).txBufOverflow = false

/-- When `wal_ready` is set, no transaction whose commit record is in front of the LSN has
still to read it; and a transaction whose commit record is behind the LSN reads it when it
is set. -/
def InTime (s : State ι) : Label ι → Prop
  | .setWalReady _ => ∀ i, InXact (s.backends i) → ∀ ptr ∈ (s.backends i).commitPtr,
      ∀ lsn ∈ s.lsn, lsn ≤ ptr
  | .finish i => InXact (s.backends i) → ∀ ptr ∈ (s.backends i).commitPtr,
      ∀ lsn ∈ s.lsn, lsn ≤ ptr → s.shmem.walReady = true
  | _ => True

/-- The variables of the sync, and each backend. -/
structure Once (s : State ι) : Prop where
  generation : s.shmem.generation = if s.shmem.running then 1 else 0
  published : s.shmem.running = true → s.published ≠ []
  stopped : s.shmem.running = false → s.shmem.walReady = false ∧ s.lsn = none
  sync : ∀ i, (s.backends i).sync ≠ .none →
    s.shmem.running = true ∧ (s.backends i).syncGen = s.shmem.generation
  /-- The duty to emit the LSN has been taken up. -/
  lsn : s.lsn ≠ none → 1 ≤ s.lsnCount ∨ ∃ i ptr, (s.backends i).sync = .read ptr
  read : ∀ i, (s.backends i).sync = .pushed ∨ (∃ ptr, (s.backends i).sync = .read ptr) →
    s.lsn ≠ none
  coherent : ∀ i, Coherent s.shmem.running s.shmem.walReady (s.backends i)
  captured : ∀ i, Captured (s.backends i)

variable {s s' : State ι} {i : ι}

omit [DecidableEq ι] in
theorem Once.generation_eq (hs : Once s) (hrunning : s.shmem.running = true) :
    s.shmem.generation = 1 := by
  rw [hs.generation, if_pos hrunning]

omit [DecidableEq ι] in
/-- A sync that has been decided is one of the capture. -/
theorem Once.active (hs : Once s) {sync : Sync} (hsync : (s.backends i).sync = sync)
    (hactive : sync ≠ .none) :
    s.shmem.running = true ∧ (s.backends i).syncGen = s.shmem.generation := by
  rw [← hsync] at hactive
  exact hs.sync i hactive

omit [DecidableEq ι] in
theorem Once.unsent (hs : Once s) {sync : Sync} (hsync : (s.backends i).sync = sync)
    (hactive : sync ≠ .none) (hunsent : sync ≠ .pushed) :
    (view (s.backends i)).IsUnsent s.shmem.generation := by
  obtain ⟨-, hcurrent⟩ := hs.active hsync hactive
  rw [← hsync] at hactive hunsent
  exact ⟨hactive, hunsent, hcurrent⟩

/-- A backend goes on, and decides a sync at most. -/
theorem Once.update (hs : Once s) {b : Backend}
    (hbackends : s'.backends = Function.update s.backends i b)
    (hcoherent : Coherent s.shmem.running s.shmem.walReady b) (hcaptured : Captured b)
    (hsync : (b.sync = (s.backends i).sync ∧
        (b.sync ≠ .none → b.syncGen = (s.backends i).syncGen)) ∨
      ((s.backends i).sync = .none ∧ b.sync = .decided ∧ s.shmem.running = true ∧
        b.syncGen = s.shmem.generation))
    (hrunning : s'.shmem.running = s.shmem.running)
    (hgeneration : s'.shmem.generation = s.shmem.generation)
    (hready : s'.shmem.walReady = s.shmem.walReady) (hpublished : s'.published = s.published)
    (hlsn : s'.lsn = s.lsn) (hlsnCount : s'.lsnCount = s.lsnCount) : Once s' := by
  have hself : s'.backends i = b := by
    rw [hbackends]
    exact Function.update_self ..
  have hother : ∀ j, j ≠ i → s'.backends j = s.backends j := by
    intro j hj
    rw [hbackends]
    exact Function.update_of_ne hj ..
  constructor
  · rw [hgeneration, hrunning]
    exact hs.generation
  · rw [hrunning, hpublished]
    exact hs.published
  · rw [hrunning, hready, hlsn]
    exact hs.stopped
  · intro j hj
    rw [hrunning, hgeneration]
    by_cases hsame : j = i
    · rw [hsame, hself] at hj ⊢
      rcases hsync with ⟨hkept, hgen⟩ | ⟨-, -, hdecided⟩
      · rw [hgen hj]
        exact hs.sync i (hkept ▸ hj)
      · exact hdecided
    · rw [hother j hsame] at hj ⊢
      exact hs.sync j hj
  · intro hsome
    rw [hlsn] at hsome
    rw [hlsnCount]
    rcases hs.lsn hsome with hcount | ⟨j, ptr, hread⟩
    · exact .inl hcount
    · right
      refine ⟨j, ptr, ?_⟩
      by_cases hsame : j = i
      · rw [hsame] at hread ⊢
        rw [hself]
        rcases hsync with ⟨hkept, -⟩ | ⟨hnone, -⟩
        · exact hkept.trans hread
        · cases hnone.symm.trans hread
      · rw [hother j hsame]
        exact hread
  · intro j hj
    rw [hlsn]
    by_cases hsame : j = i
    · rw [hsame, hself] at hj
      rcases hsync with ⟨hkept, -⟩ | ⟨-, hdecided, -⟩
      · rw [hkept] at hj
        exact hs.read i hj
      · rw [hdecided] at hj
        rcases hj with hpushed | ⟨ptr, hread⟩
        · cases hpushed
        · cases hread
    · rw [hother j hsame] at hj
      exact hs.read j hj
  · intro j
    rw [hrunning, hready]
    by_cases hsame : j = i
    · rw [hsame, hself]
      exact hcoherent
    · rw [hother j hsame]
      exact hs.coherent j
  · intro j
    by_cases hsame : j = i
    · rw [hsame, hself]
      exact hcaptured
    · rw [hother j hsame]
      exact hs.captured j

theorem outs_update (s : State ι) (i : ι) (b : Backend) :
    (fun j => (Function.update s.backends i b j).out) =
      Function.update (fun j => (s.backends j).out) i b.out := by
  funext j
  exact Function.apply_update (fun _ => Backend.out) s.backends i b j

theorem current_update (s : State ι) (i : ι) (b : Backend) :
    (fun j => currentOf (Function.update s.backends i b j)) =
      Function.update (fun j => currentOf (s.backends j)) i (currentOf b) := by
  funext j
  exact Function.apply_update (fun _ => currentOf) s.backends i b j

/-- What a backend does, in the ledger. -/
theorem ledger_setBackend (s : State ι) (i : ι) (b : Backend) (c : SharedMemory) :
    ledger { s.setBackend i b with shmem := c } = { ledger s with
      boxes := ⟨s.pushed, Function.update (ledger s).boxes.outs i b.out⟩
      current := Function.update (ledger s).current i (currentOf b)
      ready := c.walReady } := by
  rw [ledger]
  dsimp only [State.setBackend]
  rw [outs_update, current_update]
  rfl

theorem ledger_same {b : Backend} {c : SharedMemory} (hout : b.out = (s.backends i).out)
    (hcurrent : currentOf b = currentOf (s.backends i)) (hready : c.walReady = s.shmem.walReady) :
    ledger { s.setBackend i b with shmem := c } = ledger s := by
  have houts : Function.update (ledger s).boxes.outs i b.out = (ledger s).boxes.outs := by
    rw [hout]
    exact Function.update_eq_self i _
  have hcurrents : Function.update (ledger s).current i (currentOf b) = (ledger s).current := by
    rw [hcurrent]
    exact Function.update_eq_self i _
  rw [ledger_setBackend, houts, hcurrents, hready]
  rfl

theorem ledger_enter {b : Backend} {c : SharedMemory} (hout : b.out = (s.backends i).out)
    (hcurrent : currentOf b = if s.shmem.running then some ⟨s.xacts, [], none⟩ else none)
    (houtside : currentOf (s.backends i) = none) (hready : c.walReady = s.shmem.walReady) :
    ledger { s.setBackend i b with shmem := c, xacts := s.xacts + 1 } =
      if s.shmem.running then (ledger s).enter i else { ledger s with xacts := s.xacts + 1 } := by
  have hset := ledger_setBackend s i b c
  have houts : Function.update (ledger s).boxes.outs i b.out = (ledger s).boxes.outs := by
    rw [hout]
    exact Function.update_eq_self i _
  rw [houts, hcurrent, hready] at hset
  have hxacts : ledger { s.setBackend i b with shmem := c, xacts := s.xacts + 1 } =
      { ledger { s.setBackend i b with shmem := c } with xacts := s.xacts + 1 } := rfl
  rw [hxacts, hset]
  by_cases hrunning : s.shmem.running = true
  · rw [if_pos hrunning, if_pos hrunning]
    rfl
  · have hcurrents : Function.update (ledger s).current i none = (ledger s).current := by
      rw [← houtside]
      exact Function.update_eq_self i _
    rw [if_neg hrunning, if_neg hrunning, hcurrents]
    rfl

theorem ledger_emits {more : List Entry} {b : Backend} {c : SharedMemory}
    (hemits : Emits more (s.backends i) b) (hready : c.walReady = s.shmem.walReady) :
    ledger { s.setBackend i b with shmem := c } = (ledger s).emit Entry.xact i more := by
  rw [ledger_setBackend, hemits.out, hemits.current, hready]
  rfl

/-! ## The steps -/

/-- What the runs keep. -/
structure Kept (s : State ι) : Prop where
  once : Once s
  settled : AroundCut.Inv Entry.xact (ledger s)

omit [DecidableEq ι] in
/-- A step that neither the variables of the capture nor the backends see. -/
theorem Kept.same (hs : Kept s) (hshmem : s'.shmem = s.shmem)
    (hbackends : s'.backends = s.backends) (hpublished : s'.published = s.published)
    (hlsn : s'.lsn = s.lsn) (hlsnCount : s'.lsnCount = s.lsnCount)
    (hledger : ledger s' = ledger s) : Kept s' where
  once :=
    { generation := by
        rw [hshmem]
        exact hs.once.generation
      published := by
        rw [hshmem, hpublished]
        exact hs.once.published
      stopped := by
        rw [hshmem, hlsn]
        exact hs.once.stopped
      sync := by
        rw [hshmem, hbackends]
        exact hs.once.sync
      lsn := by
        rw [hlsn, hlsnCount, hbackends]
        exact hs.once.lsn
      read := by
        rw [hlsn, hbackends]
        exact hs.once.read
      coherent := by
        rw [hshmem, hbackends]
        exact hs.once.coherent
      captured := by
        rw [hbackends]
        exact hs.once.captured }
  settled := by
    rw [hledger]
    exact hs.settled

theorem isIdle_iff {b : Backend} : b.isIdle = true ↔ b.exited = false ∧ b.gating = none ∧
    b.finishing = false ∧ b.out = [] ∧ b.sync = .none := by
  rw [Backend.isIdle, decide_eq_true_iff]

theorem kept_hook (hs : Kept s) (hidle : (s.backends i).isIdle = true) (kind : HookKind)
    (body : List UInt8) (inTransaction : Bool) : Kept (hook s i kind body inTransaction) := by
  obtain ⟨-, -, hfinishing, -, -⟩ := isIdle_iff.mp hidle
  obtain ⟨hnoted, hsame⟩ := coherent_noteStatement (hs.once.coherent i) kind s.shmem
  have hview := view_noteStatement kind (s.backends i) s.shmem
  obtain ⟨nextClientId, statements, hshmem⟩ :=
    sameCapture_noteStatement kind (s.backends i) s.shmem
  rw [hook]
  dsimp only
  generalize (noteStatement kind (s.backends i) s.shmem).1 = noted at *
  generalize (noteStatement kind (s.backends i) s.shmem).2 = c at *
  have hfinishing' : noted.finishing = false := hsame.finishing.trans hfinishing
  have hrunning : c.running = s.shmem.running := by rw [hshmem]
  have hgeneration : c.generation = s.shmem.generation := by rw [hshmem]
  have hready : c.walReady = s.shmem.walReady := by rw [hshmem]
  have hsync : noted.sync = (s.backends i).sync := congrArg View.sync hview
  have hsyncGen : noted.syncGen = (s.backends i).syncGen := congrArg View.syncGen hview
  split_ifs with henter
  · rw [← hrunning] at hnoted
    have hone : c.running = true → c.generation = 1 := by
      rw [hrunning, hgeneration]
      exact hs.once.generation_eq
    obtain ⟨hentered, hout, hcurrent⟩ :=
      coherent_enterXact hnoted hone hfinishing' henter.1 s.xacts
    obtain ⟨hsyncEntered, hsyncGenEntered, hfinishingEntered⟩ := sync_enterXact s.xacts noted c
    rw [hrunning] at hentered hcurrent
    constructor
    · apply hs.once.update rfl (hentered.setGating (hfinishingEntered.trans hfinishing') _)
      · rintro - ⟨⟩
      · exact .inl ⟨hsyncEntered.trans hsync, fun _ => hsyncGenEntered.trans hsyncGen⟩
      · exact hrunning
      · exact hgeneration
      · exact hready
      · rfl
      · rfl
      · rfl
    · have houtside : currentOf (s.backends i) = none := by
        rw [← hsame.currentOf_eq]
        exact currentOf_of_not_inXact (not_inXact_of_closed henter.1 hfinishing')
      have hledger := ledger_enter (s := s) (i := i)
        (b := { (enterXact s.xacts noted c).1 with gating := some (kind, body) })
        (c := (enterXact s.xacts noted c).2) (hout.trans hsame.out) hcurrent houtside hready
      rw [hledger]
      split_ifs
      · exact hs.settled.enter i
      · exact hs.settled.skip
  · constructor
    · apply hs.once.update rfl (hnoted.setGating hfinishing' _)
      · rintro - ⟨⟩
      · exact .inl ⟨hsync, fun _ => hsyncGen⟩
      · exact hrunning
      · exact hgeneration
      · exact hready
      · rfl
      · rfl
      · rfl
    · have hledger : ledger { s.setBackend i { noted with gating := some (kind, body) } with
          shmem := c } = ledger s := ledger_same hsame.out hsame.currentOf_eq hready
      rw [hledger]
      exact hs.settled

/-- A pass of a backend through one of its functions, behind which it has messages to push. -/
theorem kept_emits (hs : Kept s) {b : Backend} {c : SharedMemory}
    (hcoherent : Coherent s.shmem.running s.shmem.walReady b) (hcaptured : Captured b)
    (hview : view b = view (s.backends i)) (hshmem : SameCapture s.shmem c) {more : List Entry}
    (hemits : Emits more (s.backends i) b) : Kept { s.setBackend i b with shmem := c } := by
  obtain ⟨nextClientId, statements, hsame⟩ := hshmem
  have hready : c.walReady = s.shmem.walReady := by rw [hsame]
  constructor
  · apply hs.once.update rfl hcoherent hcaptured
    · exact .inl ⟨congrArg View.sync hview, fun _ => congrArg View.syncGen hview⟩
    · change c.running = s.shmem.running
      rw [hsame]
    · change c.generation = s.shmem.generation
      rw [hsame]
    · exact hready
    · rfl
    · rfl
    · rfl
  · rw [ledger_emits hemits hready]
    exact hs.settled.emit hemits.marks

theorem kept_gate (hs : Kept s) {kind : HookKind} {body : List UInt8}
    (hgating : (s.backends i).gating = some (kind, body)) {sessionOk : Bool}
    (hroom : (captureGate sessionOk kind body { s.backends i with gating := none }
      s.shmem).1.txBufOverflow = false) :
    Kept { s.setBackend i (captureGate sessionOk kind body { s.backends i with gating := none }
        s.shmem).1 with
      shmem :=
        (captureGate sessionOk kind body { s.backends i with gating := none } s.shmem).2 } := by
  have hfinishing : (s.backends i).finishing = false := by
    by_contra hfinishes
    have hnone := ((hs.once.coherent i).finishing (Bool.eq_true_of_not_eq_false hfinishes)).1
    cases hgating.symm.trans hnone
  obtain ⟨hcoherent, hcaptured, more, hmore⟩ := coherent_captureGate
    ((hs.once.coherent i).setGating hfinishing none) hs.once.generation_eq hfinishing hroom
  have hopened : Emits [] (s.backends i) { s.backends i with gating := none } := emits_nil rfl rfl
  exact kept_emits hs hcoherent hcaptured (view_captureGate ..) (sameCapture_captureGate ..)
    (hopened.trans hmore)

theorem kept_abandon (hs : Kept s) (hbind : (s.backends i).gating.map Prod.fst = some .bind)
    (sessionOk : Bool) :
    Kept { s.setBackend i (abandonedGate sessionOk { s.backends i with gating := none }
        s.shmem).1 with
      shmem := (abandonedGate sessionOk { s.backends i with gating := none } s.shmem).2 } := by
  have hfinishing : (s.backends i).finishing = false := by
    by_contra hfinishes
    have hnone := ((hs.once.coherent i).finishing (Bool.eq_true_of_not_eq_false hfinishes)).1
    rw [hnone] at hbind
    cases hbind
  obtain ⟨hcoherent, -, hcaptured, ⟨more, hmore⟩, -⟩ := gated_abandonedGate
    ((hs.once.coherent i).setGating hfinishing none) hs.once.generation_eq hfinishing sessionOk
  have hopened : Emits [] (s.backends i) { s.backends i with gating := none } := emits_nil rfl rfl
  exact kept_emits hs hcoherent hcaptured (view_abandonedGate ..) (sameCapture_abandonedGate ..)
    (hopened.trans hmore)

theorem kept_push (hs : Kept s) {entry : Entry} {out : List Entry}
    (hout : (s.backends i).out = entry :: out) :
    Kept (channelPush (s.setBackend i { s.backends i with out := out }) entry) := by
  have hcoherent : Coherent s.shmem.running s.shmem.walReady { s.backends i with out := out } :=
    { hs.once.coherent i with }
  constructor
  · exact hs.once.update rfl hcoherent (hs.once.captured i) (.inl ⟨rfl, fun _ => rfl⟩) rfl rfl rfl
      rfl rfl rfl
  · have hset := ledger_setBackend s i { s.backends i with out := out } s.shmem
    have hcurrents : Function.update (ledger s).current i
        (currentOf { s.backends i with out := out }) = (ledger s).current :=
      Function.update_eq_self i _
    rw [hcurrents] at hset
    have hledger : ledger (channelPush (s.setBackend i { s.backends i with out := out }) entry) =
        (ledger s).push i entry out := by
      have hpushed : ledger (channelPush (s.setBackend i { s.backends i with out := out }) entry) =
          { ledger { s.setBackend i { s.backends i with out := out } with shmem := s.shmem } with
            boxes := ⟨s.pushed ++ [entry], (ledger { s.setBackend i { s.backends i with
              out := out } with shmem := s.shmem }).boxes.outs⟩ } := rfl
      rw [hpushed, hset]
      rfl
    rw [hledger]
    exact hs.settled.push hout

theorem backend_unseen (s : State ι) (i : ι) {b : Backend} (hout : b.out = (s.backends i).out)
    (hcurrent : currentOf b = currentOf (s.backends i)) :
    ledger (s.setBackend i b) = ledger s :=
  ledger_same (c := s.shmem) hout hcurrent rfl

theorem kept_insertCommit (hs : Kept s) (i : ι) (size : ℕ) :
    Kept { s.setBackend i { s.backends i with commitPtr := some s.insertPtr } with
      insertPtr := s.insertPtr + (size + 1) } := by
  have hcoherent : Coherent s.shmem.running s.shmem.walReady
      { s.backends i with commitPtr := some s.insertPtr } := { hs.once.coherent i with }
  constructor
  · exact hs.once.update rfl hcoherent (hs.once.captured i) (.inl ⟨rfl, fun _ => rfl⟩) rfl rfl rfl
      rfl rfl rfl
  · have hcurrent : currentOf { s.backends i with commitPtr := some s.insertPtr } =
        (currentOf (s.backends i)).map fun xact => { xact with ptr := some s.insertPtr } := by
      by_cases hinside : InXact (s.backends i)
      · rw [currentOf_of_inXact hinside]
        exact currentOf_of_inXact hinside
      · rw [currentOf_of_not_inXact hinside]
        exact currentOf_of_not_inXact hinside
    have hset := ledger_setBackend s i { s.backends i with commitPtr := some s.insertPtr } s.shmem
    have houts : Function.update (ledger s).boxes.outs i (s.backends i).out =
        (ledger s).boxes.outs := Function.update_eq_self i _
    rw [hcurrent, houts] at hset
    have hledger : ledger { s.setBackend i { s.backends i with commitPtr := some s.insertPtr } with
        insertPtr := s.insertPtr + (size + 1) } = (ledger s).commit i size := by
      have hgrown : ledger { s.setBackend i { s.backends i with
          commitPtr := some s.insertPtr } with insertPtr := s.insertPtr + (size + 1) } =
          { ledger { s.setBackend i { s.backends i with
              commitPtr := some s.insertPtr } with shmem := s.shmem } with
            insertPtr := s.insertPtr + (size + 1) } := rfl
      rw [hgrown, hset]
      rfl
    rw [hledger]
    exact hs.settled.commit i size

omit [DecidableEq ι] in
theorem kept_insertRecord (hs : Kept s) (size : ℕ) :
    Kept { s with insertPtr := s.insertPtr + size } where
  once := { hs.once with }
  settled := hs.settled.advance size

theorem kept_leave (hs : Kept s) (hidle : (s.backends i).isIdle = true)
    (hopen : (s.backends i).txOpen = true) : Kept (leave s i) := by
  obtain ⟨-, hgating, -, -, hsync⟩ := isIdle_iff.mp hidle
  obtain ⟨hleaving, hcaptured, hcurrent⟩ :=
    coherent_leaving (hs.once.coherent i) (hs.once.captured i) hopen hgating
  obtain ⟨hready, hrunning, hgeneration, hdecided⟩ :=
    xactLeaveShared_same (s.backends i).txGen s.shmem
  rw [leave]
  generalize xactLeaveShared (s.backends i).txGen s.shmem = left at *
  obtain ⟨hsame, hmessages, hcapturedSync⟩ := coherent_decideSync hleaving left
  constructor
  · refine hs.once.update rfl hsame (hcapturedSync hcaptured) ?_ hrunning hgeneration hready rfl rfl
      rfl
    rw [Backend.decideSync]
    split_ifs with hlast
    · exact .inr ⟨hsync, rfl, hdecided hlast, hgeneration⟩
    · exact .inl ⟨rfl, fun _ => rfl⟩
  · have hledger : ledger { s.setBackend i ({ s.backends i with
        txOpen := false, finishing := true }.decideSync left) with shmem := left.2 } = ledger s :=
      ledger_same hmessages.out (hmessages.currentOf_eq.trans hcurrent) hready
    rw [hledger]
    exact hs.settled

theorem kept_exit (hs : Kept s) (hidle : (s.backends i).isIdle = true)
    (hclosed : (s.backends i).txOpen = false) :
    Kept (s.setBackend i (pgrExit (s.backends i) s.shmem)) := by
  obtain ⟨-, -, hfinishing, -, -⟩ := isIdle_iff.mp hidle
  obtain ⟨hcoherent, hcaptured, more, hmore⟩ :=
    coherent_pgrExit (hs.once.coherent i) hclosed hfinishing s.shmem
  exact kept_emits hs hcoherent hcaptured (view_pgrExit ..) (SameCapture.refl _) hmore

theorem kept_connect (hs : Kept s) (hgone : (s.backends i).isGone = true) (isPsql : Bool) :
    Kept (s.setBackend i (Backend.init isPsql)) := by
  rw [Backend.isGone, decide_eq_true_iff] at hgone
  obtain ⟨-, hclosed, -, hfinishing, hout, hsync⟩ := hgone
  have houtside := not_inXact_of_closed hclosed hfinishing
  constructor
  · refine hs.once.update rfl (coherent_init isPsql) (fun hinside => ?_) (.inl ⟨hsync.symm, ?_⟩) rfl
      rfl rfl rfl rfl rfl
    · exact absurd hinside (not_inXact_init isPsql)
    · exact fun hactive => absurd rfl hactive
  · rw [backend_unseen s i hout.symm]
    · exact hs.settled
    · rw [currentOf_of_not_inXact houtside, currentOf_of_not_inXact (not_inXact_init isPsql)]

theorem kept_finish (hs : Kept s) (hfinishing : (s.backends i).finishing = true)
    (hintime : InTime s (.finish i)) : Kept (finish s i) := by
  obtain ⟨hcoherent, hcurrent, hcaptured, hdone⟩ := coherent_txFinish (hs.once.coherent i)
    (hs.once.captured i) hs.once.generation_eq hfinishing
  obtain ⟨nextClientId, statements, hshmem⟩ := sameCapture_txFinish (s.backends i) s.shmem
  have hview := view_txFinish (s.backends i) s.shmem
  rw [finish]
  generalize (txFinish (s.backends i) s.shmem).1 = b at *
  generalize (txFinish (s.backends i) s.shmem).2 = c at *
  have hready : c.walReady = s.shmem.walReady := by rw [hshmem]
  constructor
  · apply hs.once.update rfl hcoherent hcaptured
    · exact .inl ⟨congrArg View.sync hview, fun _ => congrArg View.syncGen hview⟩
    · change c.running = s.shmem.running
      rw [hshmem]
    · change c.generation = s.shmem.generation
      rw [hshmem]
    · exact hready
    · rfl
    · rfl
    · rfl
  · have hset := ledger_setBackend s i b c
    rw [hcurrent, hready] at hset
    obtain ⟨finished, hfinished⟩ : ∃ finished : FinishedXact,
        ⟨(s.backends i).xact, (s.backends i).txGen, (s.backends i).commitPtr,
          (s.backends i).xactMessages⟩ = finished := ⟨_, rfl⟩
    have hclosed : ledger { s.setBackend i b with
        shmem := c, finished := finished :: s.finished } =
        { ledger { s.setBackend i b with shmem := c } with
          closed := (finished :: s.finished).filterMap closedOf } := rfl
    rw [hfinished, hclosed, hset]
    rcases hdone with ⟨houtside, hout⟩ | ⟨hinside, more, live, hmore, hout, hlive⟩
    · have hnone : closedOf finished = none := by
        rw [← hfinished]
        exact if_neg fun hgen => houtside ⟨.inr hfinishing, hgen⟩
      have houts : Function.update (ledger s).boxes.outs i (s.backends i).out =
          (ledger s).boxes.outs := Function.update_eq_self i _
      have hcurrents : Function.update (ledger s).current i none = (ledger s).current := by
        rw [← currentOf_of_not_inXact houtside]
        exact Function.update_eq_self i _
      rw [List.filterMap_cons_none hnone, hout, houts, hcurrents]
      exact hs.settled
    · have hsome : closedOf finished = some ⟨(s.backends i).xact, (s.backends i).xactMessages,
          (s.backends i).commitPtr⟩ := by
        rw [← hfinished]
        exact if_pos hinside.2
      have hemitted := hs.settled.emit hmore.marks
      have hself : ((ledger s).emit Entry.xact i more).current i = currentOf live := by
        rw [hmore.current]
        exact Function.update_self ..
      rw [List.filterMap_cons_some hsome, hout, hmore.out]
      have hidem : Function.update ((ledger s).emit Entry.xact i more).current i none =
          Function.update (ledger s).current i none := Function.update_idem ..
      have hend : AroundCut.Inv Entry.xact (((ledger s).emit Entry.xact i more).close i
          ⟨(s.backends i).xact, (s.backends i).xactMessages, (s.backends i).commitPtr⟩) := by
        apply hemitted.close (hself.trans hlive) rfl rfl
        by_cases hwal : s.shmem.walReady = true
        · left
          exact ⟨if_pos hwal, hwal⟩
        · right
          refine ⟨if_neg hwal, ?_⟩
          intro ptr hptr lsn hlsn
          by_contra hbehind
          exact hwal (hintime hinside ptr hptr lsn hlsn (Nat.le_of_not_lt hbehind))
      rw [Ledger.close, hidem] at hend
      exact hend

theorem kept_start (hs : Kept s) (hfirst : s.published = []) (i : ι) (id : UInt32) :
    Kept (start s i id) := by
  have hstopped : s.shmem.running = false := by
    by_contra hrunning
    exact hs.once.published (Bool.eq_true_of_not_eq_false hrunning) hfirst
  obtain ⟨hready, hlsn⟩ := hs.once.stopped hstopped
  have hgeneration : s.shmem.generation = 0 := by
    rw [hs.once.generation, hstopped]
    rfl
  have hsync : ∀ j, (s.backends j).sync = .none := by
    intro j
    by_contra hactive
    cases hstopped.symm.trans (hs.once.sync j hactive).1
  obtain ⟨started, hstarted⟩ : ∃ started, captureStart id s.shmem = started := ⟨_, rfl⟩
  have hgenerationStarted : started.2.generation = 1 := by
    rw [← hstarted]
    exact congrArg (· + 1) hgeneration
  have hbackend : ∀ j, ∃ b, (start s i id).backends j = b ∧ Coherent true false b ∧ Captured b ∧
      b.out = (s.backends j).out ∧ currentOf b = currentOf (s.backends j) ∧
      (b.sync = .none ∨ b.sync = .decided ∧ b.syncGen = started.2.generation) := by
    intro j
    have hmarked : Coherent true false (s.backends j).markPre :=
      (coherent_markPre (hs.once.coherent j)).mono (fun _ => rfl) fun hwal =>
        hready.symm.trans hwal
    by_cases hstarter : j = i
    · obtain ⟨hdecided, hsame, hcaptured⟩ := coherent_decideSync hmarked started
      refine ⟨_, rfl, ?_⟩
      rw [start_backends, hstarted, hstarter, Function.update_self, ← hstarter]
      refine ⟨hdecided, hcaptured (hs.once.captured j), hsame.out, hsame.currentOf_eq, ?_⟩
      rw [Backend.decideSync]
      split_ifs
      · exact .inr ⟨rfl, rfl⟩
      · exact .inl (hsync j)
    · refine ⟨_, rfl, ?_⟩
      rw [start_backends, Function.update_of_ne hstarter]
      exact ⟨hmarked, hs.once.captured j, rfl, rfl, .inl (hsync j)⟩
  have hrunning : (start s i id).shmem.running = true := rfl
  constructor
  · constructor
    · change (captureStart id s.shmem).2.generation = 1
      rw [hstarted]
      exact hgenerationStarted
    · exact fun _ => List.cons_ne_nil _ _
    · rintro ⟨⟩
    · intro j hactive
      obtain ⟨b, hb, -, -, -, -, hnone | ⟨-, hcurrent⟩⟩ := hbackend j
      · rw [hb] at hactive
        exact absurd hnone hactive
      · rw [hb, hcurrent, ← hstarted]
        exact ⟨rfl, rfl⟩
    · exact fun hsome => absurd hlsn hsome
    · intro j hread
      obtain ⟨b, hb, -, -, -, -, hnone | ⟨hdecided, -⟩⟩ := hbackend j
      · rw [hb, hnone] at hread
        rcases hread with hpushed | ⟨ptr, hread⟩
        · cases hpushed
        · cases hread
      · rw [hb, hdecided] at hread
        rcases hread with hpushed | ⟨ptr, hread⟩
        · cases hpushed
        · cases hread
    · intro j
      obtain ⟨b, hb, hcoherent, -⟩ := hbackend j
      rw [hb]
      exact hcoherent
    · intro j
      obtain ⟨b, hb, -, hcaptured, -⟩ := hbackend j
      rw [hb]
      exact hcaptured
  · have houts : (fun j => ((start s i id).backends j).out) = fun j => (s.backends j).out := by
      funext j
      obtain ⟨b, hb, -, -, hout, -⟩ := hbackend j
      rw [hb, hout]
    have hcurrents : (fun j => currentOf ((start s i id).backends j)) =
        fun j => currentOf (s.backends j) := by
      funext j
      obtain ⟨b, hb, -, -, -, hcurrent, -⟩ := hbackend j
      rw [hb, hcurrent]
    have hledger : ledger (start s i id) = ledger s := by
      rw [ledger, ledger, houts, hcurrents, hready]
      rfl
    rw [hledger]
    exact hs.settled

/-- A backend that carries out the sync goes on. -/
theorem Once.carryOut (hs : Once s) {before sync : Sync} (hbefore : (s.backends i).sync = before)
    (hactive : before ≠ .none)
    (hbackends : s'.backends = Function.update s.backends i { s.backends i with sync := sync })
    (hrunning : s'.shmem.running = s.shmem.running)
    (hgeneration : s'.shmem.generation = s.shmem.generation)
    (hready : s.shmem.walReady = true → s'.shmem.walReady = true)
    (hpublished : s'.published = s.published) (hsome : s'.lsn ≠ none)
    (hlsn : 1 ≤ s'.lsnCount ∨ ∃ j ptr, (s'.backends j).sync = .read ptr) : Once s' := by
  obtain ⟨hstarted, hcurrent⟩ := hs.active hbefore hactive
  constructor
  · rw [hgeneration, hrunning]
    exact hs.generation
  · rw [hrunning, hpublished]
    exact hs.published
  · intro hstopped
    cases hstopped.symm.trans (hrunning.trans hstarted)
  · rw [hbackends, hrunning, hgeneration]
    apply (Function.forall_update_iff s.backends fun _ b => b.sync ≠ .none →
      s.shmem.running = true ∧ b.syncGen = s.shmem.generation).mpr
    exact ⟨fun _ => ⟨hstarted, hcurrent⟩, fun j _ => hs.sync j⟩
  · exact fun _ => hlsn
  · exact fun _ _ => hsome
  · rw [hbackends, hrunning]
    apply (Function.forall_update_iff s.backends fun _ b => Coherent _ _ b).mpr
    have hcoherent : ∀ j, Coherent s.shmem.running s'.shmem.walReady (s.backends j) :=
      fun j => (hs.coherent j).mono id hready
    exact ⟨{ hcoherent i with }, fun j _ => hcoherent j⟩
  · rw [hbackends]
    apply (Function.forall_update_iff s.backends fun _ b => Captured b).mpr
    exact ⟨hs.captured i, fun j _ => hs.captured j⟩

theorem kept_readInsertPtr (hs : Kept s) (hdecided : (s.backends i).sync = .decided)
    (hnone : s.lsn = none) :
    Kept { s.setBackend i { s.backends i with sync := .read s.insertPtr } with
      lsn := some s.insertPtr } := by
  constructor
  · refine hs.once.carryOut hdecided (by rintro ⟨⟩) rfl rfl rfl id rfl (Option.some_ne_none _)
      (.inr ⟨i, ?_⟩)
    exact ⟨s.insertPtr, congrArg Backend.sync (Function.update_self i _ s.backends)⟩
  · have hsame : ledger (s.setBackend i { s.backends i with sync := .read s.insertPtr }) =
        ledger s := backend_unseen s i rfl rfl
    have hledger : ledger { s.setBackend i { s.backends i with sync := .read s.insertPtr } with
        lsn := some s.insertPtr } = { ledger (s.setBackend i
          { s.backends i with sync := .read s.insertPtr }) with cut := some s.insertPtr } := rfl
    rw [hledger, hsame]
    exact hs.settled.takeCut hnone

theorem kept_pushLsn (hs : Kept s) {insertPtr : ℕ}
    (hread : (s.backends i).sync = .read insertPtr) :
    Kept { channelPush (s.setBackend i { s.backends i with sync := .pushed })
        ((s.backends i).lsnEntry insertPtr) with lsnCount := s.lsnCount + 1 } := by
  constructor
  · exact hs.once.carryOut hread (by rintro ⟨⟩) rfl rfl rfl id rfl
      (hs.once.read i (.inr ⟨insertPtr, hread⟩)) (.inl (Nat.le_add_left 1 _))
  · have hsame : ledger (s.setBackend i { s.backends i with sync := .pushed }) = ledger s :=
      backend_unseen s i rfl rfl
    have hledger : ledger { channelPush (s.setBackend i { s.backends i with sync := .pushed })
          ((s.backends i).lsnEntry insertPtr) with lsnCount := s.lsnCount + 1 } =
        { ledger (s.setBackend i { s.backends i with sync := .pushed }) with
          boxes := ⟨s.pushed ++ [(s.backends i).lsnEntry insertPtr],
            (ledger (s.setBackend i { s.backends i with sync := .pushed })).boxes.outs⟩ } := rfl
    rw [hledger, hsame]
    exact hs.settled.append rfl

theorem kept_setWalReady (hs : Kept s) (hpushed : (s.backends i).sync = .pushed)
    (hintime : InTime s (.setWalReady i)) :
    Kept { s.setBackend i { s.backends i with sync := .none } with
      shmem := { s.shmem with walReady := true } } := by
  have hsome := hs.once.read i (.inl hpushed)
  constructor
  · refine hs.once.carryOut hpushed (by rintro ⟨⟩) rfl rfl rfl (fun _ => rfl) rfl hsome ?_
    rcases hs.once.lsn hsome with hcount | ⟨j, ptr, hread⟩
    · exact .inl hcount
    · have hne : j ≠ i := by
        intro hsame
        rw [hsame, hpushed] at hread
        cases hread
      exact .inr ⟨j, ptr, (congrArg Backend.sync (Function.update_of_ne hne ..)).trans hread⟩
  · have hsame : ledger (s.setBackend i { s.backends i with sync := .none }) = ledger s :=
      backend_unseen s i rfl rfl
    have hledger : ledger { s.setBackend i { s.backends i with sync := .none } with
          shmem := { s.shmem with walReady := true } } =
        { ledger (s.setBackend i { s.backends i with sync := .none }) with ready := true } := rfl
    rw [hledger, hsame]
    apply hs.settled.tell hsome
    intro j xact ptr hxact hptr lsn hlsn
    by_cases hinside : InXact (s.backends j)
    · have hcurrent := (currentOf_of_inXact hinside).symm.trans hxact
      rw [← Option.some.inj hcurrent] at hptr
      exact hintime j hinside ptr hptr lsn hlsn
    · cases (currentOf_of_not_inXact hinside).symm.trans hxact

variable [Fintype ι]

omit [DecidableEq ι] in
/-- The insert position is read once. -/
theorem lsn_eq_none (hs : Once s) (hsync : SyncPoint.Inv s)
    (hdecided : (s.backends i).sync = .decided) : s.lsn = none := by
  have hunsent := hs.unsent hdecided (by rintro ⟨⟩) (by rintro ⟨⟩)
  have hduties : s.lsnCount + countIf (View.IsUnsent s.shmem.generation)
      (fun j => view (s.backends j)) ≤ 1 := (Nat.le_add_right _ _).trans hsync.duties
  by_contra hsome
  rcases hs.lsn hsome with hcount | ⟨j, ptr, hread⟩
  · have hone : 0 < countIf (View.IsUnsent s.shmem.generation) fun j => view (s.backends j) :=
      countIf_pos hunsent
    omega
  · have hne : j ≠ i := by
      intro hsame
      rw [hsame, hdecided] at hread
      cases hread
    have htwo : 1 < countIf (View.IsUnsent s.shmem.generation) fun j => view (s.backends j) :=
      one_lt_countIf hne (hs.unsent hread (by rintro ⟨⟩) (by rintro ⟨⟩)) hunsent
    omega

omit [Fintype ι] in
/-- No sync is carried out for another generation. -/
theorem currentSync_of_step {l : Label ι} (hs : Once s) (hone : OneCapture s l)
    (hstep : step s l = some s') : CurrentSync s l := by
  cases stepped_of_step hstep with
  | start hidle hid =>
      have hstopped : s.shmem.running = false := by
        by_contra hrunning
        exact hs.published (Bool.eq_true_of_not_eq_false hrunning) hone
      rw [CurrentSync, hs.generation, hstopped]
      decide
  | pushLsn hread => exact (hs.active hread (by rintro ⟨⟩)).2
  | setWalReady hpushed => exact (hs.active hpushed (by rintro ⟨⟩)).2
  | _ => trivial

theorem kept_step {l : Label ι} (hs : Kept s) (hsync : SyncPoint.Inv s) (hone : OneCapture s l)
    (hroom : NoOverflow s l) (hintime : InTime s l) (hstep : step s l = some s') : Kept s' := by
  cases stepped_of_step hstep with
  | @start i id hidle hid => exact kept_start hs hone i id
  | stop hidle => exact hone.elim
  | @hook i kind body inTransaction hidle hpsql hptr =>
      exact kept_hook hs hidle kind body inTransaction
  | @gate i sessionOk kind body hgating =>
      refine kept_gate hs hgating ?_
      rw [← hroom _ hstep i]
      exact congrArg Backend.txBufOverflow (Function.update_self i _ s.backends).symm
  | @abandon i sessionOk hbind hpasses => exact kept_abandon hs hbind sessionOk
  | push hout => exact kept_push hs hout
  | @insertCommit i size hidle hopen hptr => exact kept_insertCommit hs i size
  | @insertRecord size => exact kept_insertRecord hs size
  | leave hidle hopen => exact kept_leave hs hidle hopen
  | finish hfinishing => exact kept_finish hs hfinishing hintime
  | readInsertPtr hdecided hfinishing hout =>
      exact kept_readInsertPtr hs hdecided (lsn_eq_none hs.once hsync hdecided)
  | pushLsn hread => exact kept_pushLsn hs hread
  | setWalReady hpushed => exact kept_setWalReady hs hpushed hintime
  | exit hidle hclosed => exact kept_exit hs hidle hclosed
  | @connect i isPsql hgone => exact kept_connect hs hgone isPsql
  | workerTop | workerWrite | workerHold | workerDiscard | workerRunning | workerStopped
  | workerOpen | workerDone | workerTryExit | workerShutdown | workerSpawn =>
      exact hs.same rfl rfl rfl rfl rfl rfl

/-! ## Runs -/

/-- A committed transaction with its record in front of the LSN is not in the channel, and
one with its record behind is there with all its messages, once and in their order. -/
def AppliedOnce (s : State ι) (finished : FinishedXact) (ptr lsn : ℕ) : Prop :=
  ptr < lsn ∧
      (∀ i, markedBy Entry.xact finished.xact (s.pushed ++ (s.backends i).out) = []) ∨
    lsn ≤ ptr ∧ ∃ i,
      markedBy Entry.xact finished.xact (s.pushed ++ (s.backends i).out) = finished.messages ∧
        ∀ j, j ≠ i → markedBy Entry.xact finished.xact (s.backends j).out = []

instance (s : State ι) (finished : FinishedXact) (ptr lsn : ℕ) :
    Decidable (AppliedOnce s finished ptr lsn) :=
  inferInstanceAs (Decidable (_ ∨ _))

/-- Every committed transaction that was entered since the publication. -/
def EachApplied (s : State ι) : Prop :=
  s.shmem.running = true → ∀ finished ∈ s.finished, finished.gen = s.shmem.generation →
    ∀ ptr ∈ finished.commitPtr, ∀ lsn ∈ s.lsn, AppliedOnce s finished ptr lsn

instance (s : State ι) : Decidable (EachApplied s) :=
  inferInstanceAs (Decidable (_ → _))

structure RestoresOnce (s : State ι) : Prop where
  applied : EachApplied s
  /-- The messages of a transaction are those hooked in it. -/
  recorded : s.shmem.running = true → ∀ i, (s.backends i).txOpen = true →
    (s.backends i).txGen = s.shmem.generation → ∀ sessionOk kind body, ∃ entry,
      entry.msg = .hooked kind body ∧
        (captureGate sessionOk kind body { s.backends i with gating := none }
          s.shmem).1.xactMessages = (s.backends i).xactMessages ++ [entry]

instance (s : State ι) : DecidablePred (OneCapture s)
  | .start _ _ => inferInstanceAs (Decidable (s.published = []))
  | .stop _ => isFalse id
  | .hook .. | .gate .. | .abandon .. | .push _ | .insertCommit .. | .insertRecord _ | .leave _
  | .finish _ | .readInsertPtr _ | .pushLsn _ | .setWalReady _ | .exit _ | .connect .. | .workerTop
  | .workerPop | .workerCheck | .workerOpen | .workerDone _ | .workerTryExit | .workerShutdown
  | .workerSpawn => isTrue trivial

instance (s : State ι) : DecidablePred (NoOverflow s) := fun l =>
  inferInstanceAs (Decidable (∀ s' ∈ step s l, _))

instance (s : State ι) : DecidablePred (InTime s)
  | .setWalReady _ => inferInstanceAs (Decidable (∀ i, InXact (s.backends i) → _))
  | .finish i => inferInstanceAs (Decidable (InXact (s.backends i) → _))
  | .start .. | .stop _ | .hook .. | .gate .. | .abandon .. | .push _ | .insertCommit ..
  | .insertRecord _ | .leave _ | .readInsertPtr _ | .pushLsn _ | .exit _ | .connect ..
  | .workerTop | .workerPop | .workerCheck | .workerOpen | .workerDone _ | .workerTryExit
  | .workerShutdown | .workerSpawn => isTrue trivial

omit [DecidableEq ι] [Fintype ι] in
theorem kept_init (isPsql : ι → Bool) : Kept (State.init isPsql) := by
  have hcurrent : ∀ i, (ledger (State.init isPsql)).current i = none :=
    fun i => currentOf_of_not_inXact (not_inXact_init (isPsql i))
  have hnone : ∀ i xact, (ledger (State.init isPsql)).current i ≠ some xact := by
    intro i xact hxact
    cases (hcurrent i).symm.trans hxact
  constructor
  · constructor
    · rfl
    · rintro ⟨⟩
    · exact fun _ => ⟨rfl, rfl⟩
    · exact fun i hactive => absurd rfl hactive
    · exact fun hsome => absurd rfl hsome
    · rintro i (hpushed | ⟨ptr, hread⟩)
      · cases hpushed
      · cases hread
    · exact fun i => coherent_init (isPsql i)
    · exact fun i hinside => absurd hinside (not_inXact_init (isPsql i))
  · constructor
    · constructor
      · exact fun i xact hxact => absurd hxact (hnone i xact)
      · exact fun i j xact _ _ hxact => absurd hxact (hnone i xact)
      · exact List.forall_mem_nil _
    · constructor
      · exact fun i xact _ hxact => absurd hxact (hnone i xact)
      · exact fun i xact _ hxact => absurd hxact (hnone i xact)
      · rintro cut ⟨⟩
      · rintro ⟨⟩
    · exact fun i xact hxact => absurd hxact (hnone i xact)
    · exact fun xact _ i => ⟨rfl, fun _ _ => rfl⟩
    · exact List.forall_mem_nil _

omit [Fintype ι] in
theorem Kept.eachApplied (hs : Kept s) : EachApplied s := by
  intro hrunning finished hfinished hgen ptr hptr lsn hlsn
  have hclosed : closedOf finished =
      some ⟨finished.xact, finished.messages, finished.commitPtr⟩ :=
    if_pos (hgen.trans (hs.once.generation_eq hrunning))
  have hsettled := hs.settled.settled _ (List.mem_filterMap.mpr ⟨finished, hfinished, hclosed⟩)
  rcases hsettled.aroundCut hptr hlsn with ⟨hfront, j, hcarries⟩ | ⟨hbehind, j, hcarries⟩
  · left
    refine ⟨hfront, ?_⟩
    intro i
    obtain ⟨hchannel, hown⟩ := List.append_eq_nil_iff.mp (markedBy_append.symm.trans hcarries.own)
    rw [markedBy_append]
    by_cases hsame : i = j
    · rw [hsame]
      exact List.append_eq_nil_iff.mpr ⟨hchannel, hown⟩
    · exact List.append_eq_nil_iff.mpr ⟨hchannel, hcarries.other i hsame⟩
  · exact .inr ⟨hbehind, j, hcarries.own, hcarries.other⟩

/-- In a run of one capture in which nothing overflows and each decision is made in time,
restoring up to the LSN and replaying the capture applies every committed transaction
once. -/
theorem restoresOnce_of_reaches (isPsql : ι → Bool) {s : State ι}
    (hreaches : Reaches step (fun s l => (OneCapture s l ∧ NoOverflow s l) ∧ InTime s l)
      (State.init isPsql) s) : RestoresOnce s := by
  have hkept : Kept s ∧ SyncPoint.Inv s := by
    apply hreaches.invariant
    · exact ⟨kept_init isPsql, inv_init isPsql⟩
    · rintro s l s' ⟨hs, hsync⟩ ⟨⟨hone, hroom⟩, hintime⟩ hstep
      exact ⟨kept_step hs hsync hone hroom hintime hstep,
        inv_step s l s' hsync (currentSync_of_step hs.once hone hstep) hstep⟩
  constructor
  · exact hkept.1.eachApplied
  · intro hrunning i hopen hgen sessionOk kind body
    exact xactMessages_captureGate (b := { s.backends i with gating := none }) hrunning hopen hgen
      sessionOk kind body

end

def client : Fin 2 :=
  ⟨0, Nat.two_pos⟩

def starter : Fin 2 :=
  ⟨1, Nat.one_lt_two⟩

/-- A transaction commits in front of the LSN, and another once the capture is live. -/
def aroundLsn : List (Label (Fin 2)) :=
  [.start starter 1, .hook client .simpleQuery [1] true, .gate client true,
    .insertCommit client 8, .leave client, .finish client, .readInsertPtr starter,
    .pushLsn starter, .setWalReady starter, .hook client .simpleQuery [2] true,
    .gate client true, .push client, .push client, .insertCommit client 8, .leave client,
    .finish client]

theorem restoresOnce_aroundLsn : ∃ s : State (Fin 2),
    runWhile step (fun s l => (OneCapture s l ∧ NoOverflow s l) ∧ InTime s l)
        (State.init fun i => i = starter) aroundLsn = some s ∧
      s.lsn = some 9 ∧ s.finished.map FinishedXact.commitPtr = [some 9, some 0] ∧
        RestoresOnce s := by
  have hended : (runWhile step (fun s l => (OneCapture s l ∧ NoOverflow s l) ∧ InTime s l)
      (State.init fun i => i = starter) aroundLsn).map
        (fun s => (s.lsn, s.finished.map FinishedXact.commitPtr)) =
      some (some 9, [some 9, some 0]) := by decide +kernel
  obtain ⟨s, hrun, hs⟩ := Option.map_eq_some_iff.mp hended
  obtain ⟨hlsn, hfinished⟩ := Prod.mk.inj hs
  exact ⟨s, hrun, hlsn, hfinished, restoresOnce_of_reaches _ (reaches_of_runWhile hrun)⟩

/-- The commit record is inserted and the transaction finished between reading the insert
position and setting `wal_ready`: it is behind the LSN and dropped. -/
def droppedBehind : List (Label (Fin 2)) :=
  [.start starter 1, .hook client .simpleQuery [1] true, .gate client true, .readInsertPtr starter,
    .insertCommit client 8, .leave client, .finish client, .pushLsn starter, .setWalReady starter]

/-- The insert position is read and `wal_ready` set between inserting the commit record and
finishing the transaction: it is in front of the LSN and kept. -/
def keptInFront : List (Label (Fin 2)) :=
  [.start starter 1, .hook client .simpleQuery [1] true, .gate client true,
    .insertCommit client 8, .readInsertPtr starter, .pushLsn starter, .setWalReady starter,
    .leave client, .finish client, .push client, .push client]

/-- The LSN, the commit records of the finished transactions, and the transactions of the
messages in the channel. -/
def outcome (s : State (Fin 2)) : Option ℕ × List (Option ℕ) × List (Option ℕ) :=
  (s.lsn, s.finished.map FinishedXact.commitPtr, s.pushed.map Entry.xact)

theorem not_restoresOnce_of_runWhile {labels : List (Label (Fin 2))}
    {observed : Option ℕ × List (Option ℕ) × List (Option ℕ)}
    (hended : (runWhile step (fun s l => OneCapture s l ∧ NoOverflow s l)
      (State.init fun i => i = starter) labels).map (fun s => (outcome s, decide (EachApplied s))) =
        some (observed, false)) : ∃ s : State (Fin 2),
    runWhile step (fun s l => OneCapture s l ∧ NoOverflow s l) (State.init fun i => i = starter)
      labels = some s ∧ outcome s = observed ∧ ¬RestoresOnce s := by
  obtain ⟨s, hrun, hs⟩ := Option.map_eq_some_iff.mp hended
  obtain ⟨hobserved, happlied⟩ := Prod.mk.inj hs
  refine ⟨s, hrun, hobserved, ?_⟩
  intro honce
  exact of_decide_eq_false happlied honce.applied

/-- One transaction is lost, and one is applied twice. -/
theorem not_restoresOnce_untimely :
    (∃ s : State (Fin 2),
      runWhile step (fun s l => OneCapture s l ∧ NoOverflow s l) (State.init fun i => i = starter)
        droppedBehind = some s ∧ outcome s = (some 0, [some 0], [none]) ∧ ¬RestoresOnce s) ∧
    ∃ s : State (Fin 2),
      runWhile step (fun s l => OneCapture s l ∧ NoOverflow s l) (State.init fun i => i = starter)
        keptInFront = some s ∧ outcome s = (some 9, [some 0], [none, none, some 0]) ∧
          ¬RestoresOnce s := by
  constructor
  · exact not_restoresOnce_of_runWhile (by decide +kernel)
  · exact not_restoresOnce_of_runWhile (by decide +kernel)

end Pgr.ExactlyOnce
