import Pgr.Extension.OneBackend

/-!
# The captured stream of a backend

What a backend pushes under a generation, against the messages hooked while that
generation runs: nothing, or one Connect and every hooked message from the first
one of a transaction on.  The transaction at hand is buffered until `wal_ready`
is set; a buffer that has overflowed is thrown away, but a backend that goes
live in the middle of its transaction pushes the rest of it.  A Bind that is
abandoned behind the gate is in neither.
-/

namespace Pgr.CapturedStream

open Pgr.Shmem Pgr.Hooks Pgr.OneBackend Pgr.Transition

/-- The message is the first one of a transaction that has entered after the
publication. -/
def StartsXact (before : List HookedMessage) (m : HookedMessage) : Prop :=
  m.isPre = false ∧ ∃ xact, m.xact = some xact ∧ ∀ m' ∈ before, m'.xact ≠ some xact

/-- One Connect and the hooked messages, without a gap from the first one of a
transaction on. -/
def StreamsFrom (hooked : List HookedMessage) (clientId gen : UInt32) (out : List Entry)
    (before after : List HookedMessage) : Prop :=
  hooked = before ++ after ∧
    (∃ session, out = ⟨clientId, .connect session, gen, none⟩ ::
      after.map (HookedMessage.entry clientId gen)) ∧
    ∀ m ∈ after.head?, StartsXact before m

/-- What has been pushed since the last publication starts at the boundary of a
transaction and has no gap. -/
def StreamIsWhole (s : State) : Prop :=
  s.backend.out = [] ∨ ∃ clientId before after,
    StreamsFrom s.hooked clientId s.shmem.generation s.backend.out before after

/-- The generation that is published is not one the backend has to do with. -/
def FreshGeneration (s : State) : Label → Prop
  | .start _ => s.shmem.generation + 1 ≠ s.backend.myCaptureGen ∧
      (s.backend.txOpen = true → s.backend.txGen ≠ s.shmem.generation + 1)
  | _ => True

/-- The backend does not go live at a message of a transaction whose buffer has
overflowed. -/
def NotFromTheMiddle (s : State) : Label → Prop
  | .gate _ => s.backend.captureLive = false → s.backend.txOpen = true →
      Passes s.backend s.shmem → s.backend.myCaptureGen = s.shmem.generation →
      s.shmem.walReady = true → s.backend.txBufOverflow = false
  | _ => True

/-- A live backend that has pushed nothing but its Connect is at the gate only in a
transaction. -/
def ConnectThenXact (s : State) : Label → Prop
  | .gate _ => s.backend.captureLive = true → s.shmem.running = true →
      s.backend.myCaptureGen = s.shmem.generation → s.backend.out.length = 1 →
      s.backend.txOpen = true
  | _ => True

def StreamCond (s : State) (l : Label) : Prop :=
  FreshGeneration s l ∧ NotFromTheMiddle s l ∧ ConnectThenXact s l ∧ AbandonedDropped s l

instance (s : State) : DecidablePred (FreshGeneration s)
  | .start _ => inferInstanceAs (Decidable (s.shmem.generation + 1 ≠ s.backend.myCaptureGen ∧
      (s.backend.txOpen = true → s.backend.txGen ≠ s.shmem.generation + 1)))
  | .stop | .setWalReady | .others .. | .hook .. | .gate _ | .abandon _ | .leave | .finish =>
      .isTrue trivial

instance (s : State) : DecidablePred (NotFromTheMiddle s)
  | .gate _ => inferInstanceAs (Decidable (s.backend.captureLive = false →
      s.backend.txOpen = true → Passes s.backend s.shmem →
      s.backend.myCaptureGen = s.shmem.generation → s.shmem.walReady = true →
      s.backend.txBufOverflow = false))
  | .start _ | .stop | .setWalReady | .others .. | .hook .. | .abandon _ | .leave | .finish =>
      .isTrue trivial

instance (s : State) : DecidablePred (ConnectThenXact s)
  | .gate _ => inferInstanceAs (Decidable (s.backend.captureLive = true →
      s.shmem.running = true → s.backend.myCaptureGen = s.shmem.generation →
      s.backend.out.length = 1 → s.backend.txOpen = true))
  | .start _ | .stop | .setWalReady | .others .. | .hook .. | .abandon _ | .leave | .finish =>
      .isTrue trivial

instance (s : State) (l : Label) : Decidable (StreamCond s l) :=
  inferInstanceAs (Decidable (_ ∧ _ ∧ _ ∧ _))

/-! ## The invariant -/

/-- The hooked messages of the transaction at hand. -/
def mine (s : State) : List HookedMessage :=
  s.hooked.filter fun m => m.xact = some s.backend.xact

def rest (s : State) : List HookedMessage :=
  s.hooked.filter fun m => m.xact ≠ some s.backend.xact

def isActive (b : Backend) : Prop :=
  b.txOpen = true ∨ b.finishing = true

/-- The transaction at hand has entered after the publication. -/
def InNewXact (s : State) : Prop :=
  isActive s.backend ∧ s.backend.isPre = false

structure StreamInv (s : State) : Prop where
  hookedBelow : ∀ m ∈ s.hooked, ∀ xact, m.xact = some xact → xact < s.xacts
  activeBelow : isActive s.backend → s.backend.xact < s.xacts
  oneCallback : s.backend.finishing = true → s.backend.txOpen = false
  gating : s.backend.gating ≠ none → s.backend.finishing = false
  oldGen : s.backend.txOpen = true → s.backend.isPre = true →
    s.backend.txGen ≠ s.shmem.generation
  newGen : s.backend.txOpen = true → s.backend.isPre = false → s.shmem.running = true →
    s.backend.txGen = s.shmem.generation
  oldUnknown : isActive s.backend → s.backend.isPre = true →
    s.backend.myCaptureGen ≠ s.shmem.generation
  /-- The messages of the transaction at hand are the last ones. -/
  splits : InNewXact s → s.hooked = rest s ++ mine s
  mineNew : InNewXact s → ∀ m ∈ mine s, m.isPre = false
  /-- A Bind is abandoned behind the generation check. -/
  abandoned : InNewXact s → s.abandoned = true → s.backend.myCaptureGen = s.shmem.generation
  unknown : s.backend.myCaptureGen ≠ s.shmem.generation →
    s.backend.out = [] ∧ (InNewXact s → mine s = [])
  buffering : s.backend.myCaptureGen = s.shmem.generation → s.backend.captureLive = false →
    s.backend.out = [] ∧ (InNewXact s → s.backend.txBufOverflow = false →
      s.abandoned = false → s.backend.txBuf =
        (mine s).map (HookedMessage.entry s.backend.myClientId s.shmem.generation))
  streaming : s.backend.myCaptureGen = s.shmem.generation → s.backend.captureLive = true →
    ∃ before after,
      StreamsFrom s.hooked s.backend.myClientId s.shmem.generation s.backend.out before after ∧
      (after = [] → InNewXact s → mine s = [])

theorem StreamInv.streamIsWhole {s : State} (hinv : StreamInv s) : StreamIsWhole s := by
  by_cases hgen : s.backend.myCaptureGen = s.shmem.generation
  · cases hlive : s.backend.captureLive with
    | true =>
        obtain ⟨before, after, hstream, -⟩ := hinv.streaming hgen hlive
        exact .inr ⟨_, before, after, hstream⟩
    | false => exact .inl (hinv.buffering hgen hlive).1
  · exact .inl (hinv.unknown hgen).1

theorem streamInv_init : StreamInv State.init where
  hookedBelow := fun m hm => absurd hm List.not_mem_nil
  activeBelow := fun hactive => by simp [isActive, State.init, Backend.init] at hactive
  oneCallback := fun _ => rfl
  gating := fun _ => rfl
  oldGen := fun hopen => by simp [State.init, Backend.init] at hopen
  newGen := fun hopen => by simp [State.init, Backend.init] at hopen
  oldUnknown := fun _ hpre => by simp [State.init, Backend.init] at hpre
  splits := fun _ => rfl
  mineNew := fun _ m hm => absurd hm List.not_mem_nil
  abandoned := fun _ hlost => by simp [State.init] at hlost
  unknown := fun _ => ⟨rfl, fun _ => rfl⟩
  buffering := fun _ _ => ⟨rfl, fun _ _ _ => rfl⟩
  streaming := fun _ hlive => by simp [State.init, Backend.init] at hlive

theorem start_streamInv {s : State} (hinv : StreamInv s) (id : UInt32)
    (hgen : s.shmem.generation + 1 ≠ s.backend.myCaptureGen)
    (htxGen : s.backend.txOpen = true → s.backend.txGen ≠ s.shmem.generation + 1) :
    StreamInv (start s id) where
  hookedBelow := fun m hm => absurd hm List.not_mem_nil
  activeBelow := hinv.activeBelow
  oneCallback := hinv.oneCallback
  gating := hinv.gating
  oldGen := fun hopen _ => htxGen hopen
  newGen := fun _ hpre => by simp [start, Backend.markPre] at hpre
  oldUnknown := fun _ _ => hgen.symm
  splits := fun _ => rfl
  mineNew := fun _ m hm => absurd hm List.not_mem_nil
  abandoned := fun hnew => by simp [InNewXact, start, Backend.markPre] at hnew
  unknown := fun _ => ⟨rfl, fun _ => rfl⟩
  buffering := fun hknown => absurd hknown hgen.symm
  streaming := fun hknown => absurd hknown hgen.symm

theorem stop_streamInv {s : State} (hinv : StreamInv s) :
    StreamInv { s with shmem := channelStop s.shmem } :=
  { hinv with newGen := fun _ _ hrunning => by simp [channelStop] at hrunning }

/-- Shared memory may change in what is not about the capture itself. -/
theorem others_streamInv {s : State} (hinv : StreamInv s) (nextClientId : UInt32)
    (openXacts pendingXacts : ℕ) (walReady : Bool) (statements : UInt64) :
    StreamInv { s with shmem := { s.shmem with
      nextClientId := nextClientId
      openXacts := openXacts
      pendingXacts := pendingXacts
      walReady := walReady
      statements := statements } } :=
  { hinv with }

/-- A new number has no messages. -/
theorem filter_of_below {hooked : List HookedMessage} {xacts : ℕ}
    (hbelow : ∀ m ∈ hooked, ∀ xact, m.xact = some xact → xact < xacts) :
    (hooked.filter fun m => m.xact = some xacts) = [] ∧
      (hooked.filter fun m => m.xact ≠ some xacts) = hooked := by
  have hother : ∀ m ∈ hooked, m.xact ≠ some xacts := fun m hm hxact =>
    lt_irrefl xacts (hbelow m hm xacts hxact)
  constructor
  · rw [List.filter_eq_nil_iff]
    intro m hm
    simpa using hother m hm
  · rw [List.filter_eq_self]
    intro m hm
    simpa using hother m hm

theorem hook_streamInv {s : State} (hinv : StreamInv s) (hfinishing : s.backend.finishing = false)
    (kind : HookKind) (body : List UInt8) (inTransaction : Bool) :
    StreamInv (hook s kind body inTransaction) := by
  obtain ⟨nextClientId, statements, hnoted⟩ := sameCapture_noteStatement kind s.backend s.shmem
  by_cases henters : s.backend.txOpen = false ∧ inTransaction = true
  · obtain ⟨statementIndex, txBuf, txBufOverflow, count, hhook, hreset⟩ :=
      hook_enters kind body henters
    rw [hhook, hnoted]
    obtain ⟨hmine, hrest⟩ := filter_of_below hinv.hookedBelow
    constructor
    case hookedBelow =>
      exact fun m hm xact hxact => (hinv.hookedBelow m hm xact hxact).trans (Nat.lt_succ_self _)
    case activeBelow => exact fun _ => Nat.lt_succ_self _
    case oneCallback => exact fun hcallback => absurd hcallback (by simp [hfinishing])
    case gating => exact fun _ => hfinishing
    case oldGen => exact fun _ hpre => absurd hpre (by simp)
    case newGen => exact fun _ _ hrunning => if_pos hrunning
    case oldUnknown => exact fun _ hpre => absurd hpre (by simp)
    case splits =>
      intro _
      simp only [rest, mine]
      rw [hmine, hrest, List.append_nil]
    case mineNew =>
      intro _ m hm
      simp only [mine] at hm
      rw [hmine] at hm
      exact absurd hm List.not_mem_nil
    case abandoned => exact fun _ hlost => by simp at hlost
    case unknown => exact fun hgen => ⟨(hinv.unknown hgen).1, fun _ => hmine⟩
    case buffering =>
      intro hgen hlive
      refine ⟨(hinv.buffering hgen hlive).1, fun _ _ _ => ?_⟩
      simp only [mine]
      rw [hmine]
      exact (hreset hlive).1
    case streaming =>
      intro hgen hlive
      obtain ⟨before, after, hstream, -⟩ := hinv.streaming hgen hlive
      exact ⟨before, after, hstream, fun _ _ => hmine⟩
  · obtain ⟨statementIndex, hhook⟩ := hook_same kind body henters
    rw [hhook, hnoted]
    exact { hinv with gating := fun _ => hfinishing }

/-! ## At the gate -/

theorem isPre_of_passes {s : State} (hinv : StreamInv s) (hpasses : Passes s.backend s.shmem)
    (hopen : s.backend.txOpen = true) : s.backend.isPre = false := by
  by_contra hpre
  have hold := hinv.oldGen hopen (by simpa using hpre)
  exact hpasses.2 ⟨hopen, by simp [xactIsPre, hpasses.1, hold]⟩

theorem isPre_of_not_passes {s : State} (hinv : StreamInv s)
    (hpasses : ¬Passes s.backend s.shmem) (hrunning : s.shmem.running = true) :
    s.backend.txOpen = true ∧ s.backend.isPre = true := by
  have hpre : s.backend.txOpen = true ∧ xactIsPre s.backend.txGen s.shmem = true := by
    by_contra hnot
    exact hpasses ⟨hrunning, hnot⟩
  refine ⟨hpre.1, ?_⟩
  by_contra hnew
  have hgen := hinv.newGen hpre.1 (by simpa using hnew) hrunning
  simp [xactIsPre, hgen] at hpre

/-- The message of an old transaction is held back. -/
theorem held_streamInv {s : State} (hinv : StreamInv s) (m : HookedMessage)
    (hopen : s.backend.txOpen = true) (hpre : s.backend.isPre = true)
    (hm : m.xact = some s.backend.xact) :
    StreamInv { s with backend := ungated s.backend, hooked := s.hooked ++ [m] } := by
  have hactive : isActive s.backend := .inl hopen
  have hgen := hinv.oldUnknown hactive hpre
  have hnotNew : ∀ hooked : List HookedMessage,
      ¬InNewXact { s with backend := ungated s.backend, hooked := hooked } := by
    rintro hooked ⟨-, hnew⟩
    simp [ungated, hpre] at hnew
  constructor
  case hookedBelow =>
    intro m' hm' xact hxact
    rcases List.mem_append.mp hm' with hm' | hm'
    · exact hinv.hookedBelow m' hm' xact hxact
    · rw [List.mem_singleton.mp hm', hm, Option.some.injEq] at hxact
      exact hxact ▸ hinv.activeBelow hactive
  case activeBelow => exact hinv.activeBelow
  case oneCallback => exact hinv.oneCallback
  case gating => exact fun hnone => absurd rfl hnone
  case oldGen => exact hinv.oldGen
  case newGen => exact hinv.newGen
  case oldUnknown => exact hinv.oldUnknown
  case splits => exact fun hnew => absurd hnew (hnotNew _)
  case mineNew => exact fun hnew => absurd hnew (hnotNew _)
  case abandoned => exact fun hnew => absurd hnew (hnotNew _)
  case unknown => exact fun _ => ⟨(hinv.unknown hgen).1, fun hnew => absurd hnew (hnotNew _)⟩
  case buffering => exact fun hknown => absurd hknown hgen
  case streaming => exact fun hknown => absurd hknown hgen

/-- Behind the generation check nothing is pushed or buffered that is not of the
transaction at hand. -/
theorem noteGeneration_streamInv {s : State} {noted : Backend × SharedMemory}
    (hinv : StreamInv s) (hnew : isActive s.backend → s.backend.isPre = false)
    (hnoted : noteGeneration (ungated s.backend) s.shmem = noted) :
    StreamInv { s with shmem := noted.2, backend := noted.1 } ∧
      noted.1.myCaptureGen = noted.2.generation := by
  by_cases hgen : s.backend.myCaptureGen = s.shmem.generation
  · rw [noteGeneration_of_eq (by exact hgen)] at hnoted
    subst hnoted
    exact ⟨{ hinv with gating := fun hnone => absurd rfl hnone }, hgen⟩
  · have hunknown : (ungated s.backend).myCaptureGen ≠ s.shmem.generation := hgen
    obtain ⟨sessionName, skipSnap, hfresh⟩ := noteGeneration_of_ne hunknown
    rw [hfresh] at hnoted
    subst hnoted
    obtain ⟨hout, hmine⟩ := hinv.unknown hgen
    refine ⟨?_, rfl⟩
    exact { hinv with
      gating := fun hnone => absurd rfl hnone
      oldUnknown := fun hactive hpre => by
        have hpost := hnew hactive
        simp [ungated, Backend.resetTxBuf, hpost] at hpre
      abandoned := fun _ _ => rfl
      unknown := fun hother => absurd rfl hother
      buffering := fun _ _ =>
        ⟨hout, fun hxact _ _ => (congrArg (List.map _) (hmine hxact)).symm⟩
      streaming := fun _ hlive => by simp at hlive }

/-- The message is the next one of the transaction at hand. -/
theorem mine_append {s : State} {m : HookedMessage} (hm : m.xact = some s.backend.xact) :
    (s.hooked ++ [m]).filter (fun m' => m'.xact = some s.backend.xact) = mine s ++ [m] ∧
      (s.hooked ++ [m]).filter (fun m' => m'.xact ≠ some s.backend.xact) = rest s := by
  rw [List.filter_append, List.filter_append, List.filter_singleton, List.filter_singleton]
  simp [mine, rest, hm]

theorem openXact_of_open {b : Backend} (hopen : b.txOpen = true) : b.openXact = some b.xact :=
  if_pos hopen

/-- A message behind the generation check, whatever becomes of it. -/
theorem extend_streamInv {s : State} {m : HookedMessage} (hinv : StreamInv s)
    (hknown : s.backend.myCaptureGen = s.shmem.generation)
    (hfinishing : s.backend.finishing = false)
    (hxact : m.xact = s.backend.openXact) (hpre : m.isPre = s.backend.isPre)
    (statements : UInt64) (sessionActive skipSnap txCaptured captureLive txBufOverflow : Bool)
    (count : ℕ) (txBuf out xactMessages : List Entry) (abandoned : Bool)
    (hbuffers : captureLive = false → out = [] ∧
      (s.backend.txOpen = true → txBufOverflow = false → abandoned = false → txBuf =
        (mine s ++ [m]).map (HookedMessage.entry s.backend.myClientId s.shmem.generation)))
    (hstreams : captureLive = true → ∃ before after,
      StreamsFrom (s.hooked ++ [m]) s.backend.myClientId s.shmem.generation out before after ∧
      after ≠ []) :
    StreamInv { s with
      shmem := { s.shmem with statements := statements }
      backend := { s.backend with
        sessionActive := sessionActive
        skipSnap := skipSnap
        lastTxStatementCount := count
        txCaptured := txCaptured
        captureLive := captureLive
        txBufOverflow := txBufOverflow
        txBuf := txBuf
        out := out
        xactMessages := xactMessages }
      hooked := s.hooked ++ [m]
      abandoned := abandoned } := by
  have hopen : isActive s.backend → s.backend.txOpen = true := by
    rintro (hopen | hcallback)
    · exact hopen
    · simp [hfinishing] at hcallback
  have hmineAppend : isActive s.backend →
      (s.hooked ++ [m]).filter (fun m' => m'.xact = some s.backend.xact) = mine s ++ [m] ∧
        (s.hooked ++ [m]).filter (fun m' => m'.xact ≠ some s.backend.xact) = rest s :=
    fun hactive => mine_append (hxact.trans (openXact_of_open (hopen hactive)))
  constructor
  case hookedBelow =>
    intro m' hm' xact hxact'
    rcases List.mem_append.mp hm' with hm' | hm'
    · exact hinv.hookedBelow m' hm' xact hxact'
    · rw [List.mem_singleton.mp hm', hxact, Backend.openXact] at hxact'
      split_ifs at hxact' with hisOpen
      rw [Option.some.injEq] at hxact'
      exact hxact' ▸ hinv.activeBelow (.inl hisOpen)
  case activeBelow => exact hinv.activeBelow
  case oneCallback => exact hinv.oneCallback
  case gating => exact fun _ => hfinishing
  case oldGen => exact hinv.oldGen
  case newGen => exact hinv.newGen
  case oldUnknown => exact hinv.oldUnknown
  case splits =>
    intro hnew
    obtain ⟨hmine, hrest⟩ := hmineAppend hnew.1
    simp only [mine, rest] at hmine hrest ⊢
    rw [hmine, hrest, ← List.append_assoc]
    exact congrArg (· ++ [m]) (hinv.splits hnew)
  case mineNew =>
    intro hnew m' hm'
    obtain ⟨hmine, -⟩ := hmineAppend hnew.1
    simp only [mine] at hm' hmine
    rw [hmine] at hm'
    rcases List.mem_append.mp hm' with hm' | hm'
    · exact hinv.mineNew hnew m' hm'
    · rw [List.mem_singleton.mp hm', hpre]
      exact hnew.2
  case abandoned => exact fun _ _ => hknown
  case unknown => exact fun hunknown => absurd hknown hunknown
  case buffering =>
    intro _ hdead
    refine ⟨(hbuffers hdead).1, fun hnew hoverflow hkept => ?_⟩
    simp only [mine]
    rw [(hmineAppend hnew.1).1]
    exact (hbuffers hdead).2 (hopen hnew.1) hoverflow hkept
  case streaming =>
    intro _ hlive
    obtain ⟨before, after, hstream, hnonempty⟩ := hstreams hlive
    exact ⟨before, after, hstream, fun hempty => absurd hempty hnonempty⟩

/-- A backend that is live pushes the message; behind a bare Connect it has to be
the first one of its transaction. -/
theorem streamsFrom_append {s : State} {m : HookedMessage} (hinv : StreamInv s)
    (hknown : s.backend.myCaptureGen = s.shmem.generation)
    (hlive : s.backend.captureLive = true)
    (hnew : s.backend.txOpen = true → s.backend.isPre = false)
    (hxact : m.xact = s.backend.openXact) (hpre : m.isPre = s.backend.isPre)
    (hconnect : s.backend.out.length = 1 → s.backend.txOpen = true) :
    ∃ before after,
      StreamsFrom (s.hooked ++ [m]) s.backend.myClientId s.shmem.generation
        (s.backend.out ++ [m.entry s.backend.myClientId s.shmem.generation]) before after ∧
      after ≠ [] := by
  obtain ⟨before, after, ⟨hsplit, ⟨session, hout⟩, hhead⟩, hfirst⟩ := hinv.streaming hknown hlive
  refine ⟨before, after ++ [m], ⟨?_, ⟨session, ?_⟩, ?_⟩, by simp⟩
  · rw [hsplit, List.append_assoc]
  · rw [hout, List.map_append]
    rfl
  · intro first hmem
    cases after with
    | cons head tail => exact hhead first (by simpa using hmem)
    | nil =>
        have hopen := hconnect (by rw [hout]; rfl)
        have hpost := hnew hopen
        have hmine := hfirst rfl ⟨.inl hopen, hpost⟩
        have hm : first = m := by simpa using hmem.symm
        rw [hm]
        refine ⟨hpre.trans hpost, s.backend.xact, hxact.trans (openXact_of_open hopen), ?_⟩
        intro m' hm'
        have hnotMine := List.filter_eq_nil_iff.mp hmine m' (by simpa [hsplit] using hm')
        simpa using hnotMine

/-- Going live with the whole transaction starts the stream at its first message. -/
theorem streamsFrom_mine {s : State} (hinv : StreamInv s) (hnew : InNewXact s)
    (last : List HookedMessage) (session : String)
    (hlast : ∀ m ∈ last, m.xact = some s.backend.xact ∧ m.isPre = false) :
    StreamsFrom (s.hooked ++ last) s.backend.myClientId s.shmem.generation
      (⟨s.backend.myClientId, .connect session, s.shmem.generation, none⟩ ::
        (mine s ++ last).map (HookedMessage.entry s.backend.myClientId s.shmem.generation))
      (rest s) (mine s ++ last) := by
  refine ⟨?_, ⟨session, rfl⟩, ?_⟩
  · conv_lhs => rw [hinv.splits hnew]
    rw [List.append_assoc]
  · intro first hfirst
    have hmem : first ∈ mine s ++ last := List.mem_of_mem_head? hfirst
    have hof : first.isPre = false ∧ first.xact = some s.backend.xact := by
      rcases List.mem_append.mp hmem with hmine | hlater
      · exact ⟨hinv.mineNew hnew first hmine, by simpa using (List.mem_filter.mp hmine).2⟩
      · exact ⟨(hlast first hlater).2, (hlast first hlater).1⟩
    refine ⟨hof.1, s.backend.xact, hof.2, fun m hm => ?_⟩
    simpa using (List.mem_filter.mp hm).2

/-- What going live pushes if the buffer is whole. -/
theorem goLive_pushes {s : State} (hinv : StreamInv s)
    (hknown : s.backend.myCaptureGen = s.shmem.generation)
    (hlive : s.backend.captureLive = false) (hnew : InNewXact s)
    (hoverflow : s.backend.txBufOverflow = false) (hkept : s.abandoned = false)
    (session : String) :
    s.backend.out ++ s.backend.entry (.connect session) none ::
        (if s.backend.txBufOverflow then [] else s.backend.txBuf) =
      ⟨s.backend.myClientId, .connect session, s.shmem.generation, none⟩ ::
        (mine s).map (HookedMessage.entry s.backend.myClientId s.shmem.generation) := by
  obtain ⟨hout, hbuffer⟩ := hinv.buffering hknown hlive
  rw [hout, hoverflow, hbuffer hnew hoverflow hkept, Backend.entry, hknown]
  rfl

/-- Going live at a message of the transaction at hand. -/
theorem goLive_streams {s : State} {m : HookedMessage} (hinv : StreamInv s)
    (hknown : s.backend.myCaptureGen = s.shmem.generation)
    (hlive : s.backend.captureLive = false) (hnew : InNewXact s)
    (hoverflow : s.backend.txBufOverflow = false) (hkept : s.abandoned = false)
    (session : String) (hm : m.xact = some s.backend.xact ∧ m.isPre = false) :
    ∃ before after,
      StreamsFrom (s.hooked ++ [m]) s.backend.myClientId s.shmem.generation
        (s.backend.out ++ s.backend.entry (.connect session) none ::
          (if s.backend.txBufOverflow then [] else s.backend.txBuf) ++
            [m.entry s.backend.myClientId s.shmem.generation]) before after ∧
      after ≠ [] := by
  have hstream := streamsFrom_mine hinv hnew [m] session fun m' hm' =>
    List.mem_singleton.mp hm' ▸ hm
  refine ⟨rest s, mine s ++ [m], ?_, by simp⟩
  rw [goLive_pushes hinv hknown hlive hnew hoverflow hkept session]
  rw [List.map_append] at hstream
  exact hstream

theorem noteGeneration_same {b : Backend} {c : SharedMemory} {noted : Backend × SharedMemory}
    (hnoted : noteGeneration b c = noted) :
    noted.1.txOpen = b.txOpen ∧ noted.1.isPre = b.isPre ∧ noted.1.xact = b.xact ∧
      noted.1.finishing = b.finishing ∧ noted.2.walReady = c.walReady ∧
      noted.2.running = c.running := by
  by_cases hgen : b.myCaptureGen = c.generation
  · rw [noteGeneration_of_eq hgen] at hnoted
    subst hnoted
    exact ⟨rfl, rfl, rfl, rfl, rfl, rfl⟩
  · obtain ⟨sessionName, skipSnap, hfresh⟩ := noteGeneration_of_ne hgen
    rw [hfresh] at hnoted
    subst hnoted
    exact ⟨rfl, rfl, rfl, rfl, rfl, rfl⟩

/-- A backend that is still live behind the check has known the generation. -/
theorem noteGeneration_live {b : Backend} {c : SharedMemory} {noted : Backend × SharedMemory}
    (hnoted : noteGeneration b c = noted) (hlive : noted.1.captureLive = true) :
    noted = (b, c) ∧ b.myCaptureGen = c.generation := by
  by_cases hgen : b.myCaptureGen = c.generation
  · rw [noteGeneration_of_eq hgen] at hnoted
    exact ⟨hnoted.symm, hgen⟩
  · obtain ⟨sessionName, skipSnap, hfresh⟩ := noteGeneration_of_ne hgen
    rw [hfresh] at hnoted
    subst hnoted
    simp at hlive

/-- An overflow behind the check is one of the same generation. -/
theorem noteGeneration_overflow {b : Backend} {c : SharedMemory}
    {noted : Backend × SharedMemory} (hnoted : noteGeneration b c = noted)
    (hlive : noted.1.captureLive = false)
    (hb : b.captureLive = false → b.myCaptureGen = c.generation → b.txBufOverflow = false) :
    noted.1.txBufOverflow = false := by
  by_cases hgen : b.myCaptureGen = c.generation
  · rw [noteGeneration_of_eq hgen] at hnoted
    subst hnoted
    exact hb hlive hgen
  · obtain ⟨sessionName, skipSnap, hfresh⟩ := noteGeneration_of_ne hgen
    rw [hfresh] at hnoted
    subst hnoted
    rfl

/-- A message that has passed the generation check. -/
structure Noted (s : State) (noted : Backend × SharedMemory) (m : HookedMessage) : Prop where
  inv : StreamInv { s with shmem := noted.2, backend := noted.1 }
  known : noted.1.myCaptureGen = noted.2.generation
  finishing : noted.1.finishing = false
  xact : m.xact = noted.1.openXact
  isPre : m.isPre = noted.1.isPre
  new : noted.1.txOpen = true → noted.1.isPre = false

theorem noted_of_passes {s : State} {noted : Backend × SharedMemory} (hinv : StreamInv s)
    (hgating : s.backend.gating ≠ none) (hpasses : Passes (ungated s.backend) s.shmem)
    (hnoted : noteGeneration (ungated s.backend) s.shmem = noted) (kind : HookKind)
    (body : List UInt8) :
    Noted s noted ⟨kind, body, (ungated s.backend).openXact, (ungated s.backend).isPre⟩ := by
  have hfinishing : s.backend.finishing = false := hinv.gating hgating
  have hopenNew := isPre_of_passes hinv hpasses
  have hnew : isActive s.backend → s.backend.isPre = false := by
    rintro (hopen | hcallback)
    · exact hopenNew hopen
    · simp [hfinishing] at hcallback
  obtain ⟨hnotedInv, hknown⟩ := noteGeneration_streamInv hinv hnew hnoted
  obtain ⟨hsameOpen, hsamePre, hsameXact, hsameFinishing, -, -⟩ := noteGeneration_same hnoted
  refine ⟨hnotedInv, hknown, hsameFinishing.trans hfinishing, ?_, hsamePre.symm, ?_⟩
  · simp only [Backend.openXact, hsameOpen, hsameXact]
  · exact fun hopen => hsamePre.trans (hopenNew (hsameOpen.symm.trans hopen))

/-- Nothing of a transaction of the capture has been abandoned when its backend may go live. -/
theorem abandoned_of_noted {s : State} {noted : Backend × SharedMemory} (hinv : StreamInv s)
    (hpasses : Passes (ungated s.backend) s.shmem)
    (hnoted : noteGeneration (ungated s.backend) s.shmem = noted)
    (hlive : noted.1.captureLive = false) (hopen : noted.1.txOpen = true)
    (hready : noted.2.walReady = true) {sessionOk : Bool}
    (hdropped : AbandonedDropped s (.gate sessionOk)) : s.abandoned = false := by
  obtain ⟨hsameOpen, -, -, -, hsameReady, -⟩ := noteGeneration_same hnoted
  have hwasOpen : s.backend.txOpen = true := hsameOpen.symm.trans hopen
  by_contra hlost
  have hknown := hinv.abandoned ⟨.inl hwasOpen, isPre_of_passes hinv hpasses hwasOpen⟩
    (by simpa using hlost)
  rw [noteGeneration_of_eq (by exact hknown)] at hnoted
  subst hnoted
  exact hlost (hdropped hlive hwasOpen hpasses hknown hready)

theorem gate_streamInv {s : State} {kind : HookKind} {body : List UInt8} (hinv : StreamInv s)
    (hgating : s.backend.gating = some (kind, body)) (sessionOk : Bool)
    (hmiddle : NotFromTheMiddle s (.gate sessionOk))
    (hconnect : ConnectThenXact s (.gate sessionOk))
    (hdropped : AbandonedDropped s (.gate sessionOk)) :
    StreamInv (gate s sessionOk kind body) := by
  by_cases hpasses : Passes (ungated s.backend) s.shmem
  · obtain ⟨noted, hnoted⟩ : ∃ noted,
        noteGeneration (ungated s.backend) s.shmem = noted := ⟨_, rfl⟩
    obtain ⟨hsameOpen, -, -, -, hsameReady, -⟩ := noteGeneration_same hnoted
    obtain ⟨m, hm⟩ : ∃ m : HookedMessage,
        ⟨kind, body, (ungated s.backend).openXact, (ungated s.backend).isPre⟩ = m := ⟨_, rfl⟩
    have hat := noted_of_passes hinv (by simp [hgating]) hpasses hnoted kind body
    rw [hm] at hat
    have hentry : noted.1.entry (.hooked kind body) noted.1.openXact =
        m.entry noted.1.myClientId noted.2.generation := by
      rw [Backend.entry, HookedMessage.entry, hat.known, hat.xact, ← hm]
    rw [gate, hm, if_pos hpasses.1]
    cases hlive : noted.1.captureLive with
    | true =>
        obtain ⟨hsame, hwasKnown⟩ := noteGeneration_live hnoted hlive
        obtain ⟨txCaptured, xactMessages, hgate⟩ := captureGate_live sessionOk kind body
          hpasses hnoted hlive
        rw [hgate, hentry]
        apply extend_streamInv hat.inv hat.known hat.finishing hat.xact hat.isPre
        · exact fun hdead => by simp [hlive] at hdead
        · intro _
          apply streamsFrom_append hat.inv hat.known hlive hat.new hat.xact hat.isPre
          intro hbare
          subst hsame
          exact hconnect hlive hpasses.1 hwasKnown hbare
    | false =>
        obtain ⟨hout, hbuffer⟩ := hat.inv.buffering hat.known hlive
        cases hopen : noted.1.txOpen with
        | false =>
            rw [captureGate_outside _ _ _ hpasses hnoted hlive hopen]
            apply extend_streamInv hat.inv hat.known hat.finishing hat.xact hat.isPre
            · exact fun _ => ⟨hout, fun hisOpen => by simp [hopen] at hisOpen⟩
            · exact fun hisLive => by simp [hlive] at hisLive
        | true =>
            have hinNew : InNewXact { s with shmem := noted.2, backend := noted.1 } :=
              ⟨.inl hopen, hat.new hopen⟩
            have hlast : m.xact = some noted.1.xact ∧ m.isPre = false :=
              ⟨hat.xact.trans (openXact_of_open hopen), hat.isPre.trans (hat.new hopen)⟩
            cases hready : noted.2.walReady with
            | true =>
                have hoverflow := noteGeneration_overflow hnoted hlive fun hdead hgen =>
                  hmiddle hdead (hsameOpen.symm.trans hopen) hpasses hgen
                    (hsameReady.symm.trans hready)
                have hkept := abandoned_of_noted hinv hpasses hnoted hlive hopen hready hdropped
                obtain ⟨skipSnap, txCaptured, xactMessages, session, hgate⟩ :=
                  captureGate_ready sessionOk kind body hpasses hnoted hlive hopen hready
                rw [hgate, hentry]
                apply extend_streamInv hat.inv hat.known hat.finishing hat.xact hat.isPre
                · exact fun hdead => by simp at hdead
                · exact fun _ =>
                    goLive_streams hat.inv hat.known hlive hinNew hoverflow hkept session hlast
            | false =>
                obtain ⟨sessionActive, skipSnap, txCaptured, xactMessages, hgate⟩ :=
                  captureGate_waiting sessionOk kind body hpasses hnoted hlive hopen hready
                obtain ⟨txBufOverflow, txBuf, hadd, hfits⟩ := txBufAdd_eq
                  (noted.1.entry (.hooked kind body) noted.1.openXact) { noted.1 with
                    sessionActive := sessionActive
                    skipSnap := skipSnap
                    lastTxStatementCount := noted.1.lastTxStatementCount + 1
                    txCaptured := txCaptured
                    xactMessages := xactMessages }
                rw [hgate, hadd]
                apply extend_streamInv hat.inv hat.known hat.finishing hat.xact hat.isPre
                · refine fun _ => ⟨hout, fun _ hnoOverflow hkept => ?_⟩
                  obtain ⟨hwasNone, hadded⟩ := hfits hnoOverflow
                  rw [hadded, hentry, List.map_append]
                  exact congrArg (· ++ _) (hbuffer hinNew hwasNone hkept)
                · exact fun hisLive => by simp [hlive] at hisLive
  · rw [gate, captureGate_of_not_passes _ _ _ hpasses]
    split_ifs with hrunning
    · obtain ⟨hopen, hpre⟩ := isPre_of_not_passes hinv hpasses hrunning
      exact held_streamInv hinv _ hopen hpre (openXact_of_open (by exact hopen))
    · exact { hinv with gating := fun hnone => absurd rfl hnone }

theorem dead_of_abandonedDropped {s : State} {noted : Backend × SharedMemory}
    (hnoted : noteGeneration (ungated s.backend) s.shmem = noted) {sessionOk : Bool}
    (hdropped : AbandonedDropped s (.abandon sessionOk)) : noted.1.captureLive = false := by
  by_contra hisLive
  obtain ⟨hsame, hknown⟩ := noteGeneration_live hnoted (by simpa using hisLive)
  rw [hsame] at hisLive
  exact hdropped.1 ⟨by simpa [ungated] using hisLive, hknown⟩

/-- An abandoned Bind is missing in the buffer, which is then not to be pushed. -/
theorem abandon_streamInv {s : State} {body : List UInt8} (hinv : StreamInv s)
    (hgating : s.backend.gating = some (.bind, body)) {sessionOk : Bool}
    (hpass : (passGate sessionOk (ungated s.backend) s.shmem).1 = true)
    (hdropped : AbandonedDropped s (.abandon sessionOk)) :
    StreamInv (abandon s sessionOk body) := by
  obtain ⟨noted, hnoted⟩ : ∃ noted,
      noteGeneration (ungated s.backend) s.shmem = noted := ⟨_, rfl⟩
  have hlive := dead_of_abandonedDropped hnoted hdropped
  obtain ⟨-, -, -, -, hsameReady, -⟩ := noteGeneration_same hnoted
  obtain ⟨hpasses, -, sessionActive, skipSnap, habandoned⟩ :=
    abandonedGate_buffering sessionOk hpass hnoted hlive (hsameReady.trans hdropped.2)
  have hat := noted_of_passes hinv (by simp [hgating]) hpasses hnoted .bind body
  rw [abandon, habandoned]
  apply extend_streamInv hat.inv hat.known hat.finishing hat.xact hat.isPre
  · refine fun _ => ⟨(hat.inv.buffering hat.known hlive).1, fun _ _ hkept => ?_⟩
    simp at hkept
  · exact fun hisLive => by simp [hlive] at hisLive

/-! ## The transaction callback -/

theorem leave_streamInv {s : State} (hinv : StreamInv s) (hgating : s.backend.gating = none)
    (hopen : s.backend.txOpen = true) : StreamInv (leave s) := by
  have hshared : ∃ openXacts pendingXacts, (xactLeaveShared s.backend.txGen s.shmem).2 =
      { s.shmem with openXacts := openXacts, pendingXacts := pendingXacts } := by
    rw [xactLeaveShared]
    split_ifs
    · exact ⟨_, _, rfl⟩
    · exact ⟨_, s.shmem.pendingXacts, rfl⟩
  obtain ⟨openXacts, pendingXacts, hleft⟩ := hshared
  have hactive : isActive s.backend := .inl hopen
  rw [leave, hleft]
  exact { hinv with
    activeBelow := fun _ => hinv.activeBelow hactive
    oneCallback := fun _ => rfl
    gating := fun hnone => absurd hgating hnone
    oldGen := fun hisOpen => by simp at hisOpen
    newGen := fun hisOpen => by simp at hisOpen
    oldUnknown := fun _ => hinv.oldUnknown hactive
    splits := fun hnew => hinv.splits ⟨hactive, hnew.2⟩
    mineNew := fun hnew => hinv.mineNew ⟨hactive, hnew.2⟩
    abandoned := fun hnew => hinv.abandoned ⟨hactive, hnew.2⟩
    unknown := fun hgen =>
      ⟨(hinv.unknown hgen).1, fun hnew => (hinv.unknown hgen).2 ⟨hactive, hnew.2⟩⟩
    buffering := fun hgen hlive =>
      ⟨(hinv.buffering hgen hlive).1,
        fun hnew => (hinv.buffering hgen hlive).2 ⟨hactive, hnew.2⟩⟩
    streaming := fun hgen hlive => by
      obtain ⟨before, after, hstream, hfirst⟩ := hinv.streaming hgen hlive
      exact ⟨before, after, hstream, fun hempty hnew => hfirst hempty ⟨hactive, hnew.2⟩⟩ }

/-- A transaction that is over has nothing at hand. -/
theorem closed_streamInv {s : State} (hinv : StreamInv s) (hclosed : s.backend.txOpen = false)
    (hgating : s.backend.gating = none) (statements : UInt64)
    (sessionActive captureLive txBufOverflow : Bool) (count : ℕ) (txBuf out : List Entry)
    (hunknown : s.backend.myCaptureGen ≠ s.shmem.generation → out = [])
    (hbuffering : s.backend.myCaptureGen = s.shmem.generation → captureLive = false → out = [])
    (hstreaming : s.backend.myCaptureGen = s.shmem.generation → captureLive = true →
      ∃ before after,
        StreamsFrom s.hooked s.backend.myClientId s.shmem.generation out before after) :
    StreamInv { s with
      shmem := { s.shmem with statements := statements }
      backend := { s.backend with
        sessionActive := sessionActive
        captureLive := captureLive
        lastTxStatementCount := count
        txBufOverflow := txBufOverflow
        txBuf := txBuf
        out := out
        txCaptured := false
        finishing := false } } := by
  have hidle : ∀ b : Backend, b.txOpen = s.backend.txOpen → b.finishing = false →
      ¬isActive b := by
    rintro b hopen hcallback (hisOpen | hiscallback)
    · simp [hopen, hclosed] at hisOpen
    · simp [hcallback] at hiscallback
  constructor
  case hookedBelow => exact hinv.hookedBelow
  case activeBelow => exact fun hactive => absurd hactive (hidle _ rfl rfl)
  case oneCallback => exact fun _ => hclosed
  case gating => exact fun hnone => absurd hgating hnone
  case oldGen => exact hinv.oldGen
  case newGen => exact hinv.newGen
  case oldUnknown => exact fun hactive => absurd hactive (hidle _ rfl rfl)
  case splits => exact fun hnew => absurd hnew.1 (hidle _ rfl rfl)
  case mineNew => exact fun hnew => absurd hnew.1 (hidle _ rfl rfl)
  case abandoned => exact fun hnew => absurd hnew.1 (hidle _ rfl rfl)
  case unknown => exact fun hgen => ⟨hunknown hgen, fun hnew => absurd hnew.1 (hidle _ rfl rfl)⟩
  case buffering =>
    exact fun hgen hlive => ⟨hbuffering hgen hlive, fun hnew => absurd hnew.1 (hidle _ rfl rfl)⟩
  case streaming =>
    intro hgen hlive
    obtain ⟨before, after, hstream⟩ := hstreaming hgen hlive
    exact ⟨before, after, hstream, fun _ hnew => absurd hnew.1 (hidle _ rfl rfl)⟩

/-- Going live in the callback pushes the whole transaction, or nothing of it. -/
theorem finish_streams {s : State} (hinv : StreamInv s) (hfinishing : s.backend.finishing = true)
    (hknown : s.backend.myCaptureGen = s.shmem.generation)
    (hlive : s.backend.captureLive = false) (hkept : s.abandoned = false)
    (session : String) :
    ∃ before after,
      StreamsFrom s.hooked s.backend.myClientId s.shmem.generation
        (s.backend.out ++ s.backend.entry (.connect session) none ::
          (if s.backend.txBufOverflow then [] else s.backend.txBuf)) before after := by
  have hnew : InNewXact s := by
    refine ⟨.inr hfinishing, ?_⟩
    by_contra hpre
    exact hinv.oldUnknown (.inr hfinishing) (by simpa using hpre) hknown
  cases hoverflow : s.backend.txBufOverflow with
  | true =>
      have hout := (hinv.buffering hknown hlive).1
      refine ⟨s.hooked, [], (List.append_nil _).symm, ⟨session, ?_⟩, by simp⟩
      rw [hout, Backend.entry, hknown]
      rfl
  | false =>
      have hstream := streamsFrom_mine hinv hnew [] session (by simp)
      have hpushes := goLive_pushes hinv hknown hlive hnew hoverflow hkept session
      rw [hoverflow] at hpushes
      rw [hpushes]
      simp only [List.append_nil] at hstream
      exact ⟨rest s, mine s, hstream⟩

theorem finish_streamInv {s : State} (hinv : StreamInv s)
    (hfinishing : s.backend.finishing = true) (hdropped : AbandonedDropped s .finish) :
    StreamInv (finish s) := by
  have hclosed : s.backend.txOpen = false := hinv.oneCallback hfinishing
  have hgating : s.backend.gating = none := by
    by_contra hnone
    simp [hinv.gating hnone] at hfinishing
  cases hlive : s.backend.captureLive with
  | true =>
      rw [finish, txFinish_live hlive]
      apply closed_streamInv hinv hclosed hgating
      · exact fun hgen => (hinv.unknown hgen).1
      · exact fun _ hdead => by simp [hlive] at hdead
      · intro hgen _
        obtain ⟨before, after, hstream, -⟩ := hinv.streaming hgen hlive
        exact ⟨before, after, hstream⟩
  | false =>
      by_cases hready : GoesLiveAtFinish s.backend s.shmem
      · obtain ⟨session, hlives⟩ := txFinish_ready hlive hready
        have hknown := hready.2.2.1
        rw [finish, hlives]
        apply closed_streamInv hinv hclosed hgating
        · exact fun hgen => absurd hknown hgen
        · exact fun _ hdead => by simp at hdead
        · exact fun _ _ =>
            finish_streams hinv hfinishing hknown hlive (hdropped hlive hready) session
      · rw [finish, txFinish_dropped hlive hready]
        apply closed_streamInv hinv hclosed hgating
        · exact fun hgen => (hinv.unknown hgen).1
        · exact fun hgen _ => (hinv.buffering hgen hlive).1
        · exact fun _ hisLive => by simp [Backend.resetTxBuf, hlive] at hisLive

theorem step_streamInv {s s' : State} {l : Label} (hinv : StreamInv s) (hcond : StreamCond s l)
    (hstep : step s l = some s') : StreamInv s' := by
  obtain ⟨hfresh, hmiddle, hconnect, hdropped⟩ := hcond
  cases l with
  | start id =>
      cases hstep
      exact start_streamInv hinv id hfresh.1 hfresh.2
  | stop =>
      cases hstep
      exact stop_streamInv hinv
  | setWalReady =>
      cases hstep
      exact others_streamInv hinv _ _ _ true _
  | others nextClientId openXacts pendingXacts =>
      cases hstep
      exact others_streamInv hinv _ _ _ _ _
  | hook kind body inTransaction =>
      simp only [step] at hstep
      split_ifs at hstep with hready
      cases hstep
      exact hook_streamInv hinv hready.2.1 kind body inTransaction
  | gate sessionOk =>
      simp only [step] at hstep
      split at hstep
      · next hgating =>
          cases hstep
          exact gate_streamInv hinv hgating sessionOk hmiddle hconnect hdropped
      · cases hstep
  | abandon sessionOk =>
      simp only [step] at hstep
      split at hstep
      · next hgating =>
          split_ifs at hstep with hpass
          cases hstep
          exact abandon_streamInv hinv hgating hpass hdropped
      · cases hstep
  | leave =>
      simp only [step] at hstep
      split_ifs at hstep with hready
      cases hstep
      exact leave_streamInv hinv hready.1 hready.2.2
  | finish =>
      simp only [step] at hstep
      split_ifs at hstep with hready
      cases hstep
      exact finish_streamInv hinv hready hdropped

/-- In a run without a wrapped generation in which no backend goes live in the
middle of an overflowed transaction or with an abandoned Bind, abandons one when
it is live, or is outside a transaction behind a bare Connect, the stream under
the published generation is whole in every state. -/
theorem streamIsWhole_of_reaches {s : State} (hreaches : Reaches step StreamCond State.init s) :
    StreamIsWhole s :=
  (hreaches.invariant streamInv_init fun _ _ _ hinv hcond hstep =>
    step_streamInv hinv hcond hstep).streamIsWhole

/-- A transaction that is there before the capture, one that is dropped with an
abandoned Bind, and one that goes live at its second message. -/
def liveAtExecute : List Label :=
  [.hook .simpleQuery [1] true, .gate true, .start 1, .hook .simpleQuery [2] true, .gate true,
    .leave, .finish, .hook .parse [3] true, .gate true, .hook .bind [4] true, .abandon true,
    .leave, .finish, .hook .parse [5] true, .gate true, .setWalReady, .hook .execute [6] true,
    .gate true, .leave, .finish]

theorem streamIsWhole_liveAtExecute : ∃ s : State,
    runWhile step StreamCond State.init liveAtExecute = some s ∧
      s.backend.out.length = 3 ∧ StreamIsWhole s := by
  have hpushed : (runWhile step StreamCond State.init liveAtExecute).map
      (fun s => s.backend.out.length) = some 3 := by decide +kernel
  obtain ⟨s, hrun, hlength⟩ := Option.map_eq_some_iff.mp hpushed
  exact ⟨s, hrun, hlength, streamIsWhole_of_reaches (reaches_of_runWhile hrun)⟩

/-! ## A transaction that does not fit -/

/-- In the first transaction of a capture, behind at least one message, with a
buffer of the given length. -/
structure Buffering (walReady : Bool) (txBufLen : ℕ) (txBufOverflow : Bool) (s : State) :
    Prop where
  running : s.shmem.running = true
  walReady : s.shmem.walReady = walReady
  txOpen : s.backend.txOpen = true
  txGen : s.backend.txGen = s.shmem.generation
  xact : s.backend.xact = 0
  known : s.backend.myCaptureGen = s.shmem.generation
  notLive : s.backend.captureLive = false
  gating : s.backend.gating = none
  finishing : s.backend.finishing = false
  out : s.backend.out = []
  txBufLen : s.backend.txBufLen = txBufLen
  txBufOverflow : s.backend.txBufOverflow = txBufOverflow
  hooked : s.hooked ≠ [] ∧ ∀ m ∈ s.hooked, m.xact = some 0

/-- A message hooked and taken through the gate. -/
def message (body : List UInt8) : List Label :=
  [.hook .simpleQuery body true, .gate true]

theorem run_message {s : State} {body : List UInt8} {noted : State}
    (hgating : s.backend.gating = none) (hfinishing : s.backend.finishing = false)
    (hbody : 13 + body.length ≤ 1048576) (hnoted : hook s .simpleQuery body true = noted)
    (hgated : noted.backend.gating = some (.simpleQuery, body)) :
    run step s (message body) = some (gate noted true .simpleQuery body) := by
  have hfits : (Message.hooked .simpleQuery body).size ≤ CaptureEncoder.captureBufferSize := hbody
  have hhook : step s (.hook .simpleQuery body true) = some noted :=
    (if_pos ⟨hgating, hfinishing, hfits⟩).trans (congrArg some hnoted)
  have hgate : step noted (.gate true) = some (gate noted true .simpleQuery body) := by
    rw [step, hgated]
  simp only [message, run, hhook, hgate, Option.bind_some]

section Overflow

variable {s : State} {walReady : Bool} {txBufLen : ℕ} {txBufOverflow : Bool} {body : List UInt8}

/-- Between the hook and the gate. -/
def behindHook (s : State) (body : List UInt8) (statementIndex : UInt64) : State :=
  { s with backend := { s.backend with
    statementIndex := statementIndex
    gating := some (.simpleQuery, body) } }

theorem hook_buffering (body : List UInt8)
    (hs : Buffering walReady txBufLen txBufOverflow s) :
    ∃ statementIndex, hook s .simpleQuery body true = behindHook s body statementIndex := by
  have hsame : ¬(s.backend.txOpen = false ∧ true = true) := by simp [hs.txOpen]
  obtain ⟨statementIndex, hhook⟩ := hook_same .simpleQuery body hsame
  rw [noteStatement_shmem, hs.notLive] at hhook
  exact ⟨statementIndex, hhook⟩

theorem passes_behindHook (body : List UInt8)
    (hs : Buffering walReady txBufLen txBufOverflow s) (statementIndex : UInt64) :
    Passes (ungated (behindHook s body statementIndex).backend)
      (behindHook s body statementIndex).shmem := by
  refine ⟨hs.running, fun hpre => ?_⟩
  have hgen : (ungated (behindHook s body statementIndex).backend).txGen =
      (behindHook s body statementIndex).shmem.generation := hs.txGen
  simp [xactIsPre, hgen] at hpre

theorem noteGeneration_behindHook (body : List UInt8)
    (hs : Buffering walReady txBufLen txBufOverflow s) (statementIndex : UInt64) :
    noteGeneration (ungated (behindHook s body statementIndex).backend)
        (behindHook s body statementIndex).shmem =
      (ungated (behindHook s body statementIndex).backend,
        (behindHook s body statementIndex).shmem) :=
  noteGeneration_of_eq hs.known

theorem txBufAdd_fits {b : Backend} {entry : Entry} (hnone : b.txBufOverflow = false)
    (hfits : b.txBufLen + entry.msg.size + 4 ≤ txBufLimit) :
    (txBufAdd entry b).txBufLen = b.txBufLen + (entry.msg.size + 4) ∧
      (txBufAdd entry b).txBufOverflow = false := by
  rw [txBufAdd, if_neg (by simp [hnone]), if_neg (Nat.not_lt.mpr hfits)]
  exact ⟨by simp [Backend.txBufLen], hnone⟩

theorem txBufAdd_overflows {b : Backend} {entry : Entry} (hnone : b.txBufOverflow = false)
    (hlimit : txBufLimit < b.txBufLen + entry.msg.size + 4) :
    (txBufAdd entry b).txBufLen = b.txBufLen ∧ (txBufAdd entry b).txBufOverflow = true := by
  rw [txBufAdd, if_neg (by simp [hnone]), if_pos hlimit]
  exact ⟨rfl, rfl⟩

/-- One more message changes the buffer and nothing else that matters here. -/
theorem message_buffering (hs : Buffering false txBufLen txBufOverflow s)
    (hbody : 13 + body.length ≤ 1048576) {txBufLen' : ℕ} {txBufOverflow' : Bool}
    (hadd : ∀ b entry, b.txBufOverflow = txBufOverflow → b.txBufLen = txBufLen →
      entry.msg.size = 13 + body.length →
      (txBufAdd entry b).txBufLen = txBufLen' ∧
        (txBufAdd entry b).txBufOverflow = txBufOverflow') :
    ∃ s', run step s (message body) = some s' ∧
      Buffering false txBufLen' txBufOverflow' s' := by
  obtain ⟨statementIndex, hhook⟩ := hook_buffering body hs
  refine ⟨_, run_message hs.gating hs.finishing hbody hhook rfl, ?_⟩
  obtain ⟨sessionActive, skipSnap, txCaptured, xactMessages, hgate⟩ :=
    captureGate_waiting true .simpleQuery body (passes_behindHook body hs statementIndex)
      (noteGeneration_behindHook body hs statementIndex) hs.notLive hs.txOpen hs.walReady
  obtain ⟨b, hb⟩ : ∃ b : Backend, { (ungated (behindHook s body statementIndex).backend) with
      sessionActive := sessionActive
      skipSnap := skipSnap
      lastTxStatementCount :=
        (ungated (behindHook s body statementIndex).backend).lastTxStatementCount + 1
      txCaptured := txCaptured
      xactMessages := xactMessages } = b := ⟨_, rfl⟩
  obtain ⟨entry, hentry⟩ : ∃ entry,
      (ungated (behindHook s body statementIndex).backend).entry (.hooked .simpleQuery body)
        (ungated (behindHook s body statementIndex).backend).openXact = entry := ⟨_, rfl⟩
  obtain ⟨overflow, txBuf, hshape, -⟩ := txBufAdd_eq entry b
  have hadded := hadd b entry (by rw [← hb]; exact hs.txBufOverflow)
    (by rw [← hb]; exact hs.txBufLen) (by rw [← hentry]; rfl)
  rw [gate, hgate, hb, hentry]
  rw [hshape] at hadded ⊢
  rw [if_pos (by exact hs.running)]
  subst hb
  refine ⟨hs.running, hs.walReady, hs.txOpen, hs.txGen, hs.xact, hs.known, hs.notLive, rfl,
    hs.finishing, hs.out, hadded.1, hadded.2, by simp, ?_⟩
  intro m hm
  rcases List.mem_append.mp hm with hm | hm
  · exact hs.hooked.2 m hm
  · rw [List.mem_singleton.mp hm]
    exact (openXact_of_open (by exact hs.txOpen)).trans (congrArg some hs.xact)

theorem messages_buffering (n : ℕ) (hs : Buffering false txBufLen false s)
    (hbody : 13 + body.length ≤ 1048576)
    (hfits : txBufLen + n * (13 + body.length + 4) ≤ txBufLimit) :
    ∃ s', run step s (List.replicate n (message body)).flatten = some s' ∧
      Buffering false (txBufLen + n * (13 + body.length + 4)) false s' := by
  induction n generalizing s txBufLen with
  | zero => exact ⟨s, rfl, by simpa using hs⟩
  | succ n ih =>
      rw [Nat.succ_mul] at hfits ⊢
      obtain ⟨middle, hfirst, hmiddle⟩ :=
        message_buffering hs hbody fun b entry hnone hlen hsize =>
          hlen ▸ hsize ▸ txBufAdd_fits hnone (by rw [hlen, hsize]; omega)
      obtain ⟨s', hrest, hs'⟩ := ih hmiddle (by omega)
      refine ⟨s', ?_, ?_⟩
      · rw [List.replicate_succ, List.flatten_cons, run_append, hfirst]
        exact hrest
      · rwa [add_assoc, add_comm _ (n * _)] at hs'

/-- One message behind a Connect that is not the first one of its transaction. -/
theorem not_streamIsWhole_of_length {xact : ℕ} {m : HookedMessage} {old : List HookedMessage}
    (hout : s.backend.out.length = 2) (hhooked : s.hooked = old ++ [m]) (hold : old ≠ [])
    (hxact : ∀ m' ∈ s.hooked, m'.xact = some xact) : ¬StreamIsWhole s := by
  rintro (hempty | ⟨clientId, before, after, hsplit, ⟨session, hpushed⟩, hhead⟩)
  · simp [hempty] at hout
  · have hone : after.length = 1 := by
      rw [hpushed] at hout
      simpa using hout
    obtain ⟨last, rfl⟩ := List.length_eq_one_iff.mp hone
    obtain ⟨hbefore, -⟩ := List.append_inj' (hhooked.symm.trans hsplit) rfl
    obtain ⟨first, hfirst⟩ := List.exists_mem_of_ne_nil old hold
    obtain ⟨-, xact', hlast, hother⟩ := hhead last rfl
    have hsame : xact = xact' := by
      have hin := hxact last (by simp [hsplit])
      exact Option.some.inj (hin.symm.trans hlast)
    apply hother first (hbefore ▸ hfirst)
    rw [← hsame]
    exact hxact first (by simp [hhooked, hfirst])

/-- The buffer has been given up and `wal_ready` is set: the next message of the
same transaction is pushed behind the Connect. -/
theorem message_live (body : List UInt8) (hs : Buffering true txBufLen true s)
    (hbody : 13 + body.length ≤ 1048576) :
    ∃ s', run step s (message body) = some s' ∧ ¬StreamIsWhole s' := by
  obtain ⟨statementIndex, hhook⟩ := hook_buffering body hs
  refine ⟨_, run_message hs.gating hs.finishing hbody hhook rfl, ?_⟩
  obtain ⟨skipSnap, txCaptured, xactMessages, session, hgate⟩ :=
    captureGate_ready true .simpleQuery body (passes_behindHook body hs statementIndex)
      (noteGeneration_behindHook body hs statementIndex) hs.notLive hs.txOpen hs.walReady
  have hout : (ungated (behindHook s body statementIndex).backend).out = [] := hs.out
  have hoverflow : (ungated (behindHook s body statementIndex).backend).txBufOverflow = true :=
    hs.txBufOverflow
  apply not_streamIsWhole_of_length
  · rw [gate, hgate]
    simp [hout, hoverflow]
  · exact if_pos hs.running
  · exact hs.hooked.1
  · intro m hm
    rw [gate, if_pos (by exact hs.running)] at hm
    rcases List.mem_append.mp hm with hm | hm
    · exact hs.hooked.2 m hm
    · rw [List.mem_singleton.mp hm]
      exact (openXact_of_open (by exact hs.txOpen)).trans (congrArg some hs.xact)

end Overflow

/-- A message that fills `CaptureBuffer`. -/
def hugeBody : List UInt8 :=
  List.replicate 1048563 0

/-- One transaction: a short message, 64 that fill `CaptureBuffer`, `wal_ready`
turning 1, and one more message. -/
def hugeTransaction : List Label :=
  .start 1 :: message [1] ++ (List.replicate 63 (message hugeBody)).flatten ++
    message hugeBody ++ .setWalReady :: message [2]

theorem not_streamIsWhole_hugeTransaction : ∃ s : State,
    run step State.init hugeTransaction = some s ∧ ¬StreamIsWhole s := by
  have hsize : 13 + hugeBody.length = 1048576 := by rw [hugeBody, List.length_replicate]
  obtain ⟨first, hrunFirst, hfirst⟩ : ∃ first,
      run step State.init (.start 1 :: message [1]) = some first ∧
        Buffering false 18 false first :=
    ⟨_, rfl, ⟨rfl, rfl, rfl, rfl, rfl, rfl, rfl, rfl, rfl, rfl, rfl, rfl, by decide, by decide⟩⟩
  obtain ⟨full, hrunFull, hfull⟩ := messages_buffering 63 hfirst hsize.le (by
    rw [hsize, txBufLimit]
    decide)
  obtain ⟨lost, hrunLost, hlost⟩ := message_buffering hfull hsize.le
    fun b entry hnone hlen hentry =>
      hlen ▸ txBufAdd_overflows hnone (by
        rw [hlen, hentry, hsize, txBufLimit]
        decide)
  have hready : Buffering true _ true { lost with shmem := { lost.shmem with walReady := true } } :=
    { hlost with walReady := rfl }
  obtain ⟨s, hrunLive, hs⟩ := message_live [2] hready (by decide)
  refine ⟨s, ?_, hs⟩
  rw [hugeTransaction, run_append, run_append, run_append, hrunFirst, Option.bind_some, hrunFull,
    Option.bind_some, hrunLost, Option.bind_some]
  exact hrunLive

/-! ## A Bind that is abandoned -/

/-- What follows the Connect are the last messages hooked. -/
theorem StreamIsWhole.suffix {s : State} (hwhole : StreamIsWhole s) :
    List.IsSuffix (s.backend.out.tail.map Entry.msg)
      (s.hooked.map fun m => Message.hooked m.kind m.body) := by
  rcases hwhole with hempty | ⟨clientId, before, after, hsplit, ⟨session, hpushed⟩, -⟩
  · rw [hempty]
    exact List.nil_suffix
  · rw [hpushed, hsplit, List.tail_cons, List.map_map, List.map_append]
    exact List.suffix_append _ _

/-- A live backend abandons a Bind with its transaction and goes on in the next one. -/
def abandonedLive : List Label :=
  [.start 1, .setWalReady, .hook .parse [1] true, .gate true, .hook .bind [2] true, .abandon true,
    .leave, .finish, .hook .simpleQuery [3] true, .gate true]

theorem not_streamIsWhole_abandonedLive : ∃ s : State,
    run step State.init abandonedLive = some s ∧ ¬StreamIsWhole s := by
  have hgap : (run step State.init abandonedLive).map (fun s =>
      (s.backend.out.tail.map Entry.msg, s.hooked.map fun m => Message.hooked m.kind m.body)) =
      some ([.hooked .parse [1], .hooked .simpleQuery [3]],
        [.hooked .parse [1], .hooked .bind [2], .hooked .simpleQuery [3]]) := by
    decide +kernel
  obtain ⟨s, hrun, hvalues⟩ := Option.map_eq_some_iff.mp hgap
  obtain ⟨hout, hhooked⟩ := Prod.mk.inj hvalues
  refine ⟨s, hrun, fun hwhole => ?_⟩
  have hsuffix := hwhole.suffix
  rw [hout, hhooked] at hsuffix
  exact absurd hsuffix (by decide)

/-- A stream can begin in the middle of a transaction, and can have a gap. -/
theorem not_streamIsWhole_broken :
    (∃ s : State, run step State.init hugeTransaction = some s ∧ ¬StreamIsWhole s) ∧
      ∃ s : State, run step State.init abandonedLive = some s ∧ ¬StreamIsWhole s :=
  ⟨not_streamIsWhole_hugeTransaction, not_streamIsWhole_abandonedLive⟩

end Pgr.CapturedStream
