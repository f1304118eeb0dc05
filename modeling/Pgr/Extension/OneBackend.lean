import Pgr.Core.Transition
import Pgr.Extension.CaptureEncoder
import Pgr.Extension.Hooks

/-!
# One capturing backend

A backend that is not psql, on its own: its message hooks and transaction
callbacks, captures that start and stop at any point, and `wal_ready` turning 1
at any moment.  The other backends only change the client ids handed out and the
transactions counted.  A message is hooked and passes the gate in two steps, and
a transaction leaves the shared state and goes through `tx_finish` in two.  A Bind
may also pass the gate and be abandoned: `capture_bind` calls the type output
functions, and an ERROR there leaves the hook before `cap_end`.

Nothing takes messages out of `out` here, and the LSN message of
`capture_sync_lsn`, which is not part of a backend's stream, is left out.
-/

namespace Pgr.OneBackend

open Pgr.Shmem Pgr.Hooks Pgr.CaptureEncoder Pgr.Transition

/-- A message at the gate, and whether its transaction, if it has one, was there
before the capture. -/
structure HookedMessage where
  kind : HookKind
  body : List UInt8
  xact : Option ℕ
  isPre : Bool
  deriving DecidableEq

def HookedMessage.entry (clientId gen : UInt32) (m : HookedMessage) : Entry :=
  ⟨clientId, .hooked m.kind m.body, gen, m.xact⟩

structure State where
  shmem : SharedMemory
  /-- Its `out` is what it has pushed since the last publication. -/
  backend : Backend
  /-- What it pushed before. -/
  archive : List Entry
  /-- The messages hooked while the last published capture runs. -/
  hooked : List HookedMessage
  /-- The transactions entered so far. -/
  xacts : ℕ
  /-- A Bind of the last transaction has been abandoned behind the gate. -/
  abandoned : Bool

inductive Label where
  | start (id : UInt32)
  | stop
  | setWalReady
  | others (nextClientId : UInt32) (openXacts pendingXacts : ℕ)
  | hook (kind : HookKind) (body : List UInt8) (inTransaction : Bool)
  | gate (sessionOk : Bool)
  | abandon (sessionOk : Bool)
  | leave
  | finish

def start (s : State) (id : UInt32) : State :=
  { s with
    shmem := (captureStart id s.shmem).2
    backend := { s.backend.markPre with out := [] }
    archive := s.archive ++ s.backend.out
    hooked := [] }

/-- A message hook up to the gate: it opens the transaction if it has to. -/
def hook (s : State) (kind : HookKind) (body : List UInt8) (inTransaction : Bool) : State :=
  let noted := noteStatement kind s.backend s.shmem
  if noted.1.txOpen = false ∧ inTransaction then
    let entered := enterXact s.xacts noted.1 noted.2
    { s with
      shmem := entered.2
      backend := { entered.1 with gating := some (kind, body) }
      xacts := s.xacts + 1
      abandoned := false }
  else { s with shmem := noted.2, backend := { noted.1 with gating := some (kind, body) } }

/-- The backend behind its hook. -/
def ungated (b : Backend) : Backend :=
  { b with gating := none }

def gate (s : State) (sessionOk : Bool) (kind : HookKind) (body : List UInt8) : State :=
  let b := ungated s.backend
  let gated := captureGate sessionOk kind body b s.shmem
  { s with
    shmem := gated.2
    backend := gated.1
    hooked := if s.shmem.running then s.hooked ++ [⟨kind, body, b.openXact, b.isPre⟩]
      else s.hooked }

/-- A Bind that the gate lets pass and an ERROR in `capture_bind` abandons. -/
def abandon (s : State) (sessionOk : Bool) (body : List UInt8) : State :=
  let b := ungated s.backend
  let gated := abandonedGate sessionOk b s.shmem
  { s with
    shmem := gated.2
    backend := gated.1
    hooked := s.hooked ++ [⟨.bind, body, b.openXact, b.isPre⟩]
    abandoned := true }

/-- `tx_finish` up to the section under the lock. -/
def leave (s : State) : State :=
  { s with
    shmem := (xactLeaveShared s.backend.txGen s.shmem).2
    backend := { s.backend with txOpen := false, finishing := true } }

def finish (s : State) : State :=
  let done := txFinish s.backend s.shmem
  { s with shmem := done.2, backend := done.1 }

def step (s : State) : Label → Option State
  | .start id => some (start s id)
  | .stop => some { s with shmem := channelStop s.shmem }
  | .setWalReady => some { s with shmem := { s.shmem with walReady := true } }
  | .others nextClientId openXacts pendingXacts =>
      some { s with shmem := { s.shmem with
        nextClientId := nextClientId
        openXacts := openXacts
        pendingXacts := pendingXacts } }
  | .hook kind body inTransaction =>
      -- A message that does not fit into `CaptureBuffer` is none here.
      if s.backend.gating = none ∧ s.backend.finishing = false ∧
          (Message.hooked kind body).size ≤ captureBufferSize then
        some (hook s kind body inTransaction)
      else none
  | .gate sessionOk =>
      match s.backend.gating with
      | some (kind, body) => some (gate s sessionOk kind body)
      | none => none
  | .abandon sessionOk =>
      match s.backend.gating with
      | some (.bind, body) =>
          if (passGate sessionOk (ungated s.backend) s.shmem).1 then
            some (abandon s sessionOk body)
          else none
      | _ => none
  | .leave =>
      if s.backend.gating = none ∧ s.backend.finishing = false ∧ s.backend.txOpen then
        some (leave s)
      else none
  | .finish => if s.backend.finishing then some (finish s) else none

def State.init : State where
  shmem := SharedMemory.init
  backend := Backend.init false
  archive := []
  hooked := []
  xacts := 0
  abandoned := false

/-! ## The parts of the gate -/

theorem noteStatement_backend (kind : HookKind) (b : Backend) (c : SharedMemory) :
    ∃ statementIndex, (noteStatement kind b c).1 = { b with statementIndex := statementIndex } := by
  by_cases hsilent : kind = .sync ∨ kind = .close
  · exact ⟨b.statementIndex, if_pos hsilent⟩
  · exact ⟨_, if_neg hsilent⟩

theorem noteStatement_shmem (kind : HookKind) (b : Backend) (c : SharedMemory) :
    (noteStatement kind b c).2 = if b.captureLive then statsAddStatements 1 c else c := rfl

/-- A hook outside a transaction, or in one that is already open. -/
theorem hook_same {s : State} (kind : HookKind) (body : List UInt8) {inTransaction : Bool}
    (hsame : ¬(s.backend.txOpen = false ∧ inTransaction = true)) :
    ∃ statementIndex, hook s kind body inTransaction =
      { s with
        shmem := (noteStatement kind s.backend s.shmem).2
        backend := { s.backend with
          statementIndex := statementIndex
          gating := some (kind, body) } } := by
  obtain ⟨statementIndex, hnoted⟩ := noteStatement_backend kind s.backend s.shmem
  refine ⟨statementIndex, ?_⟩
  rw [hook, hnoted]
  exact if_neg hsame

/-- A hook that opens the transaction. -/
theorem hook_enters {s : State} (kind : HookKind) (body : List UInt8) {inTransaction : Bool}
    (henters : s.backend.txOpen = false ∧ inTransaction = true) :
    ∃ statementIndex txBuf txBufOverflow count, hook s kind body inTransaction =
        { s with
          shmem := (xactEnterShared (noteStatement kind s.backend s.shmem).2).2
          backend := { s.backend with
            statementIndex := statementIndex
            txGen := if s.shmem.running then s.shmem.generation else 0
            txOpen := true
            txCaptured := false
            xact := s.xacts
            isPre := false
            commitPtr := none
            xactMessages := []
            txBuf := txBuf
            txBufOverflow := txBufOverflow
            lastTxStatementCount := count
            gating := some (kind, body) }
          xacts := s.xacts + 1
          abandoned := false } ∧
      (s.backend.captureLive = false → txBuf = [] ∧ txBufOverflow = false ∧ count = 0) := by
  obtain ⟨statementIndex, hnoted⟩ := noteStatement_backend kind s.backend s.shmem
  have hgen : (xactEnterShared (noteStatement kind s.backend s.shmem).2).1 =
      if s.shmem.running then s.shmem.generation else 0 := by
    obtain ⟨_, _, hsame⟩ := sameCapture_noteStatement kind s.backend s.shmem
    rw [hsame]
    rfl
  rw [hook, hnoted]
  simp only [henters, and_self, if_true, enterXact, hgen]
  cases hlive : s.backend.captureLive with
  | true => exact ⟨statementIndex, _, _, _, rfl, fun hfalse => by simp at hfalse⟩
  | false => exact ⟨statementIndex, _, _, _, rfl, fun _ => ⟨rfl, rfl, rfl⟩⟩

theorem noteSession_eq (sessionOk : Bool) (b : Backend) :
    ∃ skipSnap sessionActive, noteSession sessionOk b =
      { b with skipSnap := skipSnap, sessionActive := sessionActive } := by
  rw [noteSession]
  split_ifs
  · exact ⟨_, _, rfl⟩
  · exact ⟨b.skipSnap, _, rfl⟩
  · exact ⟨b.skipSnap, b.sessionActive, rfl⟩

theorem markCaptured_eq (b : Backend) :
    ∃ txCaptured, markCaptured b = { b with txCaptured := txCaptured } := by
  rw [markCaptured]
  split_ifs
  · exact ⟨_, rfl⟩
  · exact ⟨b.txCaptured, rfl⟩

variable {b : Backend} {c : SharedMemory}

theorem noteSession_of_live {sessionOk : Bool} (hlive : b.captureLive = true) :
    noteSession sessionOk b = b := by
  rw [noteSession, if_neg (by simp [hlive])]

theorem goLiveIfReady_of_live (hlive : b.captureLive = true) : goLiveIfReady b c = (b, c) := by
  rw [goLiveIfReady, if_neg (by simp [hlive])]

theorem capEnd_of_live {kind : HookKind} {body : List UInt8} (hlive : b.captureLive = true) :
    Hooks.capEnd kind body b =
      { b with
        out := b.out ++ [b.entry (.hooked kind body) b.openXact]
        xactMessages := b.xactMessages ++ [b.entry (.hooked kind body) b.openXact] } := by
  rw [Hooks.capEnd]
  exact if_pos hlive

/-- The buffer without an overflow ends in the message. -/
theorem txBufAdd_eq (entry : Entry) (b : Backend) :
    ∃ txBufOverflow txBuf, txBufAdd entry b =
        { b with txBufOverflow := txBufOverflow, txBuf := txBuf } ∧
      (txBufOverflow = false → b.txBufOverflow = false ∧ txBuf = b.txBuf ++ [entry]) := by
  rw [txBufAdd]
  split_ifs with hoverflow hlimit
  · exact ⟨b.txBufOverflow, b.txBuf, rfl, fun hfalse => by simp [hfalse] at hoverflow⟩
  · exact ⟨true, b.txBuf, rfl, fun hfalse => by simp at hfalse⟩
  · exact ⟨b.txBufOverflow, _, rfl, fun hfalse => ⟨hfalse, rfl⟩⟩

theorem noteGeneration_of_eq (hgen : b.myCaptureGen = c.generation) :
    noteGeneration b c = (b, c) := by
  rw [noteGeneration, if_pos hgen]

theorem noteGeneration_of_ne (hgen : b.myCaptureGen ≠ c.generation) :
    ∃ sessionName skipSnap, noteGeneration b c =
      ({ b.resetTxBuf with
          sessionActive := false
          captureLive := false
          myCaptureGen := c.generation
          myClientId := c.nextClientId
          sessionName := sessionName
          skipSnap := skipSnap }, (acquireClientId c).2) := by
  rw [noteGeneration, if_neg hgen]
  exact ⟨_, _, rfl⟩

/-- The capture gate lets the messages of the backend pass. -/
def Passes (b : Backend) (c : SharedMemory) : Prop :=
  c.running = true ∧ ¬(b.txOpen = true ∧ xactIsPre b.txGen c = true)

instance (b : Backend) (c : SharedMemory) : Decidable (Passes b c) :=
  inferInstanceAs (Decidable (c.running = true ∧ ¬(b.txOpen = true ∧ xactIsPre b.txGen c = true)))

/-- `tx_finish` lets the backend go live if it is not. -/
def GoesLiveAtFinish (b : Backend) (c : SharedMemory) : Prop :=
  b.txCaptured = true ∧ c.running = true ∧ b.myCaptureGen = c.generation ∧ c.walReady = true

instance (b : Backend) (c : SharedMemory) : Decidable (GoesLiveAtFinish b c) :=
  inferInstanceAs (Decidable (_ ∧ _))

/-- A Bind is abandoned while its transaction is buffered, and the backend does not go
live in a transaction with an abandoned Bind. -/
def AbandonedDropped (s : State) : Label → Prop
  | .abandon _ =>
      ¬(s.backend.captureLive = true ∧ s.backend.myCaptureGen = s.shmem.generation) ∧
        s.shmem.walReady = false
  | .gate _ => s.backend.captureLive = false → s.backend.txOpen = true →
      Passes s.backend s.shmem → s.backend.myCaptureGen = s.shmem.generation →
      s.shmem.walReady = true → s.abandoned = false
  | .finish => s.backend.captureLive = false → GoesLiveAtFinish s.backend s.shmem →
      s.abandoned = false
  | _ => True

instance (s : State) : DecidablePred (AbandonedDropped s)
  | .abandon _ => inferInstanceAs (Decidable (¬(s.backend.captureLive = true ∧
      s.backend.myCaptureGen = s.shmem.generation) ∧ s.shmem.walReady = false))
  | .gate _ => inferInstanceAs (Decidable (s.backend.captureLive = false →
      s.backend.txOpen = true → Passes s.backend s.shmem →
      s.backend.myCaptureGen = s.shmem.generation → s.shmem.walReady = true →
      s.abandoned = false))
  | .finish => inferInstanceAs (Decidable (s.backend.captureLive = false →
      GoesLiveAtFinish s.backend s.shmem → s.abandoned = false))
  | .start _ | .stop | .setWalReady | .others .. | .hook .. | .leave => .isTrue trivial

variable (sessionOk : Bool) (kind : HookKind) (body : List UInt8)

theorem passGate_of_not_passes (hblocked : ¬Passes b c) :
    passGate sessionOk b c = (false, b, c) := by
  rw [passGate]
  by_cases hrunning : c.running = false
  · rw [if_pos hrunning]
  · rw [if_neg hrunning, if_pos]
    by_contra hpre
    exact hblocked ⟨by simpa using hrunning, hpre⟩

theorem captureGate_of_not_passes (hblocked : ¬Passes b c) :
    captureGate sessionOk kind body b c = (b, c) := by
  rw [captureGate, passGate_of_not_passes sessionOk hblocked]
  rfl

variable {noted : Backend × SharedMemory}

/-- A message that has passed the tests of the gate and is counted. -/
theorem passGate_of_passes {counted : Backend} (hpasses : Passes b c)
    (hnoted : noteGeneration b c = noted)
    (hcounted : { noted.1 with lastTxStatementCount := noted.1.lastTxStatementCount + 1 } =
      counted) :
    passGate sessionOk b c =
      if counted.captureLive = false ∧ counted.txOpen = false then (false, counted, noted.2)
      else
        let live := goLiveIfReady (noteSession sessionOk counted) noted.2
        (true, markCaptured live.1, live.2) := by
  subst hcounted
  rw [passGate, if_neg (by simp [hpasses.1]), if_neg hpasses.2, hnoted]

theorem captureGate_of_passes {counted : Backend} (hpasses : Passes b c)
    (hnoted : noteGeneration b c = noted)
    (hcounted : { noted.1 with lastTxStatementCount := noted.1.lastTxStatementCount + 1 } =
      counted) :
    captureGate sessionOk kind body b c =
      if counted.captureLive = false ∧ counted.txOpen = false then (counted, noted.2)
      else
        let live := goLiveIfReady (noteSession sessionOk counted) noted.2
        (Hooks.capEnd kind body (markCaptured live.1), live.2) := by
  rw [captureGate, passGate_of_passes sessionOk hpasses hnoted hcounted]
  by_cases houtside : counted.captureLive = false ∧ counted.txOpen = false
  · rw [if_pos houtside, if_pos houtside]
    rfl
  · rw [if_neg houtside, if_neg houtside]
    rfl

/-- Neither live nor in a transaction: the message is only counted. -/
theorem passGate_outside (hpasses : Passes b c) (hnoted : noteGeneration b c = noted)
    (hlive : noted.1.captureLive = false) (hopen : noted.1.txOpen = false) :
    passGate sessionOk b c = (false,
      { noted.1 with lastTxStatementCount := noted.1.lastTxStatementCount + 1 }, noted.2) := by
  rw [passGate_of_passes _ hpasses hnoted rfl]
  exact if_pos ⟨hlive, hopen⟩

theorem captureGate_outside (hpasses : Passes b c) (hnoted : noteGeneration b c = noted)
    (hlive : noted.1.captureLive = false) (hopen : noted.1.txOpen = false) :
    captureGate sessionOk kind body b c =
      ({ noted.1 with lastTxStatementCount := noted.1.lastTxStatementCount + 1 }, noted.2) := by
  rw [captureGate, passGate_outside sessionOk hpasses hnoted hlive hopen]
  rfl

/-- Live: the message is pushed. -/
theorem captureGate_live (hpasses : Passes b c) (hnoted : noteGeneration b c = noted)
    (hlive : noted.1.captureLive = true) :
    ∃ txCaptured xactMessages, captureGate sessionOk kind body b c =
      ({ noted.1 with
          lastTxStatementCount := noted.1.lastTxStatementCount + 1
          txCaptured := txCaptured
          out := noted.1.out ++ [noted.1.entry (.hooked kind body) noted.1.openXact]
          xactMessages := xactMessages }, noted.2) := by
  obtain ⟨counted, hcounted⟩ : ∃ counted, { noted.1 with
      lastTxStatementCount := noted.1.lastTxStatementCount + 1 } = counted := ⟨_, rfl⟩
  have hcountedLive : counted.captureLive = true := by
    rw [← hcounted]
    exact hlive
  obtain ⟨txCaptured, hcaptured⟩ := markCaptured_eq counted
  rw [captureGate_of_passes _ _ _ hpasses hnoted hcounted, if_neg (by simp [hcountedLive]),
    noteSession_of_live hcountedLive, goLiveIfReady_of_live hcountedLive]
  simp only [hcaptured]
  rw [capEnd_of_live (by exact hcountedLive), ← hcounted]
  exact ⟨_, _, rfl⟩

/-- `wal_ready` is set: the backend goes live and the message is pushed. -/
theorem captureGate_ready (hpasses : Passes b c) (hnoted : noteGeneration b c = noted)
    (hlive : noted.1.captureLive = false) (hopen : noted.1.txOpen = true)
    (hready : noted.2.walReady = true) :
    ∃ skipSnap txCaptured xactMessages session, captureGate sessionOk kind body b c =
      ({ noted.1 with
          sessionActive := false
          skipSnap := skipSnap
          captureLive := true
          lastTxStatementCount := noted.1.lastTxStatementCount + 1
          txCaptured := txCaptured
          txBufOverflow := false
          txBuf := []
          out := noted.1.out ++ noted.1.entry (.connect session) none ::
            (if noted.1.txBufOverflow then [] else noted.1.txBuf) ++
              [noted.1.entry (.hooked kind body) noted.1.openXact]
          xactMessages := xactMessages },
        statsAddStatements (noted.1.lastTxStatementCount + 1) noted.2) := by
  obtain ⟨skipSnap, sessionActive, hsession⟩ := noteSession_eq sessionOk
    { noted.1 with lastTxStatementCount := noted.1.lastTxStatementCount + 1 }
  rw [captureGate_of_passes _ _ _ hpasses hnoted rfl, hsession]
  refine ⟨skipSnap, true,
    noted.1.xactMessages ++ [noted.1.entry (.hooked kind body) noted.1.openXact],
    if sessionActive then noted.1.sessionName else "", ?_⟩
  simp only [hlive, hopen, hready, goLiveIfReady, goLive, markCaptured, Hooks.capEnd,
    Backend.entry, Backend.openXact, Bool.true_eq_false, and_false, and_self, if_false, if_true]

/-- `wal_ready` is not set: the message is to go to the buffer of the transaction. -/
theorem passGate_waiting (hpasses : Passes b c) (hnoted : noteGeneration b c = noted)
    (hlive : noted.1.captureLive = false) (hopen : noted.1.txOpen = true)
    (hready : noted.2.walReady = false) :
    ∃ sessionActive skipSnap, passGate sessionOk b c =
      (true,
        { noted.1 with
          sessionActive := sessionActive
          skipSnap := skipSnap
          lastTxStatementCount := noted.1.lastTxStatementCount + 1
          txCaptured := true }, noted.2) := by
  obtain ⟨skipSnap, sessionActive, hsession⟩ := noteSession_eq sessionOk
    { noted.1 with lastTxStatementCount := noted.1.lastTxStatementCount + 1 }
  refine ⟨sessionActive, skipSnap, ?_⟩
  rw [passGate_of_passes _ hpasses hnoted rfl, hsession]
  simp only [hlive, hopen, hready, goLiveIfReady, markCaptured, Bool.true_eq_false,
    Bool.false_eq_true, and_false, if_false, if_true]

theorem captureGate_waiting (hpasses : Passes b c) (hnoted : noteGeneration b c = noted)
    (hlive : noted.1.captureLive = false) (hopen : noted.1.txOpen = true)
    (hready : noted.2.walReady = false) :
    ∃ sessionActive skipSnap txCaptured xactMessages,
      captureGate sessionOk kind body b c =
        (txBufAdd (noted.1.entry (.hooked kind body) noted.1.openXact)
          { noted.1 with
            sessionActive := sessionActive
            skipSnap := skipSnap
            lastTxStatementCount := noted.1.lastTxStatementCount + 1
            txCaptured := txCaptured
            xactMessages := xactMessages }, noted.2) := by
  obtain ⟨sessionActive, skipSnap, hpassed⟩ :=
    passGate_waiting sessionOk hpasses hnoted hlive hopen hready
  refine ⟨sessionActive, skipSnap, true,
    noted.1.xactMessages ++ [noted.1.entry (.hooked kind body) noted.1.openXact], ?_⟩
  rw [captureGate, hpassed]
  simp only [Hooks.capEnd, hlive, Backend.entry, Backend.openXact, Bool.false_eq_true, if_false,
    if_true]

/-- An abandoned Bind of a transaction that is buffered: it is counted, and the buffer stays. -/
theorem abandonedGate_buffering (hpass : (passGate sessionOk b c).1 = true)
    (hnoted : noteGeneration b c = noted) (hlive : noted.1.captureLive = false)
    (hready : noted.2.walReady = false) :
    Passes b c ∧ noted.1.txOpen = true ∧
      ∃ sessionActive skipSnap, abandonedGate sessionOk b c =
        ({ noted.1 with
            sessionActive := sessionActive
            skipSnap := skipSnap
            lastTxStatementCount := noted.1.lastTxStatementCount + 1
            txCaptured := true }, noted.2) := by
  have hpasses : Passes b c := by
    by_contra hblocked
    rw [passGate_of_not_passes sessionOk hblocked] at hpass
    cases hpass
  have hopen : noted.1.txOpen = true := by
    by_contra hclosed
    rw [passGate_outside sessionOk hpasses hnoted hlive (by simpa using hclosed)] at hpass
    cases hpass
  obtain ⟨sessionActive, skipSnap, hpassed⟩ :=
    passGate_waiting sessionOk hpasses hnoted hlive hopen hready
  refine ⟨hpasses, hopen, sessionActive, skipSnap, ?_⟩
  rw [abandonedGate, hpassed]

/-! ## The transaction callback -/

theorem txFinish_live (hlive : b.captureLive = true) :
    txFinish b c = ({ b with txCaptured := false, finishing := false }, c) := by
  simp [txFinish, goLiveIfReady_of_live hlive, hlive]

theorem txFinish_ready (hlive : b.captureLive = false) (hready : GoesLiveAtFinish b c) :
    ∃ session, txFinish b c =
      ({ b with
          sessionActive := false
          captureLive := true
          out := b.out ++ b.entry (.connect session) none ::
            (if b.txBufOverflow then [] else b.txBuf)
          txBufOverflow := false
          txBuf := []
          txCaptured := false
          finishing := false }, statsAddStatements b.lastTxStatementCount c) := by
  obtain ⟨hcaptured, hrunning, hgen, hwal⟩ := hready
  refine ⟨if b.sessionActive then b.sessionName else "", ?_⟩
  simp [txFinish, goLiveIfReady, goLive, hlive, hcaptured, hrunning, hgen, hwal]

theorem txFinish_dropped (hlive : b.captureLive = false) (hnot : ¬GoesLiveAtFinish b c) :
    txFinish b c = ({ b.resetTxBuf with txCaptured := false, finishing := false }, c) := by
  have hunchanged : (if b.txCaptured ∧ c.running ∧ b.myCaptureGen = c.generation then
      goLiveIfReady b c else (b, c)) = (b, c) := by
    split_ifs with hcaptured
    · rw [goLiveIfReady, if_neg]
      rintro ⟨-, hwal⟩
      exact hnot ⟨hcaptured.1, hcaptured.2.1, hcaptured.2.2, hwal⟩
    · rfl
  simp only [txFinish, hunchanged, hlive, Bool.false_eq_true, if_false]

end Pgr.OneBackend
