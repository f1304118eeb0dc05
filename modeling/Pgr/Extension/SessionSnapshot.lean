import Pgr.Extension.CapturedStream
import Pgr.Extension.SessionFile

/-!
# The session that a stream begins with

A backend that is not live yet dumps its session in front of the first message of every
transaction, and the Connect that it goes live with names the last dump.  A replay restores
that session and sends the messages behind the Connect, so the dump has to show the
backend exactly where these messages begin.

The session files are those of the one backend at hand.
-/

namespace Pgr.SessionSnapshot

open Pgr.Shmem Pgr.Hooks Pgr.OneBackend Pgr.SessionFile Pgr.CapturedStream Pgr.Transition

/-- What `start_body` finds in the backend. -/
structure Session where
  gucs : List ConfigGeneric
  unnamed : Option CachedPlanSource
  prepared : List PreparedStatement
  tables : List TempTable

/-- The file of a session, as `start_body` writes it. -/
structure Snapshot where
  session : Session
  file : Stdio.File
  dumped : startBody session.gucs session.unnamed session.prepared session.tables = .ok file
  /-- A history variable: what had been hooked before. -/
  behind : List HookedMessage

/-- The session files by name. -/
abbrev Sessions := String → Option Snapshot

/-- What `session_start` meets: the file cannot be created, the server raises an error
inside `start_body`, or there is a session to write. -/
inductive Dump where
  | cannotCreate
  | raises
  | session (session : Session)

/-- `session_start` for a name that `session_path` accepts.  `session_abandon` removes the
file of a dump that has failed. -/
def sessionStart (name : String) (dump : Dump) (behind : List HookedMessage)
    (sessions : Sessions) : Bool × Sessions :=
  match dump with
  | .cannotCreate => (false, sessions)
  | .raises => (false, Function.update sessions name none)
  | .session session =>
      match hdumped : startBody session.gucs session.unnamed session.prepared session.tables with
      | .ok file => (true, Function.update sessions name (some ⟨session, file, hdumped, behind⟩))
      | .error _ => (false, Function.update sessions name none)

structure State where
  base : OneBackend.State
  sessions : Sessions

inductive Label where
  | backend (label : OneBackend.Label)
  | gate (dump : Dump)
  | abandon (dump : Dump)

/-- `capture_gate` calls `session_start`. -/
def DumpsSession (b : Backend) (c : SharedMemory) : Prop :=
  Passes b c ∧ (noteGeneration b c).1.captureLive = false ∧
    (noteGeneration b c).1.txOpen = true ∧ (noteGeneration b c).1.txCaptured = false ∧
    (noteGeneration b c).1.skipSnap = false

instance (b : Backend) (c : SharedMemory) : Decidable (DumpsSession b c) :=
  inferInstanceAs (Decidable (_ ∧ _ ∧ _ ∧ _ ∧ _))

/-- The session files behind the gate, and the result that the gate sees. -/
def gateSession (dump : Dump) (s : State) : Bool × Sessions :=
  let b := ungated s.base.backend
  if DumpsSession b s.base.shmem then
    sessionStart (noteGeneration b s.base.shmem).1.sessionName dump s.base.hooked s.sessions
  else (false, s.sessions)

def step (s : State) : Label → Option State
  | .backend (.gate _) | .backend (.abandon _) => none
  | .backend label => (OneBackend.step s.base label).map fun base => { s with base := base }
  | .gate dump =>
      let started := gateSession dump s
      (OneBackend.step s.base (.gate started.1)).map fun base => ⟨base, started.2⟩
  | .abandon dump =>
      let started := gateSession dump s
      (OneBackend.step s.base (.abandon started.1)).map fun base => ⟨base, started.2⟩

def State.init : State :=
  ⟨OneBackend.State.init, fun _ => none⟩

/-- No transaction that goes live has overflowed its buffer, none of its Binds or of a live
backend's is abandoned, and the generation counter does not come round to one that the
backend has seen. -/
def SnapshotCond (s : State) : Label → Prop
  | .gate _ => NotFromTheMiddle s.base (.gate true) ∧ AbandonedDropped s.base (.gate true)
  | .abandon _ => AbandonedDropped s.base (.abandon true)
  | .backend .finish => (s.base.backend.captureLive = false →
      GoesLiveAtFinish s.base.backend s.base.shmem → s.base.backend.txBufOverflow = false) ∧
      AbandonedDropped s.base .finish
  | .backend label => FreshGeneration s.base label

/-! ## The session that the gate has dumped -/

/-- The file with the name shows the backend in front of the last hooked messages. -/
def DumpedBefore (sessions : Sessions) (hooked : List HookedMessage) (name : String)
    (messages : ℕ) : Prop :=
  ∃ snapshot after, sessions name = some snapshot ∧ hooked = snapshot.behind ++ after ∧
    after.length = messages

section Dumped

variable {sessions : Sessions} {hooked : List HookedMessage} {name : String} {messages : ℕ}
  {dump : Dump} {s : State} {b : Backend} {c : SharedMemory} {noted : Backend × SharedMemory}

theorem DumpedBefore.append (hdumped : DumpedBefore sessions hooked name messages)
    (m : HookedMessage) : DumpedBefore sessions (hooked ++ [m]) name (messages + 1) := by
  obtain ⟨snapshot, after, hfile, rfl, hlength⟩ := hdumped
  refine ⟨snapshot, after ++ [m], hfile, List.append_assoc _ _ _, ?_⟩
  rw [List.length_append, hlength, List.length_singleton]

theorem dumpedBefore_sessionStart
    (hok : (sessionStart name dump hooked sessions).1 = true) :
    DumpedBefore (sessionStart name dump hooked sessions).2 hooked name 0 := by
  cases dump with
  | cannotCreate | raises => cases hok
  | session session =>
      rw [sessionStart] at hok ⊢
      split at hok
      · next file hdumped =>
          refine ⟨⟨session, file, hdumped, hooked⟩, [], ?_, (List.append_nil _).symm, rfl⟩
          exact Function.update_self name _ sessions
      · cases hok

theorem noteSession_captured {sessionOk : Bool} (hcaptured : b.txCaptured = true) :
    noteSession sessionOk b = b := by
  rw [noteSession, if_neg]
  rintro ⟨-, hnot⟩
  rw [hcaptured] at hnot
  cases hnot

theorem noteSession_skips {sessionOk : Bool} (hlive : b.captureLive = false)
    (hcaptured : b.txCaptured = false) (hskip : b.skipSnap = true) :
    (noteSession sessionOk b).sessionActive = false := by
  rw [noteSession, if_pos ⟨hlive, hcaptured⟩, if_pos hskip]

theorem noteSession_dumps {sessionOk : Bool} (hlive : b.captureLive = false)
    (hcaptured : b.txCaptured = false) (hskip : b.skipSnap = false) :
    (noteSession sessionOk b).sessionActive = sessionOk := by
  rw [noteSession, if_pos ⟨hlive, hcaptured⟩, if_neg (by rw [hskip]; rintro ⟨⟩)]

/-- The count of the gate has nothing to do with the session. -/
theorem noteSession_counted (sessionOk : Bool) (b : Backend) (count : ℕ) :
    noteSession sessionOk { b with lastTxStatementCount := count } =
      { noteSession sessionOk b with lastTxStatementCount := count } := by
  simp only [noteSession]
  split_ifs <;> rfl

/-- The session that Connect names. -/
def connectName (b : Backend) : String :=
  if b.sessionActive then b.sessionName else ""

theorem connectName_dumped
    (hdumped : b.sessionActive = true → DumpedBefore sessions hooked b.sessionName messages) :
    connectName b = "" ∨ DumpedBefore sessions hooked (connectName b) messages := by
  rw [connectName]
  split_ifs with hactive
  · exact .inr (hdumped hactive)
  · exact .inl rfl

theorem captureGate_goesLive {sessionOk : Bool} {kind : HookKind} {body : List UInt8}
    (hpasses : Passes b c) (hnoted : noteGeneration b c = noted)
    (hlive : noted.1.captureLive = false) (hopen : noted.1.txOpen = true)
    (hready : noted.2.walReady = true) :
    (captureGate sessionOk kind body b c).1.out =
      noted.1.out ++ noted.1.entry
        (.connect (connectName (noteSession sessionOk noted.1))) none ::
          (if noted.1.txBufOverflow then [] else noted.1.txBuf) ++
            [noted.1.entry (.hooked kind body) noted.1.openXact] := by
  obtain ⟨skipSnap, sessionActive, hsession⟩ := noteSession_eq sessionOk noted.1
  rw [captureGate_of_passes _ _ _ hpasses hnoted rfl, noteSession_counted, hsession]
  simp only [hlive, hopen, hready, goLiveIfReady, goLive, markCaptured, Hooks.capEnd,
    Backend.entry, Backend.openXact, connectName, Bool.true_eq_false, and_false, and_self,
    if_false, if_true]

theorem captureGate_buffers {sessionOk : Bool} {kind : HookKind} {body : List UInt8}
    (hpasses : Passes b c) (hnoted : noteGeneration b c = noted)
    (hlive : noted.1.captureLive = false) (hopen : noted.1.txOpen = true)
    (hready : noted.2.walReady = false) :
    ∃ skipSnap xactMessages, captureGate sessionOk kind body b c =
      (txBufAdd (noted.1.entry (.hooked kind body) noted.1.openXact)
        { noted.1 with
          sessionActive := (noteSession sessionOk noted.1).sessionActive
          skipSnap := skipSnap
          lastTxStatementCount := noted.1.lastTxStatementCount + 1
          txCaptured := true
          xactMessages := xactMessages }, noted.2) := by
  obtain ⟨skipSnap, sessionActive, hsession⟩ := noteSession_eq sessionOk noted.1
  refine ⟨skipSnap,
    noted.1.xactMessages ++ [noted.1.entry (.hooked kind body) noted.1.openXact], ?_⟩
  rw [captureGate_of_passes _ _ _ hpasses hnoted rfl, noteSession_counted, hsession]
  simp only [hlive, hopen, hready, goLiveIfReady, markCaptured, Hooks.capEnd, Backend.entry,
    Backend.openXact, Bool.true_eq_false, Bool.false_eq_true, and_false, if_false, if_true]

end Dumped

/-! ## The invariant -/

/-- The stream begins with a Connect that names no session or the one that was dumped
exactly in front of the messages behind it. -/
def BeginsWithSession (s : State) : Prop :=
  ∃ session rest, s.base.backend.out =
      ⟨s.base.backend.myClientId, .connect session, s.base.shmem.generation, none⟩ :: rest ∧
    rest ≠ [] ∧ (session = "" ∨ DumpedBefore s.sessions s.base.hooked session rest.length)

structure SnapshotInv (s : State) : Prop where
  stream : StreamInv s.base
  captured : s.base.backend.txCaptured = true → isActive s.base.backend
  unbuffered : s.base.backend.captureLive = false → s.base.backend.txOpen = true →
    s.base.backend.txCaptured = false → s.base.backend.txBuf = []
  filled : s.base.backend.myCaptureGen = s.base.shmem.generation →
    s.base.backend.captureLive = false → s.base.backend.txCaptured = true →
    s.base.backend.txBufOverflow = false → s.base.abandoned = false →
    s.base.backend.txBuf ≠ []
  dumped : s.base.backend.myCaptureGen = s.base.shmem.generation →
    s.base.backend.captureLive = false → s.base.backend.txCaptured = true →
    s.base.backend.txBufOverflow = false → s.base.abandoned = false →
    s.base.backend.sessionActive = true →
    DumpedBefore s.sessions s.base.hooked s.base.backend.sessionName
      s.base.backend.txBuf.length
  live : s.base.backend.myCaptureGen = s.base.shmem.generation →
    s.base.backend.captureLive = true → BeginsWithSession s

theorem snapshotInv_init : SnapshotInv State.init where
  stream := streamInv_init
  captured := by rintro ⟨⟩
  unbuffered := fun _ _ _ => rfl
  filled := fun _ _ hcaptured => by cases hcaptured
  dumped := fun _ _ hcaptured => by cases hcaptured
  live := fun _ hlive => by cases hlive

section Steps

variable {s : State}

theorem snapshotInv_of_live (hstream : StreamInv s.base)
    (hlive : s.base.backend.captureLive = true)
    (hcaptured : s.base.backend.txCaptured = true → isActive s.base.backend)
    (hbegins : s.base.backend.myCaptureGen = s.base.shmem.generation → BeginsWithSession s) :
    SnapshotInv s := by
  have hnot : s.base.backend.captureLive ≠ false := by
    rw [hlive]
    rintro ⟨⟩
  exact {
    stream := hstream
    captured := hcaptured
    unbuffered := fun hdead => absurd hdead hnot
    filled := fun _ hdead => absurd hdead hnot
    dumped := fun _ hdead => absurd hdead hnot
    live := fun hknown _ => hbegins hknown }

/-- Nothing is captured of a transaction at hand. -/
theorem snapshotInv_of_idle (hstream : StreamInv s.base)
    (hdead : s.base.backend.captureLive = false) (hcaptured : s.base.backend.txCaptured = false)
    (hunbuffered : s.base.backend.txOpen = true → s.base.backend.txBuf = []) :
    SnapshotInv s := by
  have hnot : s.base.backend.txCaptured ≠ true := by
    rw [hcaptured]
    rintro ⟨⟩
  have hnotLive : s.base.backend.captureLive ≠ true := by
    rw [hdead]
    rintro ⟨⟩
  exact {
    stream := hstream
    captured := fun hisCaptured => absurd hisCaptured hnot
    unbuffered := fun _ hopen _ => hunbuffered hopen
    filled := fun _ _ hisCaptured => absurd hisCaptured hnot
    dumped := fun _ _ hisCaptured => absurd hisCaptured hnot
    live := fun _ hlive => absurd hlive hnotLive }

/-- The published generation is new to the backend. -/
theorem snapshotInv_start {id : UInt32} (hinv : SnapshotInv s)
    (hstream : StreamInv (OneBackend.start s.base id))
    (hfresh : s.base.shmem.generation + 1 ≠ s.base.backend.myCaptureGen) :
    SnapshotInv { s with base := OneBackend.start s.base id } where
  stream := hstream
  captured := hinv.captured
  unbuffered := hinv.unbuffered
  filled hknown := absurd hknown.symm hfresh
  dumped hknown := absurd hknown.symm hfresh
  live hknown := absurd hknown.symm hfresh

theorem snapshotInv_hook {kind : HookKind} {body : List UInt8} {inTransaction : Bool}
    (hinv : SnapshotInv s) (hstream : StreamInv (hook s.base kind body inTransaction)) :
    SnapshotInv { s with base := hook s.base kind body inTransaction } := by
  obtain ⟨nextClientId, statements, hnoted⟩ :=
    sameCapture_noteStatement kind s.base.backend s.base.shmem
  by_cases henters : s.base.backend.txOpen = false ∧ inTransaction = true
  · obtain ⟨statementIndex, txBuf, txBufOverflow, count, hhook, hreset⟩ :=
      hook_enters kind body henters
    rw [hhook, hnoted] at hstream ⊢
    exact { hinv with
      stream := hstream
      captured := fun hcaptured => by cases hcaptured
      unbuffered := fun hlive _ _ => (hreset hlive).1
      filled := fun _ _ hcaptured => by cases hcaptured
      dumped := fun _ _ hcaptured => by cases hcaptured }
  · obtain ⟨statementIndex, hhook⟩ := hook_same (s := s.base) kind body henters
    rw [hhook, hnoted] at hstream ⊢
    exact { hinv with stream := hstream }

theorem snapshotInv_leave (hinv : SnapshotInv s) (hstream : StreamInv (leave s.base)) :
    SnapshotInv { s with base := leave s.base } := by
  have hshared : ∃ openXacts pendingXacts,
      (xactLeaveShared s.base.backend.txGen s.base.shmem).2 =
        { s.base.shmem with openXacts := openXacts, pendingXacts := pendingXacts } := by
    rw [xactLeaveShared]
    split_ifs
    · exact ⟨_, _, rfl⟩
    · exact ⟨_, s.base.shmem.pendingXacts, rfl⟩
  obtain ⟨openXacts, pendingXacts, hleft⟩ := hshared
  rw [leave, hleft] at hstream ⊢
  exact { hinv with
    stream := hstream
    captured := fun _ => .inr rfl
    unbuffered := fun _ hopen => by cases hopen }

/-- Going live with what is buffered, and with the session dumped in front of it. -/
theorem beginsWithSession_of_dumped {b : Backend} {name : String} {buffered : List Entry}
    (hout : s.base.backend.out = b.entry (.connect name) none :: buffered)
    (hid : b.myClientId = s.base.backend.myClientId)
    (hgen : b.myCaptureGen = s.base.shmem.generation) (hfilled : buffered ≠ [])
    (hname : name = "" ∨ DumpedBefore s.sessions s.base.hooked name buffered.length) :
    BeginsWithSession s := by
  refine ⟨name, buffered, ?_, hfilled, hname⟩
  rw [hout, Backend.entry, hid, hgen]

theorem txFinish_out {b : Backend} {c : SharedMemory} (hlive : b.captureLive = false)
    (hready : GoesLiveAtFinish b c) :
    (txFinish b c).1.out = b.out ++ b.entry (.connect (connectName b)) none ::
      (if b.txBufOverflow then [] else b.txBuf) := by
  obtain ⟨hcaptured, hrunning, hgen, hwal⟩ := hready
  simp [txFinish, goLiveIfReady, goLive, hlive, hcaptured, hrunning, hgen, hwal, connectName]

theorem snapshotInv_finish (hinv : SnapshotInv s) (hstream : StreamInv (finish s.base))
    (hfinishing : s.base.backend.finishing = true)
    (hoverflow : s.base.backend.captureLive = false →
      GoesLiveAtFinish s.base.backend s.base.shmem → s.base.backend.txBufOverflow = false)
    (hdropped : AbandonedDropped s.base .finish) :
    SnapshotInv { s with base := finish s.base } := by
  have hclosed : s.base.backend.txOpen = false := hinv.stream.oneCallback hfinishing
  cases hlive : s.base.backend.captureLive with
  | true =>
      rw [finish, txFinish_live hlive] at hstream ⊢
      exact snapshotInv_of_live hstream hlive (by rintro ⟨⟩) fun hknown => hinv.live hknown hlive
  | false =>
      by_cases hready : GoesLiveAtFinish s.base.backend s.base.shmem
      · have hgoes := txFinish_out hlive hready
        obtain ⟨session, hlives⟩ := txFinish_ready hlive hready
        have hnone := hoverflow hlive hready
        have hkept := hdropped hlive hready
        obtain ⟨hcaptured, -, hknown, -⟩ := hready
        rw [(hinv.stream.buffering hknown hlive).1, hnone, if_neg Bool.false_ne_true] at hgoes
        rw [finish] at hstream ⊢
        rw [hlives] at hstream hgoes ⊢
        apply snapshotInv_of_live hstream rfl (by rintro ⟨⟩)
        intro _
        apply beginsWithSession_of_dumped
        · exact hgoes
        · rfl
        · exact hknown
        · exact hinv.filled hknown hlive hcaptured hnone hkept
        · exact connectName_dumped (hinv.dumped hknown hlive hcaptured hnone hkept)
      · rw [finish, txFinish_dropped hlive hready] at hstream ⊢
        exact snapshotInv_of_idle hstream hlive rfl fun _ => rfl

/-! ## The gate -/

section Gate

variable {noted : Backend × SharedMemory} {dump : Dump} {kind : HookKind} {body : List UInt8}

/-- What is buffered behind the generation check. -/
theorem noted_dumped (hinv : SnapshotInv s)
    (hnoted : noteGeneration (ungated s.base.backend) s.base.shmem = noted)
    (hlive : noted.1.captureLive = false) (hopen : noted.1.txOpen = true) :
    (noted.1.txCaptured = false → noted.1.txBuf = []) ∧
      (noted.1.txCaptured = true → noted.1.txBufOverflow = false → s.base.abandoned = false →
        noted.1.sessionActive = true → DumpedBefore s.sessions s.base.hooked
          noted.1.sessionName noted.1.txBuf.length) := by
  by_cases hgen : s.base.backend.myCaptureGen = s.base.shmem.generation
  · rw [noteGeneration_of_eq (by exact hgen)] at hnoted
    subst hnoted
    exact ⟨hinv.unbuffered hlive hopen, hinv.dumped hgen hlive⟩
  · obtain ⟨sessionName, skipSnap, hfresh⟩ :=
      noteGeneration_of_ne (b := ungated s.base.backend) hgen
    rw [hfresh] at hnoted
    subst hnoted
    refine ⟨fun _ => rfl, fun _ _ _ hactive => ?_⟩
    cases hactive

theorem gateSession_of_not (hnot : ¬DumpsSession (ungated s.base.backend) s.base.shmem) :
    gateSession dump s = (false, s.sessions) := by
  rw [gateSession]
  exact if_neg hnot

/-- The session that is open behind the gate shows the backend in front of the buffer and
the message at the gate. -/
theorem dumped_gate (hinv : SnapshotInv s)
    (hpasses : Passes (ungated s.base.backend) s.base.shmem)
    (hnoted : noteGeneration (ungated s.base.backend) s.base.shmem = noted)
    (hlive : noted.1.captureLive = false) (hopen : noted.1.txOpen = true)
    (hnone : noted.1.txBufOverflow = false) (hkept : s.base.abandoned = false)
    (m : HookedMessage)
    (hactive : (noteSession (gateSession dump s).1 noted.1).sessionActive = true) :
    DumpedBefore (gateSession dump s).2 (s.base.hooked ++ [m]) noted.1.sessionName
      (noted.1.txBuf.length + 1) := by
  obtain ⟨hempty, hdumped⟩ := noted_dumped hinv hnoted hlive hopen
  cases hcaptured : noted.1.txCaptured with
  | true =>
      have hsame : gateSession dump s = (false, s.sessions) := by
        apply gateSession_of_not
        rintro ⟨-, -, -, hnot, -⟩
        rw [hnoted, hcaptured] at hnot
        cases hnot
      rw [noteSession_captured hcaptured] at hactive
      rw [hsame]
      exact (hdumped hcaptured hnone hkept hactive).append m
  | false =>
      cases hskip : noted.1.skipSnap with
      | true =>
          rw [noteSession_skips hlive hcaptured hskip] at hactive
          cases hactive
      | false =>
          have hdumps : DumpsSession (ungated s.base.backend) s.base.shmem := by
            rw [DumpsSession, hnoted]
            exact ⟨hpasses, hlive, hopen, hcaptured, hskip⟩
          have hstarted : gateSession dump s =
              sessionStart noted.1.sessionName dump s.base.hooked s.sessions := by
            rw [gateSession, hnoted]
            exact if_pos hdumps
          rw [noteSession_dumps hlive hcaptured hskip, hstarted] at hactive
          rw [hstarted, hempty hcaptured]
          exact (dumpedBefore_sessionStart hactive).append m

/-- A message is captured in a transaction. -/
structure InXact (b b' : Backend) : Prop where
  txOpen : b'.txOpen = b.txOpen
  finishing : b'.finishing = b.finishing
  captured : b'.txCaptured = true → b.txCaptured = true ∨ b.txOpen = true

theorem InXact.trans {b b' b'' : Backend} (hfirst : InXact b b') (hsecond : InXact b' b'') :
    InXact b b'' where
  txOpen := hsecond.txOpen.trans hfirst.txOpen
  finishing := hsecond.finishing.trans hfirst.finishing
  captured hcaptured := by
    rcases hsecond.captured hcaptured with hbefore | hopen
    · exact hfirst.captured hbefore
    · exact .inr (hfirst.txOpen ▸ hopen)

theorem inXact_noteGeneration (b : Backend) (c : SharedMemory) :
    InXact b (noteGeneration b c).1 := by
  rw [noteGeneration]
  split_ifs <;> exact ⟨rfl, rfl, .inl⟩

theorem inXact_noteSession (sessionOk : Bool) (b : Backend) :
    InXact b (noteSession sessionOk b) := by
  rw [noteSession]
  split_ifs <;> exact ⟨rfl, rfl, .inl⟩

theorem inXact_goLiveIfReady (b : Backend) (c : SharedMemory) :
    InXact b (goLiveIfReady b c).1 := by
  rw [goLiveIfReady]
  split_ifs <;> exact ⟨rfl, rfl, .inl⟩

theorem inXact_markCaptured (b : Backend) : InXact b (markCaptured b) := by
  rw [markCaptured]
  split_ifs with hopen
  · exact ⟨rfl, rfl, fun _ => .inr hopen⟩
  · exact ⟨rfl, rfl, .inl⟩

theorem inXact_capEnd (kind : HookKind) (body : List UInt8) (b : Backend) :
    InXact b (Hooks.capEnd kind body b) := by
  simp only [Hooks.capEnd, txBufAdd]
  split_ifs <;> exact ⟨rfl, rfl, .inl⟩

theorem inXact_abandonedGate (sessionOk : Bool) (b : Backend) (c : SharedMemory) :
    InXact b (abandonedGate sessionOk b c).1 := by
  have hcounted : InXact b { (noteGeneration b c).1 with
      lastTxStatementCount := (noteGeneration b c).1.lastTxStatementCount + 1 } :=
    (inXact_noteGeneration b c).trans ⟨rfl, rfl, .inl⟩
  simp only [abandonedGate, passGate]
  split_ifs
  · exact ⟨rfl, rfl, .inl⟩
  · exact ⟨rfl, rfl, .inl⟩
  · exact hcounted
  · exact ((hcounted.trans (inXact_noteSession sessionOk _)).trans
      (inXact_goLiveIfReady _ _)).trans (inXact_markCaptured _)

theorem inXact_captureGate (sessionOk : Bool) (kind : HookKind) (body : List UInt8)
    (b : Backend) (c : SharedMemory) : InXact b (captureGate sessionOk kind body b c).1 := by
  rw [captureGate_fst]
  split_ifs
  · exact (inXact_abandonedGate sessionOk b c).trans (inXact_capEnd kind body _)
  · exact inXact_abandonedGate sessionOk b c

theorem captured_gate (hinv : SnapshotInv s) (sessionOk : Bool) (kind : HookKind)
    (body : List UInt8) (hcaptured :
      (OneBackend.gate s.base sessionOk kind body).backend.txCaptured = true) :
    isActive (OneBackend.gate s.base sessionOk kind body).backend := by
  have hin := inXact_captureGate sessionOk kind body (ungated s.base.backend) s.base.shmem
  have hactive : isActive s.base.backend := by
    rcases hin.captured hcaptured with hbefore | hopen
    · exact hinv.captured hbefore
    · exact .inl hopen
  rcases hactive with hopen | hfinishing
  · exact .inl (hin.txOpen.trans hopen)
  · exact .inr (hin.finishing.trans hfinishing)

/-- A message of a transaction that was there before the capture, or behind its end. -/
theorem snapshotInv_held (hinv : SnapshotInv s) {ok : Bool}
    (hstream : StreamInv (OneBackend.gate s.base ok kind body))
    (hnot : ¬Passes (ungated s.base.backend) s.base.shmem) :
    SnapshotInv ⟨OneBackend.gate s.base ok kind body, s.sessions⟩ := by
  rw [OneBackend.gate, captureGate_of_not_passes _ _ _ hnot] at hstream ⊢
  cases hrunning : s.base.shmem.running with
  | true =>
      obtain ⟨hopen, hpre⟩ := isPre_of_not_passes hinv.stream hnot hrunning
      have hunknown := hinv.stream.oldUnknown (.inl hopen) hpre
      exact {
        stream := hrunning ▸ hstream
        captured := hinv.captured
        unbuffered := hinv.unbuffered
        filled := fun hknown => absurd hknown hunknown
        dumped := fun hknown => absurd hknown hunknown
        live := fun hknown => absurd hknown hunknown }
  | false => exact { hinv with stream := hrunning ▸ hstream }

/-- A live backend pushes the message. -/
theorem snapshotInv_pushed (hinv : SnapshotInv s)
    (hstream : StreamInv (OneBackend.gate s.base (gateSession dump s).1 kind body))
    (hpasses : Passes (ungated s.base.backend) s.base.shmem)
    (hnoted : noteGeneration (ungated s.base.backend) s.base.shmem = noted)
    (hlive : noted.1.captureLive = true) :
    SnapshotInv ⟨OneBackend.gate s.base (gateSession dump s).1 kind body,
      (gateSession dump s).2⟩ := by
  obtain ⟨hsame, hknown⟩ := noteGeneration_live hnoted hlive
  have hsessions : gateSession dump s = (false, s.sessions) := by
    apply gateSession_of_not
    rintro ⟨-, hdead, -⟩
    rw [hnoted, hlive] at hdead
    cases hdead
  have hcaptured := captured_gate hinv (gateSession dump s).1 kind body
  obtain ⟨txCaptured, xactMessages, hgate⟩ :=
    captureGate_live (gateSession dump s).1 kind body hpasses hnoted hlive
  subst hsame
  obtain ⟨session, rest, hout, hne, hname⟩ := hinv.live hknown hlive
  rw [OneBackend.gate, hgate, if_pos hpasses.1] at hstream hcaptured ⊢
  rw [hsessions]
  apply snapshotInv_of_live
  · exact hstream
  · exact hlive
  · exact hcaptured
  · intro _
    refine ⟨session, rest ++ [(ungated s.base.backend).entry (.hooked kind body)
      (ungated s.base.backend).openXact], congrArg (· ++ [_]) hout,
      List.append_ne_nil_of_left_ne_nil hne _, ?_⟩
    rw [List.length_append, List.length_singleton]
    rcases hname with hempty | hdumped
    · exact .inl hempty
    · exact .inr (hdumped.append _)

theorem generation_noteGeneration {b : Backend} {c : SharedMemory}
    (hnoted : noteGeneration b c = noted) :
    noted.1.myCaptureGen = noted.2.generation ∧
      (b.out = [] → noted.1.out = []) := by
  by_cases hgen : b.myCaptureGen = c.generation
  · rw [noteGeneration_of_eq hgen] at hnoted
    subst hnoted
    exact ⟨hgen, id⟩
  · obtain ⟨sessionName, skipSnap, hfresh⟩ := noteGeneration_of_ne hgen
    rw [hfresh] at hnoted
    subst hnoted
    exact ⟨rfl, id⟩

/-- A backend that is not live has pushed nothing since the publication. -/
theorem out_noted (hinv : SnapshotInv s)
    (hnoted : noteGeneration (ungated s.base.backend) s.base.shmem = noted)
    (hlive : noted.1.captureLive = false) : noted.1.out = [] := by
  apply (generation_noteGeneration hnoted).2
  by_cases hgen : s.base.backend.myCaptureGen = s.base.shmem.generation
  · rw [noteGeneration_of_eq (by exact hgen)] at hnoted
    subst hnoted
    exact (hinv.stream.buffering hgen hlive).1
  · exact (hinv.stream.unknown hgen).1

/-- Going live at a message, with the buffer in front of it. -/
theorem snapshotInv_goesLive (hinv : SnapshotInv s)
    (hstream : StreamInv (OneBackend.gate s.base (gateSession dump s).1 kind body))
    (hpasses : Passes (ungated s.base.backend) s.base.shmem)
    (hnoted : noteGeneration (ungated s.base.backend) s.base.shmem = noted)
    (hlive : noted.1.captureLive = false) (hopen : noted.1.txOpen = true)
    (hready : noted.2.walReady = true) (hnone : noted.1.txBufOverflow = false)
    (hkept : s.base.abandoned = false) :
    SnapshotInv ⟨OneBackend.gate s.base (gateSession dump s).1 kind body,
      (gateSession dump s).2⟩ := by
  have hcaptured := captured_gate hinv (gateSession dump s).1 kind body
  have hout := @captureGate_goesLive _ _ _ (gateSession dump s).1 kind body hpasses hnoted hlive
    hopen hready
  rw [out_noted hinv hnoted hlive, hnone, if_neg Bool.false_ne_true, List.nil_append,
    List.cons_append] at hout
  obtain ⟨skipSnap, txCaptured, xactMessages, session, hgate⟩ :=
    captureGate_ready (gateSession dump s).1 kind body hpasses hnoted hlive hopen hready
  have hname : (noteSession (gateSession dump s).1 noted.1).sessionName = noted.1.sessionName := by
    obtain ⟨_, _, hsame⟩ := noteSession_eq (gateSession dump s).1 noted.1
    rw [hsame]
  rw [OneBackend.gate, if_pos hpasses.1] at hstream hcaptured ⊢
  rw [hgate] at hstream hcaptured hout ⊢
  apply snapshotInv_of_live
  · exact hstream
  · rfl
  · exact hcaptured
  · intro _
    apply beginsWithSession_of_dumped
    · exact hout
    · rfl
    · exact (generation_noteGeneration hnoted).1
    · exact List.append_ne_nil_of_right_ne_nil _ (List.cons_ne_nil _ _)
    · rw [List.length_append, List.length_singleton]
      apply connectName_dumped
      intro hactive
      rw [hname]
      exact dumped_gate hinv hpasses hnoted hlive hopen hnone hkept _ hactive

/-- The message goes to the buffer. -/
theorem snapshotInv_buffered (hinv : SnapshotInv s)
    (hstream : StreamInv (OneBackend.gate s.base (gateSession dump s).1 kind body))
    (hpasses : Passes (ungated s.base.backend) s.base.shmem)
    (hnoted : noteGeneration (ungated s.base.backend) s.base.shmem = noted)
    (hlive : noted.1.captureLive = false) (hopen : noted.1.txOpen = true)
    (hready : noted.2.walReady = false) :
    SnapshotInv ⟨OneBackend.gate s.base (gateSession dump s).1 kind body,
      (gateSession dump s).2⟩ := by
  obtain ⟨skipSnap, xactMessages, hgate⟩ := @captureGate_buffers _ _ _ (gateSession dump s).1
    kind body hpasses hnoted hlive hopen hready
  obtain ⟨txBufOverflow, txBuf, hadd, hfits⟩ := txBufAdd_eq
    (noted.1.entry (.hooked kind body) noted.1.openXact) { noted.1 with
      sessionActive := (noteSession (gateSession dump s).1 noted.1).sessionActive
      skipSnap := skipSnap
      lastTxStatementCount := noted.1.lastTxStatementCount + 1
      txCaptured := true
      xactMessages := xactMessages }
  rw [OneBackend.gate, hgate, hadd, if_pos hpasses.1] at hstream ⊢
  exact {
    stream := hstream
    captured := fun _ => .inl hopen
    unbuffered := fun _ _ hnot => by cases hnot
    filled := fun _ _ _ hnone _ => by
      rw [(hfits hnone).2]
      exact List.append_ne_nil_of_right_ne_nil _ (List.cons_ne_nil _ _)
    dumped := fun _ _ _ hnone hkept hactive => by
      rw [(hfits hnone).2, List.length_append, List.length_singleton]
      exact dumped_gate hinv hpasses hnoted hlive hopen (hfits hnone).1 hkept _ hactive
    live := fun _ hisLive => by
      rw [hlive] at hisLive
      cases hisLive }

theorem snapshotInv_gate (hinv : SnapshotInv s)
    (hstream : StreamInv (OneBackend.gate s.base (gateSession dump s).1 kind body))
    (hgating : s.base.backend.gating = some (kind, body))
    (hmiddle : NotFromTheMiddle s.base (.gate true))
    (hdropped : AbandonedDropped s.base (.gate true)) :
    SnapshotInv ⟨OneBackend.gate s.base (gateSession dump s).1 kind body,
      (gateSession dump s).2⟩ := by
  by_cases hpasses : Passes (ungated s.base.backend) s.base.shmem
  · obtain ⟨noted, hnoted⟩ : ∃ noted,
        noteGeneration (ungated s.base.backend) s.base.shmem = noted := ⟨_, rfl⟩
    obtain ⟨hsameOpen, -, -, hsameFinishing, hsameReady, -⟩ := noteGeneration_same hnoted
    cases hlive : noted.1.captureLive with
    | true => exact snapshotInv_pushed hinv hstream hpasses hnoted hlive
    | false =>
        cases hopen : noted.1.txOpen with
        | false =>
            have hfinishing : s.base.backend.finishing = false :=
              hinv.stream.gating (by rw [hgating]; rintro ⟨⟩)
            have hsessions : gateSession dump s = (false, s.sessions) := by
              apply gateSession_of_not
              rintro ⟨-, -, hisOpen, -⟩
              rw [hnoted, hopen] at hisOpen
              cases hisOpen
            have hcaptured := captured_gate hinv (gateSession dump s).1 kind body
            rw [OneBackend.gate, captureGate_outside _ _ _ hpasses hnoted hlive hopen]
              at hstream hcaptured ⊢
            rw [hsessions]
            apply snapshotInv_of_idle hstream hlive
            · by_contra hisCaptured
              rcases hcaptured (by simpa using hisCaptured) with hisOpen | hisFinishing
              · rw [hopen] at hisOpen
                cases hisOpen
              · rw [hsameFinishing] at hisFinishing
                cases hfinishing.symm.trans hisFinishing
            · intro hisOpen
              rw [hopen] at hisOpen
              cases hisOpen
        | true =>
            cases hready : noted.2.walReady with
            | true =>
                have hnone := noteGeneration_overflow hnoted hlive fun hdead hgen =>
                  hmiddle hdead (hsameOpen.symm.trans hopen) hpasses hgen
                    (hsameReady.symm.trans hready)
                exact snapshotInv_goesLive hinv hstream hpasses hnoted hlive hopen hready hnone
                  (abandoned_of_noted hinv.stream hpasses hnoted hlive hopen hready hdropped)
            | false => exact snapshotInv_buffered hinv hstream hpasses hnoted hlive hopen hready
  · have hsessions : gateSession dump s = (false, s.sessions) :=
      gateSession_of_not fun hdumps => hpasses hdumps.1
    rw [hsessions] at hstream ⊢
    exact snapshotInv_held hinv hstream hpasses

/-- A Bind of a transaction that is buffered is abandoned. -/
theorem snapshotInv_abandon {sessionOk : Bool} (sessions : Sessions)
    (hstream : StreamInv (abandon s.base sessionOk body))
    (hpass : (passGate sessionOk (ungated s.base.backend) s.base.shmem).1 = true)
    (hdropped : AbandonedDropped s.base (.abandon sessionOk)) :
    SnapshotInv ⟨abandon s.base sessionOk body, sessions⟩ := by
  obtain ⟨noted, hnoted⟩ : ∃ noted,
      noteGeneration (ungated s.base.backend) s.base.shmem = noted := ⟨_, rfl⟩
  have hlive := dead_of_abandonedDropped hnoted hdropped
  obtain ⟨-, -, -, -, hsameReady, -⟩ := noteGeneration_same hnoted
  obtain ⟨-, hopen, sessionActive, skipSnap, habandoned⟩ :=
    abandonedGate_buffering sessionOk hpass hnoted hlive (hsameReady.trans hdropped.2)
  rw [abandon, habandoned] at hstream ⊢
  exact {
    stream := hstream
    captured := fun _ => .inl hopen
    unbuffered := fun _ _ hnot => by cases hnot
    filled := fun _ _ _ _ hkept => by cases hkept
    dumped := fun _ _ _ _ hkept => by cases hkept
    live := fun _ hisLive => by cases hlive.symm.trans hisLive }

end Gate

theorem base_of_backend {s' : State} {label : OneBackend.Label}
    (hstep : step s (.backend label) = some s') :
    ∃ base, OneBackend.step s.base label = some base ∧ { s with base := base } = s' := by
  cases label with
  | gate | abandon => cases hstep
  | _ =>
      simp only [step] at hstep
      exact Option.map_eq_some_iff.mp hstep

theorem snapshotInv_step {s' : State} {l : Label} (hinv : SnapshotInv s)
    (hcond : SnapshotCond s l) (hstep : step s l = some s') : SnapshotInv s' := by
  cases l with
  | gate dump =>
      obtain ⟨base, hbase, rfl⟩ := Option.map_eq_some_iff.mp hstep
      -- A live backend has pushed a message behind its Connect.
      have hconnect : ConnectThenXact s.base (.gate (gateSession dump s).1) := by
        intro hlive _ hknown hbare
        obtain ⟨session, rest, hout, hne, -⟩ := hinv.live hknown hlive
        rw [hout, List.length_cons, Nat.add_eq_right] at hbare
        exact absurd (List.length_eq_zero_iff.mp hbare) hne
      have hstream := @step_streamInv _ _ (.gate (gateSession dump s).1) hinv.stream
        ⟨trivial, hcond.1, hconnect, hcond.2⟩ hbase
      rw [OneBackend.step] at hbase
      split at hbase
      · next kind body hgating =>
          cases hbase
          exact snapshotInv_gate hinv hstream hgating hcond.1 hcond.2
      · cases hbase
  | abandon dump =>
      obtain ⟨base, hbase, rfl⟩ := Option.map_eq_some_iff.mp hstep
      have hstream := @step_streamInv _ _ (.abandon (gateSession dump s).1) hinv.stream
        ⟨trivial, trivial, trivial, hcond⟩ hbase
      rw [OneBackend.step] at hbase
      split at hbase
      · split_ifs at hbase with hpass
        cases hbase
        exact snapshotInv_abandon _ hstream hpass hcond
      · cases hbase
  | backend label =>
      obtain ⟨base, hbase, rfl⟩ := base_of_backend hstep
      have hkeeps : StreamCond s.base label → StreamInv base :=
        fun hmeets => step_streamInv hinv.stream hmeets hbase
      cases label with
      | gate sessionOk | abandon sessionOk => cases hstep
      | start id =>
          have hstream := hkeeps ⟨hcond, trivial, trivial, trivial⟩
          cases hbase
          exact snapshotInv_start hinv hstream hcond.1
      | stop | setWalReady | others =>
          have hstream := hkeeps ⟨trivial, trivial, trivial, trivial⟩
          cases hbase
          exact { hinv with stream := hstream }
      | hook kind body inTransaction =>
          have hstream := hkeeps ⟨trivial, trivial, trivial, trivial⟩
          rw [OneBackend.step] at hbase
          split_ifs at hbase
          cases hbase
          exact snapshotInv_hook hinv hstream
      | leave =>
          have hstream := hkeeps ⟨trivial, trivial, trivial, trivial⟩
          rw [OneBackend.step] at hbase
          split_ifs at hbase
          cases hbase
          exact snapshotInv_leave hinv hstream
      | finish =>
          have hstream := hkeeps ⟨trivial, trivial, trivial, hcond.2⟩
          rw [OneBackend.step] at hbase
          split_ifs at hbase with hfinishing
          cases hbase
          exact snapshotInv_finish hinv hstream hfinishing hcond.1 hcond.2

end Steps

instance (s : State) : DecidablePred (SnapshotCond s)
  | .gate _ => inferInstanceAs (Decidable (NotFromTheMiddle s.base (.gate true) ∧
      AbandonedDropped s.base (.gate true)))
  | .abandon _ => inferInstanceAs (Decidable (AbandonedDropped s.base (.abandon true)))
  | .backend .finish => inferInstanceAs (Decidable ((s.base.backend.captureLive = false →
      GoesLiveAtFinish s.base.backend s.base.shmem → s.base.backend.txBufOverflow = false) ∧
      AbandonedDropped s.base .finish))
  | .backend (.start id) => inferInstanceAs (Decidable (FreshGeneration s.base (.start id)))
  | .backend .stop | .backend .setWalReady | .backend (.others ..) | .backend (.hook ..)
  | .backend (.gate _) | .backend (.abandon _) | .backend .leave => .isTrue trivial

/-- A transaction that is dropped with an abandoned Bind, and one that goes live at its
second message. -/
def secondTransaction : List Label :=
  [.backend (.start 1), .backend (.hook .parse [1] true), .gate (.session ⟨[], none, [], []⟩),
    .backend (.hook .bind [] true), .abandon .cannotCreate, .backend .leave, .backend .finish,
    .backend (.hook .parse [2] true), .gate (.session ⟨[], none, [], []⟩),
    .backend .setWalReady, .backend (.hook .execute [3] true), .gate .cannotCreate]

end Pgr.SessionSnapshot
