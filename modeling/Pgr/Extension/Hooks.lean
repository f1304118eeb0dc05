import Pgr.Extension.Shmem

/-!
# Backend hooks

`hooks.c` and the buffering part of `capture.c`: the static variables of a
backend, and `capture_gate`, `go_live` and `tx_finish` as functions on them.
Messages are handed to `channel_push` one by one later, so these functions
return the messages that are left to push.  The session dump itself is not
modelled, only whether it is being written.

A message carries two marks that the code does not have: the generation under
which its backend decided to send it, and the number of the transaction it was
hooked in.
-/

namespace Pgr.Hooks

open Pgr.Shmem

inductive HookKind where
  | parse
  | simpleQuery
  | bind
  | execute
  | sync
  | close
  deriving DecidableEq

inductive Message where
  | lsn (insertPtr : ℕ)
  | connect (session : String)
  | disconnect
  | hooked (kind : HookKind) (body : List UInt8)
  deriving DecidableEq

def Message.isLsn : Message → Bool
  | .lsn _ => true
  | .connect _ | .disconnect | .hooked .. => false

/-- The bytes of the record: the header of `cap_begin` and the fields. -/
def Message.size : Message → ℕ
  | .lsn _ => 13 + 8
  | .connect session => 13 + (4 + session.utf8ByteSize)
  | .disconnect => 13
  | .hooked _ body => 13 + body.length

structure Entry where
  clientId : UInt32
  msg : Message
  gen : UInt32
  xact : Option ℕ
  deriving DecidableEq

/-- How far the backend is in a `capture_sync_lsn` it has to make. -/
inductive Sync where
  | none
  | decided
  | read (insertPtr : ℕ)
  | pushed
  deriving DecidableEq

structure Backend where
  clientIsPsql : Bool
  exited : Bool
  statementIndex : UInt64
  txOpen : Bool
  txGen : UInt32
  txCaptured : Bool
  captureLive : Bool
  myCaptureGen : UInt32
  myClientId : UInt32
  sessionName : String
  sessionActive : Bool
  skipSnap : Bool
  lastTxStatementCount : ℕ
  txBuf : List Entry
  txBufOverflow : Bool
  /-- The hooked message that is still in front of the gate. -/
  gating : Option (HookKind × List UInt8)
  /-- Left the shared state but not through `tx_finish`. -/
  finishing : Bool
  /-- The messages left to push. -/
  out : List Entry
  sync : Sync
  /-- The generation for which the sync has been decided. -/
  syncGen : UInt32
  /-- Where the commit record of the transaction was inserted. -/
  commitPtr : Option ℕ
  /-- The number of the last transaction. -/
  xact : ℕ
  /-- A capture has been published since the transaction was entered. -/
  isPre : Bool
  /-- The messages hooked in the last transaction, but for those abandoned. -/
  xactMessages : List Entry

def Backend.init (clientIsPsql : Bool) : Backend where
  clientIsPsql := clientIsPsql
  exited := false
  statementIndex := 0
  txOpen := false
  txGen := 0
  txCaptured := false
  captureLive := false
  myCaptureGen := 0
  myClientId := 0
  sessionName := ""
  sessionActive := false
  skipSnap := false
  lastTxStatementCount := 0
  txBuf := []
  txBufOverflow := false
  gating := none
  finishing := false
  out := []
  sync := .none
  syncGen := 0
  commitPtr := none
  xact := 0
  isPre := false
  xactMessages := []

/-- Between two calls into the extension. -/
def Backend.isIdle (b : Backend) : Bool :=
  b.exited = false ∧ b.gating = none ∧ b.finishing = false ∧ b.out = [] ∧ b.sync = .none

/-- The process has ended and a new backend can take its place. -/
def Backend.isGone (b : Backend) : Bool :=
  b.exited ∧ b.txOpen = false ∧ b.gating = none ∧ b.finishing = false ∧ b.out = [] ∧
    b.sync = .none

/-- The backend's own message under the generation it saw in `capture_gate`. -/
def Backend.entry (b : Backend) (msg : Message) (xact : Option ℕ) : Entry :=
  ⟨b.myClientId, msg, b.myCaptureGen, xact⟩

/-- The transaction a hooked message belongs to. -/
def Backend.openXact (b : Backend) : Option ℕ :=
  if b.txOpen then some b.xact else none

def txBufLimit : ℕ := 64 * 1024 * 1024

/-- `TxBuf.len`: every buffered record has its length in front. -/
def Backend.txBufLen (b : Backend) : ℕ :=
  (b.txBuf.map fun entry => entry.msg.size + 4).sum

def txBufAdd (entry : Entry) (b : Backend) : Backend :=
  if b.txBufOverflow then b
  else if txBufLimit < b.txBufLen + entry.msg.size + 4 then { b with txBufOverflow := true }
  else { b with txBuf := b.txBuf ++ [entry] }

/-- `capture_txbuf_reset` with the count that goes with the buffer. -/
def Backend.resetTxBuf (b : Backend) : Backend :=
  { b with txBufOverflow := false, txBuf := [], lastTxStatementCount := 0 }

/-- The sync that a section under the lock has decided for its generation. -/
def Backend.decideSync (decision : Bool × SharedMemory) (b : Backend) : Backend :=
  if decision.1 then { b with sync := .decided, syncGen := decision.2.generation } else b

/-- The mark of the transactions a publication finds. -/
def Backend.markPre (b : Backend) : Backend :=
  { b with isPre := true }

/-- The message of `capture_sync_lsn`. -/
def Backend.lsnEntry (b : Backend) (insertPtr : ℕ) : Entry :=
  ⟨b.myClientId, .lsn insertPtr, b.syncGen, none⟩

/-- `go_live`, with the messages it pushes. -/
def goLive (b : Backend) (c : SharedMemory) : Backend × SharedMemory :=
  let session := if b.sessionActive then b.sessionName else ""
  ({ b with
      sessionActive := false
      captureLive := true
      out := b.out ++ b.entry (.connect session) none ::
        (if b.txBufOverflow then [] else b.txBuf)
      txBufOverflow := false
      txBuf := [] },
    statsAddStatements b.lastTxStatementCount c)

def goLiveIfReady (b : Backend) (c : SharedMemory) : Backend × SharedMemory :=
  if b.captureLive = false ∧ c.walReady then goLive b c else (b, c)

/-- What a message hook counts in front of the gate. -/
def noteStatement (kind : HookKind) (b : Backend) (c : SharedMemory) : Backend × SharedMemory :=
  (if kind = .sync ∨ kind = .close then b
    else { b with statementIndex := b.statementIndex + 1 },
    if b.captureLive then statsAddStatements 1 c else c)

/-- The transaction that `capture_gate` opens. -/
def enterXact (xact : ℕ) (b : Backend) (c : SharedMemory) : Backend × SharedMemory :=
  let entered := xactEnterShared c
  let b := { b with
    txGen := entered.1, txOpen := true, txCaptured := false
    xact := xact, isPre := false, commitPtr := none, xactMessages := [] }
  (if b.captureLive then b else b.resetTxBuf, entered.2)

/-- The generation check of `capture_gate`. -/
def noteGeneration (b : Backend) (c : SharedMemory) : Backend × SharedMemory :=
  if b.myCaptureGen = c.generation then (b, c)
  else
    let acquired := acquireClientId c
    ({ b.resetTxBuf with
        sessionActive := false
        captureLive := false
        myCaptureGen := c.generation
        myClientId := acquired.1
        sessionName := toString c.id ++ "/" ++ toString acquired.1
        skipSnap := b.statementIndex ≤ 1 && c.walReady }, acquired.2)

/-- The session dump in front of the first captured message of a transaction. -/
def noteSession (sessionOk : Bool) (b : Backend) : Backend :=
  if b.captureLive = false ∧ b.txCaptured = false then
    if b.skipSnap then { b with skipSnap := false, sessionActive := false }
    else { b with sessionActive := sessionOk }
  else b

def markCaptured (b : Backend) : Backend :=
  if b.txOpen then { b with txCaptured := true } else b

/-- `cap_end` of the hooked message: pushed, or buffered with the transaction. -/
def capEnd (kind : HookKind) (body : List UInt8) (b : Backend) : Backend :=
  let entry := b.entry (.hooked kind body) b.openXact
  let b := { b with xactMessages := b.xactMessages ++ [entry] }
  if b.captureLive then { b with out := b.out ++ [entry] } else txBufAdd entry b

/-- `capture_gate` behind the opening of the transaction: whether it lets the message
pass.  `sessionOk` is the result of `session_start`. -/
def passGate (sessionOk : Bool) (b : Backend) (c : SharedMemory) :
    Bool × Backend × SharedMemory :=
  if c.running = false then (false, b, c)
  else if b.txOpen ∧ xactIsPre b.txGen c then (false, b, c)
  else
    let noted := noteGeneration b c
    let b := { noted.1 with lastTxStatementCount := noted.1.lastTxStatementCount + 1 }
    if b.captureLive = false ∧ b.txOpen = false then (false, b, noted.2)
    else
      let live := goLiveIfReady (noteSession sessionOk b) noted.2
      (true, markCaptured live.1, live.2)

/-- The gate, and the capture of the message if the gate lets it pass. -/
def captureGate (sessionOk : Bool) (kind : HookKind) (body : List UInt8) (b : Backend)
    (c : SharedMemory) : Backend × SharedMemory :=
  let passed := passGate sessionOk b c
  if passed.1 then (capEnd kind body passed.2.1, passed.2.2) else passed.2

/-- The gate, if an ERROR leaves `capture_bind` before `cap_end`: the type output
functions run there. -/
def abandonedGate (sessionOk : Bool) (b : Backend) (c : SharedMemory) : Backend × SharedMemory :=
  (passGate sessionOk b c).2

/-- `tx_finish` behind `xact_leave_shared`; `capture_tx_end` sends nothing. -/
def txFinish (b : Backend) (c : SharedMemory) : Backend × SharedMemory :=
  let live :=
    if b.txCaptured ∧ c.running ∧ b.myCaptureGen = c.generation then goLiveIfReady b c
    else (b, c)
  let b := if live.1.captureLive then live.1 else live.1.resetTxBuf
  ({ b with txCaptured := false, finishing := false }, live.2)

/-- `pgr_exit`: a live backend says goodbye. -/
def pgrExit (b : Backend) (c : SharedMemory) : Backend :=
  let b := { b with exited := true }
  if b.captureLive ∧ c.running ∧ b.myCaptureGen = c.generation then
    { b with out := b.out ++ [b.entry .disconnect none] }
  else b

/-! ## What the hooks write to shared memory -/

theorem sameCapture_noteStatement (kind : HookKind) (b : Backend) (c : SharedMemory) :
    SameCapture c (noteStatement kind b c).2 := by
  simp only [noteStatement]
  split_ifs
  · exact sameCapture_statsAddStatements 1 c
  · exact SameCapture.refl c

theorem sameCapture_goLiveIfReady (b : Backend) (c : SharedMemory) :
    SameCapture c (goLiveIfReady b c).2 := by
  rw [goLiveIfReady]
  split_ifs
  · exact sameCapture_statsAddStatements _ c
  · exact SameCapture.refl c

theorem sameCapture_noteGeneration (b : Backend) (c : SharedMemory) :
    SameCapture c (noteGeneration b c).2 := by
  rw [noteGeneration]
  split_ifs
  · exact SameCapture.refl c
  · exact sameCapture_acquireClientId c

theorem sameCapture_abandonedGate (sessionOk : Bool) (b : Backend) (c : SharedMemory) :
    SameCapture c (abandonedGate sessionOk b c).2 := by
  simp only [abandonedGate, passGate]
  split_ifs
  · exact SameCapture.refl c
  · exact SameCapture.refl c
  · exact sameCapture_noteGeneration b c
  · exact (sameCapture_noteGeneration b c).trans (sameCapture_goLiveIfReady _ _)

/-- Capturing the message changes the backend alone. -/
theorem captureGate_snd (sessionOk : Bool) (kind : HookKind) (body : List UInt8)
    (b : Backend) (c : SharedMemory) :
    (captureGate sessionOk kind body b c).2 = (abandonedGate sessionOk b c).2 := by
  simp only [captureGate, abandonedGate]
  split_ifs <;> rfl

theorem captureGate_fst (sessionOk : Bool) (kind : HookKind) (body : List UInt8)
    (b : Backend) (c : SharedMemory) :
    (captureGate sessionOk kind body b c).1 =
      if (passGate sessionOk b c).1 then capEnd kind body (abandonedGate sessionOk b c).1
      else (abandonedGate sessionOk b c).1 := by
  simp only [captureGate, abandonedGate]
  split_ifs <;> rfl

theorem sameCapture_captureGate (sessionOk : Bool) (kind : HookKind) (body : List UInt8)
    (b : Backend) (c : SharedMemory) :
    SameCapture c (captureGate sessionOk kind body b c).2 := by
  rw [captureGate_snd]
  exact sameCapture_abandonedGate sessionOk b c

theorem sameCapture_txFinish (b : Backend) (c : SharedMemory) :
    SameCapture c (txFinish b c).2 := by
  simp only [txFinish]
  split_ifs
  · exact sameCapture_goLiveIfReady b c
  · exact SameCapture.refl c

end Pgr.Hooks
