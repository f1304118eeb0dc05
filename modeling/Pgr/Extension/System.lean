import Pgr.Core.Transition
import Pgr.Extension.Worker

/-!
# The capturing server

Backends, shared memory, the capture channel and its worker as one transition
system.  A label is one atomic step of one process: a section under the capture
lock, one pass through `capture_gate` or `tx_finish`, one `channel_push`, one
access of `capture_sync_lsn`, one step of the worker, or Postgres inserting a
record into the WAL.  The ring is the queue that `ring.c` implements, and it
never overflows here.

The last components of the state only record what has happened.
-/

namespace Pgr.System

open Pgr.Shmem Pgr.Hooks Pgr.Worker Pgr.Transition

/-- A transaction whose commit or abort callback has run. -/
structure FinishedXact where
  xact : ℕ
  gen : UInt32
  commitPtr : Option ℕ
  messages : List Entry

/-- A message the worker has discarded, and what it had read of the channel. -/
structure Discarded where
  entry : Entry
  generation : UInt32
  running : Bool

structure State (ι : Type) where
  shmem : SharedMemory
  /-- `GetXLogInsertRecPtr()`. -/
  insertPtr : ℕ
  ring : List Entry
  backends : ι → Backend
  worker : CaptureWorker
  files : Files
  /-- The ids and generations published so far. -/
  published : List (UInt32 × UInt32)
  /-- The transactions entered so far. -/
  xacts : ℕ
  finished : List FinishedXact
  /-- Everything pushed so far. -/
  pushed : List Entry
  /-- Everything written so far, with the id of the file. -/
  written : List (UInt32 × Entry)
  discarded : List Discarded
  /-- The LSN messages pushed since the last publication. -/
  lsnCount : ℕ
  /-- The last insert position a sync has read. -/
  lsn : Option ℕ

inductive Label (ι : Type) where
  | start (i : ι) (id : UInt32)
  | stop (i : ι)
  | hook (i : ι) (kind : HookKind) (body : List UInt8) (inTransaction : Bool)
  | gate (i : ι) (sessionOk : Bool)
  | abandon (i : ι) (sessionOk : Bool)
  | push (i : ι)
  | insertCommit (i : ι) (size : ℕ)
  | insertRecord (size : ℕ)
  | leave (i : ι)
  | finish (i : ι)
  | readInsertPtr (i : ι)
  | pushLsn (i : ι)
  | setWalReady (i : ι)
  | exit (i : ι)
  | connect (i : ι) (isPsql : Bool)
  | workerTop
  | workerPop
  | workerCheck
  | workerOpen
  | workerDone (again : Bool)
  | workerTryExit
  | workerShutdown
  | workerSpawn

section Step

variable {ι : Type} [DecidableEq ι]

def State.setBackend (s : State ι) (i : ι) (b : Backend) : State ι :=
  { s with backends := Function.update s.backends i b }

/-- `capture_start` up to the sync of the starter.  `reserve_id` has created the
file of the id, so no other capture has it. -/
def start (s : State ι) (i : ι) (id : UInt32) : State ι :=
  let started := captureStart id s.shmem
  let backends := fun j => (s.backends j).markPre
  { s with
    shmem := started.2
    backends := Function.update backends i ((backends i).decideSync started)
    published := (started.2.generation, id) :: s.published
    lsnCount := 0 }

theorem start_backends (s : State ι) (i : ι) (id : UInt32) :
    (start s i id).backends = Function.update (fun j => (s.backends j).markPre) i
      ((s.backends i).markPre.decideSync (captureStart id s.shmem)) := rfl

/-- A message hook up to the gate: it opens the transaction if it has to. -/
def hook (s : State ι) (i : ι) (kind : HookKind) (body : List UInt8) (inTransaction : Bool) :
    State ι :=
  let noted := noteStatement kind (s.backends i) s.shmem
  if noted.1.txOpen = false ∧ inTransaction then
    let entered := enterXact s.xacts noted.1 noted.2
    { s.setBackend i { entered.1 with gating := some (kind, body) } with
      shmem := entered.2
      xacts := s.xacts + 1 }
  else { s.setBackend i { noted.1 with gating := some (kind, body) } with shmem := noted.2 }

/-- `tx_finish` up to the section under the lock. -/
def leave (s : State ι) (i : ι) : State ι :=
  let b := s.backends i
  let left := xactLeaveShared b.txGen s.shmem
  let b := { b with txOpen := false, finishing := true }
  { s.setBackend i (b.decideSync left) with shmem := left.2 }

def finish (s : State ι) (i : ι) : State ι :=
  let b := s.backends i
  let done := txFinish b s.shmem
  { s.setBackend i done.1 with
    shmem := done.2
    finished := ⟨b.xact, b.txGen, b.commitPtr, b.xactMessages⟩ :: s.finished }

def channelPush (s : State ι) (entry : Entry) : State ι :=
  { s with ring := s.ring ++ [entry], pushed := s.pushed ++ [entry] }

def write (s : State ι) (id : UInt32) (entry : Entry) : State ι :=
  { s with files := fwrite id entry s.files, written := s.written ++ [(id, entry)] }

def discard (s : State ι) (entry : Entry) : State ι :=
  { s with discarded := ⟨entry, s.shmem.generation, s.shmem.running⟩ :: s.discarded }

def step (s : State ι) : Label ι → Option (State ι)
  | .start i id =>
      if (s.backends i).isIdle ∧ id ∉ s.published.map Prod.snd then some (start s i id) else none
  | .stop i =>
      if (s.backends i).isIdle then some { s with shmem := channelStop s.shmem } else none
  | .hook i kind body inTransaction =>
      let b := s.backends i
      -- A committed transaction gets no further messages.
      if b.isIdle ∧ b.clientIsPsql = false ∧ (b.txOpen → b.commitPtr = none) then
        some (hook s i kind body inTransaction)
      else none
  | .gate i sessionOk =>
      let b := s.backends i
      match b.gating with
      | some (kind, body) =>
          let gated := captureGate sessionOk kind body { b with gating := none } s.shmem
          some { s.setBackend i gated.1 with shmem := gated.2 }
      | none => none
  | .abandon i sessionOk =>
      -- An ERROR in `capture_bind`: the Bind has passed the gate and goes nowhere.
      let b := { s.backends i with gating := none }
      if (s.backends i).gating.map Prod.fst = some .bind ∧ (passGate sessionOk b s.shmem).1 then
        let gated := abandonedGate sessionOk b s.shmem
        some { s.setBackend i gated.1 with shmem := gated.2 }
      else none
  | .push i =>
      let b := s.backends i
      match b.out with
      | entry :: out =>
          some (channelPush (s.setBackend i { b with out := out }) entry)
      | [] => none
  | .insertCommit i size =>
      let b := s.backends i
      if b.isIdle ∧ b.txOpen ∧ b.commitPtr = none then
        some { s.setBackend i { b with commitPtr := some s.insertPtr } with
          insertPtr := s.insertPtr + (size + 1) }
      else none
  | .insertRecord size => some { s with insertPtr := s.insertPtr + size }
  | .leave i =>
      if (s.backends i).isIdle ∧ (s.backends i).txOpen then some (leave s i) else none
  | .finish i =>
      if (s.backends i).finishing then some (finish s i) else none
  | .readInsertPtr i =>
      let b := s.backends i
      if b.sync = .decided ∧ b.finishing = false ∧ b.out = [] then
        some { s.setBackend i { b with sync := .read s.insertPtr } with lsn := some s.insertPtr }
      else none
  | .pushLsn i =>
      let b := s.backends i
      match b.sync with
      | .read insertPtr =>
          some { channelPush (s.setBackend i { b with sync := .pushed })
              (b.lsnEntry insertPtr) with
            lsnCount := s.lsnCount + 1 }
      | _ => none
  | .setWalReady i =>
      let b := s.backends i
      if b.sync = .pushed then
        some { s.setBackend i { b with sync := .none } with
          shmem := { s.shmem with walReady := true } }
      else none
  | .exit i =>
      let b := s.backends i
      if b.isIdle ∧ b.txOpen = false then some (s.setBackend i (pgrExit b s.shmem)) else none
  | .connect i isPsql =>
      let b := s.backends i
      if b.isGone then some (s.setBackend i (Backend.init isPsql)) else none
  | .workerTop =>
      if s.worker.pc = .top then some { s with worker := loopTop s.shmem s.worker } else none
  | .workerPop =>
      match s.worker.pc, s.ring with
      | .writeEvents caller, entry :: ring =>
          let s := { s with ring := ring }
          match s.worker.file with
          | some id => some (write s id entry)
          | none =>
              if entry.msg.isLsn then
                some { s with worker := { s.worker with pc := .popped entry caller } }
              else some (discard s entry)
      | _, _ => none
  | .workerCheck =>
      match s.worker.pc with
      | .popped entry caller =>
          if s.shmem.running then
            some { s with worker := { s.worker with pc := .opening entry caller } }
          else
            some (discard { s with worker := { s.worker with pc := .writeEvents caller } } entry)
      | _ => none
  | .workerOpen =>
      match s.worker.pc with
      | .opening entry caller =>
          let opened := openFile s.shmem s.worker s.files
          some (write { s with
            worker := { opened.1 with pc := .writeEvents caller }
            files := opened.2 } s.shmem.id entry)
      | _ => none
  | .workerDone again =>
      match s.worker.pc with
      | .writeEvents caller => some { s with worker := eventsDone again caller s.worker }
      | _ => none
  | .workerTryExit =>
      if s.worker.pc = .writeEvents .loop ∧ s.shmem.running = false then
        some { s with worker := { s.worker with file := none, pc := .exited } }
      else none
  | .workerShutdown =>
      if s.worker.pc = .top then
        some { s with worker := { s.worker with pc := .writeEvents .shutdown } }
      else none
  | .workerSpawn =>
      if s.worker.pc = .exited then some { s with worker := CaptureWorker.spawn } else none

/-- What an enabled label finds and does. -/
inductive Stepped (s : State ι) : Label ι → State ι → Prop
  | start {i id} (hidle : (s.backends i).isIdle = true) (hid : id ∉ s.published.map Prod.snd) :
      Stepped s (.start i id) (start s i id)
  | stop {i} (hidle : (s.backends i).isIdle = true) :
      Stepped s (.stop i) { s with shmem := channelStop s.shmem }
  | hook {i kind body inTransaction} (hidle : (s.backends i).isIdle = true)
      (hpsql : (s.backends i).clientIsPsql = false)
      (hptr : (s.backends i).txOpen = true → (s.backends i).commitPtr = none) :
      Stepped s (.hook i kind body inTransaction) (hook s i kind body inTransaction)
  | gate {i sessionOk kind body} (hgating : (s.backends i).gating = some (kind, body)) :
      Stepped s (.gate i sessionOk)
        { s.setBackend i (captureGate sessionOk kind body
              { s.backends i with gating := none } s.shmem).1 with
          shmem := (captureGate sessionOk kind body
            { s.backends i with gating := none } s.shmem).2 }
  | abandon {i sessionOk} (hbind : (s.backends i).gating.map Prod.fst = some .bind)
      (hpasses : (passGate sessionOk { s.backends i with gating := none } s.shmem).1 = true) :
      Stepped s (.abandon i sessionOk)
        { s.setBackend i (abandonedGate sessionOk { s.backends i with gating := none }
              s.shmem).1 with
          shmem := (abandonedGate sessionOk { s.backends i with gating := none } s.shmem).2 }
  | push {i entry out} (hout : (s.backends i).out = entry :: out) :
      Stepped s (.push i)
        (channelPush (s.setBackend i { s.backends i with out := out }) entry)
  | insertCommit {i size} (hidle : (s.backends i).isIdle = true)
      (hopen : (s.backends i).txOpen = true) (hptr : (s.backends i).commitPtr = none) :
      Stepped s (.insertCommit i size)
        { s.setBackend i { s.backends i with commitPtr := some s.insertPtr } with
          insertPtr := s.insertPtr + (size + 1) }
  | insertRecord {size} :
      Stepped s (.insertRecord size) { s with insertPtr := s.insertPtr + size }
  | leave {i} (hidle : (s.backends i).isIdle = true) (hopen : (s.backends i).txOpen = true) :
      Stepped s (.leave i) (leave s i)
  | finish {i} (hfinishing : (s.backends i).finishing = true) :
      Stepped s (.finish i) (finish s i)
  | readInsertPtr {i} (hdecided : (s.backends i).sync = .decided)
      (hfinishing : (s.backends i).finishing = false) (hout : (s.backends i).out = []) :
      Stepped s (.readInsertPtr i)
        { s.setBackend i { s.backends i with sync := .read s.insertPtr } with
          lsn := some s.insertPtr }
  | pushLsn {i insertPtr} (hread : (s.backends i).sync = .read insertPtr) :
      Stepped s (.pushLsn i)
        { channelPush (s.setBackend i { s.backends i with sync := .pushed })
            ((s.backends i).lsnEntry insertPtr) with
          lsnCount := s.lsnCount + 1 }
  | setWalReady {i} (hpushed : (s.backends i).sync = .pushed) :
      Stepped s (.setWalReady i)
        { s.setBackend i { s.backends i with sync := .none } with
          shmem := { s.shmem with walReady := true } }
  | exit {i} (hidle : (s.backends i).isIdle = true) (hclosed : (s.backends i).txOpen = false) :
      Stepped s (.exit i) (s.setBackend i (pgrExit (s.backends i) s.shmem))
  | connect {i isPsql} (hgone : (s.backends i).isGone = true) :
      Stepped s (.connect i isPsql) (s.setBackend i (Backend.init isPsql))
  | workerTop (hpc : s.worker.pc = .top) :
      Stepped s .workerTop { s with worker := loopTop s.shmem s.worker }
  | workerWrite {caller entry ring id} (hpc : s.worker.pc = .writeEvents caller)
      (hring : s.ring = entry :: ring) (hfile : s.worker.file = some id) :
      Stepped s .workerPop (write { s with ring := ring } id entry)
  | workerHold {caller entry ring} (hpc : s.worker.pc = .writeEvents caller)
      (hring : s.ring = entry :: ring) (hfile : s.worker.file = none)
      (hlsn : entry.msg.isLsn = true) :
      Stepped s .workerPop
        { s with ring := ring, worker := { s.worker with pc := .popped entry caller } }
  | workerDiscard {caller entry ring} (hpc : s.worker.pc = .writeEvents caller)
      (hring : s.ring = entry :: ring) (hfile : s.worker.file = none)
      (hlsn : entry.msg.isLsn = false) :
      Stepped s .workerPop (discard { s with ring := ring } entry)
  | workerRunning {caller entry} (hpc : s.worker.pc = .popped entry caller)
      (hrunning : s.shmem.running = true) :
      Stepped s .workerCheck { s with worker := { s.worker with pc := .opening entry caller } }
  | workerStopped {caller entry} (hpc : s.worker.pc = .popped entry caller)
      (hstopped : s.shmem.running = false) :
      Stepped s .workerCheck
        (discard { s with worker := { s.worker with pc := .writeEvents caller } } entry)
  | workerOpen {caller entry} (hpc : s.worker.pc = .opening entry caller) :
      Stepped s .workerOpen
        (write { s with
          worker := { (openFile s.shmem s.worker s.files).1 with pc := .writeEvents caller }
          files := (openFile s.shmem s.worker s.files).2 } s.shmem.id entry)
  | workerDone {caller again} (hpc : s.worker.pc = .writeEvents caller) :
      Stepped s (.workerDone again) { s with worker := eventsDone again caller s.worker }
  | workerTryExit (hpc : s.worker.pc = .writeEvents .loop) (hstopped : s.shmem.running = false) :
      Stepped s .workerTryExit { s with worker := { s.worker with file := none, pc := .exited } }
  | workerShutdown (hpc : s.worker.pc = .top) :
      Stepped s .workerShutdown { s with worker := { s.worker with pc := .writeEvents .shutdown } }
  | workerSpawn (hpc : s.worker.pc = .exited) :
      Stepped s .workerSpawn { s with worker := CaptureWorker.spawn }

theorem stepped_of_step {s s' : State ι} {l : Label ι} (hstep : step s l = some s') :
    Stepped s l s' := by
  cases l with
  | start i id =>
      rw [step] at hstep
      split_ifs at hstep with hready
      cases hstep
      exact .start hready.1 hready.2
  | stop i =>
      rw [step] at hstep
      split_ifs at hstep with hidle
      cases hstep
      exact .stop hidle
  | hook i kind body inTransaction =>
      simp only [step] at hstep
      split_ifs at hstep with hready
      cases hstep
      exact .hook hready.1 hready.2.1 hready.2.2
  | gate i sessionOk =>
      simp only [step] at hstep
      split at hstep
      · next kind body hgating =>
          cases hstep
          exact .gate hgating
      · cases hstep
  | abandon i sessionOk =>
      simp only [step] at hstep
      split_ifs at hstep with hready
      cases hstep
      exact .abandon hready.1 hready.2
  | push i =>
      simp only [step] at hstep
      split at hstep
      · next entry out hout =>
          cases hstep
          exact .push hout
      · cases hstep
  | insertCommit i size =>
      simp only [step] at hstep
      split_ifs at hstep with hready
      cases hstep
      exact .insertCommit hready.1 hready.2.1 hready.2.2
  | insertRecord size =>
      cases hstep
      exact .insertRecord
  | leave i =>
      rw [step] at hstep
      split_ifs at hstep with hready
      cases hstep
      exact .leave hready.1 hready.2
  | finish i =>
      rw [step] at hstep
      split_ifs at hstep with hfinishing
      cases hstep
      exact .finish hfinishing
  | readInsertPtr i =>
      simp only [step] at hstep
      split_ifs at hstep with hready
      cases hstep
      exact .readInsertPtr hready.1 hready.2.1 hready.2.2
  | pushLsn i =>
      simp only [step] at hstep
      split at hstep
      · next insertPtr hread =>
          cases hstep
          exact .pushLsn hread
      · cases hstep
  | setWalReady i =>
      simp only [step] at hstep
      split_ifs at hstep with hpushed
      cases hstep
      exact .setWalReady hpushed
  | exit i =>
      simp only [step] at hstep
      split_ifs at hstep with hready
      cases hstep
      exact .exit hready.1 hready.2
  | connect i isPsql =>
      simp only [step] at hstep
      split_ifs at hstep with hgone
      cases hstep
      exact .connect hgone
  | workerTop =>
      rw [step] at hstep
      split_ifs at hstep with hpc
      cases hstep
      exact .workerTop hpc
  | workerPop =>
      simp only [step] at hstep
      split at hstep
      · next caller entry ring hpc hring =>
          split at hstep
          · next id hfile =>
              cases hstep
              exact .workerWrite hpc hring hfile
          · next hfile =>
              split_ifs at hstep with hlsn
              · cases hstep
                exact .workerHold hpc hring hfile hlsn
              · cases hstep
                exact .workerDiscard hpc hring hfile (Bool.eq_false_of_not_eq_true hlsn)
      · cases hstep
  | workerCheck =>
      simp only [step] at hstep
      split at hstep
      · next entry caller hpc =>
          split_ifs at hstep with hrunning
          · cases hstep
            exact .workerRunning hpc hrunning
          · cases hstep
            exact .workerStopped hpc (Bool.eq_false_of_not_eq_true hrunning)
      · cases hstep
  | workerOpen =>
      simp only [step] at hstep
      split at hstep
      · next entry caller hpc =>
          cases hstep
          exact .workerOpen hpc
      · cases hstep
  | workerDone again =>
      simp only [step] at hstep
      split at hstep
      · next caller hpc =>
          cases hstep
          exact .workerDone hpc
      · cases hstep
  | workerTryExit =>
      rw [step] at hstep
      split_ifs at hstep with hready
      cases hstep
      exact .workerTryExit hready.1 hready.2
  | workerShutdown =>
      rw [step] at hstep
      split_ifs at hstep with hpc
      cases hstep
      exact .workerShutdown hpc
  | workerSpawn =>
      rw [step] at hstep
      split_ifs at hstep with hpc
      cases hstep
      exact .workerSpawn hpc

/-- A server that has just started. -/
def State.init (isPsql : ι → Bool) : State ι where
  shmem := SharedMemory.init
  insertPtr := 0
  ring := []
  backends := fun i => Backend.init (isPsql i)
  worker := ⟨none, 0, .exited⟩
  files := fun _ => []
  published := []
  xacts := 0
  finished := []
  pushed := []
  written := []
  discarded := []
  lsnCount := 0
  lsn := none

end Step

end Pgr.System
