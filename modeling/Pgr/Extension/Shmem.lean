import Mathlib

/-!
# Shared capture state

`shmem.c` and the shared part of `channel.c`: the capture channel's identity and
the counters of the capture state.  The sections under the capture lock are
functions here, so each is one atomic step of the system.  Transactions are
counted by natural numbers; there are no more of them than backends.
-/

namespace Pgr.Shmem

structure SharedMemory where
  id : UInt32
  running : Bool
  generation : UInt32
  nextClientId : UInt32
  walReady : Bool
  openXacts : ℕ
  pendingXacts : ℕ
  statements : UInt64

/-- `shmem_init`. -/
def SharedMemory.init : SharedMemory where
  id := 0
  running := false
  generation := 0
  nextClientId := 0
  walReady := false
  openXacts := 0
  pendingXacts := 0
  statements := 0

def channelPublish (id : UInt32) (c : SharedMemory) : SharedMemory :=
  { c with id := id, generation := c.generation + 1, running := true }

def channelStop (c : SharedMemory) : SharedMemory :=
  { c with running := false }

/-- The locked section of `capture_start`; what follows it is the sync of the
starter if nothing is pending. -/
def captureStart (id : UInt32) (c : SharedMemory) : Bool × SharedMemory :=
  let c := { c with walReady := false, nextClientId := 0, pendingXacts := c.openXacts }
  (c.pendingXacts = 0, channelPublish id c)

/-- `pg_atomic_fetch_add_u32`. -/
def acquireClientId (c : SharedMemory) : UInt32 × SharedMemory :=
  (c.nextClientId, { c with nextClientId := c.nextClientId + 1 })

def xactEnterShared (c : SharedMemory) : UInt32 × SharedMemory :=
  (if c.running then c.generation else 0, { c with openXacts := c.openXacts + 1 })

def xactLeaveShared (gen : UInt32) (c : SharedMemory) : Bool × SharedMemory :=
  let c := { c with openXacts := c.openXacts - 1 }
  if c.running ∧ gen ≠ c.generation ∧ 0 < c.pendingXacts then
    (c.pendingXacts - 1 = 0, { c with pendingXacts := c.pendingXacts - 1 })
  else (false, c)

def xactIsPre (gen : UInt32) (c : SharedMemory) : Bool :=
  c.running ∧ gen ≠ c.generation

def statsAddStatements (count : ℕ) (c : SharedMemory) : SharedMemory :=
  { c with statements := c.statements + UInt64.ofNat count }

/-- Equal up to the client ids handed out and the statistics. -/
def SameCapture (c c' : SharedMemory) : Prop :=
  ∃ nextClientId statements,
    c' = { c with nextClientId := nextClientId, statements := statements }

theorem SameCapture.refl (c : SharedMemory) : SameCapture c c :=
  ⟨_, _, rfl⟩

theorem SameCapture.trans {c c' c'' : SharedMemory} (hfirst : SameCapture c c')
    (hsecond : SameCapture c' c'') : SameCapture c c'' := by
  obtain ⟨_, _, rfl⟩ := hfirst
  obtain ⟨nextClientId, statements, rfl⟩ := hsecond
  exact ⟨nextClientId, statements, rfl⟩

theorem sameCapture_acquireClientId (c : SharedMemory) :
    SameCapture c (acquireClientId c).2 :=
  ⟨_, _, rfl⟩

theorem sameCapture_statsAddStatements (count : ℕ) (c : SharedMemory) :
    SameCapture c (statsAddStatements count c) :=
  ⟨_, _, rfl⟩

end Pgr.Shmem
