import Pgr.Extension.WholeMessages

/-!
# The workers of the three channels

`channel_worker_main` and `write_events` of `channel.c` for every channel, above the
rings.  A worker takes one access of shared memory a step, and takes the steps of
`ring_pop` itself; `id`, `generation` and `running` may change between any two of
them.  A file is the bytes that were written to it since it was opened, and opening
a path that exists empties it.
-/

namespace Pgr.ChannelFiles

open Pgr.CaptureEncoder Pgr.Ring Pgr.WholeMessages Pgr.Transition

/-- `open_on` of `Descs`. -/
def openOn : Kind → UInt8
  | .capture => msgTypeLsn
  | .trace | .timing => 0

/-- The fields of a `Channel` that its worker reads. -/
structure Channel where
  id : UInt32
  running : Bool
  generation : UInt32

/-- The calls of `write_events`: for a file that is closed next, the two of the loop,
and the one behind the loop. -/
inductive Caller where
  | stopped
  | loop
  | afterReset
  | shutdown

/-- The next step of a worker.  `popped` and `openPopped` hold the message that is in
`ChannelBuffer`. -/
inductive Pc where
  | exited
  | top
  | stopTest
  | openTest
  | opening
  | writeEvents (caller : Caller)
  | popped (bytes : List UInt8) (caller : Caller)
  | openPopped (bytes : List UInt8) (caller : Caller)
  | tryExit

structure ChannelWorker where
  file : Option UInt32
  workerGeneration : UInt32
  count : ℕ
  pc : Pc

/-- A fresh worker process. -/
def ChannelWorker.spawn : ChannelWorker :=
  ⟨none, 0, 0, .top⟩

namespace ChannelWorker

def goto (pc : Pc) (w : ChannelWorker) : ChannelWorker :=
  { w with pc := pc }

/-- The begin of `write_events`. -/
def enter (caller : Caller) (w : ChannelWorker) : ChannelWorker :=
  { w with count := 0, pc := .writeEvents caller }

def closeFile (w : ChannelWorker) : ChannelWorker :=
  { w with file := none }

end ChannelWorker

/-- The files of a channel's directory by id. -/
abbrev FilesById := UInt32 → List UInt8

/-- The next access of `ring_pop`. -/
def popLabel {ι : Type} : Consumer → Label ι
  | .idle => .testReady
  | .found _ => .popFirst
  | .copiedFirst _ => .popRest
  | .copied _ => .clearReady
  | .cleared _ => .setDtail
  | .freed _ => .setHtail

/-- The end of `write_events`; `signal` is the death of the postmaster behind a wait. -/
def eventsDone (signal : Bool) (caller : Caller) (w : ChannelWorker) : ChannelWorker :=
  match caller with
  | .stopped => w.closeFile.goto .openTest
  | .loop => if w.count = 0 then w.goto .tryExit else w.goto .top
  | .afterReset => if w.count = 0 ∧ signal then w.enter .shutdown else w.goto .top
  | .shutdown => w.closeFile.goto .exited

/-- The worker behind an access of `ring_pop`. -/
def afterPop (signal : Bool) (caller : Caller) (before after : Consumer) (w : ChannelWorker) :
    ChannelWorker :=
  match before, after with
  | .idle, .idle => eventsDone signal caller w
  | .freed pop, _ => { w with count := w.count + 1, pc := .popped pop.buf caller }
  | _, _ => w

section Worker

variable {ι : Type} [DecidableEq ι]

/-- The step of a worker.  `signal` is what its step finds besides shared memory:
a request to shut down at the top of the loop, a path that does not open. -/
def workerStep (kind : Kind) (signal : Bool) (ch : Channel) (ring : Ring.State ι)
    (w : ChannelWorker) (files : FilesById) :
    Option (Ring.State ι × ChannelWorker × FilesById) :=
  match w.pc with
  | .exited => some (ring, ChannelWorker.spawn, files)
  | .top =>
      if signal then some (ring, w.enter .shutdown, files)
      else if w.workerGeneration ≠ ch.generation then
        some (ring, { w.closeFile with workerGeneration := ch.generation, pc := .openTest }, files)
      else some (ring, w.goto .stopTest, files)
  | .stopTest =>
      if ch.running = false ∧ w.file.isSome then some (ring, w.enter .stopped, files)
      else some (ring, w.goto .openTest, files)
  | .openTest =>
      if openOn kind = 0 ∧ ch.running ∧ w.file = none then some (ring, w.goto .opening, files)
      else some (ring, w.enter .loop, files)
  | .opening =>
      if signal then some (ring, w.closeFile.goto .exited, files)
      else
        some (ring, { w with file := some ch.id }.enter .loop, Function.update files ch.id [])
  | .writeEvents caller =>
      (Ring.step bufferSize ring (popLabel ring.consumer)).map fun ring' =>
        (ring', afterPop signal caller ring.consumer ring'.consumer w, files)
  | .popped bytes caller =>
      match w.file with
      | some id =>
          some (ring, w.goto (.writeEvents caller), Function.update files id (files id ++ bytes))
      | none =>
          if openOn kind = 0 ∨ bytes.head? ≠ some (openOn kind) ∨ ch.running = false then
            some (ring, w.goto (.writeEvents caller), files)
          else some (ring, w.goto (.openPopped bytes caller), files)
  | .openPopped bytes caller =>
      if signal then some (ring, w.closeFile.goto .exited, files)
      else
        some (ring, { w with file := some ch.id }.goto (.writeEvents caller),
          Function.update files ch.id bytes)
  | .tryExit =>
      if ch.running then some (ring, w.enter .afterReset, files)
      else some (ring, w.closeFile.goto .exited, files)

/-! ## The system -/

structure Server (ι : Type) where
  base : WholeMessages.System ι
  channels : Kind → Channel
  workers : Kind → ChannelWorker
  files : Kind → FilesById

/-- No channel was started yet, and no worker. -/
def Server.start (ι : Type) (data : Kind → ℕ → UInt8) : Server ι where
  base := WholeMessages.System.start ι data
  channels := fun _ => ⟨0, false, 0⟩
  workers := fun _ => ⟨none, 0, 0, .exited⟩
  files := fun _ _ => []

/-- A push goes on in the backend that has begun it. -/
def isPushLabel : Label ι → Bool
  | .pushFirst _ | .pushRest _ | .setReady _ => true
  | _ => false

/-- Backends call into the encoder and push; whoever starts or stops a channel writes
its fields one by one. -/
inductive ServerMove (ι : Type) where
  | backend (move : Move ι)
  | setId (kind : Kind) (id : UInt32)
  | nextGeneration (kind : Kind)
  | setRunning (kind : Kind) (running : Bool)
  | worker (kind : Kind) (signal : Bool)

def Server.setChannel (s : Server ι) (kind : Kind) (ch : Channel) : Server ι :=
  { s with channels := Function.update s.channels kind ch }

/-- The moves of a backend are those of the rings' system but for the accesses of
`ring_pop`, which are the worker's. -/
def isBackend : Move ι → Bool
  | .ring _ label => isPushLabel label
  | _ => true

def Server.setWorker (s : Server ι) (kind : Kind)
    (result : Ring.State ι × ChannelWorker × FilesById) : Server ι :=
  { s with
    base := s.base.setRing kind result.1
    workers := Function.update s.workers kind result.2.1
    files := Function.update s.files kind result.2.2 }

def Server.step (s : Server ι) : ServerMove ι → Option (Server ι)
  | .backend move =>
      if isBackend move then (s.base.step move).map fun base => { s with base := base } else none
  | .setId kind id => some (s.setChannel kind { s.channels kind with id := id })
  | .nextGeneration kind =>
      let ch := s.channels kind
      some (s.setChannel kind { ch with generation := ch.generation + 1 })
  | .setRunning kind running =>
      some (s.setChannel kind { s.channels kind with running := running })
  | .worker kind signal =>
      (workerStep kind signal (s.channels kind) (s.base.rings kind) (s.workers kind)
        (s.files kind)).map (s.setWorker kind)

end Worker

/-! ## Files and what was popped -/

/-- The message in `ChannelBuffer` that the worker has yet to write or to drop. -/
def pending : Pc → List (List UInt8)
  | .popped bytes _ | .openPopped bytes _ => [bytes]
  | _ => []

/-- What a pop has just taken from the ring. -/
def taken : Consumer → List (List UInt8)
  | .freed pop => [pop.buf]
  | _ => []

/-- A file holds messages that were popped one after the other, and an open file holds
the last of them. -/
structure Filed (written : List (List UInt8)) (file : Option UInt32) (files : FilesById) :
    Prop where
  slice : ∀ id, ∃ messages, messages <:+: written ∧ files id = messages.flatten
  tail : ∀ id, file = some id → ∃ messages, messages <:+ written ∧ files id = messages.flatten

section Filed

variable {written : List (List UInt8)} {file : Option UInt32} {files : FilesById}

theorem Filed.close (hfiled : Filed written file files) : Filed written none files where
  slice := hfiled.slice
  tail id hid := by cases hid

/-- A message that is dropped, for want of a file. -/
theorem Filed.drop (hfiled : Filed written none files) (bytes : List UInt8) :
    Filed (written ++ [bytes]) none files where
  slice id := by
    obtain ⟨messages, hinfix, hfile⟩ := hfiled.slice id
    exact ⟨messages, hinfix.trans (List.prefix_append _ _).isInfix, hfile⟩
  tail id hid := by cases hid

theorem Filed.write {id : UInt32} (hfiled : Filed written (some id) files) (bytes : List UInt8) :
    Filed (written ++ [bytes]) (some id) (Function.update files id (files id ++ bytes)) := by
  have htail : ∃ messages, messages <:+ written ++ [bytes] ∧
      files id ++ bytes = messages.flatten := by
    obtain ⟨messages, ⟨front, hwritten⟩, hfile⟩ := hfiled.tail id rfl
    refine ⟨messages ++ [bytes], ⟨front, ?_⟩, ?_⟩
    · rw [← hwritten, List.append_assoc]
    · rw [hfile, List.flatten_append, List.flatten_singleton]
  constructor
  · intro other
    by_cases hother : other = id
    · subst hother
      obtain ⟨messages, hsuffix, hfile⟩ := htail
      rw [Function.update_self]
      exact ⟨messages, hsuffix.isInfix, hfile⟩
    · rw [Function.update_of_ne hother]
      obtain ⟨messages, hinfix, hfile⟩ := hfiled.slice other
      exact ⟨messages, hinfix.trans (List.prefix_append _ _).isInfix, hfile⟩
  · intro other hid
    cases hid
    rw [Function.update_self]
    exact htail

/-- An opened file is empty, whatever it held before. -/
theorem Filed.open (hfiled : Filed written file files) (id : UInt32) :
    Filed written (some id) (Function.update files id []) := by
  constructor
  · intro other
    by_cases hother : other = id
    · subst hother
      rw [Function.update_self]
      exact ⟨[], List.nil_infix, rfl⟩
    · rw [Function.update_of_ne hother]
      exact hfiled.slice other
  · intro other hid
    cases hid
    rw [Function.update_self]
    exact ⟨[], List.nil_suffix, rfl⟩

theorem Filed.openWrite (hfiled : Filed written file files) (id : UInt32) (bytes : List UInt8) :
    Filed (written ++ [bytes]) (some id) (Function.update files id bytes) := by
  have hwrite := (hfiled.open id).write bytes
  rwa [Function.update_self, List.nil_append, Function.update_idem] at hwrite

end Filed

/-- What has left the ring is dealt with, but for the message in the buffer. -/
def FiledAt {ι : Type} (ring : Ring.State ι) (w : ChannelWorker) (files : FilesById) : Prop :=
  ∃ written, ring.popped = written ++ pending w.pc ∧ Filed written w.file files

section Step

variable {ι : Type} [DecidableEq ι] {ring ring' : Ring.State ι} {w w' : ChannelWorker}
  {files files' : FilesById} {kind : Kind} {signal : Bool} {ch : Channel}

theorem popped_of_popLabel {bufSize : UInt32}
    (hstep : Ring.step bufSize ring (popLabel ring.consumer) = some ring') :
    ring'.popped = ring.popped ++ taken ring.consumer := by
  cases hconsumer : ring.consumer with
  | idle =>
      simp only [hconsumer, popLabel, Ring.step] at hstep
      split_ifs at hstep <;> cases hstep <;> simp [taken]
  | freed pop =>
      simp only [hconsumer, popLabel, Ring.step] at hstep
      cases hstep
      rfl
  | _ =>
      simp only [hconsumer, popLabel, Ring.step] at hstep
      cases hstep
      simp [taken]

/-- A step of a push takes nothing from the ring. -/
theorem consumer_of_pushLabel {bufSize : UInt32} {label : Label ι}
    (hlabel : isPushLabel label = true ∨ ∃ i msg, label = .reserve i msg)
    (hstep : Ring.step bufSize ring label = some ring') :
    ring'.popped = ring.popped ∧ ring'.consumer = ring.consumer := by
  cases label with
  | reserve i msg =>
      rw [Ring.step] at hstep
      split at hstep
      · split_ifs at hstep <;> cases hstep <;> exact ⟨rfl, rfl⟩
      · cases hstep
  | pushFirst i | pushRest i | setReady i =>
      rw [Ring.step] at hstep
      split at hstep <;> cases hstep
      exact ⟨rfl, rfl⟩
  | _ => simp [isPushLabel] at hlabel

theorem file_eventsDone (signal : Bool) (caller : Caller) (w : ChannelWorker) :
    (eventsDone signal caller w).file = w.file ∨ (eventsDone signal caller w).file = none := by
  cases caller with
  | stopped | shutdown => exact .inr rfl
  | loop | afterReset =>
      rw [eventsDone]
      split_ifs <;> exact .inl rfl

theorem pending_eventsDone (signal : Bool) (caller : Caller) (w : ChannelWorker) :
    pending (eventsDone signal caller w).pc = [] := by
  cases caller with
  | stopped | shutdown => rfl
  | loop | afterReset =>
      rw [eventsDone]
      split_ifs <;> rfl

theorem file_afterPop (signal : Bool) (caller : Caller) (before after : Consumer)
    (w : ChannelWorker) : (afterPop signal caller before after w).file = w.file ∨
      (afterPop signal caller before after w).file = none := by
  cases before with
  | idle =>
      cases after with
      | idle => exact file_eventsDone signal caller w
      | _ => exact .inl rfl
  | _ => exact .inl rfl

theorem pending_afterPop (signal : Bool) {caller : Caller} (before after : Consumer)
    (hpc : w.pc = .writeEvents caller) :
    pending (afterPop signal caller before after w).pc = taken before := by
  have hnone : pending w.pc = [] := by
    rw [hpc]
    rfl
  cases before with
  | freed pop => rfl
  | idle =>
      cases after with
      | idle => exact pending_eventsDone signal caller w
      | _ => exact hnone
  | _ => exact hnone

/-- A step of a worker, which takes the ring as it is or one access further. -/
theorem filedAt_workerStep (hfiled : FiledAt ring w files)
    (hstep : workerStep kind signal ch ring w files = some (ring', w', files')) :
    FiledAt ring' w' files' := by
  obtain ⟨written, hpopped, hfiled⟩ := hfiled
  cases hpc : w.pc with
  | writeEvents caller =>
      simp only [workerStep, hpc] at hstep
      obtain ⟨ring₁, hring, heq⟩ := Option.map_eq_some_iff.mp hstep
      cases heq
      refine ⟨written, ?_, ?_⟩
      · rw [popped_of_popLabel hring, hpopped, pending_afterPop signal _ _ hpc, hpc]
        simp [pending]
      · rcases file_afterPop signal caller ring.consumer ring'.consumer w with hsame | hnone
        · rwa [hsame]
        · rw [hnone]
          exact hfiled.close
  | popped bytes caller =>
      simp only [workerStep, hpc] at hstep
      cases hfile : w.file with
      | some id =>
          simp only [hfile] at hstep
          cases hstep
          rw [hpc] at hpopped
          rw [hfile] at hfiled
          refine ⟨written ++ [bytes], by rw [hpopped]; simp [pending, ChannelWorker.goto], ?_⟩
          have hwrite := hfiled.write bytes
          rwa [← hfile] at hwrite
      | none =>
          simp only [hfile] at hstep
          rw [hpc] at hpopped
          split_ifs at hstep <;> cases hstep
          · refine ⟨written ++ [bytes], by rw [hpopped]; simp [pending, ChannelWorker.goto], ?_⟩
            rw [hfile] at hfiled
            have hdrop := hfiled.drop bytes
            rwa [← hfile] at hdrop
          · exact ⟨written, hpopped, hfiled⟩
  | openPopped bytes caller =>
      simp only [workerStep, hpc] at hstep
      rw [hpc] at hpopped
      have hwritten : ring.popped = (written ++ [bytes]) ++ [] := by
        rw [hpopped]
        simp [pending]
      split_ifs at hstep <;> cases hstep
      · exact ⟨written ++ [bytes], hwritten, hfiled.close.drop bytes⟩
      · exact ⟨written ++ [bytes], hwritten, hfiled.openWrite ch.id bytes⟩
  | opening =>
      simp only [workerStep, hpc] at hstep
      rw [hpc] at hpopped
      split_ifs at hstep <;> cases hstep
      · exact ⟨written, hpopped, hfiled.close⟩
      · exact ⟨written, hpopped, hfiled.open ch.id⟩
  | exited =>
      simp only [workerStep, hpc] at hstep
      rw [hpc] at hpopped
      cases hstep
      exact ⟨written, hpopped, hfiled.close⟩
  | top | stopTest | openTest | tryExit =>
      simp only [workerStep, hpc] at hstep
      rw [hpc] at hpopped
      split_ifs at hstep <;> cases hstep
      all_goals first
        | exact ⟨written, hpopped, hfiled⟩
        | exact ⟨written, hpopped, hfiled.close⟩

/-- The ring behind a step of a worker. -/
theorem ring_of_workerStep
    (hstep : workerStep kind signal ch ring w files = some (ring', w', files')) :
    ring' = ring ∨ Ring.step bufferSize ring (popLabel ring.consumer) = some ring' := by
  cases hpc : w.pc with
  | writeEvents caller =>
      simp only [workerStep, hpc] at hstep
      obtain ⟨ring₁, hring, heq⟩ := Option.map_eq_some_iff.mp hstep
      cases heq
      exact .inr hring
  | popped bytes caller =>
      simp only [workerStep, hpc] at hstep
      split at hstep
      · cases hstep
        exact .inl rfl
      · split_ifs at hstep <;> cases hstep <;> exact .inl rfl
  | exited =>
      simp only [workerStep, hpc] at hstep
      cases hstep
      exact .inl rfl
  | top | stopTest | openTest | opening | openPopped | tryExit =>
      simp only [workerStep, hpc] at hstep
      split_ifs at hstep <;> cases hstep <;> exact .inl rfl

end Step

/-! ## Runs -/

section Server

variable {ι : Type} [DecidableEq ι] {data : Kind → ℕ → UInt8} {s s' : Server ι}

/-- A worker takes a step of the rings' system, or leaves it as it is. -/
theorem base_of_worker {kind : Kind} {ring : Ring.State ι}
    (hring : ring = s.base.rings kind ∨
      Ring.step bufferSize (s.base.rings kind) (popLabel (s.base.rings kind).consumer) =
        some ring) :
    s.base.setRing kind ring = s.base ∨
      s.base.step (.ring kind (popLabel (s.base.rings kind).consumer)) =
        some (s.base.setRing kind ring) := by
  rcases hring with rfl | hstep
  · left
    rw [WholeMessages.System.setRing, Function.update_eq_self]
  · right
    have hmap : (Ring.step bufferSize (s.base.rings kind)
        (popLabel (s.base.rings kind).consumer)).map (s.base.setRing kind) =
          some (s.base.setRing kind ring) := by
      rw [hstep]
      rfl
    cases hconsumer : (s.base.rings kind).consumer <;> rw [hconsumer] at hmap <;> exact hmap

/-- A backend takes nothing from a ring. -/
theorem consumer_of_backend {base base' : WholeMessages.System ι} {move : Move ι}
    (hbackend : isBackend move = true) (hstep : base.step move = some base') (kind : Kind) :
    (base'.rings kind).popped = (base.rings kind).popped ∧
      (base'.rings kind).consumer = (base.rings kind).consumer := by
  have hset : ∀ (other : Kind) (base base' : WholeMessages.System ι) (label : Label ι),
      (isPushLabel label = true ∨ ∃ i msg, label = .reserve i msg) →
      (Ring.step bufferSize (base.rings other) label).map (base.setRing other) = some base' →
      (base'.rings kind).popped = (base.rings kind).popped ∧
        (base'.rings kind).consumer = (base.rings kind).consumer := by
    intro other base base' label hlabel hmap
    obtain ⟨ring, hring, rfl⟩ := Option.map_eq_some_iff.mp hmap
    by_cases hkind : kind = other
    · subst hkind
      rw [setRing_rings_self]
      exact consumer_of_pushLabel hlabel hring
    · rw [setRing_rings_of_ne _ hkind]
      exact ⟨rfl, rfl⟩
  cases move with
  | capture i op =>
      rw [WholeMessages.System.step] at hstep
      split_ifs at hstep
      cases hstep
      exact ⟨rfl, rfl⟩
  | push i =>
      rw [WholeMessages.System.step] at hstep
      cases hunpushed : base.unpushed i with
      | nil =>
          rw [hunpushed] at hstep
          cases hstep
      | cons bytes rest =>
          rw [hunpushed] at hstep
          exact hset .capture { base with unpushed := Function.update base.unpushed i rest }
            base' _ (.inr ⟨i, _, rfl⟩) hstep
  | trace i backend durationUs eventType =>
      exact hset .trace base base' _ (.inr ⟨i, _, rfl⟩) hstep
  | timing i backend type ts => exact hset .timing base base' _ (.inr ⟨i, _, rfl⟩) hstep
  | ring other label =>
      cases label with
      | pushFirst | pushRest | setReady => exact hset other base base' _ (.inl rfl) hstep
      | _ => cases hbackend

structure Reached (data : Kind → ℕ → UInt8) (s : Server ι) : Prop where
  base : WholeMessages.Reached data s.base
  filed : ∀ kind, FiledAt (s.base.rings kind) (s.workers kind) (s.files kind)

theorem reached_start : Reached data (Server.start ι data) where
  base := WholeMessages.reached_start
  filed _ := ⟨[], rfl, ⟨fun _ => ⟨[], List.nil_infix, rfl⟩, fun _ hid => by cases hid⟩⟩

theorem reached_step (hreached : Reached data s) {move : ServerMove ι}
    (hstep : s.step move = some s') : Reached data s' := by
  cases move with
  | backend move =>
      rw [Server.step] at hstep
      split_ifs at hstep with hbackend
      obtain ⟨base, hbase, rfl⟩ := Option.map_eq_some_iff.mp hstep
      refine ⟨WholeMessages.reached_step hreached.base hbase, fun kind => ?_⟩
      obtain ⟨written, hpopped, hfiled⟩ := hreached.filed kind
      exact ⟨written, (consumer_of_backend hbackend hbase kind).1.trans hpopped, hfiled⟩
  | setId | nextGeneration | setRunning =>
      cases hstep
      exact ⟨hreached.base, hreached.filed⟩
  | worker kind signal =>
      obtain ⟨⟨ring, w, files⟩, hworker, rfl⟩ := Option.map_eq_some_iff.mp hstep
      constructor
      · rcases base_of_worker (ring_of_workerStep hworker) with hsame | hbase
        · exact (congrArg (WholeMessages.Reached data) hsame).mpr hreached.base
        · exact WholeMessages.reached_step hreached.base hbase
      · intro other
        by_cases hother : other = kind
        · subst hother
          simpa [Server.setWorker] using filedAt_workerStep (hreached.filed other) hworker
        · simpa [Server.setWorker, hother] using hreached.filed other

theorem reached_of_reachable (hreachable : Reachable Server.step (Server.start ι data) s) :
    Reached data s :=
  hreachable.invariant reached_start fun _ _ _ hreached hstep => reached_step hreached hstep

/-- Whatever the backends push, whoever starts and stops a channel, and whenever a worker
dies, is replaced or opens a path again, a file holds messages that its ring has
accepted one after the other. -/
theorem slice_of_reached (hreached : Reached data s) (kind : Kind) (id : UInt32) :
    ∃ messages, messages <:+: (s.base.rings kind).accepted.map Message.bytes ∧
      s.files kind id = messages.flatten := by
  obtain ⟨written, hpopped, hfiled⟩ := hreached.filed kind
  obtain ⟨messages, hinfix, hfile⟩ := hfiled.slice id
  have hprefix := (RingInvariant.inv_of_reachable (hreached.base.rings kind)).popped
  have hwritten : written <+: (s.base.rings kind).popped := by
    rw [hpopped]
    exact List.prefix_append _ _
  exact ⟨messages, hinfix.trans (hwritten.trans hprefix).isInfix, hfile⟩

end Server

end Pgr.ChannelFiles
