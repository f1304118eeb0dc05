import Pgr.Extension.ChannelFiles
import Pgr.Extension.RingOwned

/-!
# A stopped channel

A worker whose channel is stopped and that nobody disturbs empties the ring, closes its
file and exits.  Every message that was accepted is in the file then: a backend pushes
nothing any more, a pop finds every message that is left, and the worker closes its
file only behind a pop that has found none.
-/

namespace Pgr.ChannelDrain

open Pgr.Ring Pgr.RingInvariant Pgr.RingOwned Pgr.WholeMessages Pgr.ChannelFiles Pgr.Transition

/-! ## The way to the exit -/

/-- The accesses of `ring_pop` that are left, those of the next pop included. -/
def stage : Consumer → ℕ
  | .idle => 6
  | .found _ => 5
  | .copiedFirst _ => 4
  | .copied _ => 3
  | .cleared _ => 2
  | .freed _ => 1

/-- How far a worker of a stopped channel is from its exit when it pops nothing. -/
def rank (w : ChannelWorker) : ℕ :=
  match w.pc with
  | .exited => 0
  | .tryExit | .writeEvents .shutdown => 1
  | .writeEvents .loop => if w.count = 0 then 2 else 8
  | .openTest => 3
  | .writeEvents .stopped => 4
  | .stopTest => 5
  | .top => 6
  | .writeEvents .afterReset => 7
  | .popped _ _ | .openPopped _ _ | .opening => 9

variable {ι : Type}

/-- What is left of the ring; a message is worth more than all accesses of a pop. -/
def load (ring : Ring.State ι) : ℕ :=
  200 * (ring.accepted.length - ring.popped.length) + 20 * stage ring.consumer

def AllPopped (ring : Ring.State ι) : Prop :=
  ring.popped = ring.accepted.map Message.bytes

/-- What holds of a worker on its way to the exit: `before` was popped when it set out, and
the file with the number held `text`. -/
structure Draining (ch : Channel) (id : UInt32) (accepted : List Message)
    (before : List (List UInt8)) (start : FilesById) (ring : Ring.State ι) (w : ChannelWorker)
    (files : FilesById) : Prop where
  inv : Inv ring
  owned : Owned ring
  fits : ∀ msg ∈ ring.accepted, msg.len ≤ bufferSize
  producers : ∀ i, ring.producers i = .idle
  accepted_eq : ring.accepted = accepted
  written : ∃ written, ring.popped = before ++ written ++ pending w.pc ∧
    files = Function.update start id (start id ++ written.flatten)
  file : w.file = some id ∨ w.file = none ∧ AllPopped ring ∧ pending w.pc = []
  seen : w.workerGeneration = ch.generation
  idle : (∀ caller, w.pc ≠ .writeEvents caller) → ring.consumer = .idle
  opened : w.pc ≠ .opening ∧ ∀ bytes caller, w.pc ≠ .openPopped bytes caller
  leaving : w.pc = .tryExit ∨ w.pc = .exited → AllPopped ring

section Steps

variable [DecidableEq ι] {bufSize : UInt32} {ring ring' : Ring.State ι} {w : ChannelWorker}
  {files : FilesById} {kind : Kind} {ch : Channel} {id : UInt32} {accepted : List Message}
  {before : List (List UInt8)} {start : FilesById}

theorem frame_popLabel (hstep : Ring.step bufSize ring (popLabel ring.consumer) = some ring') :
    ring'.producers = ring.producers ∧ ring'.accepted = ring.accepted := by
  cases hconsumer : ring.consumer with
  | idle =>
      simp only [hconsumer, popLabel, Ring.step] at hstep
      split_ifs at hstep <;> cases hstep <;> exact ⟨rfl, rfl⟩
  | _ =>
      simp only [hconsumer, popLabel, Ring.step] at hstep
      cases hstep
      exact ⟨rfl, rfl⟩

theorem rank_lt (w : ChannelWorker) : rank w < 20 := by
  rw [rank]
  split <;> first | omega | (split_ifs <;> omega)

/-- A pop that has begun goes on. -/
theorem exists_step_of_busy (hinv : Inv ring) (hbusy : ring.consumer ≠ .idle) :
    ∃ ring', Ring.step bufSize ring (popLabel ring.consumer) = some ring' ∧
      load ring' + 20 ≤ load ring := by
  cases hconsumer : ring.consumer with
  | idle => exact absurd hconsumer hbusy
  | freed pop =>
      have hpopOf := hinv.popOf
      rw [hconsumer] at hpopOf
      obtain ⟨msg, hat, -⟩ := hpopOf
      have hleft : ring.popped.length < ring.accepted.length :=
        (List.getElem?_eq_some_iff.mp hat.at_tail).1
      simp only [popLabel, Ring.step, hconsumer]
      refine ⟨_, rfl, ?_⟩
      simp only [load, hconsumer, stage, List.length_append, List.length_singleton]
      omega
  | found pop | copiedFirst pop | copied pop | cleared pop =>
      simp only [popLabel, Ring.step, hconsumer]
      refine ⟨_, rfl, ?_⟩
      simp only [load, hconsumer, stage]
      omega

/-- The test of a pop finds a message, or there is none. -/
theorem exists_testReady (hinv : Inv ring) (howned : Owned ring)
    (hfits : ∀ msg ∈ ring.accepted, msg.len ≤ bufSize)
    (hproducers : ∀ i, ring.producers i = .idle) (hidle : ring.consumer = .idle) :
    ∃ ring', Ring.step bufSize ring .testReady = some ring' ∧
      (ring' = ring ∧ AllPopped ring ∨
        ring'.consumer ≠ .idle ∧ load ring' + 20 ≤ load ring) := by
  simp only [Ring.step, hidle]
  split_ifs with hready
  · refine ⟨_, rfl, .inr ⟨by rintro ⟨⟩, ?_⟩⟩
    simp only [load, hidle, stage]
    omega
  · refine ⟨_, rfl, .inl ⟨rfl, ?_⟩⟩
    by_cases hleft : ring.popped.length < ring.accepted.length
    · obtain ⟨i, push, hpush, -⟩ :=
        isPushing_of_testReady hinv howned hfits hidle hready hleft
      rw [hproducers i] at hpush
      cases hpush
    · apply hinv.popped.eq_of_length
      rw [List.length_map]
      have hle := hinv.popped.length_le
      rw [List.length_map] at hle
      omega

/-! ## Steps of the worker -/

omit [DecidableEq ι] in
/-- A worker outside `ring_pop` that goes on, or closes its file behind the last message. -/
theorem Draining.goOn {w' : ChannelWorker}
    (hdraining : Draining ch id accepted before start ring w files)
    (hpending : pending w.pc = []) (hpending' : pending w'.pc = [])
    (hfile : w'.file = w.file ∨ w'.file = none ∧ AllPopped ring)
    (hseen : w'.workerGeneration = w.workerGeneration) (hidle : ring.consumer = .idle)
    (hopened : w'.pc ≠ .opening ∧ ∀ bytes caller, w'.pc ≠ .openPopped bytes caller)
    (hleaving : w'.pc = .tryExit ∨ w'.pc = .exited → AllPopped ring) :
    Draining ch id accepted before start ring w' files where
  inv := hdraining.inv
  owned := hdraining.owned
  fits := hdraining.fits
  producers := hdraining.producers
  accepted_eq := hdraining.accepted_eq
  written := by
    rw [hpending', ← hpending]
    exact hdraining.written
  file := by
    rcases hfile with hsame | ⟨hnone, hall⟩
    · rcases hdraining.file with hopen | ⟨hnone, hall, -⟩
      · exact .inl (hsame.trans hopen)
      · exact .inr ⟨hsame.trans hnone, hall, hpending'⟩
    · exact .inr ⟨hnone, hall, hpending'⟩
  seen := hseen.trans hdraining.seen
  idle _ := hidle
  opened := hopened
  leaving := hleaving

/-- An access of `ring_pop` that does not end a pop. -/
theorem Draining.access {caller : Caller}
    (hdraining : Draining ch id accepted before start ring w files)
    (hpc : w.pc = .writeEvents caller) (htaken : taken ring.consumer = [])
    (hstep : Ring.step bufferSize ring (popLabel ring.consumer) = some ring') :
    Draining ch id accepted before start ring' w files where
  inv := inv_step hdraining.inv _ hstep
  owned := owned_step hdraining.owned hdraining.inv _ hstep
  fits := by
    rw [(frame_popLabel hstep).2]
    exact hdraining.fits
  producers := by
    rw [(frame_popLabel hstep).1]
    exact hdraining.producers
  accepted_eq := (frame_popLabel hstep).2.trans hdraining.accepted_eq
  written := by
    rw [popped_of_popLabel hstep, htaken, List.append_nil]
    exact hdraining.written
  file := by
    rw [AllPopped, popped_of_popLabel hstep, htaken, List.append_nil, (frame_popLabel hstep).2]
    exact hdraining.file
  seen := hdraining.seen
  idle hnot := absurd hpc (hnot caller)
  opened := hdraining.opened
  leaving := by
    rintro (htry | hexited)
    · cases hpc.symm.trans htry
    · cases hpc.symm.trans hexited

/-- The last access of a pop. -/
theorem Draining.take {caller : Caller} {pop : Pop}
    (hdraining : Draining ch id accepted before start ring w files)
    (hpc : w.pc = .writeEvents caller) (hconsumer : ring.consumer = .freed pop)
    (hstep : Ring.step bufferSize ring (popLabel ring.consumer) = some ring')
    (hidle : ring'.consumer = .idle) (count : ℕ) :
    Draining ch id accepted before start ring'
      { w with count := count, pc := .popped pop.buf caller } files := by
  have hpopped : ring'.popped = ring.popped ++ [pop.buf] := by
    rw [popped_of_popLabel hstep, hconsumer]
    rfl
  obtain ⟨hproducers, haccepted⟩ := frame_popLabel hstep
  have hinv := inv_step hdraining.inv _ hstep
  refine ⟨hinv, owned_step hdraining.owned hdraining.inv _ hstep, ?_, ?_,
    haccepted.trans hdraining.accepted_eq, ?_, ?_, hdraining.seen, fun _ => hidle, ?_, ?_⟩
  · rw [haccepted]
    exact hdraining.fits
  · rw [hproducers]
    exact hdraining.producers
  · obtain ⟨written, hwritten, hfiles⟩ := hdraining.written
    refine ⟨written, ?_, hfiles⟩
    rw [hpopped, hwritten, hpc]
    simp [pending]
  · rcases hdraining.file with hopen | ⟨-, hall, -⟩
    · exact .inl hopen
    · -- A worker that has closed its file finds nothing more.
      have hle := hinv.popped.length_le
      rw [hpopped, hall, haccepted, List.length_append, List.length_singleton] at hle
      omega
  · exact ⟨by rintro ⟨⟩, by rintro bytes other ⟨⟩⟩
  · rintro (⟨⟨⟩⟩ | ⟨⟨⟩⟩)

omit [DecidableEq ι] in
theorem Draining.write {caller : Caller} {bytes : List UInt8}
    (hdraining : Draining ch id accepted before start ring w files)
    (hpc : w.pc = .popped bytes caller) :
    w.file = some id ∧ Draining ch id accepted before start ring (w.goto (.writeEvents caller))
      (Function.update files id (files id ++ bytes)) := by
  have hfile : w.file = some id := by
    rcases hdraining.file with hopen | ⟨-, -, hpending⟩
    · exact hopen
    · rw [hpc] at hpending
      cases hpending
  refine ⟨hfile, hdraining.inv, hdraining.owned, hdraining.fits, hdraining.producers,
    hdraining.accepted_eq, ?_, .inl hfile, hdraining.seen, ?_, ?_, ?_⟩
  · obtain ⟨written, hwritten, hfiles⟩ := hdraining.written
    refine ⟨written ++ [bytes], ?_, ?_⟩
    · rw [hwritten, hpc]
      simp [pending, ChannelWorker.goto]
    · rw [hfiles, Function.update_self, Function.update_idem]
      simp
  · intro hnot
    exact absurd rfl (hnot caller)
  · exact ⟨by rintro ⟨⟩, by rintro other caller ⟨⟩⟩
  · rintro (⟨⟨⟩⟩ | ⟨⟨⟩⟩)

theorem afterPop_of_busy {before after : Consumer} (caller : Caller)
    (hbefore : taken before = []) (hafter : before = .idle → after ≠ .idle) :
    afterPop false caller before after w = w := by
  cases before with
  | idle =>
      cases after with
      | idle => exact absurd rfl (hafter rfl)
      | _ => rfl
  | freed pop => cases hbefore
  | _ => rfl

omit [DecidableEq ι] in
/-- The end of `write_events` for a ring that is empty. -/
theorem Draining.eventsDone {caller : Caller}
    (hdraining : Draining ch id accepted before start ring w files)
    (hpc : w.pc = .writeEvents caller) (hidle : ring.consumer = .idle) (hall : AllPopped ring) :
    Draining ch id accepted before start ring (eventsDone false caller w) files ∧
      rank (ChannelFiles.eventsDone false caller w) < rank w := by
  have hpending : pending w.pc = [] := by
    rw [hpc]
    rfl
  cases caller with
  | stopped =>
      refine ⟨hdraining.goOn hpending rfl (.inr ⟨rfl, hall⟩) rfl hidle
        ⟨by rintro ⟨⟩, by rintro bytes other ⟨⟩⟩ (fun _ => hall), ?_⟩
      simp [rank, hpc, ChannelFiles.eventsDone, ChannelWorker.goto]
  | shutdown =>
      refine ⟨hdraining.goOn hpending rfl (.inr ⟨rfl, hall⟩) rfl hidle
        ⟨by rintro ⟨⟩, by rintro bytes other ⟨⟩⟩ (fun _ => hall), ?_⟩
      simp [rank, hpc, ChannelFiles.eventsDone, ChannelWorker.goto]
  | loop =>
      by_cases hcount : w.count = 0
      · rw [ChannelFiles.eventsDone, if_pos hcount]
        refine ⟨hdraining.goOn hpending rfl (.inl rfl) rfl hidle
          ⟨by rintro ⟨⟩, by rintro bytes other ⟨⟩⟩ (fun _ => hall), ?_⟩
        simp [rank, hpc, hcount, ChannelWorker.goto]
      · rw [ChannelFiles.eventsDone, if_neg hcount]
        refine ⟨hdraining.goOn hpending rfl (.inl rfl) rfl hidle
          ⟨by rintro ⟨⟩, by rintro bytes other ⟨⟩⟩ (fun _ => hall), ?_⟩
        simp [rank, hpc, hcount, ChannelWorker.goto]
  | afterReset =>
      rw [ChannelFiles.eventsDone, if_neg (by simp)]
      refine ⟨hdraining.goOn hpending rfl (.inl rfl) rfl hidle
        ⟨by rintro ⟨⟩, by rintro bytes other ⟨⟩⟩ (fun _ => hall), ?_⟩
      simp [rank, hpc, ChannelWorker.goto]

/-- Until it has exited the worker takes a step towards its exit. -/
theorem Draining.step (hrunning : ch.running = false)
    (hdraining : Draining ch id accepted before start ring w files) (hpc : w.pc ≠ .exited) :
    ∃ ring' w' files', workerStep kind false ch ring w files = some (ring', w', files') ∧
      Draining ch id accepted before start ring' w' files' ∧
      load ring' + rank w' < load ring + rank w := by
  have hclear : ∀ pc, w.pc = pc → pending pc = [] → pending w.pc = [] := by
    rintro pc rfl hpending
    exact hpending
  cases hcase : w.pc with
  | exited => exact absurd hcase hpc
  | opening => exact absurd hcase hdraining.opened.1
  | openPopped bytes caller => exact absurd hcase (hdraining.opened.2 bytes caller)
  | top =>
      have hidle := hdraining.idle fun caller => by rw [hcase]; rintro ⟨⟩
      refine ⟨ring, w.goto .stopTest, files, ?_, hdraining.goOn (hclear _ hcase rfl) rfl
        (.inl rfl) rfl hidle ⟨by rintro ⟨⟩, by rintro bytes other ⟨⟩⟩ (by rintro (⟨⟨⟩⟩ | ⟨⟨⟩⟩)), ?_⟩
      · simp [workerStep, hcase, hdraining.seen]
      · simp [rank, hcase, ChannelWorker.goto]
  | stopTest =>
      have hidle := hdraining.idle fun caller => by rw [hcase]; rintro ⟨⟩
      by_cases hfile : w.file.isSome
      · refine ⟨ring, w.enter .stopped, files, ?_, hdraining.goOn (hclear _ hcase rfl) rfl
          (.inl rfl) rfl hidle ⟨by rintro ⟨⟩, by rintro bytes other ⟨⟩⟩
          (by rintro (⟨⟨⟩⟩ | ⟨⟨⟩⟩)), ?_⟩
        · simp [workerStep, hcase, hrunning, hfile]
        · simp [rank, hcase, ChannelWorker.enter]
      · refine ⟨ring, w.goto .openTest, files, ?_, hdraining.goOn (hclear _ hcase rfl) rfl
          (.inl rfl) rfl hidle ⟨by rintro ⟨⟩, by rintro bytes other ⟨⟩⟩
          (by rintro (⟨⟨⟩⟩ | ⟨⟨⟩⟩)), ?_⟩
        · simp [workerStep, hcase, hfile]
        · simp [rank, hcase, ChannelWorker.goto]
  | openTest =>
      have hidle := hdraining.idle fun caller => by rw [hcase]; rintro ⟨⟩
      refine ⟨ring, w.enter .loop, files, ?_, hdraining.goOn (hclear _ hcase rfl) rfl
        (.inl rfl) rfl hidle ⟨by rintro ⟨⟩, by rintro bytes other ⟨⟩⟩ (by rintro (⟨⟨⟩⟩ | ⟨⟨⟩⟩)), ?_⟩
      · simp [workerStep, hcase, hrunning]
      · simp [rank, hcase, ChannelWorker.enter]
  | tryExit =>
      have hidle := hdraining.idle fun caller => by rw [hcase]; rintro ⟨⟩
      have hall := hdraining.leaving (.inl hcase)
      refine ⟨ring, w.closeFile.goto .exited, files, ?_, hdraining.goOn (hclear _ hcase rfl) rfl
        (.inr ⟨rfl, hall⟩) rfl hidle ⟨by rintro ⟨⟩, by rintro bytes other ⟨⟩⟩ (fun _ => hall), ?_⟩
      · simp [workerStep, hcase, hrunning]
      · simp [rank, hcase, ChannelWorker.goto]
  | popped bytes caller =>
      obtain ⟨hfile, hwritten⟩ := hdraining.write hcase
      refine ⟨ring, w.goto (.writeEvents caller), _, ?_, hwritten, ?_⟩
      · simp only [workerStep, hcase, hfile]
      · have hrank : rank w = 9 := by simp [rank, hcase]
        have hrank' : rank (w.goto (.writeEvents caller)) ≤ 8 := by
          cases caller with
          | loop =>
              by_cases hcount : w.count = 0 <;> simp [rank, ChannelWorker.goto, hcount]
          | _ => simp [rank, ChannelWorker.goto]
        omega
  | writeEvents caller =>
      cases hconsumer : ring.consumer with
      | idle =>
          obtain ⟨ring', hstep, hfound⟩ := exists_testReady hdraining.inv hdraining.owned
            hdraining.fits hdraining.producers hconsumer
          have hworker : workerStep kind false ch ring w files =
              some (ring', afterPop false caller ring.consumer ring'.consumer w, files) := by
            simp only [workerStep, hcase, hconsumer, popLabel, hstep, Option.map_some]
          rcases hfound with ⟨rfl, hall⟩ | ⟨hbusy, hload⟩
          · obtain ⟨hdone, hrank⟩ := hdraining.eventsDone hcase hconsumer hall
            rw [hconsumer] at hworker
            exact ⟨_, _, _, hworker, hdone, Nat.add_lt_add_left hrank _⟩
          · have htaken : taken ring.consumer = [] := by
              rw [hconsumer]
              rfl
            rw [afterPop_of_busy caller htaken fun _ => hbusy] at hworker
            refine ⟨_, _, _, hworker, hdraining.access hcase htaken ?_, by omega⟩
            rw [hconsumer]
            exact hstep
      | freed pop =>
          obtain ⟨ring', hstep, hload⟩ := @exists_step_of_busy _ _ bufferSize _
            hdraining.inv (by rw [hconsumer]; rintro ⟨⟩)
          have hidle : ring'.consumer = .idle := by
            simp only [hconsumer, popLabel, Ring.step] at hstep
            cases hstep
            rfl
          have hworker : workerStep kind false ch ring w files = some (ring',
              { w with count := w.count + 1, pc := .popped pop.buf caller }, files) := by
            simp only [workerStep, hcase, hstep, Option.map_some]
            rw [hconsumer]
            rfl
          refine ⟨_, _, _, hworker, hdraining.take hcase hconsumer hstep hidle _, ?_⟩
          have hrank := rank_lt { w with count := w.count + 1, pc := .popped pop.buf caller }
          omega
      | found pop | copiedFirst pop | copied pop | cleared pop =>
          have htaken : taken ring.consumer = [] := by
            rw [hconsumer]
            rfl
          have hbusy : ring.consumer ≠ .idle := by
            rw [hconsumer]
            rintro ⟨⟩
          obtain ⟨ring', hstep, hload⟩ :=
            @exists_step_of_busy _ _ bufferSize _ hdraining.inv hbusy
          have hworker : workerStep kind false ch ring w files = some (ring', w, files) := by
            simp only [workerStep, hcase, hstep, Option.map_some]
            rw [afterPop_of_busy caller htaken fun hidle => absurd hidle hbusy]
          exact ⟨_, _, _, hworker, hdraining.access hcase htaken hstep, by omega⟩

end Steps

/-! ## Where a worker is -/

/-- A worker that is to open a file has none. -/
def opensFile : Pc → Bool
  | .exited | .opening | .openPopped _ _ => true
  | _ => false

/-- A worker outside `ring_pop` holds nothing of the ring. -/
structure Placed (ring : Ring.State ι) (w : ChannelWorker) : Prop where
  idle : (∀ caller, w.pc ≠ .writeEvents caller) → ring.consumer = .idle
  closed : opensFile w.pc = true → w.file = none

section Placed

variable [DecidableEq ι] {ring ring' : Ring.State ι} {w w' : ChannelWorker}
  {files files' : FilesById} {kind : Kind} {signal : Bool} {ch : Channel}

omit [DecidableEq ι] in
theorem placed_eventsDone (hidle : ring.consumer = .idle) (caller : Caller) :
    Placed ring (eventsDone signal caller w) := by
  refine ⟨fun _ => hidle, fun hopens => ?_⟩
  cases caller with
  | stopped | shutdown => rfl
  | loop | afterReset =>
      rw [eventsDone] at hopens
      split_ifs at hopens <;> cases hopens

theorem placed_workerStep (hplaced : Placed ring w)
    (hstep : workerStep kind signal ch ring w files = some (ring', w', files')) :
    Placed ring' w' := by
  cases hpc : w.pc with
  | writeEvents caller =>
      simp only [workerStep, hpc] at hstep
      obtain ⟨ring₁, hring, heq⟩ := Option.map_eq_some_iff.mp hstep
      cases heq
      have hstays : Placed ring' w :=
        ⟨fun hnot => absurd hpc (hnot caller), fun hopens => by rw [hpc] at hopens; cases hopens⟩
      cases hconsumer : ring.consumer with
      | idle =>
          cases hafter : ring'.consumer with
          | idle => exact placed_eventsDone hafter caller
          | _ => exact hstays
      | freed pop =>
          simp only [hconsumer, popLabel, Ring.step] at hring
          cases hring
          exact ⟨fun _ => rfl, fun hopens => by cases hopens⟩
      | _ => exact hstays
  | popped bytes caller =>
      have hidle := hplaced.idle fun other => by rw [hpc]; rintro ⟨⟩
      simp only [workerStep, hpc] at hstep
      cases hfile : w.file with
      | some id =>
          simp only [hfile] at hstep
          cases hstep
          exact ⟨fun _ => hidle, fun hopens => by cases hopens⟩
      | none =>
          simp only [hfile] at hstep
          split_ifs at hstep <;> cases hstep
          · exact ⟨fun _ => hidle, fun hopens => by cases hopens⟩
          · exact ⟨fun _ => hidle, fun _ => hfile⟩
  | exited =>
      have hidle := hplaced.idle fun other => by rw [hpc]; rintro ⟨⟩
      simp only [workerStep, hpc] at hstep
      cases hstep
      exact ⟨fun _ => hidle, fun _ => rfl⟩
  | openTest =>
      have hidle := hplaced.idle fun other => by rw [hpc]; rintro ⟨⟩
      simp only [workerStep, hpc] at hstep
      split_ifs at hstep with hopen <;> cases hstep
      · exact ⟨fun _ => hidle, fun _ => hopen.2.2⟩
      · exact ⟨fun _ => hidle, fun hopens => by cases hopens⟩
  | opening | openPopped | top | stopTest | tryExit =>
      have hidle := hplaced.idle fun other => by rw [hpc]; rintro ⟨⟩
      simp only [workerStep, hpc] at hstep
      split_ifs at hstep <;> cases hstep
      all_goals first
        | exact ⟨fun _ => hidle, fun _ => rfl⟩
        | exact ⟨fun _ => hidle, fun hopens => by cases hopens⟩

end Placed

/-! ## The server -/

section Server

variable [DecidableEq ι] {data : Kind → ℕ → UInt8} {s s' : Server ι} {kind : Kind}

/-- Every worker is where its pop is. -/
def AllPlaced (s : Server ι) : Prop :=
  ∀ kind, Placed (s.base.rings kind) (s.workers kind)

theorem placed_of_reachable (hreachable : Reachable Server.step (Server.start ι data) s) :
    AllPlaced s := by
  apply hreachable.invariant
  · exact fun _ => ⟨fun _ => rfl, fun _ => rfl⟩
  · intro s move s' hplaced hstep kind
    cases move with
    | backend move =>
        rw [Server.step] at hstep
        split_ifs at hstep with hbackend
        obtain ⟨base, hbase, rfl⟩ := Option.map_eq_some_iff.mp hstep
        have hconsumer := (consumer_of_backend hbackend hbase kind).2
        exact ⟨fun hnot => hconsumer.trans ((hplaced kind).idle hnot), (hplaced kind).closed⟩
    | setId | nextGeneration | setRunning =>
        cases hstep
        exact hplaced kind
    | worker other signal =>
        obtain ⟨⟨ring, w, files⟩, hworker, rfl⟩ := Option.map_eq_some_iff.mp hstep
        by_cases hkind : kind = other
        · subst hkind
          simpa [Server.setWorker] using placed_workerStep (hplaced kind) hworker
        · simpa [Server.setWorker, hkind] using hplaced kind

/-- A step of the worker of a channel, when nobody else takes one. -/
def Alone (kind : Kind) (s s' : Server ι) : Prop :=
  s.step (.worker kind false) = some s'

/-- The worker that is alone reaches its exit. -/
theorem exists_exited {id : UInt32} {accepted : List Message} {before : List (List UInt8)}
    {start : FilesById} (hrunning : (s.channels kind).running = false)
    (hdraining : Draining (s.channels kind) id accepted before start (s.base.rings kind)
      (s.workers kind) (s.files kind)) :
    ∃ last, Relation.ReflTransGen (Alone kind) s last ∧ (last.workers kind).pc = .exited ∧
      Draining (s.channels kind) id accepted before start (last.base.rings kind)
        (last.workers kind) (last.files kind) := by
  induction hweight : load (s.base.rings kind) + rank (s.workers kind) using
    Nat.strong_induction_on generalizing s with
  | _ weight ih =>
      by_cases hpc : (s.workers kind).pc = .exited
      · exact ⟨s, Relation.ReflTransGen.refl, hpc, hdraining⟩
      · obtain ⟨ring, w, files, hworker, hnext, hless⟩ := hdraining.step hrunning hpc
        have hstep : Alone kind s (s.setWorker kind (ring, w, files)) := by
          rw [Alone, Server.step, hworker]
          rfl
        have hring : (s.setWorker kind (ring, w, files)).base.rings kind = ring :=
          setRing_rings_self _ _ _
        have hworkers : (s.setWorker kind (ring, w, files)).workers kind = w :=
          Function.update_self ..
        have hfiles : (s.setWorker kind (ring, w, files)).files kind = files :=
          Function.update_self ..
        have hlater : Draining (s.channels kind) id accepted before start
            ((s.setWorker kind (ring, w, files)).base.rings kind)
            ((s.setWorker kind (ring, w, files)).workers kind)
            ((s.setWorker kind (ring, w, files)).files kind) := by
          rwa [hring, hworkers, hfiles]
        have hlighter : load ((s.setWorker kind (ring, w, files)).base.rings kind) +
            rank ((s.setWorker kind (ring, w, files)).workers kind) < weight := by
          rw [hring, hworkers, ← hweight]
          exact hless
        obtain ⟨last, hruns, hexited, hlast⟩ :=
          ih _ hlighter (s := s.setWorker kind (ring, w, files)) hrunning hlater rfl
        exact ⟨last, Relation.ReflTransGen.head hstep hruns, hexited, hlast⟩

theorem draining_of_reachable {id : UInt32}
    (hreachable : Reachable Server.step (Server.start ι data) s)
    (hproducers : ∀ i, (s.base.rings kind).producers i = .idle)
    (hfile : (s.workers kind).file = some id)
    (hseen : (s.workers kind).workerGeneration = (s.channels kind).generation)
    (htry : (s.workers kind).pc ≠ .tryExit) :
    ∃ written, (s.base.rings kind).popped = written ++ pending (s.workers kind).pc ∧
      Draining (s.channels kind) id (s.base.rings kind).accepted written (s.files kind)
        (s.base.rings kind) (s.workers kind) (s.files kind) := by
  have hreached := reached_of_reachable hreachable
  have hplaced := placed_of_reachable hreachable kind
  obtain ⟨written, hpopped, -⟩ := hreached.filed kind
  have hopens : opensFile (s.workers kind).pc ≠ true := by
    intro hopens
    rw [hplaced.closed hopens] at hfile
    cases hfile
  refine ⟨written, hpopped, inv_of_reachable (hreached.base.rings kind),
    owned_of_reachable (hreached.base.rings kind), ?_, hproducers, rfl, ?_, .inl hfile, hseen,
    hplaced.idle, ?_, ?_⟩
  · intro msg hmsg
    rw [UInt32.le_iff_toNat_le, toNat_len]
    exact (hreached.base.accepted kind msg hmsg).length_le
  · refine ⟨[], by rw [List.append_nil]; exact hpopped, ?_⟩
    rw [List.flatten_nil, List.append_nil, Function.update_eq_self]
  · constructor
    · intro hpc
      rw [hpc] at hopens
      exact hopens rfl
    · intro bytes caller hpc
      rw [hpc] at hopens
      exact hopens rfl
  · rintro (hpc | hpc)
    · exact absurd hpc htry
    · rw [hpc] at hopens
      exact absurd rfl hopens

/-- Nothing that was accepted is lost when a channel is stopped.  A worker that has its file
open and is not about to exit, with no push under way, exits when it is left alone, and
what was accepted and not yet written is at the end of its file then. -/
theorem stopped_worker_writes_all {id : UInt32}
    (hreachable : Reachable Server.step (Server.start ι data) s)
    (hproducers : ∀ i, (s.base.rings kind).producers i = .idle)
    (hstopped : (s.channels kind).running = false)
    (hfile : (s.workers kind).file = some id)
    (hseen : (s.workers kind).workerGeneration = (s.channels kind).generation)
    (htry : (s.workers kind).pc ≠ .tryExit) :
    ∃ last written rest, Relation.ReflTransGen (Alone kind) s last ∧
      (last.workers kind).pc = .exited ∧
      (s.base.rings kind).popped = written ++ pending (s.workers kind).pc ∧
      (s.base.rings kind).accepted.map Message.bytes = written ++ rest ∧
      (last.base.rings kind).popped = written ++ rest ∧
      last.files kind = Function.update (s.files kind) id (s.files kind id ++ rest.flatten) := by
  obtain ⟨written, hpopped, hdraining⟩ :=
    draining_of_reachable hreachable hproducers hfile hseen htry
  obtain ⟨last, hruns, hexited, hlast⟩ := exists_exited hstopped hdraining
  obtain ⟨rest, hrest, hfiles⟩ := hlast.written
  have hall := hlast.leaving (.inr hexited)
  have hnone : pending (last.workers kind).pc = [] := by
    rw [hexited]
    rfl
  rw [hnone, List.append_nil] at hrest
  rw [AllPopped, hlast.accepted_eq] at hall
  exact ⟨last, written, rest, hruns, hexited, hpopped, hall.symm.trans hrest, hrest, hfiles⟩

/-- A replay is started and its worker opens the file; an event is pushed, and the replay is
stopped before the worker looks at the ring. -/
def stoppedBehindEvent : List (ServerMove Unit) :=
  [.setId .trace 7, .nextGeneration .trace, .setRunning .trace true] ++
    List.replicate 4 (.worker .trace false) ++
    [.backend (.trace () (Trace.Backend.start 9) 250 112),
      .backend (.ring .trace (.pushFirst ())), .backend (.ring .trace (.pushRest ())),
      .backend (.ring .trace (.setReady ())), .setRunning .trace false]

theorem stopped_worker_writes_all_event : ∃ s last : Server Unit,
    run Server.step (Server.start Unit fun _ _ => 0) stoppedBehindEvent = some s ∧
      s.files .trace 7 = [] ∧ Relation.ReflTransGen (Alone .trace) s last ∧
      (last.workers .trace).pc = .exited ∧
      last.files .trace 7 = Trace.traceRecord (Trace.Backend.start 9) 250 112 := by
  have hrun : ∃ s : Server Unit,
      run Server.step (Server.start Unit fun _ _ => 0) stoppedBehindEvent = some s ∧
        (∀ i, (s.base.rings .trace).producers i = .idle) ∧
        (s.channels .trace).running = false ∧ (s.workers .trace).file = some 7 ∧
        (s.workers .trace).workerGeneration = (s.channels .trace).generation ∧
        (s.workers .trace).pc = .writeEvents .loop ∧ (s.base.rings .trace).popped = [] ∧
        s.files .trace 7 = [] ∧ (s.base.rings .trace).accepted.map Message.bytes =
          [Trace.traceRecord (Trace.Backend.start 9) 250 112] :=
    ⟨_, rfl, fun _ => rfl, rfl, rfl, rfl, rfl, rfl, rfl, rfl⟩
  obtain ⟨s, hs, hproducers, hstopped, hfile, hseen, hpc, hpopped, hempty, haccepted⟩ := hrun
  have htry : (s.workers .trace).pc ≠ .tryExit := by
    rw [hpc]
    rintro ⟨⟩
  obtain ⟨last, written, rest, hruns, hexited, hwritten, hall, -, hfiles⟩ :=
    stopped_worker_writes_all (reachable_of_run hs) hproducers hstopped hfile hseen htry
  refine ⟨s, last, hs, hempty, hruns, hexited, ?_⟩
  have hnone : written = [] := by
    rw [hpopped, hpc] at hwritten
    simpa [pending] using hwritten.symm
  rw [haccepted, hnone, List.nil_append] at hall
  rw [hfiles, Function.update_self, hempty, ← hall]
  simp

end Server

end Pgr.ChannelDrain
