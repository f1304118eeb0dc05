import Pgr.Extension.System

/-!
# One capture, one file

Messages carry no generation, and the worker compares generations only at the
top of its loop.  What a file ends up with is decided by when backends push,
when captures are started and when the worker opens and closes files.  The
results here are about runs in which a message meets no later start on its way:
none between it and the file it is popped into, and no LSN message of one in
front of it.
-/

namespace Pgr.FileIsolation

open Pgr.Transition Pgr.Shmem Pgr.Hooks Pgr.Worker Pgr.System

/-- The message popped while no file was open. -/
def held : Pc → Option Entry
  | .popped entry _ | .opening entry _ => some entry
  | .exited | .top | .writeEvents _ => none

/-- The part of the state that the worker works on. -/
structure Channel where
  running : Bool
  generation : UInt32
  id : UInt32
  ring : List Entry
  worker : CaptureWorker
  files : Files
  published : List (UInt32 × UInt32)
  pushed : List Entry
  written : List (UInt32 × Entry)
  discarded : List Discarded

section

variable {ι : Type}

def channel (s : State ι) : Channel :=
  ⟨s.shmem.running, s.shmem.generation, s.shmem.id, s.ring, s.worker, s.files, s.published,
    s.pushed, s.written, s.discarded⟩

end

/-- An LSN message that has been pushed, with no message of an earlier generation
behind it. -/
structure Channel.Precedes (x : Channel) (entry : Entry) : Prop where
  isLsn : entry.msg.isLsn = true
  pushed : entry ∈ x.pushed
  le_ring : ∀ later ∈ x.ring, entry.gen ≤ later.gen

structure Channel.PublishedInv (x : Channel) : Prop where
  generations : (x.published.map Prod.fst).Nodup
  ids : (x.published.map Prod.snd).Nodup
  le_generation : ∀ published ∈ x.published, published.1 ≤ x.generation
  current : x.published ≠ [] → (x.generation, x.id) ∈ x.published
  running : x.running = true → x.published ≠ []

structure Channel.FileInv (x : Channel) : Prop extends x.PublishedInv where
  opening : ∀ entry caller, x.worker.pc = .opening entry caller → x.published ≠ []
  ring_pushed : ∀ entry ∈ x.ring, entry ∈ x.pushed
  ring_sorted : x.ring.Pairwise fun entry later => entry.msg.isLsn = true → entry.gen ≤ later.gen
  held : ∀ entry, held x.worker.pc = some entry → x.Precedes entry ∧ x.worker.file = none
  file : ∀ id, x.worker.file = some id → x.files id ≠ [] ∧
    ∃ entry, x.Precedes entry ∧ (entry.gen, id) ∈ x.published
  own : ∀ id, ∀ entry ∈ x.files id, (entry.gen, id) ∈ x.published
  written : ∀ written ∈ x.written, (written.2.gen, written.1) ∈ x.published
  first : ∀ id entry, (x.files id).head? = some entry → entry.msg.isLsn = true
  lsnKept : ∀ discarded ∈ x.discarded, discarded.entry.msg.isLsn = true →
    ¬(discarded.running = true ∧ discarded.generation = discarded.entry.gen)

namespace Channel

variable {x : Channel} {entry : Entry}

theorem Precedes.of_ring {ring : List Entry} (hprecedes : x.Precedes entry)
    (hring : ∀ later ∈ ring, later ∈ x.ring) : Precedes { x with ring := ring } entry :=
  ⟨hprecedes.isLsn, hprecedes.pushed, fun later hlater =>
    hprecedes.le_ring later (hring later hlater)⟩

/-! ## Captures -/

theorem PublishedInv.start {id : UInt32} (hinv : x.PublishedInv)
    (hgeneration : x.generation ≠ 4294967295) (hid : id ∉ x.published.map Prod.snd) :
    PublishedInv { x with
      running := true, generation := x.generation + 1, id := id
      published := (x.generation + 1, id) :: x.published } := by
  have hlt : ∀ gen, gen ≤ x.generation → gen < x.generation + 1 := by
    intro gen hgen
    grind
  constructor
  · refine List.nodup_cons.mpr ⟨fun hmem => ?_, hinv.generations⟩
    obtain ⟨older, holder, heq⟩ := List.mem_map.mp hmem
    exact UInt32.ne_of_lt (hlt _ (hinv.le_generation older holder)) heq
  · exact List.nodup_cons.mpr ⟨hid, hinv.ids⟩
  · intro published hpublished
    rcases List.mem_cons.mp hpublished with rfl | holder
    · exact UInt32.le_refl _
    · exact UInt32.le_of_lt (hlt _ (hinv.le_generation published holder))
  · exact fun _ => List.mem_cons_self
  · exact fun _ => List.cons_ne_nil _ _

theorem FileInv.start {id : UInt32} (hinv : x.FileInv) (hgeneration : x.generation ≠ 4294967295)
    (hid : id ∉ x.published.map Prod.snd) :
    FileInv { x with
      running := true, generation := x.generation + 1, id := id
      published := (x.generation + 1, id) :: x.published } where
  toPublishedInv := hinv.toPublishedInv.start hgeneration hid
  opening _ _ _ := List.cons_ne_nil _ _
  ring_pushed := hinv.ring_pushed
  ring_sorted := hinv.ring_sorted
  held entry hheld :=
    have hentry := hinv.held entry hheld
    ⟨⟨hentry.1.isLsn, hentry.1.pushed, hentry.1.le_ring⟩, hentry.2⟩
  file id hfile := by
    obtain ⟨hnonempty, entry, hprecedes, hmem⟩ := hinv.file id hfile
    exact ⟨hnonempty, entry, ⟨hprecedes.isLsn, hprecedes.pushed, hprecedes.le_ring⟩,
      List.mem_cons_of_mem _ hmem⟩
  own id entry hentry := List.mem_cons_of_mem _ (hinv.own id entry hentry)
  written written hwritten := List.mem_cons_of_mem _ (hinv.written written hwritten)
  first := hinv.first
  lsnKept := hinv.lsnKept

theorem FileInv.stop (hinv : x.FileInv) : FileInv { x with running := false } where
  toPublishedInv := ⟨hinv.generations, hinv.ids, hinv.le_generation, hinv.current, nofun⟩
  opening := hinv.opening
  ring_pushed := hinv.ring_pushed
  ring_sorted := hinv.ring_sorted
  held entry hheld :=
    have hentry := hinv.held entry hheld
    ⟨⟨hentry.1.isLsn, hentry.1.pushed, hentry.1.le_ring⟩, hentry.2⟩
  file id hfile := by
    obtain ⟨hnonempty, entry, hprecedes, hmem⟩ := hinv.file id hfile
    exact ⟨hnonempty, entry, ⟨hprecedes.isLsn, hprecedes.pushed, hprecedes.le_ring⟩, hmem⟩
  own := hinv.own
  written := hinv.written
  first := hinv.first
  lsnKept := hinv.lsnKept

/-! ## Messages -/

/-- A message is pushed in front of which there is no LSN message of a later
generation. -/
theorem FileInv.push (hinv : x.FileInv)
    (horder : ∀ earlier ∈ x.pushed, earlier.msg.isLsn = true → earlier.gen ≤ entry.gen) :
    FileInv { x with ring := x.ring ++ [entry], pushed := x.pushed ++ [entry] } := by
  have hprecedes : ∀ earlier, x.Precedes earlier →
      Precedes { x with ring := x.ring ++ [entry], pushed := x.pushed ++ [entry] } earlier := by
    intro earlier hearlier
    refine ⟨hearlier.isLsn, List.mem_append_left _ hearlier.pushed, fun later hlater => ?_⟩
    rcases List.mem_append.mp hlater with hring | hnew
    · exact hearlier.le_ring later hring
    · rw [List.mem_singleton.mp hnew]
      exact horder earlier hearlier.pushed hearlier.isLsn
  constructor
  · exact ⟨hinv.generations, hinv.ids, hinv.le_generation, hinv.current, hinv.running⟩
  · exact hinv.opening
  · intro later hlater
    rcases List.mem_append.mp hlater with hring | hnew
    · exact List.mem_append_left _ (hinv.ring_pushed later hring)
    · exact List.mem_append_right _ hnew
  · rw [List.pairwise_append]
    refine ⟨hinv.ring_sorted, List.pairwise_singleton _ _, fun earlier hearlier later hlater => ?_⟩
    rw [List.mem_singleton.mp hlater]
    exact horder earlier (hinv.ring_pushed earlier hearlier)
  · exact fun earlier hheld => ⟨hprecedes earlier (hinv.held earlier hheld).1,
      (hinv.held earlier hheld).2⟩
  · intro id hfile
    obtain ⟨hnonempty, earlier, hearlier, hmem⟩ := hinv.file id hfile
    exact ⟨hnonempty, earlier, hprecedes earlier hearlier, hmem⟩
  · exact hinv.own
  · exact hinv.written
  · exact hinv.first
  · exact hinv.lsnKept

/-! ## The worker -/

/-- The worker moves on, perhaps closing its file. -/
theorem FileInv.move {w : CaptureWorker} (hinv : x.FileInv) (hheld : FileIsolation.held w.pc = none)
    (hfile : w.file = none ∨ w.file = x.worker.file) : FileInv { x with worker := w } := by
  constructor
  · exact ⟨hinv.generations, hinv.ids, hinv.le_generation, hinv.current, hinv.running⟩
  · intro entry caller hpc
    rw [show w.pc = .opening entry caller from hpc] at hheld
    nomatch hheld
  · exact hinv.ring_pushed
  · exact hinv.ring_sorted
  · intro entry hentry
    rw [show FileIsolation.held w.pc = some entry from hentry] at hheld
    nomatch hheld
  · intro id hid
    rcases hfile with hclosed | hsame
    · rw [show w.file = some id from hid] at hclosed
      nomatch hclosed
    · obtain ⟨hnonempty, entry, hprecedes, hmem⟩ := hinv.file id (hsame.symm.trans hid)
      exact ⟨hnonempty, entry, ⟨hprecedes.isLsn, hprecedes.pushed, hprecedes.le_ring⟩, hmem⟩
  · exact hinv.own
  · exact hinv.written
  · exact hinv.first
  · exact hinv.lsnKept

/-- The message at the head of the ring leaves it. -/
theorem FileInv.tail {ring : List Entry} (hinv : x.FileInv) (hring : x.ring = entry :: ring) :
    FileInv { x with ring := ring } := by
  have hsorted := hinv.ring_sorted
  rw [hring] at hsorted
  have hsub : ∀ later ∈ ring, later ∈ x.ring := fun later hlater => by
    rw [hring]
    exact List.mem_cons_of_mem _ hlater
  constructor
  · exact ⟨hinv.generations, hinv.ids, hinv.le_generation, hinv.current, hinv.running⟩
  · exact hinv.opening
  · exact fun later hlater => hinv.ring_pushed later (hsub later hlater)
  · exact (List.pairwise_cons.mp hsorted).2
  · exact fun earlier hheld => ⟨(hinv.held earlier hheld).1.of_ring hsub,
      (hinv.held earlier hheld).2⟩
  · intro id hfile
    obtain ⟨hnonempty, earlier, hearlier, hmem⟩ := hinv.file id hfile
    exact ⟨hnonempty, earlier, hearlier.of_ring hsub, hmem⟩
  · exact hinv.own
  · exact hinv.written
  · exact hinv.first
  · exact hinv.lsnKept

/-- A popped message of the open file's generation is written. -/
theorem FileInv.write {id : UInt32} (hinv : x.FileInv) (hfile : x.worker.file = some id)
    (hown : (entry.gen, id) ∈ x.published) :
    FileInv { x with
      files := fwrite id entry x.files, written := x.written ++ [(id, entry)] } := by
  have hwritten : ∀ written ∈ x.written ++ [(id, entry)],
      (written.2.gen, written.1) ∈ x.published := fun written hmem => by
    rcases List.mem_append.mp hmem with hold | hnew
    · exact hinv.written written hold
    · rw [List.mem_singleton.mp hnew]
      exact hown
  have hother : ∀ other, other ≠ id → fwrite id entry x.files other = x.files other :=
    fun other hne => Function.update_of_ne hne ..
  have hself : fwrite id entry x.files id = x.files id ++ [entry] := Function.update_self ..
  obtain ⟨hnonempty, earlier, hearlier, hmem⟩ := hinv.file id hfile
  constructor
  · exact ⟨hinv.generations, hinv.ids, hinv.le_generation, hinv.current, hinv.running⟩
  · exact hinv.opening
  · exact hinv.ring_pushed
  · exact hinv.ring_sorted
  · exact fun earlier hheld => ⟨⟨(hinv.held earlier hheld).1.isLsn,
      (hinv.held earlier hheld).1.pushed, (hinv.held earlier hheld).1.le_ring⟩,
      (hinv.held earlier hheld).2⟩
  · intro other hother
    have hid : id = other := Option.some.inj (hfile.symm.trans hother)
    subst hid
    refine ⟨?_, earlier, ⟨hearlier.isLsn, hearlier.pushed, hearlier.le_ring⟩, hmem⟩
    simp [hself]
  · intro other later hlater
    by_cases hne : other = id
    · subst hne
      simp only [hself] at hlater
      rcases List.mem_append.mp hlater with hold | hnew
      · exact hinv.own other later hold
      · rw [List.mem_singleton.mp hnew]
        exact hown
    · simp only [hother other hne] at hlater
      exact hinv.own other later hlater
  · exact hwritten
  · intro other later hlater
    by_cases hne : other = id
    · subst hne
      simp only [hself, List.head?_append_of_ne_nil _ hnonempty] at hlater
      exact hinv.first other later hlater
    · simp only [hother other hne] at hlater
      exact hinv.first other later hlater
  · exact hinv.lsnKept

theorem FileInv.discard {generation : UInt32} {running : Bool} (hinv : x.FileInv)
    (hkept : entry.msg.isLsn = true → running = false) :
    FileInv { x with discarded := ⟨entry, generation, running⟩ :: x.discarded } where
  toPublishedInv :=
    ⟨hinv.generations, hinv.ids, hinv.le_generation, hinv.current, hinv.running⟩
  opening := hinv.opening
  ring_pushed := hinv.ring_pushed
  ring_sorted := hinv.ring_sorted
  held entry hheld :=
    have hentry := hinv.held entry hheld
    ⟨⟨hentry.1.isLsn, hentry.1.pushed, hentry.1.le_ring⟩, hentry.2⟩
  file id hfile := by
    obtain ⟨hnonempty, entry, hprecedes, hmem⟩ := hinv.file id hfile
    exact ⟨hnonempty, entry, ⟨hprecedes.isLsn, hprecedes.pushed, hprecedes.le_ring⟩, hmem⟩
  own := hinv.own
  written := hinv.written
  first := hinv.first
  lsnKept discarded hdiscarded hlsn := by
    rcases List.mem_cons.mp hdiscarded with rfl | hold
    · rw [hkept hlsn]
      nofun
    · exact hinv.lsnKept discarded hold hlsn

/-- The worker holds the LSN message it has popped without a file. -/
theorem FileInv.hold {ring : List Entry} {caller : Caller} (hinv : x.FileInv)
    (hring : x.ring = entry :: ring) (hlsn : entry.msg.isLsn = true)
    (hclosed : x.worker.file = none) :
    FileInv { x with ring := ring, worker := { x.worker with pc := .popped entry caller } } := by
  have hsorted := hinv.ring_sorted
  rw [hring] at hsorted
  have htail := hinv.tail hring
  constructor
  · exact ⟨hinv.generations, hinv.ids, hinv.le_generation, hinv.current, hinv.running⟩
  · nofun
  · exact htail.ring_pushed
  · exact htail.ring_sorted
  · intro earlier hheld
    have hentry : entry = earlier := Option.some.inj hheld
    subst hentry
    have hpushed : entry ∈ x.pushed := by
      apply hinv.ring_pushed
      rw [hring]
      exact List.mem_cons_self
    exact ⟨⟨hlsn, hpushed, fun later hlater => (List.pairwise_cons.mp hsorted).1 later hlater hlsn⟩,
      hclosed⟩
  · intro id hfile
    nomatch hclosed.symm.trans hfile
  · exact hinv.own
  · exact hinv.written
  · exact hinv.first
  · exact hinv.lsnKept

theorem FileInv.check {caller : Caller} (hinv : x.FileInv)
    (hpopped : x.worker.pc = .popped entry caller) (hrunning : x.running = true) :
    FileInv { x with worker := { x.worker with pc := .opening entry caller } } := by
  have hheld : FileIsolation.held x.worker.pc = some entry := by
    rw [hpopped]
    rfl
  constructor
  · exact ⟨hinv.generations, hinv.ids, hinv.le_generation, hinv.current, hinv.running⟩
  · exact fun _ _ _ => hinv.running hrunning
  · exact hinv.ring_pushed
  · exact hinv.ring_sorted
  · intro earlier hearlier
    have hentry : entry = earlier := Option.some.inj hearlier
    subst hentry
    have hprecedes := (hinv.held entry hheld).1
    exact ⟨⟨hprecedes.isLsn, hprecedes.pushed, hprecedes.le_ring⟩, (hinv.held entry hheld).2⟩
  · intro id hfile
    nomatch (hinv.held entry hheld).2.symm.trans hfile
  · exact hinv.own
  · exact hinv.written
  · exact hinv.first
  · exact hinv.lsnKept

/-- The file of the current capture is opened for its LSN message. -/
theorem FileInv.open {caller : Caller} (hinv : x.FileInv)
    (hopening : x.worker.pc = .opening entry caller) (hcurrent : entry.gen = x.generation) :
    FileInv { x with
      worker := { x.worker with file := some x.id, pc := .writeEvents caller }
      files := fwrite x.id entry (Function.update x.files x.id [])
      written := x.written ++ [(x.id, entry)] } := by
  have hheld : FileIsolation.held x.worker.pc = some entry := by
    rw [hopening]
    rfl
  have hprecedes := (hinv.held entry hheld).1
  have hmem : (entry.gen, x.id) ∈ x.published := by
    rw [hcurrent]
    exact hinv.current (hinv.opening entry caller hopening)
  have hwritten : ∀ written ∈ x.written ++ [(x.id, entry)],
      (written.2.gen, written.1) ∈ x.published := fun written hnew => by
    rcases List.mem_append.mp hnew with hold | hnew
    · exact hinv.written written hold
    · rw [List.mem_singleton.mp hnew]
      exact hmem
  have hself : fwrite x.id entry (Function.update x.files x.id []) x.id = [entry] := by
    rw [fwrite, Function.update_self, Function.update_self]
    rfl
  have hother : ∀ other, other ≠ x.id →
      fwrite x.id entry (Function.update x.files x.id []) other = x.files other := by
    intro other hne
    rw [fwrite, Function.update_of_ne hne, Function.update_of_ne hne]
  constructor
  · exact ⟨hinv.generations, hinv.ids, hinv.le_generation, hinv.current, hinv.running⟩
  · nofun
  · exact hinv.ring_pushed
  · exact hinv.ring_sorted
  · nofun
  · intro id hfile
    have hid : x.id = id := Option.some.inj hfile
    subst hid
    refine ⟨?_, entry, ⟨hprecedes.isLsn, hprecedes.pushed, hprecedes.le_ring⟩, hmem⟩
    simp [hself]
  · intro id later hlater
    by_cases hne : id = x.id
    · subst hne
      simp only [hself] at hlater
      rw [List.mem_singleton.mp hlater]
      exact hmem
    · simp only [hother id hne] at hlater
      exact hinv.own id later hlater
  · exact hwritten
  · intro id later hlater
    by_cases hne : id = x.id
    · subst hne
      simp only [hself] at hlater
      rw [← Option.some.inj hlater]
      exact hprecedes.isLsn
    · simp only [hother id hne] at hlater
      exact hinv.first id later hlater
  · exact hinv.lsnKept

end Channel

/-! ## No message is lost between the ring and the files -/

/-- What is written, discarded, held or still in the ring is what was pushed. -/
def Channel.Conserved (x : Channel) : Prop :=
  (x.written.map Prod.snd ++ x.discarded.map Discarded.entry ++ (held x.worker.pc).toList ++
    x.ring).Perm x.pushed

namespace Channel

variable {x : Channel} {entry : Entry}

theorem Conserved.push (hconserved : x.Conserved) :
    Conserved { x with ring := x.ring ++ [entry], pushed := x.pushed ++ [entry] } := by
  rw [Conserved, ← List.append_assoc]
  exact hconserved.append_right [entry]

theorem Conserved.move {w : CaptureWorker} (hconserved : x.Conserved)
    (hheld : FileIsolation.held w.pc = FileIsolation.held x.worker.pc) :
    Conserved { x with worker := w } := by
  rw [Conserved, hheld]
  exact hconserved

/-- The head of the ring is written. -/
theorem Conserved.write {ring : List Entry} {id : UInt32} {files : Files}
    (hconserved : x.Conserved) (hring : x.ring = entry :: ring)
    (hheld : FileIsolation.held x.worker.pc = none) :
    Conserved { x with
      ring := ring, files := files, written := x.written ++ [(id, entry)] } := by
  rw [Conserved, hheld, hring] at hconserved
  rw [Conserved, hheld]
  rw [List.perm_iff_count] at hconserved ⊢
  intro other
  have hcount := hconserved other
  simp only [List.count_append, List.map_append, List.map_cons, List.map_nil, List.count_cons,
    List.count_nil] at hcount ⊢
  omega

/-- The head of the ring is discarded. -/
theorem Conserved.discard {ring : List Entry} {generation : UInt32} {running : Bool}
    (hconserved : x.Conserved) (hring : x.ring = entry :: ring)
    (hheld : FileIsolation.held x.worker.pc = none) :
    Conserved { x with
      ring := ring, discarded := ⟨entry, generation, running⟩ :: x.discarded } := by
  rw [Conserved, hheld, hring] at hconserved
  rw [Conserved, hheld]
  rw [List.perm_iff_count] at hconserved ⊢
  intro other
  have hcount := hconserved other
  simp only [List.count_append, List.map_cons, List.count_cons] at hcount ⊢
  omega

/-- The head of the ring is held. -/
theorem Conserved.hold {ring : List Entry} {w : CaptureWorker} (hconserved : x.Conserved)
    (hring : x.ring = entry :: ring) (hheld : FileIsolation.held x.worker.pc = none)
    (hhold : FileIsolation.held w.pc = some entry) :
    Conserved { x with ring := ring, worker := w } := by
  rw [Conserved, hheld, hring] at hconserved
  rw [Conserved, hhold]
  simpa using hconserved

/-- The held message is written. -/
theorem Conserved.release {w : CaptureWorker} {id : UInt32} {files : Files}
    (hconserved : x.Conserved) (hheld : FileIsolation.held x.worker.pc = some entry)
    (hreleased : FileIsolation.held w.pc = none) :
    Conserved { x with
      worker := w, files := files, written := x.written ++ [(id, entry)] } := by
  rw [Conserved, hheld] at hconserved
  rw [Conserved, hreleased]
  rw [List.perm_iff_count] at hconserved ⊢
  intro other
  have hcount := hconserved other
  simp only [List.count_append, List.map_append, List.map_cons, List.map_nil, List.count_cons,
    List.count_nil, Option.toList] at hcount ⊢
  omega

/-- The held message is discarded. -/
theorem Conserved.dismiss {w : CaptureWorker} {generation : UInt32} {running : Bool}
    (hconserved : x.Conserved) (hheld : FileIsolation.held x.worker.pc = some entry)
    (hreleased : FileIsolation.held w.pc = none) :
    Conserved { x with
      worker := w, discarded := ⟨entry, generation, running⟩ :: x.discarded } := by
  rw [Conserved, hheld] at hconserved
  rw [Conserved, hreleased]
  rw [List.perm_iff_count] at hconserved ⊢
  intro other
  have hcount := hconserved other
  simp only [List.count_append, List.map_cons, List.count_cons, List.count_nil,
    Option.toList] at hcount ⊢
  omega

end Channel

/-! ## Runs -/

section

variable {ι : Type} [DecidableEq ι]

/-- No LSN message of a later generation has been pushed. -/
def BeforeLaterLsn (s : State ι) (generation : UInt32) : Prop :=
  ∀ entry ∈ s.pushed, entry.msg.isLsn = true → entry.gen ≤ generation

instance (s : State ι) (generation : UInt32) : Decidable (BeforeLaterLsn s generation) :=
  inferInstanceAs (Decidable (∀ entry ∈ s.pushed, _))

/-- A message is pushed before the LSN message of any later generation; no start
comes between the opening of a file and the making of a message that is popped
while the file is open, nor between the decision for an LSN message and the
`open_file` it causes; and there are fewer than 2^32 starts. -/
def InOrder (s : State ι) : Label ι → Prop
  | .start _ _ => s.shmem.generation ≠ 4294967295
  | .push i => ∀ entry ∈ (s.backends i).out.head?, BeforeLaterLsn s entry.gen
  | .pushLsn i => BeforeLaterLsn s (s.backends i).syncGen
  | .workerPop => ∀ captured ∈ s.published, s.worker.file = some captured.2 →
      ∀ entry ∈ s.ring.head?, entry.gen ≤ captured.1
  | .workerOpen => ∀ entry ∈ held s.worker.pc, entry.gen = s.shmem.generation
  | _ => True

instance (s : State ι) : DecidablePred (InOrder s)
  | .start _ _ => inferInstanceAs (Decidable (s.shmem.generation ≠ 4294967295))
  | .push i => inferInstanceAs
      (Decidable (∀ entry ∈ (s.backends i).out.head?, BeforeLaterLsn s entry.gen))
  | .pushLsn i => inferInstanceAs (Decidable (BeforeLaterLsn s (s.backends i).syncGen))
  | .workerPop => List.decidableBAll (fun captured : UInt32 × UInt32 =>
      s.worker.file = some captured.2 → ∀ entry ∈ s.ring.head?, entry.gen ≤ captured.1) s.published
  | .workerOpen => inferInstanceAs
      (Decidable (∀ entry ∈ held s.worker.pc, entry.gen = s.shmem.generation))
  | .stop _ | .hook .. | .gate .. | .abandon .. | .insertCommit .. | .insertRecord _ | .leave _
  | .finish _ | .readInsertPtr _ | .setWalReady _ | .exit _ | .connect .. | .workerTop
  | .workerCheck | .workerDone _ | .workerTryExit | .workerShutdown | .workerSpawn => isTrue trivial

def Inv (s : State ι) : Prop :=
  (channel s).FileInv

omit [DecidableEq ι] in
theorem inv_init (isPsql : ι → Bool) : Inv (State.init isPsql) where
  generations := List.nodup_nil
  ids := List.nodup_nil
  le_generation := nofun
  current hne := absurd rfl hne
  running := nofun
  opening := nofun
  ring_pushed := nofun
  ring_sorted := List.Pairwise.nil
  held := nofun
  file := nofun
  own := nofun
  written := nofun
  first := nofun
  lsnKept := nofun

/-- The steps that leave the worker's part of the state alone. -/
def isLocal : Label ι → Bool
  | .hook .. | .gate .. | .abandon .. | .insertCommit .. | .insertRecord _ | .leave _ | .finish _
  | .readInsertPtr _ | .setWalReady _ | .exit _ | .connect .. => true
  | _ => false

omit [DecidableEq ι] in
theorem channel_of_sameCapture {s : State ι} {c : SharedMemory}
    (hsame : SameCapture s.shmem c) : channel { s with shmem := c } = channel s := by
  obtain ⟨_, _, rfl⟩ := hsame
  rfl

theorem channel_hook (s : State ι) (i : ι) (kind : HookKind) (body : List UInt8)
    (inTransaction : Bool) : channel (hook s i kind body inTransaction) = channel s := by
  rw [← channel_of_sameCapture (sameCapture_noteStatement kind (s.backends i) s.shmem)]
  simp only [hook]
  split_ifs <;> rfl

theorem channel_leave (s : State ι) (i : ι) : channel (leave s i) = channel s := by
  simp only [leave, xactLeaveShared]
  split_ifs <;> rfl

theorem channel_step {s s' : State ι} {l : Label ι} (hlocal : isLocal l = true)
    (hstep : step s l = some s') : channel s' = channel s := by
  cases stepped_of_step hstep with
  | hook => exact channel_hook ..
  | gate => exact channel_of_sameCapture (sameCapture_captureGate ..)
  | abandon => exact channel_of_sameCapture (sameCapture_abandonedGate ..)
  | leave => exact channel_leave ..
  | finish => exact channel_of_sameCapture (sameCapture_txFinish ..)
  | insertRecord | insertCommit | readInsertPtr | setWalReady | exit | connect => rfl
  | start | stop | push | pushLsn => cases hlocal
  | workerTop | workerWrite | workerHold | workerDiscard | workerRunning | workerStopped
  | workerOpen | workerDone | workerTryExit | workerShutdown | workerSpawn => cases hlocal

omit [DecidableEq ι] in
theorem inv_workerWrite {s : State ι} {entry : Entry} {ring : List Entry} {id : UInt32}
    (hinv : Inv s) (horder : InOrder s .workerPop) (hring : s.ring = entry :: ring)
    (hfile : s.worker.file = some id) : Inv (write { s with ring := ring } id entry) := by
  have htail := Channel.FileInv.tail hinv hring
  obtain ⟨-, earlier, hearlier, hmem⟩ := hinv.file id hfile
  have hle : entry.gen ≤ earlier.gen :=
    horder (earlier.gen, id) hmem hfile entry (by rw [hring]; rfl)
  have hge : earlier.gen ≤ entry.gen :=
    hearlier.le_ring entry (by rw [show (channel s).ring = entry :: ring from hring]
                               exact List.mem_cons_self)
  rw [UInt32.le_antisymm hge hle] at hmem
  exact htail.write hfile hmem

theorem inv_step (s : State ι) (l : Label ι) (s' : State ι) (hinv : Inv s)
    (horder : InOrder s l) (hstep : step s l = some s') : Inv s' := by
  cases stepped_of_step hstep with
  | start hidle hid => exact Channel.FileInv.start hinv horder hid
  | stop hidle => exact Channel.FileInv.stop hinv
  | hook | gate | abandon | insertCommit | insertRecord | leave | finish | readInsertPtr
  | setWalReady | exit | connect =>
      rw [Inv, channel_step rfl hstep]
      exact hinv
  | push hout => exact Channel.FileInv.push hinv (horder _ (by rw [hout]; rfl))
  | pushLsn hread => exact Channel.FileInv.push hinv horder
  | workerTop hpc =>
      rw [loopTop]
      split_ifs
      · exact Channel.FileInv.move hinv rfl (Or.inl rfl)
      · exact Channel.FileInv.move hinv rfl (Or.inr rfl)
      · exact Channel.FileInv.move hinv rfl (Or.inr rfl)
  | workerWrite hpc hring hfile => exact inv_workerWrite hinv horder hring hfile
  | workerHold hpc hring hfile hlsn => exact Channel.FileInv.hold hinv hring hlsn hfile
  | workerDiscard hpc hring hfile hlsn =>
      exact (Channel.FileInv.tail hinv hring).discard fun h => absurd h (Bool.eq_false_iff.mp hlsn)
  | workerRunning hpc hrunning => exact Channel.FileInv.check hinv hpc hrunning
  | @workerStopped caller entry hpc hstopped =>
      have hmoved : Channel.FileInv { channel s with
          worker := { s.worker with pc := .writeEvents caller } } :=
        Channel.FileInv.move hinv rfl (Or.inr rfl)
      exact hmoved.discard fun _ => hstopped
  | workerOpen hpc => exact Channel.FileInv.open hinv hpc (horder _ (by rw [hpc]; rfl))
  | @workerDone caller again hpc =>
      cases caller with
      | loop =>
          cases again with
          | false => exact Channel.FileInv.move hinv rfl (Or.inr rfl)
          | true => exact hinv
      | stopped => exact Channel.FileInv.move hinv rfl (Or.inl rfl)
      | shutdown => exact Channel.FileInv.move hinv rfl (Or.inl rfl)
  | workerTryExit | workerSpawn => exact Channel.FileInv.move hinv rfl (Or.inl rfl)
  | workerShutdown => exact Channel.FileInv.move hinv rfl (Or.inr rfl)

def Conserved (s : State ι) : Prop :=
  (channel s).Conserved

omit [DecidableEq ι] in
theorem conserved_init (isPsql : ι → Bool) : Conserved (State.init isPsql) :=
  List.Perm.refl _

omit [DecidableEq ι] in
theorem held_of_pc {s : State ι} {pc : Pc} {entry : Option Entry} (hpc : s.worker.pc = pc)
    (hheld : held pc = entry) : held s.worker.pc = entry := by
  rw [hpc]
  exact hheld

theorem conserved_step (s : State ι) (l : Label ι) (s' : State ι)
    (hconserved : Conserved s) (hstep : step s l = some s') : Conserved s' := by
  cases stepped_of_step hstep with
  | start | stop => exact hconserved
  | hook | gate | abandon | insertCommit | insertRecord | leave | finish | readInsertPtr
  | setWalReady | exit | connect =>
      rw [Conserved, channel_step rfl hstep]
      exact hconserved
  | push | pushLsn => exact Channel.Conserved.push hconserved
  | workerTop hpc =>
      have hheld : held s.worker.pc = none := held_of_pc hpc rfl
      apply Channel.Conserved.move hconserved
      rw [loopTop]
      split_ifs <;> exact hheld.symm
  | workerWrite hpc hring hfile =>
      exact Channel.Conserved.write hconserved hring (held_of_pc hpc rfl)
  | workerHold hpc hring hfile hlsn =>
      exact Channel.Conserved.hold hconserved hring (held_of_pc hpc rfl) rfl
  | workerDiscard hpc hring hfile hlsn =>
      exact Channel.Conserved.discard hconserved hring (held_of_pc hpc rfl)
  | workerRunning hpc hrunning =>
      exact Channel.Conserved.move hconserved (held_of_pc hpc rfl).symm
  | workerStopped hpc hstopped =>
      exact Channel.Conserved.dismiss hconserved (held_of_pc hpc rfl) rfl
  | workerOpen hpc => exact Channel.Conserved.release hconserved (held_of_pc hpc rfl) rfl
  | @workerDone caller again hpc =>
      have hheld : held s.worker.pc = none := held_of_pc hpc rfl
      apply Channel.Conserved.move hconserved
      cases caller with
      | loop =>
          cases again with
          | false => exact hheld.symm
          | true => rfl
      | stopped => exact hheld.symm
      | shutdown => exact hheld.symm
  | workerTryExit hpc hstopped =>
      exact Channel.Conserved.move hconserved (held_of_pc hpc rfl).symm
  | workerShutdown hpc => exact Channel.Conserved.move hconserved (held_of_pc hpc rfl).symm
  | workerSpawn hpc => exact Channel.Conserved.move hconserved (held_of_pc hpc rfl).symm

/-- One capture, one file. -/
structure FilesIsolated (s : State ι) : Prop where
  /-- A popped message is written or discarded once, or the worker has it in hand. -/
  conserved : (s.written.map Prod.snd ++ s.discarded.map Discarded.entry ++
    (held s.worker.pc).toList ++ s.ring).Perm s.pushed
  /-- A generation has one id, and an id has one generation. -/
  unique : ∀ captured ∈ s.published, ∀ other ∈ s.published,
    captured.1 = other.1 ↔ captured.2 = other.2
  /-- Messages are written to the file of their own generation only. -/
  own : ∀ written ∈ s.written, (written.2.gen, written.1) ∈ s.published
  /-- A file that is not empty starts with the LSN message of its generation. -/
  first : ∀ captured ∈ s.published, ∀ entry, (s.files captured.2).head? = some entry →
    entry.msg.isLsn = true ∧ entry.gen = captured.1
  /-- No LSN message of a running capture is discarded. -/
  lsnKept : ∀ discarded ∈ s.discarded, discarded.entry.msg.isLsn = true →
    ¬(discarded.running = true ∧ discarded.generation = discarded.entry.gen)

theorem Channel.PublishedInv.unique {x : Channel} (hinv : x.PublishedInv)
    {captured other : UInt32 × UInt32} (hcaptured : captured ∈ x.published)
    (hother : other ∈ x.published) : captured.1 = other.1 ↔ captured.2 = other.2 := by
  constructor
  · intro hgeneration
    rw [List.inj_on_of_nodup_map hinv.generations hcaptured hother hgeneration]
  · intro hid
    rw [List.inj_on_of_nodup_map hinv.ids hcaptured hother hid]

omit [DecidableEq ι] in
theorem Inv.filesIsolated {s : State ι} (hinv : Inv s) (hconserved : Conserved s) :
    FilesIsolated s where
  conserved := hconserved
  unique _ hcaptured _ hother := hinv.unique hcaptured hother
  own := hinv.written
  first captured hcaptured entry hentry := by
    have hmem : (entry.gen, captured.2) ∈ s.published :=
      hinv.own captured.2 entry (List.mem_of_head? hentry)
    exact ⟨hinv.first captured.2 entry hentry, (hinv.unique hmem hcaptured).mpr rfl⟩
  lsnKept := hinv.lsnKept

/-- If no message is overtaken by a later start, every capture has its own file in
every state reached. -/
theorem filesIsolated_of_reaches (isPsql : ι → Bool) {s : State ι}
    (hreaches : Reaches step InOrder (State.init isPsql) s) : FilesIsolated s := by
  have hinv := hreaches.invariant (inv_init isPsql) inv_step
  have hconserved : Conserved s := hreaches.invariant (conserved_init isPsql)
    fun s l s' hconserved _ hl => conserved_step s l s' hconserved hl
  exact hinv.filesIsolated hconserved

end

/-- A capture of one transaction, drained to its end. -/
def oneCapture (id : UInt32) (body : List UInt8) : List (Label Unit) :=
  [.start () id, .readInsertPtr (), .pushLsn (), .setWalReady (), .workerTop, .workerPop,
    .workerCheck, .workerOpen, .hook () .simpleQuery body true, .gate () true, .push (), .push (),
    .leave (), .finish (), .workerPop, .workerPop, .workerDone false]

/-- The second capture is started while the first one runs, and the third after a stop. -/
def threeCaptures : List (Label Unit) :=
  .workerSpawn :: oneCapture 1 [7] ++ oneCapture 2 [8] ++
    [.stop (), .workerTop, .workerDone false, .workerDone false] ++ oneCapture 3 [9]

theorem filesIsolated_threeCaptures : ∃ s : State Unit,
    runWhile step InOrder (State.init fun _ => false) threeCaptures = some s ∧
      [1, 2, 3].map (fun id => (s.files id).map Entry.gen) = [[1, 1, 1], [2, 2, 2], [3, 3, 3]] ∧
      FilesIsolated s := by
  have hgens : (runWhile step InOrder (State.init fun _ => false) threeCaptures).map
      (fun s => [1, 2, 3].map fun id => (s.files id).map Entry.gen) =
        some [[1, 1, 1], [2, 2, 2], [3, 3, 3]] := by decide +kernel
  obtain ⟨s, hrun, hfiles⟩ := Option.map_eq_some_iff.mp hgens
  exact ⟨s, hrun, hfiles, filesIsolated_of_reaches _ (reaches_of_runWhile hrun)⟩

/-- The worker has the file of the first capture open while the LSN message of the
second arrives, and pops it before it looks at the generation. -/
def earlierFile : List (Label Unit) :=
  [.start () 1, .readInsertPtr (), .pushLsn (), .setWalReady (), .workerSpawn, .workerTop,
    .workerPop, .workerCheck, .workerOpen, .start () 2, .readInsertPtr (), .pushLsn (),
    .workerPop]

theorem not_filesIsolated_earlierFile : ∃ s : State Unit,
    run step (State.init fun _ => false) earlierFile = some s ∧ ¬FilesIsolated s ∧
      s.shmem.running = true ∧ s.shmem.generation = 2 ∧ s.files 2 = [] ∧
        (s.files 1).map Entry.gen = [1, 2] := by
  have hsnapshot : (run step (State.init fun _ => false) earlierFile).map (fun s =>
      (s.written.all (fun written => s.published.contains (written.2.gen, written.1)),
        s.shmem.running, s.shmem.generation, s.files 2, (s.files 1).map Entry.gen)) =
      some (false, true, 2, [], [1, 2]) := by decide +kernel
  obtain ⟨s, hrun, hs⟩ := Option.map_eq_some_iff.mp hsnapshot
  simp only [Prod.mk.injEq] at hs
  refine ⟨s, hrun, fun hisolated => ?_, hs.2⟩
  have hall : s.written.all
      (fun written => s.published.contains (written.2.gen, written.1)) = true := by
    rw [List.all_eq_true]
    exact fun written hwritten => List.contains_iff_mem.mpr (hisolated.own written hwritten)
  rw [hs.1] at hall
  nomatch hall

end Pgr.FileIsolation
