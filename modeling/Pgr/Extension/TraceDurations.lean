import Pgr.Extension.Trace

/-!
# Durations of traced regions

`trace_begin` and `trace_end` of `trace.c` around the planner, the executor, the
utility commands and the commit in `hooks.c`.  The start of a region is kept in one
static variable, which the begin of a region inside it overwrites: the region is
then measured from the last begin inside it.

The clock is read in ticks of `instr_time`, `ticksPerUs` of them to a microsecond.
It does not go back, so no difference is negative.
-/

namespace Pgr.TraceDurations

open Pgr.FixedWidth Pgr.Trace

structure Tracer where
  backend : Backend
  channelRunning : Bool
  isUserTransaction : Bool
  /-- `pgr_trace_start_it`. -/
  startIt : ℕ
  /-- The records handed to `channel_push`. -/
  sent : List (List UInt8)

/-- `MyReplayId` is -1 unless the backend is a replay client. -/
def isReplayClient (tracer : Tracer) : Bool :=
  tracer.backend.myReplayId ≠ UInt32.ofNat (2 ^ 32 - 1)

def tracing (tracer : Tracer) : Bool :=
  isReplayClient tracer && tracer.channelRunning

variable (ticksPerUs : ℕ)

def itDiffUs (start stop : ℕ) : UInt32 :=
  UInt32.ofNat ((stop - start) / ticksPerUs)

def sendTraceEvent (eventType : UInt8) (durationUs : UInt32) (tracer : Tracer) : Tracer :=
  if tracer.channelRunning then
    { tracer with sent := tracer.sent ++ [traceRecord tracer.backend durationUs eventType] }
  else tracer

def traceBegin (now : ℕ) (tracer : Tracer) : Tracer :=
  if tracing tracer then { tracer with startIt := now } else tracer

def traceEnd (eventType : UInt8) (now : ℕ) (tracer : Tracer) : Tracer :=
  if tracing tracer then
    sendTraceEvent eventType (itDiffUs ticksPerUs tracer.startIt now) tracer
  else tracer

/-! ## Hooks -/

/-- The hooks that trace; a commit begins at `XACT_EVENT_PRE_COMMIT` and ends at
`XACT_EVENT_COMMIT`, or at `XACT_EVENT_ABORT` when it fails. -/
inductive Kind where
  | planner
  | executorStart
  | executorRun
  | utility
  | commit (committed : Bool)

def Kind.eventType : Kind → UInt8
  | .planner => 0x50
  | .executorStart => 0x53
  | .executorRun => 0x45
  | .utility => 0x55
  | .commit true => 0x43
  | .commit false => 0x41

/-- What a hook does in front of the region. -/
def enter (kind : Kind) (now : ℕ) (tracer : Tracer) : Tracer :=
  match kind with
  | .planner | .executorRun => traceBegin now tracer
  | .executorStart | .utility => traceBegin now { tracer with isUserTransaction := true }
  | .commit _ => if tracer.isUserTransaction then traceBegin now tracer else tracer

/-- What a hook does behind the region. -/
def leave (kind : Kind) (now : ℕ) (tracer : Tracer) : Tracer :=
  match kind with
  | .commit _ =>
      if tracer.isUserTransaction then
        { traceEnd ticksPerUs kind.eventType now tracer with isUserTransaction := false }
      else tracer
  | _ => traceEnd ticksPerUs kind.eventType now tracer

/-- What a backend does, in order: it takes a message, reports how long a statement
was parsed, and enters and leaves a region, with what happens inside. -/
inductive Activity where
  | idle
  | message (frame : List UInt8) (rest : Activity)
  | analyzed (durationUs : UInt32) (rest : Activity)
  | region (kind : Kind) (start stop : ℕ) (inner rest : Activity)

namespace Activity

def exec : Activity → Tracer → Tracer
  | idle, tracer => tracer
  | message frame rest, tracer =>
      rest.exec { tracer with backend := runHook frame tracer.backend }
  | analyzed durationUs rest, tracer =>
      rest.exec (if isReplayClient tracer then sendTraceEvent 0x70 durationUs tracer else tracer)
  | region kind start stop inner rest, tracer =>
      rest.exec (leave ticksPerUs kind stop (inner.exec (enter kind start tracer)))

end Activity

/-! ## Well-nested regions -/

/-- `IsUserTransaction` inside a region. -/
def Kind.userInside : Kind → Bool → Bool
  | .executorStart, _ | .utility, _ => true
  | _, user => user

/-- `IsUserTransaction` behind a region. -/
def Kind.userBehind : Kind → Bool → Bool
  | .commit _, _ => false
  | _, user => user

/-- A commit is traced when it begins and ends in a user transaction. -/
def Kind.Traced : Kind → (before stop : Bool) → Prop
  | .commit _, before, stop => before = true ∧ stop = true
  | _, _, _ => True

namespace Activity

/-- `IsUserTransaction` behind an activity. -/
def userAfter : Activity → Bool → Bool
  | idle, user => user
  | message _ rest, user | analyzed _ rest, user => rest.userAfter user
  | region kind _ _ inner rest, user =>
      rest.userAfter (kind.userBehind (inner.userAfter (kind.userInside user)))

/-- Each region has its own `trace_begin` and its own `trace_end`. -/
def Traced : Activity → Bool → Prop
  | idle, _ => True
  | message _ rest, user | analyzed _ rest, user => rest.Traced user
  | region kind _ _ inner rest, user =>
      kind.Traced user (inner.userAfter (kind.userInside user)) ∧
        inner.Traced (kind.userInside user) ∧
        rest.Traced (kind.userBehind (inner.userAfter (kind.userInside user)))

/-- The readings of the clock. -/
def readings : Activity → List ℕ
  | idle => []
  | message _ rest | analyzed _ rest => rest.readings
  | region _ start stop inner rest => start :: (inner.readings ++ stop :: rest.readings)

/-- The last begin of a region. -/
def lastStart : Activity → ℕ → ℕ
  | idle, last => last
  | message _ rest, last | analyzed _ rest, last => rest.lastStart last
  | region _ start _ inner rest, _ => rest.lastStart (inner.lastStart start)

def backendAfter : Activity → Backend → Backend
  | idle, backend => backend
  | message frame rest, backend => rest.backendAfter (runHook frame backend)
  | analyzed _ rest, backend => rest.backendAfter backend
  | region _ _ _ inner rest, backend => rest.backendAfter (inner.backendAfter backend)

/-- The records of an activity when a region is measured from `started`, which is
given its begin and the last begin inside it. -/
def recordsFrom (started : (own last : ℕ) → ℕ) : Activity → Backend → List (List UInt8)
  | idle, _ => []
  | message frame rest, backend => rest.recordsFrom started (runHook frame backend)
  | analyzed durationUs rest, backend =>
      traceRecord backend durationUs 0x70 :: rest.recordsFrom started backend
  | region kind start stop inner rest, backend =>
      inner.recordsFrom started backend ++
        traceRecord (inner.backendAfter backend)
          (itDiffUs ticksPerUs (started start (inner.lastStart start)) stop) kind.eventType ::
        rest.recordsFrom started (inner.backendAfter backend)

/-- The records in which each region has its own duration. -/
def ownRecords (activity : Activity) (backend : Backend) : List (List UInt8) :=
  activity.recordsFrom ticksPerUs (fun own _ => own) backend

end Activity

/-- A region of an activity, with the last begin inside it; without one this is its
own begin. -/
structure Region where
  start : ℕ
  lastStart : ℕ
  stop : ℕ

def Region.microseconds (region : Region) : ℕ :=
  (region.stop - region.start) / ticksPerUs

def Activity.regions : Activity → List Region
  | idle => []
  | message _ rest | analyzed _ rest => rest.regions
  | region _ start stop inner rest =>
      inner.regions ++ ⟨start, inner.lastStart start, stop⟩ :: rest.regions

/-- The last begin inside a region, if any, is so soon behind its own begin that as
many whole microseconds are left to its end. -/
def BeginsAtOnce (region : Region) : Prop :=
  (region.stop - region.lastStart) / ticksPerUs = region.microseconds ticksPerUs

instance (region : Region) : Decidable (BeginsAtOnce ticksPerUs region) :=
  inferInstanceAs (Decidable (_ = _))

/-! ## Execution -/

theorem myReplayId_runHook (frame : List UInt8) (backend : Backend) :
    (runHook frame backend).myReplayId = backend.myReplayId := by
  rw [runHook_eq]

variable {tracer : Tracer}

theorem traceBegin_eq (htracing : tracing tracer = true) (now : ℕ) :
    traceBegin now tracer = { tracer with startIt := now } :=
  if_pos htracing

theorem channelRunning_of_tracing (htracing : tracing tracer = true) :
    tracer.channelRunning = true :=
  (Bool.and_eq_true_iff.mp htracing).2

theorem traceEnd_eq (htracing : tracing tracer = true) (eventType : UInt8) (now : ℕ) :
    traceEnd ticksPerUs eventType now tracer =
      { tracer with
        sent := tracer.sent ++
          [traceRecord tracer.backend (itDiffUs ticksPerUs tracer.startIt now) eventType] } := by
  rw [traceEnd, if_pos htracing, sendTraceEvent, if_pos (channelRunning_of_tracing htracing)]

theorem enter_eq (htracing : tracing tracer = true) (kind : Kind) (now : ℕ) {stop : Bool}
    (htraced : kind.Traced tracer.isUserTransaction stop) :
    enter kind now tracer =
      { tracer with
        isUserTransaction := kind.userInside tracer.isUserTransaction
        startIt := now } := by
  cases kind with
  | planner => exact traceBegin_eq htracing now
  | executorStart => exact @traceBegin_eq { tracer with isUserTransaction := true } htracing now
  | executorRun => exact traceBegin_eq htracing now
  | utility => exact @traceBegin_eq { tracer with isUserTransaction := true } htracing now
  | commit committed =>
      rw [enter, if_pos htraced.1]
      exact traceBegin_eq htracing now

theorem leave_eq (htracing : tracing tracer = true) (kind : Kind) (now : ℕ) {before : Bool}
    (htraced : kind.Traced before tracer.isUserTransaction) :
    leave ticksPerUs kind now tracer =
      { tracer with
        isUserTransaction := kind.userBehind tracer.isUserTransaction
        sent := tracer.sent ++ [traceRecord tracer.backend
          (itDiffUs ticksPerUs tracer.startIt now) kind.eventType] } := by
  cases kind with
  | commit committed =>
      rw [leave, if_pos htraced.2, traceEnd_eq ticksPerUs htracing]
      rfl
  | _ => exact traceEnd_eq ticksPerUs htracing _ now

theorem myReplayId_backendAfter (activity : Activity) (backend : Backend) :
    (activity.backendAfter backend).myReplayId = backend.myReplayId := by
  induction activity generalizing backend with
  | idle => rfl
  | message frame rest ih => rw [Activity.backendAfter, ih, myReplayId_runHook]
  | analyzed durationUs rest ih => rw [Activity.backendAfter, ih]
  | region kind start stop inner rest ihInner ihRest =>
      rw [Activity.backendAfter, ihRest, ihInner]

/-- Tracing stays on while the backend keeps its id. -/
theorem tracing_keep (htracing : tracing tracer = true) (tracer' : Tracer)
    (hid : tracer'.backend.myReplayId = tracer.backend.myReplayId)
    (hrunning : tracer'.channelRunning = tracer.channelRunning) : tracing tracer' = true := by
  rw [← htracing, tracing, tracing, isReplayClient, isReplayClient, hid, hrunning]

/-- The execution of an activity: each region is measured from the last begin inside
it. -/
theorem exec_eq (activity : Activity) (htracing : tracing tracer = true)
    (htraced : activity.Traced tracer.isUserTransaction) :
    activity.exec ticksPerUs tracer =
      { tracer with
        backend := activity.backendAfter tracer.backend
        isUserTransaction := activity.userAfter tracer.isUserTransaction
        startIt := activity.lastStart tracer.startIt
        sent := tracer.sent ++
          activity.recordsFrom ticksPerUs (fun _ last => last) tracer.backend } := by
  induction activity generalizing tracer with
  | idle =>
      rw [Activity.exec, Activity.recordsFrom, List.append_nil]
      rfl
  | message frame rest ih =>
      have hmessage : tracing { tracer with backend := runHook frame tracer.backend } = true :=
        tracing_keep htracing _ (myReplayId_runHook frame tracer.backend) rfl
      rw [Activity.exec, ih hmessage htraced]
      rfl
  | analyzed durationUs rest ih =>
      have hreplay : isReplayClient tracer = true := (Bool.and_eq_true_iff.mp htracing).1
      rw [Activity.exec, if_pos hreplay, sendTraceEvent,
        if_pos (channelRunning_of_tracing htracing)]
      apply Eq.trans (ih ?_ ?_)
      · simp only [Activity.recordsFrom, List.append_assoc, List.singleton_append]
        rfl
      · exact htracing
      · exact htraced
  | region kind start stop inner rest ihInner ihRest =>
      obtain ⟨hkind, hinner, hrest⟩ := htraced
      obtain ⟨entered, hentered⟩ : ∃ entered : Tracer, { tracer with
          isUserTransaction := kind.userInside tracer.isUserTransaction
          startIt := start } = entered := ⟨_, rfl⟩
      obtain ⟨left, hleft⟩ : ∃ left : Tracer, { tracer with
          backend := inner.backendAfter tracer.backend
          isUserTransaction := inner.userAfter (kind.userInside tracer.isUserTransaction)
          startIt := inner.lastStart start
          sent := tracer.sent ++
            inner.recordsFrom ticksPerUs (fun _ last => last) tracer.backend } = left := ⟨_, rfl⟩
      have hinside : inner.exec ticksPerUs entered = left := by
        rw [← hleft, ← hentered]
        exact ihInner htracing hinner
      have htracing' : tracing left = true := by
        apply tracing_keep htracing left
        · rw [← hleft]
          exact myReplayId_backendAfter inner tracer.backend
        · rw [← hleft]
      have hkind' : kind.Traced tracer.isUserTransaction left.isUserTransaction := by
        rw [← hleft]
        exact hkind
      rw [Activity.exec, enter_eq htracing kind start hkind, hentered, hinside,
        leave_eq ticksPerUs htracing' kind stop hkind']
      subst hleft
      apply Eq.trans (ihRest ?_ ?_)
      · simp only [Activity.recordsFrom, List.append_assoc, List.cons_append, List.nil_append]
        rfl
      · exact htracing'
      · exact hrest

/-! ## The durations -/

theorem traceRecord_inj {backend : Backend} {duration duration' : UInt32} {eventType : UInt8} :
    traceRecord backend duration eventType = traceRecord backend duration' eventType ↔
      duration = duration' := by
  constructor
  · intro hrecord
    rw [traceRecord, traceRecord, List.append_cancel_right_eq, List.append_cancel_left_eq] at hrecord
    have hvalue := congrArg ofLeBytes hrecord
    rw [ofLeBytes_leBytes_of_lt duration.toNat_lt, ofLeBytes_leBytes_of_lt duration'.toNat_lt]
      at hvalue
    exact UInt32.toNat_inj.mp hvalue
  · exact congrArg fun duration => traceRecord backend duration eventType

theorem length_recordsFrom (activity : Activity) (started started' : ℕ → ℕ → ℕ)
    (backend : Backend) :
    (activity.recordsFrom ticksPerUs started backend).length =
      (activity.recordsFrom ticksPerUs started' backend).length := by
  induction activity generalizing backend with
  | idle => rfl
  | message frame rest ih => exact ih _
  | analyzed durationUs rest ih => exact congrArg (· + 1) (ih backend)
  | region kind start stop inner rest ihInner ihRest =>
      simp only [Activity.recordsFrom, List.length_append, List.length_cons, ihInner backend,
        ihRest (inner.backendAfter backend)]

/-- The last begin is a reading of the clock. -/
theorem lastStart_mem (activity : Activity) (last : ℕ) :
    activity.lastStart last ∈ last :: activity.readings := by
  induction activity generalizing last with
  | idle => exact List.mem_cons_self
  | message frame rest ih => exact ih last
  | analyzed durationUs rest ih => exact ih last
  | region kind start stop inner rest ihInner ihRest =>
      rw [Activity.lastStart, Activity.readings]
      have hinner := ihInner start
      apply List.mem_cons_of_mem
      obtain heq | hmem := List.mem_cons.mp (ihRest (inner.lastStart start))
      · rw [heq]
        obtain hstart | hreading := List.mem_cons.mp hinner
        · rw [hstart]
          exact List.mem_cons_self
        · exact List.mem_cons_of_mem _ (List.mem_append_left _ hreading)
      · exact List.mem_cons_of_mem _ (List.mem_append_right _ (List.mem_cons_of_mem _ hmem))

/-- Behind a begin the clock reads no less. -/
theorem start_le_lastStart {activity : Activity}
    (hclock : activity.readings.Pairwise (· ≤ ·)) {region : Region}
    (hregion : region ∈ activity.regions) : region.start ≤ region.lastStart := by
  induction activity with
  | idle => exact absurd hregion List.not_mem_nil
  | message frame rest ih => exact ih hclock hregion
  | analyzed durationUs rest ih => exact ih hclock hregion
  | region kind start stop inner rest ihInner ihRest =>
      rw [Activity.readings] at hclock
      obtain ⟨hstart, htail⟩ := List.pairwise_cons.mp hclock
      obtain ⟨hinner, hstop, -⟩ := List.pairwise_append.mp htail
      obtain hmem | hmem := List.mem_append.mp hregion
      · exact ihInner hinner hmem
      · obtain hself | hmem := List.mem_cons.mp hmem
        · rw [hself]
          obtain hlast | hlast := List.mem_cons.mp (lastStart_mem inner start)
          · exact hlast.ge
          · exact hstart _ (List.mem_append_left _ hlast)
        · exact ihRest (List.pairwise_cons.mp hstop).2 hmem

theorem itDiffUs_eq_iff {region : Region} (hlast : region.start ≤ region.lastStart)
    (hshort : region.microseconds ticksPerUs < 2 ^ 32) :
    itDiffUs ticksPerUs region.lastStart region.stop =
        itDiffUs ticksPerUs region.start region.stop ↔ BeginsAtOnce ticksPerUs region := by
  have hless : (region.stop - region.lastStart) / ticksPerUs < 2 ^ 32 :=
    (Nat.div_le_div_right (Nat.sub_le_sub_left hlast _)).trans_lt hshort
  rw [Region.microseconds] at hshort
  rw [itDiffUs, itDiffUs, BeginsAtOnce, Region.microseconds, ← UInt32.toNat_inj,
    UInt32.toNat_ofNat_of_lt' hless, UInt32.toNat_ofNat_of_lt' hshort]

theorem recordsFrom_eq_iff {activity : Activity}
    (hlast : ∀ region ∈ activity.regions, region.start ≤ region.lastStart)
    (hshort : ∀ region ∈ activity.regions, region.microseconds ticksPerUs < 2 ^ 32)
    (backend : Backend) :
    activity.recordsFrom ticksPerUs (fun _ last => last) backend =
        activity.ownRecords ticksPerUs backend ↔
      ∀ region ∈ activity.regions, BeginsAtOnce ticksPerUs region := by
  induction activity generalizing backend with
  | idle =>
      exact ⟨fun _ region hregion => absurd hregion List.not_mem_nil, fun _ => rfl⟩
  | message frame rest ih => exact ih hlast hshort _
  | analyzed durationUs rest ih =>
      exact (List.cons_inj_right _).trans (ih hlast hshort backend)
  | region kind start stop inner rest ihInner ihRest =>
      rw [Activity.regions, List.forall_mem_append, List.forall_mem_cons] at hlast hshort ⊢
      have hinner := ihInner hlast.1 hshort.1 backend
      have hself := itDiffUs_eq_iff ticksPerUs hlast.2.1 hshort.2.1
      have hrest := ihRest hlast.2.2 hshort.2.2 (inner.backendAfter backend)
      rw [← hinner, ← hself, ← hrest]
      constructor
      · intro hrecords
        obtain ⟨hfront, hback⟩ := List.append_inj hrecords
          (length_recordsFrom ticksPerUs inner _ _ backend)
        obtain ⟨hrecord, htail⟩ := List.cons.inj hback
        exact ⟨hfront, traceRecord_inj.mp hrecord, htail⟩
      · rintro ⟨hfront, hduration, htail⟩
        rw [Activity.ownRecords, Activity.recordsFrom, Activity.recordsFrom, hfront, htail,
          hduration]
        rfl

/-- The records of a backend that traces throughout, with regions nested in any way
and a clock that does not go back: every region has its own duration if and only if
in every region the last begin inside comes so soon that as many whole microseconds
are left to its end. -/
theorem ownDurations_iff (activity : Activity) (htracing : tracing tracer = true)
    (htraced : activity.Traced tracer.isUserTransaction)
    (hclock : activity.readings.Pairwise (· ≤ ·))
    (hshort : ∀ region ∈ activity.regions, region.microseconds ticksPerUs < 2 ^ 32) :
    (activity.exec ticksPerUs tracer).sent =
        tracer.sent ++ activity.ownRecords ticksPerUs tracer.backend ↔
      ∀ region ∈ activity.regions, BeginsAtOnce ticksPerUs region := by
  rw [exec_eq ticksPerUs activity htracing htraced]
  dsimp only
  rw [List.append_cancel_left_eq]
  exact recordsFrom_eq_iff ticksPerUs (fun _ => start_le_lastStart hclock) hshort tracer.backend

/-- An executor run of ten microseconds with a planner of two inside it. -/
def nestedRun : Activity :=
  .region .executorRun 0 10000 (.region .planner 4000 6000 .idle .idle) .idle

def replayBackend : Tracer :=
  ⟨Backend.start 0, true, false, 0, []⟩

theorem ownDurations_iff_nestedRun :
    (nestedRun.exec 1000 replayBackend).sent = nestedRun.ownRecords 1000 (Backend.start 0) ↔
      ∀ region ∈ nestedRun.regions, BeginsAtOnce 1000 region :=
  ownDurations_iff 1000 nestedRun (by decide) ⟨trivial, ⟨trivial, trivial, trivial⟩, trivial⟩
    (by decide) (by decide)

/-- The executor run is reported with six microseconds. -/
theorem nestedRun_wrongDuration :
    (nestedRun.exec 1000 replayBackend).sent =
        [traceRecord (Backend.start 0) 2 0x50, traceRecord (Backend.start 0) 6 0x45] ∧
      (nestedRun.exec 1000 replayBackend).sent ≠
        nestedRun.ownRecords 1000 (Backend.start 0) := by
  decide

/-! ## Regions without regions inside -/

namespace Activity

/-- No region is begun inside another. -/
def Flat : Activity → Prop
  | idle => True
  | message _ rest | analyzed _ rest => rest.Flat
  | region _ _ _ inner rest => inner.regions = [] ∧ rest.Flat

end Activity

theorem lastStart_of_regions_nil {activity : Activity} (hnil : activity.regions = [])
    (last : ℕ) : activity.lastStart last = last := by
  induction activity with
  | idle => rfl
  | message frame rest ih => exact ih hnil
  | analyzed durationUs rest ih => exact ih hnil
  | region kind start stop inner rest ihInner ihRest =>
      exact absurd hnil (List.append_ne_nil_of_right_ne_nil _ (List.cons_ne_nil _ _))

/-- A region without regions inside is measured from its own begin, whatever the
clock reads. -/
theorem beginsAtOnce_of_flat {activity : Activity} (hflat : activity.Flat) :
    ∀ region ∈ activity.regions, BeginsAtOnce ticksPerUs region := by
  induction activity with
  | idle => exact fun region hregion => absurd hregion List.not_mem_nil
  | message frame rest ih => exact ih hflat
  | analyzed durationUs rest ih => exact ih hflat
  | region kind start stop inner rest ihInner ihRest =>
      obtain ⟨hnil, hrest⟩ := hflat
      rw [Activity.regions, hnil, List.nil_append, List.forall_mem_cons,
        lastStart_of_regions_nil hnil]
      exact ⟨rfl, ihRest hrest⟩

end Pgr.TraceDurations
