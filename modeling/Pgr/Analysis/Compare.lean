import Pgr.Replay.Capture

/-!
# Captured events against replay timings

`compare.rs`: the timing file is read record by record, the capture only as far
as the timing that is waited for.  Every client has a queue on either side, and
`drain` pairs their fronts.  A reader is the list of the results it will return,
the end of its file behind them.  An entry of a queue also knows which read it
came from; only the log of pairs, `pairs`, looks at that.
-/

namespace Pgr.Compare

open Pgr.FixedWidth Pgr.Decoding Pgr.Capture

/-- `MSG_CONNECT`. -/
def msgConnect : UInt8 := 2

/-- `MSG_DISCONNECT`. -/
def msgDisconnect : UInt8 := 3

/-- `MSG_SIMPLE_QUERY`. -/
def msgSimpleQuery : UInt8 := 4

/-- `MSG_PARSE`. -/
def msgParse : UInt8 := 5

/-- `MSG_BIND`. -/
def msgBind : UInt8 := 6

/-- `MSG_EXECUTE`. -/
def msgExecute : UInt8 := 7

/-- `MSG_SYNC`. -/
def msgSync : UInt8 := 8

/-- `MSG_CLOSE`. -/
def msgClose : UInt8 := 10

structure TimingData where
  id : ClientId
  eventType : UInt8
  ts : UInt64

def readTiming : FileReader TimingData := do
  let id ← u32
  let eventType ← u8
  let ts ← u64
  pure ⟨id, eventType, ts⟩

/-- `TimingReader::next`: a record the file ends in is no record. -/
def nextTiming : FileReader (Option TimingData) := fun file =>
  match readTiming file with
  | .ok timing rest => .ok (some timing) rest
  | .error .unexpectedEof rest => .ok none rest
  | .error error rest => .error error rest

structure Dev where
  count : UInt64 := 0
  sumUs : UInt64 := 0
  maxUs : UInt64 := 0

def Dev.add (v : UInt64) (d : Dev) : Dev where
  count := d.count + 1
  sumUs := d.sumUs + v
  maxUs := max d.maxUs v

/-- A captured event: its code, its time, and whether it restores a session. -/
structure CapEntry where
  code : UInt8
  ts : UInt64
  restore : Bool
  source : ℕ

structure TimEntry where
  code : UInt8
  ts : UInt64
  source : ℕ

/-- The two clocks at a pair. -/
abbrev Stamps := UInt64 × UInt64

structure ClientStats where
  cap : List CapEntry := []
  tim : List TimEntry := []
  anchor : Option Stamps := none
  connectUs : Option Int64 := none
  disconnect : Option Stamps := none
  early : Dev := {}
  late : Dev := {}
  matched : ℕ := 0
  skipped : ℕ := 0
  pairs : List (ℕ × ℕ) := []

/-- The differences wrap, as in a release build. -/
def dev (p a : Stamps) : Int64 :=
  (p.2.toInt64 - a.2.toInt64) - (p.1.toInt64 - a.1.toInt64)

def eventCode : ClientEvent → Option UInt8
  | .connect _ => some msgConnect
  | .disconnect => some msgDisconnect
  | .simpleQuery _ => some msgSimpleQuery
  | .parse .. => some msgParse
  | .bind .. => some msgBind
  | .execute .. => some msgExecute
  | .sync => some msgSync
  | .close .. => some msgClose
  | .lsn _ | .txEnd .. => none

/-- What a pair says about its client. -/
def recordPair (entry : CapEntry) (timing : TimEntry) (c : ClientStats) (origin : Option Stamps) :
    ClientStats × Option Stamps :=
  let p := (entry.ts, timing.ts)
  if entry.code = msgConnect then
    let o := origin.getD p
    ({ c with connectUs := some (dev p o), anchor := some p }, some o)
  else if entry.code = msgDisconnect then ({ c with disconnect := some p }, origin)
  else if entry.restore then ({ c with anchor := some p }, origin)
  else
    let a := c.anchor.getD p
    let d := dev p a
    let c := { c with anchor := some a }
    if 0 ≤ d then ({ c with late := c.late.add d.toUInt64 }, origin)
    else ({ c with early := c.early.add (-d).toUInt64 }, origin)

/-- The loop of `drain` with the captured events still queued. -/
def drainFrom : List CapEntry → ClientStats → Option Stamps → ClientStats × Option Stamps
  | [], c, origin => ({ c with cap := [] }, origin)
  | entry :: cap, c, origin =>
      match c.tim with
      | [] => ({ c with cap := entry :: cap }, origin)
      | timing :: tim =>
          if entry.code ≠ timing.code then
            drainFrom cap { c with skipped := c.skipped + 1 } origin
          else
            let (c, origin) := recordPair entry timing { c with tim := tim } origin
            drainFrom cap { c with
              matched := c.matched + 1
              pairs := c.pairs ++ [(entry.source, timing.source)] } origin

def drain (c : ClientStats) (origin : Option Stamps) : ClientStats × Option Stamps :=
  drainFrom c.cap c origin

inductive CompareError where
  | timing (error : IoError)
  | capture (error : IoError)

/-- The variables of `compare`, and how much has been read of either file. -/
structure Comparison where
  clients : AList fun _ : ClientId => ClientStats
  origin : Option Stamps
  captureEof : Bool
  eventsRead : ℕ
  timingsRead : ℕ

def Comparison.new : Comparison :=
  ⟨∅, none, false, 0, 0⟩

/-- `entry(id).or_default()`. -/
def Comparison.client (cmp : Comparison) (id : ClientId) : ClientStats :=
  (cmp.clients.lookup id).getD {}

/-- The client is changed and drained. -/
def Comparison.update (cmp : Comparison) (id : ClientId) (change : ClientStats → ClientStats) :
    Comparison :=
  let (c, origin) := drain (change (cmp.client id)) cmp.origin
  { cmp with clients := cmp.clients.insert id c, origin := origin }

/-- Whether the session of a client is restored behind the event. -/
def isRestore : ClientEvent → Bool
  | .connect sessionId => sessionId ≠ ""
  | _ => false

/-- What an event puts into the queue of its client. -/
def capEntries (msg : CaptureMessage) (source : ℕ) : List CapEntry :=
  match eventCode msg.event with
  | some code =>
      ⟨code, msg.ts, false, source⟩ ::
        if isRestore msg.event then [⟨msgSimpleQuery, msg.ts, true, source⟩] else []
  | none => []

def Comparison.onEvent (msg : CaptureMessage) (cmp : Comparison) : Comparison :=
  let read := { cmp with eventsRead := cmp.eventsRead + 1 }
  match eventCode msg.event with
  | some _ =>
      read.update msg.id fun c => { c with cap := c.cap ++ capEntries msg cmp.eventsRead }
  | none => read

def Comparison.onTiming (t : TimingData) (cmp : Comparison) : Comparison :=
  let read := { cmp with timingsRead := cmp.timingsRead + 1 }
  read.update t.id fun c => { c with tim := c.tim ++ [⟨t.eventType, t.ts, cmp.timingsRead⟩] }

/-- The condition under which the capture is read further. -/
def Comparison.waits (cmp : Comparison) (id : ClientId) : Bool :=
  !cmp.captureEof && !(cmp.client id).tim.isEmpty

/-- The loop that reads the capture until the timings of the client are paired. -/
def readCapture (id : ClientId) : List (Except IoError CaptureMessage) → Comparison →
    Except CompareError (List (Except IoError CaptureMessage) × Comparison)
  | [], cmp => .ok ([], if cmp.waits id then { cmp with captureEof := true } else cmp)
  | result :: capture, cmp =>
      if cmp.waits id then
        match result with
        | .ok msg => readCapture id capture (cmp.onEvent msg)
        | .error error => .error (.capture error)
      else .ok (result :: capture, cmp)

/-- The outer loop, over the timings. -/
def compareLoop : List (Except IoError TimingData) → List (Except IoError CaptureMessage) →
    Comparison → Except CompareError Comparison
  | [], _, cmp => .ok cmp
  | .error error :: _, _, _ => .error (.timing error)
  | .ok t :: timings, capture, cmp =>
      match readCapture t.id capture (cmp.onTiming t) with
      | .ok (capture, cmp) => compareLoop timings capture cmp
      | .error error => .error error

/-- What `compare` reports at its end. -/
structure Report where
  comparison : Comparison
  matched : ℕ := 0
  unmatched : ℕ := 0

def Report.addClient (id : ClientId) (report : Report) : Report :=
  let comparison := report.comparison.update id fun c => c
  { comparison := comparison
    matched := report.matched + (comparison.client id).matched
    unmatched := report.unmatched + (comparison.client id).tim.length }

/-- The clients in the order of their ids. -/
def Comparison.report (cmp : Comparison) : Report :=
  (cmp.clients.keys.mergeSort fun a b => a ≤ b).foldl (fun report id => report.addClient id)
    { comparison := cmp }

def compare (capture : List (Except IoError CaptureMessage))
    (timings : List (Except IoError TimingData)) : Except CompareError Report :=
  match compareLoop timings capture .new with
  | .ok cmp => .ok cmp.report
  | .error error => .error error

/-! ## What a drain pairs -/

/-- The two sides never have different codes at the same place. -/
def Agree (entries : List CapEntry) (timings : List TimEntry) : Prop :=
  ∀ (i : ℕ) (entry : CapEntry) (timing : TimEntry), entries[i]? = some entry → timings[i]? = some timing →
    entry.code = timing.code

/-- The queues of a client hold what is left behind equally many paired entries of
either side. -/
structure Paired (entries : List CapEntry) (timings : List TimEntry) (c : ClientStats) :
    Prop where
  split : ∃ (paired : List CapEntry) (against : List TimEntry),
    entries = paired ++ c.cap ∧ timings = against ++ c.tim ∧ paired.length = against.length ∧
      c.matched = paired.length ∧
      c.pairs = (paired.map CapEntry.source).zip (against.map TimEntry.source)
  skipped : c.skipped = 0

/-- Nothing is left to pair. -/
def ClientStats.isDrained (c : ClientStats) : Prop :=
  c.cap = [] ∨ c.tim = []

section Drain

variable {entries : List CapEntry} {timings : List TimEntry} {c : ClientStats}

theorem Paired.empty : Paired [] [] {} :=
  ⟨⟨[], [], rfl, rfl, rfl, rfl, rfl⟩, rfl⟩

theorem Paired.push_cap (hpaired : Paired entries timings c) (later : List CapEntry) :
    Paired (entries ++ later) timings { c with cap := c.cap ++ later } := by
  obtain ⟨⟨paired, against, hentries, htimings, hlength, hmatched, hpairs⟩, hskipped⟩ := hpaired
  refine ⟨⟨paired, against, ?_, htimings, hlength, hmatched, hpairs⟩, hskipped⟩
  rw [hentries, List.append_assoc]

theorem Paired.push_tim (hpaired : Paired entries timings c) (later : List TimEntry) :
    Paired entries (timings ++ later) { c with tim := c.tim ++ later } := by
  obtain ⟨⟨paired, against, hentries, htimings, hlength, hmatched, hpairs⟩, hskipped⟩ := hpaired
  refine ⟨⟨paired, against, hentries, ?_, hlength, hmatched, hpairs⟩, hskipped⟩
  rw [htimings, List.append_assoc]

/-- The pair that `recordPair` looks at changes neither the queues nor the counts. -/
theorem recordPair_queues (entry : CapEntry) (timing : TimEntry) (c : ClientStats)
    (origin : Option Stamps) :
    (recordPair entry timing c origin).1.cap = c.cap ∧
      (recordPair entry timing c origin).1.tim = c.tim ∧
      (recordPair entry timing c origin).1.matched = c.matched ∧
      (recordPair entry timing c origin).1.skipped = c.skipped ∧
      (recordPair entry timing c origin).1.pairs = c.pairs := by
  simp only [recordPair]
  split_ifs <;> exact ⟨rfl, rfl, rfl, rfl, rfl⟩

theorem drainFrom_of_tim_nil (cap : List CapEntry) (origin : Option Stamps) (htim : c.tim = []) :
    drainFrom cap c origin = ({ c with cap := cap }, origin) := by
  cases cap with
  | nil => rfl
  | cons entry cap =>
      rw [drainFrom]
      simp only [htim]

theorem drainFrom_cons {entry : CapEntry} {cap : List CapEntry} {timing : TimEntry}
    {tim : List TimEntry} (origin : Option Stamps) (htim : c.tim = timing :: tim)
    (hcode : entry.code = timing.code) :
    ∃ c' origin', drainFrom (entry :: cap) c origin = drainFrom cap c' origin' ∧
      c'.tim = tim ∧ c'.matched = c.matched + 1 ∧ c'.skipped = c.skipped ∧
      c'.pairs = c.pairs ++ [(entry.source, timing.source)] := by
  obtain ⟨-, htail, hmatched, hskipped, hpairs⟩ :=
    recordPair_queues entry timing { c with tim := tim } origin
  rw [drainFrom]
  simp only [htim, hcode, ne_eq, not_true_eq_false, if_false]
  refine ⟨_, _, rfl, htail, ?_, hskipped, ?_⟩
  · exact congrArg (· + 1) hmatched
  · exact congrArg (· ++ [(entry.source, timing.source)]) hpairs

/-- On sides that agree a drain pairs all it can and skips nothing. -/
theorem paired_drainFrom {cap : List CapEntry} (origin : Option Stamps) (hagree : Agree entries timings)
    (hpaired : Paired entries timings { c with cap := cap }) :
    Paired entries timings (drainFrom cap c origin).1 ∧
      (drainFrom cap c origin).1.isDrained := by
  induction cap generalizing c origin with
  | nil => exact ⟨hpaired, .inl rfl⟩
  | cons entry cap ih =>
      cases htim : c.tim with
      | nil =>
          rw [drainFrom_of_tim_nil _ _ htim]
          exact ⟨hpaired, .inr htim⟩
      | cons timing tim =>
          obtain ⟨⟨paired, against, hentries, htimings, hlength, hmatched, hpairs⟩, hskipped⟩ :=
            hpaired
          rw [htim] at htimings
          have hcode : entry.code = timing.code := by
            apply hagree paired.length
            · rw [hentries]
              simp
            · rw [htimings, hlength]
              simp
          obtain ⟨c', origin', hdrain, htim', hmatched', hskipped', hpairs'⟩ :=
            drainFrom_cons origin htim hcode
          rw [hdrain]
          apply ih
          refine ⟨⟨paired ++ [entry], against ++ [timing], ?_, ?_, ?_, ?_, ?_⟩, ?_⟩
          · simpa using hentries
          · simpa [htim'] using htimings
          · simpa using hlength
          · simpa [hmatched'] using hmatched
          · have hlengths : (paired.map CapEntry.source).length =
                (against.map TimEntry.source).length := by simpa using hlength
            rw [hpairs', List.map_append, List.map_append, List.zip_append hlengths]
            exact congrArg (· ++ [(entry.source, timing.source)]) hpairs
          · simpa [hskipped'] using hskipped

end Drain

/-! ## The two reading loops -/

/-- What a capture puts into the queue of a client. -/
def queuedEvents (id : ClientId) (msgs : List CaptureMessage) : List CapEntry :=
  msgs.zipIdx.flatMap fun msg => if msg.1.id = id then capEntries msg.1 msg.2 else []

def queuedTimings (id : ClientId) (timings : List TimingData) : List TimEntry :=
  timings.zipIdx.flatMap fun t =>
    if t.1.id = id then [⟨t.1.eventType, t.1.ts, t.2⟩] else []

theorem queuedEvents_concat (id : ClientId) (msgs : List CaptureMessage) (msg : CaptureMessage) :
    queuedEvents id (msgs ++ [msg]) =
      queuedEvents id msgs ++ if msg.id = id then capEntries msg msgs.length else [] := by
  simp [queuedEvents, List.zipIdx_append]

theorem queuedTimings_concat (id : ClientId) (timings : List TimingData) (t : TimingData) :
    queuedTimings id (timings ++ [t]) =
      queuedTimings id timings ++
        if t.id = id then [⟨t.eventType, t.ts, timings.length⟩] else [] := by
  simp [queuedTimings, List.zipIdx_append]

theorem queuedEvents_isPrefix (id : ClientId) {seen msgs : List CaptureMessage}
    (hinitial : seen <+: msgs) : queuedEvents id seen <+: queuedEvents id msgs := by
  obtain ⟨rest, rfl⟩ := hinitial
  rw [queuedEvents, queuedEvents, List.zipIdx_append, List.flatMap_append]
  exact List.prefix_append ..

theorem queuedTimings_isPrefix (id : ClientId) {done timings : List TimingData}
    (hinitial : done <+: timings) : queuedTimings id done <+: queuedTimings id timings := by
  obtain ⟨rest, rfl⟩ := hinitial
  rw [queuedTimings, queuedTimings, List.zipIdx_append, List.flatMap_append]
  exact List.prefix_append ..

theorem client_update (cmp : Comparison) (id other : ClientId)
    (change : ClientStats → ClientStats) :
    (cmp.update id change).client other =
      if other = id then (drain (change (cmp.client id)) cmp.origin).1 else cmp.client other := by
  rw [Comparison.update, Comparison.client]
  split_ifs with hother
  · rw [hother, AList.lookup_insert]
    rfl
  · rw [AList.lookup_insert_ne hother]
    rfl

/-- The timings of every client are what the events of the whole capture lead to, as
far as they go. -/
def TimesEvents (msgs : List CaptureMessage) (timings : List TimingData) : Prop :=
  ∀ id, (queuedTimings id timings).map TimEntry.code <+: (queuedEvents id msgs).map CapEntry.code

theorem getElem?_of_isPrefix {A : Type} {xs ys : List A} (hinitial : xs <+: ys) {i : ℕ} {value : A}
    (hvalue : xs[i]? = some value) : ys[i]? = some value := by
  obtain ⟨hi, rfl⟩ := List.getElem?_eq_some_iff.mp hvalue
  exact List.prefix_iff_getElem?.mp hinitial i hi

theorem TimesEvents.agree {msgs seen : List CaptureMessage} {timings done : List TimingData}
    (htimes : TimesEvents msgs timings) (hseen : seen <+: msgs) (hdone : done <+: timings)
    (id : ClientId) : Agree (queuedEvents id seen) (queuedTimings id done) := by
  intro i entry timing hentry htiming
  have hevents : ((queuedEvents id msgs).map CapEntry.code)[i]? = some entry.code := by
    rw [List.getElem?_map, getElem?_of_isPrefix (queuedEvents_isPrefix id hseen) hentry]
    rfl
  have htimings : ((queuedTimings id timings).map TimEntry.code)[i]? = some timing.code := by
    rw [List.getElem?_map, getElem?_of_isPrefix (queuedTimings_isPrefix id hdone) htiming]
    rfl
  exact Option.some.inj (hevents.symm.trans (getElem?_of_isPrefix (htimes id) htimings))

/-- The variables of `compare` behind `seen` of the capture and `done` of the timings. -/
structure Follows (seen : List CaptureMessage) (done : List TimingData) (cmp : Comparison) :
    Prop where
  eventsRead : cmp.eventsRead = seen.length
  timingsRead : cmp.timingsRead = done.length
  captureEof : cmp.captureEof = false
  paired : ∀ id, Paired (queuedEvents id seen) (queuedTimings id done) (cmp.client id)
  drained : ∀ id, (cmp.client id).isDrained
  known : ∀ t ∈ done, t.id ∈ cmp.clients

section Loops

variable {seen msgs : List CaptureMessage} {done timings : List TimingData} {cmp : Comparison}

theorem follows_new : Follows [] [] .new where
  eventsRead := rfl
  timingsRead := rfl
  captureEof := rfl
  paired _ := Paired.empty
  drained _ := .inl rfl
  known _ ht := absurd ht List.not_mem_nil

/-- A read that changes one queue of one client keeps the other clients. -/
theorem Follows.update {seen' : List CaptureMessage} {done' : List TimingData} {id : ClientId}
    {read : Comparison} {change : ClientStats → ClientStats} (hfollows : Follows seen done cmp)
    (hclients : read.clients = cmp.clients) (heof : read.captureEof = false)
    (hevents : read.eventsRead = seen'.length) (htimings : read.timingsRead = done'.length)
    (hagree : Agree (queuedEvents id seen') (queuedTimings id done'))
    (hself : Paired (queuedEvents id seen') (queuedTimings id done') (change (cmp.client id)))
    (hother : ∀ other, other ≠ id → queuedEvents other seen' = queuedEvents other seen ∧
      queuedTimings other done' = queuedTimings other done)
    (hknown : ∀ t ∈ done', t ∈ done ∨ t.id = id) :
    Follows seen' done' (read.update id change) := by
  have hclient : ∀ other, read.client other = cmp.client other := fun other => by
    rw [Comparison.client, hclients]
    rfl
  have hdrain := paired_drainFrom read.origin hagree hself
  constructor
  · exact hevents
  · exact htimings
  · exact heof
  · intro other
    rw [client_update]
    split_ifs with heq
    · rw [heq, hclient]
      exact hdrain.1
    · rw [(hother other heq).1, (hother other heq).2, hclient]
      exact hfollows.paired other
  · intro other
    rw [client_update]
    split_ifs with heq
    · rw [hclient]
      exact hdrain.2
    · rw [hclient]
      exact hfollows.drained other
  · intro t ht
    refine (AList.mem_insert _).mpr ?_
    rcases hknown t ht with hdone | heq
    · exact .inr (hclients ▸ hfollows.known t hdone)
    · exact .inl heq

theorem Follows.onEvent {msg : CaptureMessage} (hfollows : Follows seen done cmp)
    (hagree : ∀ id, Agree (queuedEvents id (seen ++ [msg])) (queuedTimings id done)) :
    Follows (seen ++ [msg]) done (cmp.onEvent msg) := by
  have hread : cmp.eventsRead + 1 = (seen ++ [msg]).length := by
    rw [hfollows.eventsRead, List.length_append, List.length_singleton]
  rw [Comparison.onEvent]
  cases hcode : eventCode msg.event with
  | some code =>
      apply hfollows.update
      · rfl
      · exact hfollows.captureEof
      · exact hread
      · exact hfollows.timingsRead
      · exact hagree msg.id
      · rw [queuedEvents_concat, if_pos rfl, hfollows.eventsRead]
        exact (hfollows.paired msg.id).push_cap _
      · intro other hne
        rw [queuedEvents_concat, if_neg (Ne.symm hne), List.append_nil]
        exact ⟨rfl, rfl⟩
      · exact fun t ht => .inl ht
  | none =>
      have hqueued : ∀ id, queuedEvents id (seen ++ [msg]) = queuedEvents id seen := by
        intro id
        have hempty : capEntries msg seen.length = [] := by rw [capEntries, hcode]
        rw [queuedEvents_concat, hempty, ite_self, List.append_nil]
      constructor
      · exact hread
      · exact hfollows.timingsRead
      · exact hfollows.captureEof
      · intro id
        rw [hqueued]
        exact hfollows.paired id
      · exact hfollows.drained
      · exact hfollows.known

theorem Follows.onTiming {t : TimingData} (hfollows : Follows seen done cmp)
    (hagree : Agree (queuedEvents t.id seen) (queuedTimings t.id (done ++ [t]))) :
    Follows seen (done ++ [t]) (cmp.onTiming t) := by
  rw [Comparison.onTiming]
  apply hfollows.update
  · rfl
  · exact hfollows.captureEof
  · exact hfollows.eventsRead
  · simp [hfollows.timingsRead]
  · exact hagree
  · rw [queuedTimings_concat, if_pos rfl, hfollows.timingsRead]
    exact (hfollows.paired t.id).push_tim _
  · intro other hne
    rw [queuedTimings_concat, if_neg (Ne.symm hne), List.append_nil]
    exact ⟨rfl, rfl⟩
  · intro later hlater
    rcases List.mem_append.mp hlater with hdone | hlast
    · exact .inl hdone
    · exact .inr (congrArg TimingData.id (List.mem_singleton.mp hlast))

/-- An event leaves no client with a timing that had none. -/
theorem tim_onEvent {msg : CaptureMessage} {id : ClientId} (htim : (cmp.client id).tim = []) :
    ((cmp.onEvent msg).client id).tim = [] := by
  rw [Comparison.onEvent]
  cases eventCode msg.event with
  | none => exact htim
  | some code =>
      rw [client_update]
      split_ifs with heq
      · rw [drain, drainFrom_of_tim_nil _ _ (heq ▸ htim)]
        exact heq ▸ htim
      · exact htim

theorem tim_onTiming {t : TimingData} {id : ClientId} (hne : id ≠ t.id)
    (htim : (cmp.client id).tim = []) : ((cmp.onTiming t).client id).tim = [] := by
  rw [Comparison.onTiming, client_update, if_neg hne]
  exact htim

/-- Behind the whole capture no timing is left. -/
theorem Follows.tim_nil (hfollows : Follows seen done cmp) (id : ClientId)
    (htimes : TimesEvents seen done) : (cmp.client id).tim = [] := by
  obtain ⟨⟨paired, against, hentries, htimings, hlength, -, -⟩, -⟩ := hfollows.paired id
  rcases hfollows.drained id with hcap | htim
  · have hle := (htimes id).length_le
    rw [List.length_map, List.length_map, hentries, htimings, hcap, List.append_nil,
      List.length_append, hlength] at hle
    exact List.length_eq_zero_iff.mp (by omega)
  · exact htim

theorem TimesEvents.of_isPrefix (htimes : TimesEvents msgs timings) (hdone : done <+: timings) :
    TimesEvents msgs done :=
  fun id => ((queuedTimings_isPrefix id hdone).map _).trans (htimes id)

theorem Follows.waits_eq (hfollows : Follows seen done cmp) (id : ClientId) :
    cmp.waits id = !(cmp.client id).tim.isEmpty := by
  rw [Comparison.waits, hfollows.captureEof]
  rfl

/-- The capture is read until the last timing is paired, which is before its end. -/
theorem readCapture_follows {rest : List CaptureMessage} {id : ClientId}
    (hfollows : Follows seen done cmp) (htimes : TimesEvents (seen ++ rest) timings)
    (hdone : done <+: timings) (hothers : ∀ other, other ≠ id → (cmp.client other).tim = []) :
    ∃ seen' rest' cmp', readCapture id (rest.map .ok) cmp = .ok (rest'.map .ok, cmp') ∧
      seen' ++ rest' = seen ++ rest ∧ Follows seen' done cmp' ∧
      ∀ other, (cmp'.client other).tim = [] := by
  induction rest generalizing seen cmp with
  | nil =>
      rw [List.append_nil] at htimes
      have htim := fun other => hfollows.tim_nil other (htimes.of_isPrefix hdone)
      have hwaits : cmp.waits id = false := by rw [hfollows.waits_eq, htim id]; rfl
      refine ⟨seen, [], cmp, ?_, rfl, hfollows, htim⟩
      simp [readCapture, hwaits]
  | cons msg rest ih =>
      cases hwaits : cmp.waits id with
      | false =>
          refine ⟨seen, msg :: rest, cmp, ?_, rfl, hfollows, ?_⟩
          · simp [readCapture, hwaits]
          · intro other
            by_cases hother : other = id
            · rw [hfollows.waits_eq] at hwaits
              simpa [hother] using hwaits
            · exact hothers other hother
      | true =>
          rw [← List.singleton_append, ← List.append_assoc] at htimes
          have hagree := htimes.agree (List.prefix_append (seen ++ [msg]) rest) hdone
          obtain ⟨seen', rest', cmp', hread, hsplit, hafter⟩ :=
            ih (hfollows.onEvent hagree) htimes fun other hother => tim_onEvent (hothers other hother)
          refine ⟨seen', rest', cmp', ?_, ?_, hafter⟩
          · simpa [readCapture, hwaits] using hread
          · simpa using hsplit

/-- The timings still to come are paired as well. -/
theorem compareLoop_follows {later : List TimingData} {rest : List CaptureMessage}
    (hfollows : Follows seen done cmp) (htim : ∀ id, (cmp.client id).tim = [])
    (htimes : TimesEvents (seen ++ rest) (done ++ later)) :
    ∃ seen' cmp', compareLoop (later.map .ok) (rest.map .ok) cmp = .ok cmp' ∧
      seen' <+: seen ++ rest ∧ Follows seen' (done ++ later) cmp' ∧
      ∀ id, (cmp'.client id).tim = [] := by
  induction later generalizing seen done rest cmp with
  | nil =>
      refine ⟨seen, cmp, rfl, List.prefix_append .., ?_, htim⟩
      rwa [List.append_nil]
  | cons t later ih =>
      rw [← List.singleton_append, ← List.append_assoc] at htimes ⊢
      have hdone : done ++ [t] <+: done ++ [t] ++ later := List.prefix_append ..
      have hagree := htimes.agree (List.prefix_append seen rest) hdone
      obtain ⟨middle, rest', cmp', hread, hsplit, hfollows', htim'⟩ :=
        readCapture_follows (hfollows.onTiming (hagree t.id)) htimes hdone
          fun other hother => tim_onTiming hother (htim other)
      rw [← hsplit] at htimes ⊢
      obtain ⟨seen', cmp'', hloop, hafter⟩ := ih hfollows' htim' htimes
      refine ⟨seen', cmp'', ?_, hafter⟩
      simp only [List.singleton_append, List.map_cons, compareLoop, hread]
      exact hloop

/-- Whole queues of timings are paired with the events in front. -/
theorem Paired.of_tim_nil {entries events : List CapEntry} {timings : List TimEntry}
    {c : ClientStats} (hpaired : Paired entries timings c) (htim : c.tim = [])
    (hevents : entries <+: events) :
    c.matched = timings.length ∧
      c.pairs = (events.map CapEntry.source).zip (timings.map TimEntry.source) := by
  obtain ⟨⟨paired, against, rfl, rfl, hlength, hmatched, hpairs⟩, -⟩ := hpaired
  obtain ⟨later, rfl⟩ := hevents
  have hlengths : (paired.map CapEntry.source).length = (against.map TimEntry.source).length := by
    simpa using hlength
  have hzip := @List.zip_append _ _ _ (c.cap.map CapEntry.source ++ later.map CapEntry.source) _ []
    hlengths
  constructor
  · rw [hmatched, hlength, htim, List.append_nil]
  · rw [hpairs, htim]
    simpa using hzip.symm

theorem drain_of_tim_nil {c : ClientStats} (htim : c.tim = []) (origin : Option Stamps) :
    drain c origin = (c, origin) :=
  drainFrom_of_tim_nil c.cap origin htim

/-- The last pass over the clients finds nothing to drain. -/
theorem foldl_addClient (htim : ∀ id, (cmp.client id).tim = []) (ids : List ClientId)
    (report : Report) (hreport : ∀ id, report.comparison.client id = cmp.client id) :
    let after := ids.foldl (fun report id => report.addClient id) report
    (∀ id, after.comparison.client id = cmp.client id) ∧
      after.matched = report.matched + (ids.map fun id => (cmp.client id).matched).sum ∧
      after.unmatched = report.unmatched := by
  induction ids generalizing report with
  | nil => exact ⟨hreport, rfl, rfl⟩
  | cons id ids ih =>
      have hclient : ∀ other, (report.addClient id).comparison.client other = cmp.client other := by
        intro other
        rw [Report.addClient, client_update, hreport, drain_of_tim_nil (htim id), hreport]
        split_ifs with hother
        · rw [hother]
        · rfl
      obtain ⟨hafter, hmatched, hunmatched⟩ := ih _ hclient
      refine ⟨hafter, ?_, ?_⟩
      · rw [List.foldl_cons, hmatched, List.map_cons, List.sum_cons, ← Nat.add_assoc]
        have hself := congrArg ClientStats.matched (hclient id)
        exact congrArg (report.matched + · + _) hself
      · rw [List.foldl_cons, hunmatched]
        have hnone : ((report.addClient id).comparison.client id).tim.length = 0 := by
          rw [hclient, htim]
          rfl
        exact congrArg (report.unmatched + ·) hnone

theorem length_queuedTimings (id : ClientId) (timings : List TimingData) :
    (queuedTimings id timings).length = (timings.map TimingData.id).count id := by
  induction timings using List.reverseRecOn with
  | nil => rfl
  | append_singleton timings t ih =>
      rw [queuedTimings_concat, List.length_append, ih, List.map_append, List.count_append]
      by_cases ht : t.id = id <;> simp [ht]

theorem Follows.sum_matched (hfollows : Follows seen done cmp)
    (htim : ∀ id, (cmp.client id).tim = []) :
    (cmp.clients.keys.map fun id => (cmp.client id).matched).sum = done.length := by
  have hmatched : ∀ id, (cmp.client id).matched = (done.map TimingData.id).count id := fun id =>
    ((hfollows.paired id).of_tim_nil (htim id) (List.prefix_refl _)).1.trans
      (length_queuedTimings id done)
  have hknown : ∀ id ∈ (done.map TimingData.id : Multiset ClientId), id ∈ cmp.clients.keys.toFinset := by
    intro id hid
    obtain ⟨t, ht, rfl⟩ := List.mem_map.mp (Multiset.mem_coe.mp hid)
    exact List.mem_toFinset.mpr (AList.mem_keys.mp (hfollows.known t ht))
  calc (cmp.clients.keys.map fun id => (cmp.client id).matched).sum
      = (cmp.clients.keys.map fun id => (done.map TimingData.id).count id).sum := by
        simp only [hmatched]
    _ = ∑ id ∈ cmp.clients.keys.toFinset, (done.map TimingData.id).count id :=
        (List.sum_toFinset _ cmp.clients.keys_nodup).symm
    _ = (done.map TimingData.id).length := by
        simpa using Multiset.sum_count_eq_card hknown
    _ = done.length := List.length_map ..

/-- Every timing is paired, and the pairs of a client are its events and its timings in
order. -/
theorem compare_timesEvents (htimes : TimesEvents msgs timings) :
    ∃ report, compare (msgs.map .ok) (timings.map .ok) = .ok report ∧
      report.matched = timings.length ∧ report.unmatched = 0 ∧
      ∀ id, (report.comparison.client id).skipped = 0 ∧
        (report.comparison.client id).pairs =
          ((queuedEvents id msgs).map CapEntry.source).zip
            ((queuedTimings id timings).map TimEntry.source) := by
  obtain ⟨seen, cmp, hloop, hseen, hfollows, htim⟩ :=
    compareLoop_follows follows_new (fun _ => rfl) htimes
  obtain ⟨hclient, hmatched, hunmatched⟩ :=
    foldl_addClient htim (cmp.clients.keys.mergeSort fun a b => a ≤ b) { comparison := cmp }
      fun _ => rfl
  refine ⟨cmp.report, ?_, ?_, ?_, ?_⟩
  · rw [compare, hloop]
  · have hperm := List.mergeSort_perm cmp.clients.keys fun a b => decide (a ≤ b)
    have hsum := (hperm.map fun id => (cmp.client id).matched).sum_eq
    rw [Comparison.report, hmatched, hsum, hfollows.sum_matched htim]
    simp
  · exact hunmatched
  · intro id
    rw [Comparison.report, hclient]
    have hpaired := hfollows.paired id
    exact ⟨hpaired.skipped, (hpaired.of_tim_nil (htim id) (queuedEvents_isPrefix id hseen)).2⟩

end Loops

end Pgr.Compare
