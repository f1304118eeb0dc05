import Pgr.Analysis.Compare
import Pgr.Core.LeftmostEmbedding

/-!
# Timings that do not fit the capture

`compare` on timings of any types: the drains of a client, spread over the reads of
both files, do what one scan over all its records does.
-/

namespace Pgr.CompareLeftmost

open Pgr.Capture Pgr.Compare Pgr.LeftmostEmbedding

/-! ## One client -/

/-- One scan over the records of a client: the pairs, and the timings without one. -/
def scan : List CapEntry → List TimEntry → List (ℕ × ℕ) × List TimEntry
  | [], timings => ([], timings)
  | _ :: _, [] => ([], [])
  | entry :: entries, timing :: timings =>
      if entry.code = timing.code then
        ((entry.source, timing.source) :: (scan entries timings).1, (scan entries timings).2)
      else scan entries (timing :: timings)

/-- What has been drained is the beginning of the scan, whatever is still to come on
either side. -/
structure Tracks (entries : List CapEntry) (timings : List TimEntry) (c : ClientStats) :
    Prop where
  matched : c.matched = c.pairs.length
  scan_eq : ∀ (moreEntries : List CapEntry) (moreTimings : List TimEntry),
    scan (entries ++ moreEntries) (timings ++ moreTimings) =
      (c.pairs ++ (scan (c.cap ++ moreEntries) (c.tim ++ moreTimings)).1,
        (scan (c.cap ++ moreEntries) (c.tim ++ moreTimings)).2)

section Drain

variable {entries : List CapEntry} {timings : List TimEntry} {c : ClientStats}

theorem scan_nil_right (entries : List CapEntry) : scan entries [] = ([], []) := by
  cases entries with
  | nil => rfl
  | cons entry entries => rfl

theorem Tracks.empty : Tracks [] [] {} :=
  ⟨rfl, fun _ _ => rfl⟩

theorem Tracks.push_cap (htracks : Tracks entries timings c) (later : List CapEntry) :
    Tracks (entries ++ later) timings { c with cap := c.cap ++ later } where
  matched := htracks.matched
  scan_eq moreEntries moreTimings := by
    rw [List.append_assoc, List.append_assoc]
    exact htracks.scan_eq (later ++ moreEntries) moreTimings

theorem Tracks.push_tim (htracks : Tracks entries timings c) (later : List TimEntry) :
    Tracks entries (timings ++ later) { c with tim := c.tim ++ later } where
  matched := htracks.matched
  scan_eq moreEntries moreTimings := by
    rw [List.append_assoc, List.append_assoc]
    exact htracks.scan_eq moreEntries (later ++ moreTimings)

theorem tracks_drainFrom {cap : List CapEntry} (origin : Option Stamps)
    (htracks : Tracks entries timings { c with cap := cap }) :
    Tracks entries timings (drainFrom cap c origin).1 ∧
      (drainFrom cap c origin).1.isDrained := by
  induction cap generalizing c origin with
  | nil => exact ⟨htracks, .inl rfl⟩
  | cons entry cap ih =>
      cases htim : c.tim with
      | nil =>
          rw [drainFrom_of_tim_nil _ _ htim]
          exact ⟨htracks, .inr htim⟩
      | cons timing tim =>
          have hscan := htracks.scan_eq
          simp only [htim, List.cons_append, scan] at hscan
          by_cases hcode : entry.code = timing.code
          · obtain ⟨c', origin', hdrain, htim', hmatched', -, hpairs'⟩ :=
              drainFrom_cons origin htim hcode
            rw [hdrain]
            apply ih
            constructor
            · rw [hmatched', hpairs', List.length_append, List.length_singleton, ← htracks.matched]
            · intro moreEntries moreTimings
              simpa only [hcode, if_true, htim', hpairs', List.append_assoc,
                List.singleton_append] using hscan moreEntries moreTimings
          · rw [drainFrom]
            simp only [htim, ne_eq, hcode, not_false_eq_true, if_true]
            apply ih
            constructor
            · exact htracks.matched
            · intro moreEntries moreTimings
              simpa only [hcode, if_false, htim, List.cons_append] using
                hscan moreEntries moreTimings

theorem drain_of_isDrained (hdrained : c.isDrained) (origin : Option Stamps) :
    drain c origin = (c, origin) := by
  obtain hcap | htim := hdrained
  · rw [drain, hcap, drainFrom, ← hcap]
  · exact drainFrom_of_tim_nil c.cap origin htim

/-- When all is read, or no timing is left, the drains have done the whole scan. -/
theorem Tracks.scan_all (htracks : Tracks entries timings c) (hdrained : c.isDrained)
    {moreEntries : List CapEntry} (hend : moreEntries = [] ∨ c.tim = []) :
    scan (entries ++ moreEntries) timings = (c.pairs, c.tim) := by
  have hscan := htracks.scan_eq moreEntries []
  rw [List.append_nil, List.append_nil] at hscan
  rw [hscan]
  by_cases htim : c.tim = []
  · rw [htim, scan_nil_right, List.append_nil]
  · have hcap : c.cap = [] := hdrained.resolve_right htim
    have hmore : moreEntries = [] := hend.resolve_right htim
    rw [hcap, hmore, List.append_nil, scan, List.append_nil]

/-- The scan of a client pairs its timings with their places in the leftmost
embedding. -/
theorem scan_eq_leftmost (entries : List CapEntry) (timings : List TimEntry) :
    (scan entries timings).1 =
        ((leftmost (entries.map CapEntry.code) (timings.map TimEntry.code)).filterMap
          fun place => (entries.map CapEntry.source)[place]?).zip (timings.map TimEntry.source) ∧
      (scan entries timings).2 = timings.drop
        (leftmost (entries.map CapEntry.code) (timings.map TimEntry.code)).length := by
  induction entries generalizing timings with
  | nil => exact ⟨rfl, rfl⟩
  | cons entry entries ih =>
      cases timings with
      | nil => exact ⟨rfl, rfl⟩
      | cons timing timings =>
          simp only [scan, List.map_cons, leftmost]
          split_ifs with hcode
          · obtain ⟨hpairs, hrest⟩ := ih timings
            constructor
            · rw [hpairs]
              simp [List.filterMap_map]
            · simpa using hrest
          · obtain ⟨hpairs, hrest⟩ := ih (timing :: timings)
            constructor
            · rw [hpairs]
              simp [List.filterMap_map]
            · simpa using hrest

theorem length_scan (entries : List CapEntry) (timings : List TimEntry) :
    (scan entries timings).1.length =
      (leftmost (entries.map CapEntry.code) (timings.map TimEntry.code)).length := by
  induction entries generalizing timings with
  | nil => rfl
  | cons entry entries ih =>
      cases timings with
      | nil => rfl
      | cons timing timings =>
          simp only [scan, List.map_cons, leftmost]
          split_ifs with hcode
          · rw [List.length_cons, List.length_cons, List.length_map, ih]
          · rw [List.length_map, ih, List.map_cons]

end Drain

/-! ## The two reading loops -/

/-- The variables of `compare` behind `seen` of the capture and `done` of the timings. -/
structure Scanned (seen : List CaptureMessage) (done : List TimingData) (cmp : Comparison) :
    Prop where
  eventsRead : cmp.eventsRead = seen.length
  timingsRead : cmp.timingsRead = done.length
  tracks : ∀ id, Tracks (queuedEvents id seen) (queuedTimings id done) (cmp.client id)
  drained : ∀ id, (cmp.client id).isDrained
  known : ∀ t ∈ done, t.id ∈ cmp.clients

/-- Between two timings the capture is read to its end, or no timing is left. -/
structure Settled (rest : List CaptureMessage) (cmp : Comparison) : Prop where
  ended : cmp.captureEof = true → rest = []
  paired : cmp.captureEof = false → ∀ id, (cmp.client id).tim = []

section Loops

variable {seen rest msgs : List CaptureMessage} {done timings : List TimingData} {cmp : Comparison}

theorem scanned_new : Scanned [] [] .new where
  eventsRead := rfl
  timingsRead := rfl
  tracks _ := Tracks.empty
  drained _ := .inl rfl
  known _ ht := absurd ht List.not_mem_nil

theorem Scanned.update {seen' : List CaptureMessage} {done' : List TimingData} {id : ClientId}
    {read : Comparison} {change : ClientStats → ClientStats} (hscanned : Scanned seen done cmp)
    (hclients : read.clients = cmp.clients) (hevents : read.eventsRead = seen'.length)
    (htimings : read.timingsRead = done'.length)
    (hself : Tracks (queuedEvents id seen') (queuedTimings id done') (change (cmp.client id)))
    (hother : ∀ other, other ≠ id → queuedEvents other seen' = queuedEvents other seen ∧
      queuedTimings other done' = queuedTimings other done)
    (hknown : ∀ t ∈ done', t ∈ done ∨ t.id = id) :
    Scanned seen' done' (read.update id change) := by
  have hclient : ∀ other, read.client other = cmp.client other := fun other => by
    rw [Comparison.client, hclients]
    rfl
  have hdrain := tracks_drainFrom read.origin hself
  constructor
  · exact hevents
  · exact htimings
  · intro other
    rw [client_update, hclient, hclient]
    split_ifs with heq
    · rw [heq]
      exact hdrain.1
    · rw [(hother other heq).1, (hother other heq).2]
      exact hscanned.tracks other
  · intro other
    rw [client_update, hclient, hclient]
    split_ifs with heq
    · exact hdrain.2
    · exact hscanned.drained other
  · intro t ht
    apply (AList.mem_insert _).mpr
    obtain hdone | heq := hknown t ht
    · exact .inr (hclients ▸ hscanned.known t hdone)
    · exact .inl heq

theorem queuedEvents_skip {msg : CaptureMessage} (hcode : eventCode msg.event = none)
    (id : ClientId) : queuedEvents id (seen ++ [msg]) = queuedEvents id seen := by
  have hempty : capEntries msg seen.length = [] := by rw [capEntries, hcode]
  rw [queuedEvents_concat, hempty, ite_self, List.append_nil]

theorem Scanned.onEvent (hscanned : Scanned seen done cmp) (msg : CaptureMessage) :
    Scanned (seen ++ [msg]) done (cmp.onEvent msg) := by
  have hread : cmp.eventsRead + 1 = (seen ++ [msg]).length := by
    rw [hscanned.eventsRead, List.length_append, List.length_singleton]
  rw [Comparison.onEvent]
  cases hcode : eventCode msg.event with
  | some code =>
      apply hscanned.update
      · rfl
      · exact hread
      · exact hscanned.timingsRead
      · rw [queuedEvents_concat, if_pos rfl, hscanned.eventsRead]
        exact (hscanned.tracks msg.id).push_cap _
      · intro other hne
        rw [queuedEvents_concat, if_neg (Ne.symm hne), List.append_nil]
        exact ⟨rfl, rfl⟩
      · exact fun t ht => .inl ht
  | none =>
      constructor
      · exact hread
      · exact hscanned.timingsRead
      · intro id
        rw [queuedEvents_skip hcode]
        exact hscanned.tracks id
      · exact hscanned.drained
      · exact hscanned.known

theorem Scanned.onTiming (hscanned : Scanned seen done cmp) (t : TimingData) :
    Scanned seen (done ++ [t]) (cmp.onTiming t) := by
  rw [Comparison.onTiming]
  apply hscanned.update
  · rfl
  · exact hscanned.eventsRead
  · simp [hscanned.timingsRead]
  · rw [queuedTimings_concat, if_pos rfl, hscanned.timingsRead]
    exact (hscanned.tracks t.id).push_tim _
  · intro other hne
    rw [queuedTimings_concat, if_neg (Ne.symm hne), List.append_nil]
    exact ⟨rfl, rfl⟩
  · intro later hlater
    obtain hdone | hlast := List.mem_append.mp hlater
    · exact .inl hdone
    · exact .inr (congrArg TimingData.id (List.mem_singleton.mp hlast))

/-- The flag of the end is set by the loop alone. -/
theorem captureEof_onEvent (msg : CaptureMessage) (cmp : Comparison) :
    (cmp.onEvent msg).captureEof = cmp.captureEof := by
  rw [Comparison.onEvent]
  cases eventCode msg.event with
  | some code => rfl
  | none => rfl

theorem readCapture_scanned {id : ClientId} (hscanned : Scanned seen done cmp)
    (hended : cmp.captureEof = true → rest = [])
    (hothers : cmp.captureEof = false → ∀ other, other ≠ id → (cmp.client other).tim = []) :
    ∃ seen' rest' cmp', readCapture id (rest.map .ok) cmp = .ok (rest'.map .ok, cmp') ∧
      seen' ++ rest' = seen ++ rest ∧ Scanned seen' done cmp' ∧ Settled rest' cmp' := by
  induction rest generalizing seen cmp with
  | nil =>
      rw [List.map_nil, readCapture]
      by_cases hwaits : cmp.waits id = true
      · rw [if_pos hwaits]
        exact ⟨seen, [], _, rfl, rfl, { hscanned with }, fun _ => rfl, by rintro ⟨⟩⟩
      · rw [if_neg hwaits]
        refine ⟨seen, [], _, rfl, rfl, hscanned, fun _ => rfl, fun heof other => ?_⟩
        by_cases hother : other = id
        · simpa [Comparison.waits, heof, hother] using hwaits
        · exact hothers heof other hother
  | cons msg rest ih =>
      have heof : cmp.captureEof = false :=
        eq_false_of_ne_true fun heof => List.cons_ne_nil _ _ (hended heof)
      by_cases hwaits : cmp.waits id = true
      · obtain ⟨seen', rest', cmp', hread, hsplit, hafter⟩ := ih (hscanned.onEvent msg)
          (fun htrue => by rw [captureEof_onEvent, heof] at htrue; cases htrue)
          (fun _ other hother => tim_onEvent (hothers heof other hother))
        refine ⟨seen', rest', cmp', ?_, ?_, hafter⟩
        · rw [List.map_cons, readCapture, if_pos hwaits]
          exact hread
        · rw [hsplit, List.append_assoc, List.singleton_append]
      · refine ⟨seen, msg :: rest, cmp, ?_, rfl, hscanned, ?_, fun _ other => ?_⟩
        · rw [List.map_cons, readCapture, if_neg hwaits]
        · intro htrue
          rw [heof] at htrue
          cases htrue
        · by_cases hother : other = id
          · simpa [Comparison.waits, heof, hother] using hwaits
          · exact hothers heof other hother

theorem compareLoop_scanned {later : List TimingData} (hscanned : Scanned seen done cmp)
    (hsettled : Settled rest cmp) :
    ∃ seen' rest' cmp', compareLoop (later.map .ok) (rest.map .ok) cmp = .ok cmp' ∧
      seen' ++ rest' = seen ++ rest ∧ Scanned seen' (done ++ later) cmp' ∧
      Settled rest' cmp' := by
  induction later generalizing seen done rest cmp with
  | nil =>
      refine ⟨seen, rest, cmp, rfl, rfl, ?_, hsettled⟩
      rw [List.append_nil]
      exact hscanned
  | cons t later ih =>
      have hothers : (cmp.onTiming t).captureEof = false →
          ∀ other, other ≠ t.id → ((cmp.onTiming t).client other).tim = [] :=
        fun heof other hother => tim_onTiming hother (hsettled.paired heof other)
      obtain ⟨middle, rest', cmp', hread, hsplit, hscanned', hsettled'⟩ :=
        readCapture_scanned (hscanned.onTiming t) hsettled.ended hothers
      obtain ⟨seen', rest'', cmp'', hloop, hsplit', hafter⟩ := ih hscanned' hsettled'
      refine ⟨seen', rest'', cmp'', ?_, hsplit'.trans hsplit, ?_⟩
      · simp only [List.map_cons, compareLoop, hread]
        exact hloop
      · rw [← List.singleton_append, ← List.append_assoc]
        exact hafter

/-- The last pass over the clients finds nothing to drain. -/
theorem foldl_addClient_of_drained (hdrained : ∀ id, (cmp.client id).isDrained)
    (ids : List ClientId) (report : Report)
    (hreport : ∀ id, report.comparison.client id = cmp.client id) :
    let after := ids.foldl (fun report id => report.addClient id) report
    (∀ id, after.comparison.client id = cmp.client id) ∧
      after.matched = report.matched + (ids.map fun id => (cmp.client id).matched).sum ∧
      after.unmatched = report.unmatched + (ids.map fun id => (cmp.client id).tim.length).sum := by
  induction ids generalizing report with
  | nil => exact ⟨hreport, rfl, rfl⟩
  | cons id ids ih =>
      have hclient : ∀ other, (report.addClient id).comparison.client other = cmp.client other := by
        intro other
        rw [Report.addClient, client_update, hreport, drain_of_isDrained (hdrained id), hreport]
        split_ifs with hother
        · rw [hother]
        · rfl
      obtain ⟨hafter, hmatched, hunmatched⟩ := ih _ hclient
      have hself := hclient id
      refine ⟨hafter, ?_, ?_⟩
      · rw [List.foldl_cons, hmatched, List.map_cons, List.sum_cons, ← Nat.add_assoc, ← hself]
        rfl
      · rw [List.foldl_cons, hunmatched, List.map_cons, List.sum_cons, ← Nat.add_assoc, ← hself]
        rfl

end Loops

/-! ## The pairing -/

/-- The types an event counts as: a Connect with a session is followed by a simple
query. -/
def expandedCodes : ClientEvent → List UInt8
  | .connect sessionId => if sessionId = "" then [msgConnect] else [msgConnect, msgSimpleQuery]
  | .disconnect => [msgDisconnect]
  | .simpleQuery _ => [msgSimpleQuery]
  | .parse .. => [msgParse]
  | .bind .. => [msgBind]
  | .execute .. => [msgExecute]
  | .sync => [msgSync]
  | .close .. => [msgClose]
  | .lsn _ | .txEnd .. => []

/-- A Connect that restores a session, and a sync. -/
example : ([.connect "ffff-1", .lsn 5, .sync].flatMap expandedCodes : List UInt8) =
    [msgConnect, msgSimpleQuery, msgSync] := by
  decide

def captureCodes (id : ClientId) (msgs : List CaptureMessage) : List UInt8 :=
  (msgs.filter fun msg => msg.id = id).flatMap fun msg => expandedCodes msg.event

def timingCodes (id : ClientId) (timings : List TimingData) : List UInt8 :=
  (timings.filter fun t => t.id = id).map TimingData.eventType

/-- Where the timings of a client stand among its own captured types. -/
def places (id : ClientId) (msgs : List CaptureMessage) (timings : List TimingData) : List ℕ :=
  leftmost (captureCodes id msgs) (timingCodes id timings)

/-- Which message of the capture file each captured type of a client is from. -/
def captureSources (id : ClientId) (msgs : List CaptureMessage) : List ℕ :=
  (queuedEvents id msgs).map CapEntry.source

/-- Which record of the timing file each timing of a client is. -/
def timingSources (id : ClientId) (timings : List TimingData) : List ℕ :=
  (queuedTimings id timings).map TimEntry.source

theorem map_code_capEntries (msg : CaptureMessage) (source : ℕ) :
    (capEntries msg source).map CapEntry.code = expandedCodes msg.event := by
  rw [capEntries]
  cases msg.event with
  | connect sessionId =>
      by_cases hsession : sessionId = ""
      · simp [eventCode, isRestore, expandedCodes, hsession]
      · simp [eventCode, isRestore, expandedCodes, hsession]
  | _ => rfl

theorem map_code_queuedEvents (id : ClientId) (msgs : List CaptureMessage) :
    (queuedEvents id msgs).map CapEntry.code = captureCodes id msgs := by
  induction msgs using List.reverseRecOn with
  | nil => rfl
  | append_singleton msgs msg ih =>
      rw [queuedEvents_concat, List.map_append, ih, captureCodes, captureCodes,
        List.filter_append, List.flatMap_append]
      congr 1
      split_ifs with hid
      · simp [hid, map_code_capEntries]
      · simp [hid]

theorem map_code_queuedTimings (id : ClientId) (timings : List TimingData) :
    (queuedTimings id timings).map TimEntry.code = timingCodes id timings := by
  induction timings using List.reverseRecOn with
  | nil => rfl
  | append_singleton timings t ih =>
      rw [queuedTimings_concat, List.map_append, ih, timingCodes, timingCodes,
        List.filter_append, List.map_append]
      congr 1
      split_ifs with hid
      · simp [hid]
      · simp [hid]

theorem places_of_not_mem {id : ClientId} {timings : List TimingData}
    (hid : id ∉ timings.map TimingData.id) (msgs : List CaptureMessage) :
    timingCodes id timings = [] ∧ places id msgs timings = [] := by
  have hcodes : timingCodes id timings = [] := by
    rw [timingCodes, List.map_eq_nil_iff, List.filter_eq_nil_iff]
    intro t ht heq
    exact hid (List.mem_map.mpr ⟨t, ht, of_decide_eq_true heq⟩)
  refine ⟨hcodes, List.length_eq_zero_iff.mp ?_⟩
  have hlength := length_leftmost_le (captureCodes id msgs) (timingCodes id timings)
  rw [hcodes, List.length_nil] at hlength
  rw [places, hcodes]
  exact Nat.le_zero.mp hlength

/-- What the drains of a client have done in the end. -/
theorem client_of_scanned {seen rest : List CaptureMessage} {timings : List TimingData}
    {cmp : Comparison} (hscanned : Scanned seen timings cmp) (hsettled : Settled rest cmp)
    (id : ClientId) :
    (cmp.client id).matched = (places id (seen ++ rest) timings).length ∧
      (cmp.client id).tim.length =
        (timingCodes id timings).length - (places id (seen ++ rest) timings).length ∧
      (cmp.client id).pairs = ((places id (seen ++ rest) timings).filterMap
        fun place => (captureSources id (seen ++ rest))[place]?).zip
          (timingSources id timings) := by
  obtain ⟨moreEntries, hmore, hend⟩ : ∃ moreEntries,
      queuedEvents id (seen ++ rest) = queuedEvents id seen ++ moreEntries ∧
        (moreEntries = [] ∨ (cmp.client id).tim = []) := by
    cases heof : cmp.captureEof with
    | true =>
        refine ⟨[], ?_, .inl rfl⟩
        rw [hsettled.ended heof, List.append_nil, List.append_nil]
    | false =>
        obtain ⟨moreEntries, hmore⟩ :=
          queuedEvents_isPrefix id (List.prefix_append seen rest)
        exact ⟨moreEntries, hmore.symm, .inr (hsettled.paired heof id)⟩
  have hscan := (hscanned.tracks id).scan_all (hscanned.drained id) hend
  obtain ⟨hpairs, htim⟩ := scan_eq_leftmost (queuedEvents id (seen ++ rest))
    (queuedTimings id timings)
  rw [hmore, hscan, ← hmore, map_code_queuedEvents, map_code_queuedTimings] at hpairs htim
  have hlength := length_scan (queuedEvents id (seen ++ rest)) (queuedTimings id timings)
  rw [hmore, hscan, ← hmore, map_code_queuedEvents, map_code_queuedTimings] at hlength
  refine ⟨(hscanned.tracks id).matched.trans hlength, ?_, hpairs⟩
  dsimp only at htim
  rw [htim, List.length_drop, ← map_code_queuedTimings, List.length_map, places,
    map_code_queuedTimings]

theorem sum_keys {timings : List TimingData} {cmp : Comparison}
    (hknown : ∀ t ∈ timings, t.id ∈ cmp.clients) (count : ClientId → ℕ)
    (hcount : ∀ id, id ∉ timings.map TimingData.id → count id = 0) :
    ((cmp.clients.keys.mergeSort fun a b => a ≤ b).map count).sum =
      ∑ id ∈ (timings.map TimingData.id).toFinset, count id := by
  have hperm := List.mergeSort_perm cmp.clients.keys fun a b => decide (a ≤ b)
  have hsubset : (timings.map TimingData.id).toFinset ⊆ cmp.clients.keys.toFinset := by
    intro id hid
    obtain ⟨t, ht, heq⟩ := List.mem_map.mp (List.mem_toFinset.mp hid)
    rw [← heq]
    exact List.mem_toFinset.mpr (AList.mem_keys.mp (hknown t ht))
  calc ((cmp.clients.keys.mergeSort fun a b => a ≤ b).map count).sum
      = (cmp.clients.keys.map count).sum := (hperm.map count).sum_eq
    _ = ∑ id ∈ cmp.clients.keys.toFinset, count id :=
        (List.sum_toFinset _ cmp.clients.keys_nodup).symm
    _ = ∑ id ∈ (timings.map TimingData.id).toFinset, count id := by
        apply (Finset.sum_subset hsubset _).symm
        exact fun id _ hid => hcount id fun hmem => hid (List.mem_toFinset.mpr hmem)

/-- The pairs of a client are the leftmost embedding of the longest beginning of its
timings that embeds in its captured types.  The places depend on the records of the
client alone, in whatever way the files interleave the clients. -/
theorem compare_leftmost (msgs : List CaptureMessage) (timings : List TimingData) :
    ∃ report, Compare.compare (msgs.map .ok) (timings.map .ok) = .ok report ∧
      (∀ id,
        IsLeftmost (captureCodes id msgs) (timingCodes id timings) (places id msgs timings) ∧
        (report.comparison.client id).matched = (places id msgs timings).length ∧
        (report.comparison.client id).tim.length =
          (timingCodes id timings).length - (places id msgs timings).length ∧
        (report.comparison.client id).pairs = ((places id msgs timings).filterMap
          fun place => (captureSources id msgs)[place]?).zip (timingSources id timings)) ∧
      report.matched =
        ∑ id ∈ (timings.map TimingData.id).toFinset, (places id msgs timings).length ∧
      report.unmatched = ∑ id ∈ (timings.map TimingData.id).toFinset,
        ((timingCodes id timings).length - (places id msgs timings).length) ∧
      ∀ id msgs' timings',
        (msgs'.filter fun msg => msg.id = id) = (msgs.filter fun msg => msg.id = id) →
          (timings'.filter fun t => t.id = id) = (timings.filter fun t => t.id = id) →
            places id msgs' timings' = places id msgs timings := by
  obtain ⟨seen, rest, cmp, hloop, hsplit, hscanned, hsettled⟩ : ∃ seen rest cmp,
      compareLoop (timings.map .ok) (msgs.map .ok) .new = .ok cmp ∧ seen ++ rest = msgs ∧
        Scanned seen timings cmp ∧ Settled rest cmp :=
    compareLoop_scanned scanned_new ⟨nofun, fun _ _ => rfl⟩
  have hclients := client_of_scanned hscanned hsettled
  rw [hsplit] at hclients
  obtain ⟨hafter, hmatched, hunmatched⟩ := foldl_addClient_of_drained hscanned.drained
    (cmp.clients.keys.mergeSort fun a b => a ≤ b) { comparison := cmp } fun _ => rfl
  refine ⟨cmp.report, ?_, fun id => ?_, ?_, ?_, fun id msgs' timings' hmsgs htimings => ?_⟩
  · rw [Compare.compare, hloop]
  · rw [Comparison.report, hafter]
    exact ⟨leftmost_isLeftmost _ _, hclients id⟩
  · rw [Comparison.report, hmatched, Nat.zero_add, sum_keys hscanned.known]
    · exact Finset.sum_congr rfl fun id _ => (hclients id).1
    · intro id hid
      rw [(hclients id).1, (places_of_not_mem hid msgs).2]
      rfl
  · rw [Comparison.report, hunmatched, Nat.zero_add, sum_keys hscanned.known]
    · exact Finset.sum_congr rfl fun id _ => (hclients id).2.1
    · intro id hid
      rw [(hclients id).2.1, (places_of_not_mem hid msgs).1]
      exact Nat.zero_sub _
  · rw [places, places, captureCodes, timingCodes, hmsgs, htimings]
    rfl

end Pgr.CompareLeftmost
