import Pgr.Analysis.Merge

/-!
# Exactness of the merge

What a client has queued when a part of the capture is read is told by that part
alone: its numbered events with offsets, from the last trace record on.  So the
row that `on_trace` finds is the row of the record's event, whatever the clients'
events are interleaved with.
-/

namespace Pgr.MergeExact

open Pgr.Capture Pgr.Storage Pgr.Analyzer Pgr.Chunks Pgr.Merge

/-! ## Stored events -/

section Stored

variable (hashText : String → UInt64) {id : ClientId} {capture : List CaptureMessage}

/-- The stored events of a part of the capture, the latest first. -/
def storedPast (seen : List CaptureMessage) : List StoredEvent :=
  (storeAll hashText seen.reverse).1

/-- The storage behind a part of the capture. -/
def storedWriter (seen : List CaptureMessage) : StorageWriter :=
  (storeAll hashText seen.reverse).2

/-- The next message and its offsets. -/
def storeNext (seen : List CaptureMessage) (msg : CaptureMessage) :
    Option (ℕ × ℕ) × StorageWriter :=
  store hashText (storedPast hashText seen) msg (storedWriter hashText seen)

theorem storedPast_concat (seen : List CaptureMessage) (msg : CaptureMessage) :
    storedPast hashText (seen ++ [msg]) =
      ⟨msg, (storeNext hashText seen msg).1⟩ :: storedPast hashText seen := by
  rw [storedPast, List.reverse_concat]
  rfl

theorem storedWriter_concat (seen : List CaptureMessage) (msg : CaptureMessage) :
    storedWriter hashText (seen ++ [msg]) = (storeNext hashText seen msg).2 := by
  rw [storedWriter, List.reverse_concat]
  rfl

theorem storedOwn_concat (seen : List CaptureMessage) (msg : CaptureMessage) :
    storedOwn hashText id (seen ++ [msg]) =
      storedOwn hashText id seen ++
        if msg.id = id then [⟨msg, (storeNext hashText seen msg).1⟩] else [] := by
  have hpast := storedPast_concat hashText seen msg
  rw [storedPast, storedPast] at hpast
  rw [storedOwn, hpast, storedOwn]
  by_cases hid : msg.id = id <;> simp [hid]

theorem map_storedOwn (seen : List CaptureMessage) :
    (storedOwn hashText id seen).map StoredEvent.msg = own id seen := by
  induction seen using List.reverseRecOn with
  | nil => rfl
  | append_singleton seen msg ih =>
      rw [storedOwn_concat, List.map_append, ih, own, own, List.filter_append]
      by_cases hid : msg.id = id <;> simp [hid]

theorem storedOwn_isPrefix {seen : List CaptureMessage} (hinitial : seen <+: capture) :
    storedOwn hashText id seen <+: storedOwn hashText id capture := by
  obtain ⟨rest, rfl⟩ := hinitial
  induction rest using List.reverseRecOn with
  | nil => rw [List.append_nil]
  | append_singleton rest msg ih =>
      rw [← List.append_assoc, storedOwn_concat]
      exact ih.trans (List.prefix_append ..)

theorem isSome_store_of_parses (past : List StoredEvent) {msg : CaptureMessage}
    (writer : StorageWriter) {statement : String} (hparses : parses statement msg.event) :
    (store hashText past msg writer).1.isSome := by
  cases hevent : msg.event <;> simp [hevent, parses] at hparses
  simp [store, hevent]

/-- A statement has an offset when the client has parsed it. -/
theorem isSome_findSome?_parseOffset (statement : String) (past : List CaptureMessage) :
    ((storeAll hashText past).1.findSome? (parseOffset id statement)).isSome =
      (own id past).any fun msg => parses statement msg.event := by
  induction past with
  | nil => rfl
  | cons msg past ih =>
      rw [own] at ih
      rw [storeAll, List.findSome?_cons, own, List.filter_cons]
      by_cases hid : msg.id = id
      · by_cases hparses : parses statement msg.event
        · have hsome := isSome_store_of_parses hashText (storeAll hashText past).1
            (storeAll hashText past).2 hparses
          obtain ⟨offsets, hoffsets⟩ := Option.isSome_iff_exists.mp hsome
          simp [parseOffset, hid, hparses, hoffsets]
        · simp [parseOffset, hid, hparses, ih]
      · simp [parseOffset, hid, ih]

theorem isSome_store_bind (past : List CaptureMessage) {msg : CaptureMessage}
    {portal statement : String} {resultFormats : List UInt16} {params : List BindParam}
    (hevent : msg.event = .bind portal statement resultFormats params) :
    (store hashText (storeAll hashText past).1 msg (storeAll hashText past).2).1.isSome =
      (own msg.id past).any fun earlier => parses statement earlier.event := by
  rw [← isSome_findSome?_parseOffset hashText]
  simp only [store, hevent]
  cases (storeAll hashText past).1.findSome? (parseOffset msg.id statement) <;> rfl

/-- A portal has offsets when the client has bound it to a statement it has parsed. -/
theorem isSome_findSome?_bindOffsets (portal : String) (past : List CaptureMessage) :
    ((storeAll hashText past).1.findSome? (bindOffsets id portal)).isSome =
      bound portal (own id past) := by
  induction past with
  | nil => rfl
  | cons msg past ih =>
      rw [own] at ih
      rw [storeAll, List.findSome?_cons, own, List.filter_cons]
      by_cases hid : msg.id = id
      · cases hevent : msg.event with
        | bind name statement resultFormats params =>
            have hsome := isSome_store_bind hashText past hevent
            rw [own, hid] at hsome
            by_cases hname : name = portal
            · cases hoffsets : (store hashText (storeAll hashText past).1 msg
                (storeAll hashText past).2).1 with
              | none =>
                  rw [hoffsets] at hsome
                  simp [bindOffsets, hid, binds, hevent, hname, ih, bound, ← hsome]
              | some offsets =>
                  rw [hoffsets] at hsome
                  simp [bindOffsets, hid, binds, hevent, hname, bound, ← hsome]
            · simp [bindOffsets, hid, binds, hevent, hname, ih, bound]
        | simpleQuery | parse | execute | sync | close | disconnect | lsn | txEnd | connect =>
            simp [bindOffsets, hid, binds, hevent, ih, bound]
      · simp [bindOffsets, hid, ih]

/-- An event has offsets exactly when it resolves. -/
theorem isSome_storeNext (seen : List CaptureMessage) (msg : CaptureMessage) :
    (storeNext hashText seen msg).1.isSome = resolves (own msg.id seen).reverse msg.event := by
  have hown : (own msg.id seen).reverse = own msg.id seen.reverse := by
    rw [own, own, List.filter_reverse]
  rw [hown]
  cases hevent : msg.event with
  | bind portal statement resultFormats params =>
      rw [storeNext, storedPast, storedWriter, isSome_store_bind hashText _ hevent, resolves]
  | execute portal maxRows =>
      rw [resolves, ← isSome_findSome?_bindOffsets hashText]
      simp [storeNext, store, hevent, storedPast]
  | simpleQuery | parse | sync | close | disconnect | lsn | txEnd | connect =>
      simp [storeNext, store, hevent, resolves]

theorem isSome_offsets_storedOwn {i : ℕ} {stored : StoredEvent}
    (hstored : (storedOwn hashText id capture)[i]? = some stored) :
    stored.offsets.isSome = resolves ((own id capture).take i).reverse stored.msg.event := by
  induction capture using List.reverseRecOn with
  | nil => simp [storedOwn, storeAll] at hstored
  | append_singleton seen msg ih =>
      have hlength : (storedOwn hashText id seen).length = (own id seen).length := by
        rw [← map_storedOwn hashText, List.length_map]
      rw [storedOwn_concat] at hstored
      rcases lt_or_ge i (storedOwn hashText id seen).length with hi | hi
      · rw [List.getElem?_append_left hi] at hstored
        rw [own, List.filter_append, List.take_append_of_le_length (by rw [← own]; omega)]
        exact ih hstored
      · rw [List.getElem?_append_right hi] at hstored
        by_cases hid : msg.id = id
        · rw [if_pos hid] at hstored
          obtain ⟨hlast, -⟩ := List.getElem?_eq_some_iff.mp hstored
          obtain rfl := List.mem_singleton.mp (List.mem_of_getElem? hstored)
          have hi : i = (own id seen).length := by
            rw [List.length_singleton] at hlast
            omega
          have htake : (own id (seen ++ [msg])).take i = own id seen := by
            rw [own, List.filter_append, hi]
            exact List.take_left
          rw [htake, ← hid]
          exact isSome_storeNext hashText seen msg
        · simp [hid] at hstored

end Stored

/-! ## Queues of rows -/

/-- The queue only loses what is older than the trace record. -/
theorem popQueries_eq (frameIndex : UInt32) {queries : List QueryInfo}
    (hqueries : queries.Pairwise fun first second => first.index < second.index) :
    popQueries frameIndex queries =
      (queries.filter fun info => frameIndex ≤ info.index,
        queries.find? fun info => info.index = frameIndex) := by
  induction queries with
  | nil => rfl
  | cons info queries ih =>
      obtain ⟨hlater, htail⟩ := List.pairwise_cons.mp hqueries
      simp only [UInt32.lt_iff_toNat_lt] at hlater
      have hkeep (hle : frameIndex.toNat ≤ info.index.toNat) :
          (info :: queries).filter (fun info => frameIndex ≤ info.index) = info :: queries := by
        apply List.filter_eq_self.mpr
        intro other hother
        rw [decide_eq_true_eq, UInt32.le_iff_toNat_le]
        rcases List.mem_cons.mp hother with rfl | hmem
        · exact hle
        · exact hle.trans (hlater other hmem).le
      simp only [popQueries, gt_iff_lt, UInt32.lt_iff_toNat_lt]
      rcases lt_trichotomy info.index.toNat frameIndex.toNat with hlt | heq | hgt
      · have hdrop : ¬frameIndex ≤ info.index := by
          rw [UInt32.le_iff_toNat_le]
          omega
        have hne : info.index ≠ frameIndex := by
          rw [ne_eq, ← UInt32.toNat_inj]
          omega
        rw [if_pos hlt, ih htail, List.filter_cons_of_neg (by simpa using hdrop),
          List.find?_cons_of_neg (by simpa using hne)]
      · rw [if_neg heq.not_lt, if_neg heq.not_gt, hkeep heq.ge,
          List.find?_cons_of_pos (by simpa using UInt32.toNat_inj.mp heq)]
      · have hnone : (info :: queries).find? (fun info => info.index = frameIndex) = none := by
          apply List.find?_eq_none.mpr
          intro other hother
          rw [decide_eq_true_eq, ← UInt32.toNat_inj]
          rcases List.mem_cons.mp hother with rfl | hmem
          · exact hgt.ne'
          · exact (hgt.trans (hlater other hmem)).ne'
        rw [if_neg hgt.not_gt, if_pos hgt, hkeep hgt.le, hnone]

section Queued

variable (startTs : UInt64)

/-- The entry of an event's number and offsets. -/
def queryInfo (k : ℕ) (stored : StoredEvent) (offsets : ℕ × ℕ) : QueryInfo :=
  ⟨UInt32.ofNat k, offsets.1, offsets.2, saturatingSub stored.msg.ts startTs⟩

/-- The entries of events that are numbered from `start` on. -/
def queryInfos (start : ℕ) (events : List StoredEvent) : List QueryInfo :=
  (events.zipIdx start).filterMap fun stored =>
    stored.1.offsets.map (queryInfo startTs stored.2 stored.1)

variable {startTs} {start k : ℕ} {events : List StoredEvent}

theorem le_index_of_mem_queryInfos (hrange : start + events.length ≤ 2 ^ 32) {info : QueryInfo}
    (hinfo : info ∈ queryInfos startTs start events) : start ≤ info.index.toNat := by
  obtain ⟨⟨stored, i⟩, hmem, hoffsets⟩ := List.mem_filterMap.mp hinfo
  obtain ⟨offsets, -, rfl⟩ := Option.map_eq_some_iff.mp hoffsets
  obtain ⟨hle, hlt, -⟩ := List.mem_zipIdx hmem
  have hi : (UInt32.ofNat i).toNat = i := by
    simpa using Nat.mod_eq_of_lt (by omega : i < 2 ^ 32)
  rw [queryInfo, hi]
  exact hle

theorem queryInfos_cons (start : ℕ) (stored : StoredEvent) (events : List StoredEvent) :
    queryInfos startTs start (stored :: events) =
      (stored.offsets.map (queryInfo startTs start stored)).toList ++
        queryInfos startTs (start + 1) events := by
  rw [queryInfos, List.zipIdx_cons, List.filterMap_cons, queryInfos]
  cases stored.offsets <;> rfl

theorem pairwise_queryInfos (hrange : start + events.length ≤ 2 ^ 32) :
    (queryInfos startTs start events).Pairwise fun first second =>
      first.index < second.index := by
  induction events generalizing start with
  | nil => exact List.Pairwise.nil
  | cons stored events ih =>
      rw [List.length_cons] at hrange
      have htail := @ih (start + 1) (by omega)
      rw [queryInfos_cons]
      cases stored.offsets with
      | none => exact htail
      | some offsets =>
          refine List.pairwise_cons.mpr ⟨fun info hinfo => ?_, htail⟩
          have hlater := le_index_of_mem_queryInfos (by omega) hinfo
          have hstart : (UInt32.ofNat start).toNat = start := by
            simpa using Nat.mod_eq_of_lt (by omega : start < 2 ^ 32)
          rw [UInt32.lt_iff_toNat_lt, queryInfo, hstart]
          omega

/-- The entry with index `k` is that of the `k`-th event. -/
theorem find?_queryInfos (startTs : UInt64) (hrange : start + events.length ≤ 2 ^ 32) (hstart : start ≤ k)
    (hk : k < 2 ^ 32) :
    ((queryInfos startTs start events).find? fun info => info.index = UInt32.ofNat k) =
      events[k - start]?.bind fun stored => stored.offsets.map (queryInfo startTs k stored) := by
  induction events generalizing start with
  | nil => simp [queryInfos]
  | cons stored events ih =>
      rw [List.length_cons] at hrange
      rw [queryInfos_cons, List.find?_append]
      rcases hstart.eq_or_lt with rfl | hlt
      · have hnone : ((queryInfos startTs (start + 1) events).find? fun info =>
            info.index = UInt32.ofNat start) = none := by
          apply List.find?_eq_none.mpr
          intro info hinfo
          have hlater := le_index_of_mem_queryInfos (by omega) hinfo
          have hindex : (UInt32.ofNat start).toNat = start := by
            simpa using Nat.mod_eq_of_lt hk
          simp only [decide_eq_true_eq]
          intro heq
          rw [heq, hindex] at hlater
          omega
        rw [hnone]
        cases hoffsets : stored.offsets <;> simp [hoffsets, queryInfo]
      · have hskip : ((stored.offsets.map (queryInfo startTs start stored)).toList.find?
            fun info => info.index = UInt32.ofNat k) = none := by
          apply List.find?_eq_none.mpr
          intro info hinfo
          obtain ⟨offsets, -, rfl⟩ := Option.map_eq_some_iff.mp (Option.mem_toList.mp hinfo)
          have hne : start % 2 ^ 32 ≠ k % 2 ^ 32 := by
            rw [Nat.mod_eq_of_lt (by omega), Nat.mod_eq_of_lt hk]
            omega
          simpa [queryInfo, ← UInt32.toNat_inj] using hne
        have hindex : k - start = k - (start + 1) + 1 := by omega
        rw [hskip, Option.none_or, ih (by omega) hlt, hindex, List.getElem?_cons_succ]

end Queued

/-! ## A client behind a part of the capture -/

section Tracks

variable {hashText : String → UInt64} {startTs : UInt64} {id : ClientId}
  {seen : List CaptureMessage} {msg : CaptureMessage} {low : UInt32} {client : AnalyzeClient}

theorem numbered_concat (id : ClientId) (seen : List CaptureMessage) (msg : CaptureMessage) :
    numbered id (seen ++ [msg]) =
      numbered id seen + if msg.id = id ∧ isNumbered msg.event then 1 else 0 := by
  rw [numbered, List.countP_append, List.countP_singleton]
  simp [numbered]

/-- The numbered events of a client, stored. -/
def storedNumbered (hashText : String → UInt64) (id : ClientId) (seen : List CaptureMessage) :
    List StoredEvent :=
  (storedOwn hashText id seen).filter fun stored => isNumbered stored.msg.event

theorem storedNumbered_concat (id : ClientId) (seen : List CaptureMessage)
    (msg : CaptureMessage) :
    storedNumbered hashText id (seen ++ [msg]) =
      storedNumbered hashText id seen ++
        if msg.id = id ∧ isNumbered msg.event then [⟨msg, (storeNext hashText seen msg).1⟩]
        else [] := by
  rw [storedNumbered, storedOwn_concat, List.filter_append]
  by_cases hid : msg.id = id <;> by_cases hnumbered : isNumbered msg.event <;>
    simp [storedNumbered, hid, hnumbered]

theorem length_storedNumbered (id : ClientId) (seen : List CaptureMessage) :
    (storedNumbered hashText id seen).length = numbered id seen := by
  induction seen using List.reverseRecOn with
  | nil => rfl
  | append_singleton seen msg ih =>
      rw [storedNumbered_concat, numbered_concat, List.length_append, ih]
      split_ifs <;> rfl

/-- All entries of a client behind a part of the capture. -/
def queued (hashText : String → UInt64) (startTs : UInt64) (id : ClientId)
    (seen : List CaptureMessage) : List QueryInfo :=
  queryInfos startTs 1 (storedNumbered hashText id seen)

theorem queued_concat (id : ClientId) (seen : List CaptureMessage) (msg : CaptureMessage) :
    queued hashText startTs id (seen ++ [msg]) =
      queued hashText startTs id seen ++
        if msg.id = id ∧ isNumbered msg.event then
          ((storeNext hashText seen msg).1.map (queryInfo startTs (numbered id seen + 1)
            ⟨msg, (storeNext hashText seen msg).1⟩)).toList
        else [] := by
  have happend (first second : List StoredEvent) : queryInfos startTs 1 (first ++ second) =
      queryInfos startTs 1 first ++ queryInfos startTs (1 + first.length) second := by
    rw [queryInfos, List.zipIdx_append, List.filterMap_append]
    rfl
  rw [queued, storedNumbered_concat, happend, length_storedNumbered, Nat.add_comm 1]
  split_ifs
  · rw [queryInfos_cons]
    simp [queued, queryInfos]
  · rfl

/-- What the client of the analyzer holds behind `seen`, when the records before the
frame `low` are gone from its queue. -/
structure Tracks (hashText : String → UInt64) (startTs : UInt64) (seen : List CaptureMessage)
    (id : ClientId) (low : UInt32) (client : AnalyzeClient) : Prop where
  id_eq : client.id = id
  startTs_eq : client.startTs = startTs
  frameIndex : client.frameIndex = UInt32.ofNat (numbered id seen)
  statements : ∀ name, client.statements.lookup name =
    (storedPast hashText seen).findSome? (parseOffset id name)
  portals : ∀ portal, client.portals.lookup portal =
    (storedPast hashText seen).findSome? (bindOffsets id portal)
  queries : client.queries =
    (queued hashText startTs id seen).filter fun info => low ≤ info.index
  low_le : low.toNat ≤ numbered id seen

theorem tracks_new (id : ClientId) :
    Tracks hashText startTs [] id 0 (AnalyzeClient.new id startTs) where
  id_eq := rfl
  startTs_eq := rfl
  frameIndex := rfl
  statements _ := rfl
  portals _ := rfl
  queries := rfl
  low_le := Nat.zero_le _

/-- An event of another client. -/
theorem Tracks.skip (htracks : Tracks hashText startTs seen id low client) (hid : msg.id ≠ id) :
    Tracks hashText startTs (seen ++ [msg]) id low client where
  id_eq := htracks.id_eq
  startTs_eq := htracks.startTs_eq
  frameIndex := by simpa [numbered_concat, hid] using htracks.frameIndex
  statements name := by
    rw [htracks.statements, storedPast_concat]
    simp [parseOffset, hid]
  portals portal := by
    rw [htracks.portals, storedPast_concat]
    simp [bindOffsets, hid]
  queries := by simpa [queued_concat, hid] using htracks.queries
  low_le := by simpa [numbered_concat, hid] using htracks.low_le

/-- `on_capture` stores the event and queues its entry. -/
theorem onCapture_eq (htracks : Tracks hashText startTs seen msg.id low client) :
    let offsets := (storeNext hashText seen msg).1
    let after := onCapture hashText msg client (storedWriter hashText seen)
    after.2 = (storeNext hashText seen msg).2 ∧
      after.1.id = client.id ∧ after.1.startTs = client.startTs ∧
      after.1.queries = client.queries ++ (offsets.map fun offsets =>
        ⟨client.frameIndex + 1, offsets.1, offsets.2, saturatingSub msg.ts client.startTs⟩).toList ∧
      (∀ name, after.1.statements.lookup name =
        if parses name msg.event then offsets.map Prod.fst else client.statements.lookup name) ∧
      ∀ portal, after.1.portals.lookup portal =
        if binds portal msg.event then offsets.or (client.portals.lookup portal)
        else client.portals.lookup portal := by
  cases hevent : msg.event with
  | simpleQuery text =>
      simp [onCapture, storeNext, store, hevent, parses, binds]
  | parse name query paramTypes =>
      simp only [onCapture, storeNext, store, hevent, parses, binds, true_and]
      refine ⟨rfl, fun other => ?_, fun _ => rfl⟩
      by_cases hother : name = other
      · rw [hother, AList.lookup_insert]
        simp
      · rw [AList.lookup_insert_ne (Ne.symm hother)]
        simp [hother]
  | bind portal statement resultFormats params =>
      have hstatement := htracks.statements statement
      simp only [onCapture, storeNext, store, hevent, parses, binds, hstatement]
      cases (storedPast hashText seen).findSome? (parseOffset msg.id statement) with
      | none => simp
      | some offset =>
          refine ⟨rfl, rfl, rfl, rfl, fun _ => by simp, fun other => ?_⟩
          by_cases hother : portal = other
          · simp [hother]
          · simp [AList.lookup_insert_ne (Ne.symm hother), hother]
  | execute portal maxRows =>
      have hportal := htracks.portals portal
      simp only [onCapture, storeNext, store, hevent, parses, binds, hportal]
      cases (storedPast hashText seen).findSome? (bindOffsets msg.id portal) <;> simp
  | sync | close | disconnect | lsn | txEnd | connect =>
      simp [onCapture, storeNext, store, hevent, parses, binds]

theorem storeNext_of_not_isNumbered (hnumbered : isNumbered msg.event = false) :
    (storeNext hashText seen msg).1 = none := by
  cases hevent : msg.event <;> simp [hevent, isNumbered] at hnumbered <;>
    simp [storeNext, store, hevent]

/-- An event of the client that its frame index can still count. -/
theorem Tracks.onCapture (htracks : Tracks hashText startTs seen msg.id low client)
    (hrange : numbered msg.id (seen ++ [msg]) < 2 ^ 32) :
    Tracks hashText startTs (seen ++ [msg]) msg.id low
      (onCapture hashText msg client (storedWriter hashText seen)).1 := by
  obtain ⟨-, hid, hstart, hqueries, hstatements, hportals⟩ := onCapture_eq htracks
  have hcount := numbered_concat msg.id seen msg
  constructor
  · exact hid.trans htracks.id_eq
  · exact hstart.trans htracks.startTs_eq
  · rw [frameIndex_onCapture, htracks.frameIndex, hcount]
    by_cases hnumbered : isNumbered msg.event <;> simp [hnumbered]
  · intro name
    rw [hstatements, htracks.statements, storedPast_concat, List.findSome?_cons]
    by_cases hparses : parses name msg.event
    · have hsome := isSome_store_of_parses hashText (storedPast hashText seen)
        (storedWriter hashText seen) hparses
      obtain ⟨offsets, hoffsets⟩ := Option.isSome_iff_exists.mp hsome
      simp [parseOffset, hparses, storeNext, hoffsets]
    · simp [parseOffset, hparses]
  · intro portal
    rw [hportals, htracks.portals, storedPast_concat, List.findSome?_cons]
    by_cases hbinds : binds portal msg.event
    · cases (storeNext hashText seen msg).1 <;> simp [bindOffsets, hbinds]
    · simp [bindOffsets, hbinds]
  · rw [hqueries, htracks.queries, queued_concat, List.filter_append]
    congr 1
    by_cases hnumbered : isNumbered msg.event
    · have hindex : client.frameIndex + 1 = UInt32.ofNat (numbered msg.id seen + 1) := by
        rw [htracks.frameIndex, UInt32.ofNat_add]
        rfl
      have hlow : low ≤ UInt32.ofNat (numbered msg.id seen + 1) := by
        have hle := htracks.low_le
        rw [hcount] at hrange
        rw [UInt32.le_iff_toNat_le, UInt32.toNat_ofNat', Nat.mod_eq_of_lt]
        · omega
        · simpa [hnumbered] using hrange
      rw [hindex, htracks.startTs_eq, if_pos ⟨rfl, hnumbered⟩]
      cases (storeNext hashText seen msg).1 with
      | none => rfl
      | some offsets =>
          symm
          apply List.filter_eq_self.mpr
          intro info hinfo
          rw [List.mem_singleton.mp hinfo]
          exact decide_eq_true hlow
    · rw [storeNext_of_not_isNumbered (by simpa using hnumbered)]
      simp
  · rw [hcount]
    exact htracks.low_le.trans (Nat.le_add_right ..)

end Tracks

/-! ## The row of a trace record -/

section Rows

variable (tsSecs : UInt64 → UInt32) (durationMs : UInt32 → UInt32)
  (hashText : String → UInt64) (startTs : UInt64)

/-- The row of the `k`-th numbered event of the client, when that has offsets. -/
def numberedRow (trace : TraceData) (events : List StoredEvent) : Option TraceRow :=
  events[trace.frameIndex.toNat - 1]?.bind fun stored => stored.offsets.map fun offsets =>
    traceRow tsSecs durationMs trace (queryInfo startTs trace.frameIndex.toNat stored offsets)
      trace.id

theorem expectedRow_eq (capture : List CaptureMessage) (trace : TraceData) :
    expectedRow tsSecs durationMs hashText startTs capture trace =
      numberedRow tsSecs durationMs startTs trace (storedNumbered hashText trace.id capture) := by
  have hown : (own trace.id capture).zipIdx.filter (fun msg => isNumbered msg.1.event) =
      ((storedOwn hashText trace.id capture).zipIdx.filter fun stored =>
        isNumbered stored.1.msg.event).map (Prod.map StoredEvent.msg id) := by
    rw [← map_storedOwn hashText, List.zipIdx_map, List.filter_map]
    rfl
  have hstored : storedNumbered hashText trace.id capture =
      ((storedOwn hashText trace.id capture).zipIdx.filter fun stored =>
        isNumbered stored.1.msg.event).map Prod.fst := by
    have hall : (storedOwn hashText trace.id capture).zipIdx.map Prod.fst =
        storedOwn hashText trace.id capture := List.zipIdx_map_fst ..
    rw [storedNumbered, ← hall, List.filter_map, hall]
    rfl
  rw [expectedRow, attributed, kthNumbered, hown, List.getElem?_map, numberedRow, hstored,
    List.getElem?_map]
  cases hkth : ((storedOwn hashText trace.id capture).zipIdx.filter fun stored =>
      isNumbered stored.1.msg.event)[trace.frameIndex.toNat - 1]? with
  | none => rfl
  | some entry =>
      obtain ⟨stored, place⟩ := entry
      have hmem := (List.mem_filter.mp (List.mem_of_getElem? hkth)).1
      have hplace : (storedOwn hashText trace.id capture)[place]? = some stored :=
        List.mk_mem_zipIdx_iff_getElem?.mp hmem
      have hmsg : (own trace.id capture)[place]? = some stored.msg := by
        rw [← map_storedOwn hashText, List.getElem?_map, hplace]
        rfl
      have hresolves := isSome_offsets_storedOwn hashText hplace
      cases hoffsets : stored.offsets with
      | none =>
          rw [hoffsets] at hresolves
          simp [hmsg, ← hresolves, hoffsets]
      | some offsets =>
          rw [hoffsets] at hresolves
          simp [hmsg, hplace, ← hresolves, hoffsets, traceRow, queryInfo]

theorem numbered_mono {id : ClientId} {seen capture : List CaptureMessage}
    (hinitial : seen <+: capture) : numbered id seen ≤ numbered id capture :=
  hinitial.sublist.countP_le

theorem storedNumbered_isPrefix (id : ClientId) {seen capture : List CaptureMessage}
    (hinitial : seen <+: capture) :
    storedNumbered hashText id seen <+: storedNumbered hashText id capture :=
  (storedOwn_isPrefix hashText hinitial).filter _

variable {hashText startTs} {seen capture : List CaptureMessage} {trace : TraceData} {low : UInt32}
  {client : AnalyzeClient}

/-- The row of a record is known once its event has been read. -/
theorem expectedRow_of_isPrefix (hinitial : seen <+: capture) (hfirst : 1 ≤ trace.frameIndex.toNat)
    (hread : trace.frameIndex.toNat ≤ numbered trace.id seen) :
    expectedRow tsSecs durationMs hashText startTs capture trace =
      expectedRow tsSecs durationMs hashText startTs seen trace := by
  have hlt : trace.frameIndex.toNat - 1 < (storedNumbered hashText trace.id seen).length := by
    rw [length_storedNumbered]
    omega
  obtain ⟨later, hlater⟩ := storedNumbered_isPrefix hashText trace.id hinitial
  rw [expectedRow_eq, expectedRow_eq, numberedRow, numberedRow, ← hlater,
    List.getElem?_append_left hlt]

theorem expectedRow_of_lt (hlt : numbered trace.id capture < trace.frameIndex.toNat) :
    expectedRow tsSecs durationMs hashText startTs capture trace = none := by
  have hnone : (storedNumbered hashText trace.id capture)[trace.frameIndex.toNat - 1]? = none := by
    apply List.getElem?_eq_none
    rw [length_storedNumbered]
    omega
  rw [expectedRow_eq, numberedRow, hnone]
  rfl

/-- `on_trace` finds the row of the record in the queue of its client. -/
theorem onTrace_eq (htracks : Tracks hashText startTs seen trace.id low client)
    (hlow : low ≤ trace.frameIndex) (hfirst : 1 ≤ trace.frameIndex.toNat)
    (hrange : numbered trace.id seen < 2 ^ 32) (rows : List TraceRow) :
    onTrace tsSecs durationMs trace client rows =
      ({ client with
          queries := (queued hashText startTs trace.id seen).filter fun info =>
            trace.frameIndex ≤ info.index },
        rows ++ (expectedRow tsSecs durationMs hashText startTs seen trace).toList) := by
  have hlength : 1 + (storedNumbered hashText trace.id seen).length ≤ 2 ^ 32 := by
    rw [length_storedNumbered]
    omega
  have hsorted : (queued hashText startTs trace.id seen).Pairwise fun first second =>
      first.index < second.index := pairwise_queryInfos hlength
  have hkept : (fun info : QueryInfo =>
      decide (trace.frameIndex ≤ info.index) && decide (low ≤ info.index)) =
        fun info => decide (trace.frameIndex ≤ info.index) := by
    funext info
    by_cases hle : trace.frameIndex ≤ info.index
    · simp [hle, UInt32.le_trans hlow hle]
    · simp [hle]
  have hfound : (fun info : QueryInfo =>
      decide (decide (low ≤ info.index) = true ∧ decide (info.index = trace.frameIndex) = true)) =
        fun info => decide (info.index = trace.frameIndex) := by
    funext info
    by_cases heq : info.index = trace.frameIndex
    · simp [heq, hlow]
    · simp [heq]
  have hinfo : ((queued hashText startTs trace.id seen).find? fun info =>
        info.index = trace.frameIndex) =
      (storedNumbered hashText trace.id seen)[trace.frameIndex.toNat - 1]?.bind fun stored =>
        stored.offsets.map (queryInfo startTs trace.frameIndex.toNat stored) := by
    have hfind := find?_queryInfos startTs hlength hfirst trace.frameIndex.toNat_lt
    rwa [UInt32.ofNat_toNat] at hfind
  rw [onTrace, htracks.queries, popQueries_eq _ (hsorted.filter _), List.filter_filter, hkept,
    List.find?_filter, hfound, hinfo, htracks.id_eq, expectedRow_eq, numberedRow]
  simp [Option.map_bind, Function.comp_def]

theorem Tracks.onTrace (htracks : Tracks hashText startTs seen trace.id low client)
    (hread : trace.frameIndex.toNat ≤ numbered trace.id seen) :
    Tracks hashText startTs seen trace.id trace.frameIndex
      { client with
        queries := (queued hashText startTs trace.id seen).filter fun info =>
          trace.frameIndex ≤ info.index } :=
  ⟨htracks.id_eq, htracks.startTs_eq, htracks.frameIndex, htracks.statements, htracks.portals, rfl,
    hread⟩

end Rows

/-! ## The part of the capture that a record needs -/

section Needed

variable {id : ClientId} {k : ℕ} {seen capture : List CaptureMessage}

theorem numbered_cons (id : ClientId) (msg : CaptureMessage) (capture : List CaptureMessage) :
    numbered id (msg :: capture) =
      numbered id capture + if msg.id = id ∧ isNumbered msg.event then 1 else 0 := by
  rw [numbered, List.countP_cons]
  simp [numbered]

theorem needed_isPrefix (id : ClientId) (k : ℕ) (capture : List CaptureMessage) :
    needed id k capture <+: capture := by
  induction capture generalizing k with
  | nil => cases k <;> exact List.nil_prefix
  | cons msg capture ih =>
      cases k with
      | zero => exact List.nil_prefix
      | succ k => exact List.cons_prefix_cons.mpr ⟨rfl, ih _⟩

/-- What lies in front of the `k`-th numbered event is needed. -/
theorem needed_append_of_lt (rest : List CaptureMessage) (hlt : numbered id seen < k) :
    needed id k (seen ++ rest) = seen ++ needed id (k - numbered id seen) rest := by
  induction seen generalizing k with
  | nil => rfl
  | cons msg seen ih =>
      obtain ⟨k, rfl⟩ : ∃ before, k = before + 1 := ⟨k - 1, by omega⟩
      rw [numbered_cons] at hlt ⊢
      rw [List.cons_append, needed]
      split_ifs at hlt ⊢ with hnumbered
      · rw [ih (by omega), Nat.add_sub_add_right]
        rfl
      · rw [ih (by omega)]
        rfl

theorem needed_append_of_le (rest : List CaptureMessage) (hle : k ≤ numbered id seen) :
    needed id k (seen ++ rest) = needed id k seen := by
  induction seen generalizing k with
  | nil =>
      obtain rfl : k = 0 := Nat.le_zero.mp hle
      cases rest <;> rfl
  | cons msg seen ih =>
      cases k with
      | zero => rfl
      | succ k =>
          rw [numbered_cons] at hle
          rw [List.cons_append, needed, needed]
          split_ifs at hle ⊢ with hnumbered
          · rw [ih (by omega)]
          · rw [ih (by omega)]

theorem inRange_of_isPrefix (hrange : InRange capture) (hinitial : seen <+: capture) :
    InRange seen :=
  fun id => (numbered_mono hinitial).trans_lt (hrange id)

end Needed

/-! ## Counters -/

theorem toInt_maxValue : Int32.maxValue.toInt = 2 ^ 31 - 1 := rfl

theorem toInt_add_one {count : Int32} (hcount : count ≠ Int32.maxValue) :
    (count + 1).toInt = count.toInt + 1 := by
  have hlt := count.toInt_lt
  have hle := count.le_toInt
  have hmax : count.toInt ≠ 2 ^ 31 - 1 := fun heq => hcount (Int32.toInt_inj.mp heq)
  rw [Int32.toInt_add]
  simp only [Int32.toInt_one]
  rw [Int.bmod_eq_of_le (by omega) (by omega)]

theorem increment_eq {overflowChecks : Bool} {count : Int32}
    (hcount : ¬(overflowChecks = true ∧ count = Int32.maxValue)) :
    increment overflowChecks count = .ok (count + 1) := by
  rw [increment, if_neg hcount]

/-! ## The run -/

section Run

variable (tsSecs : UInt64 → UInt32) (durationMs : UInt32 → UInt32)
  (hashText : String → UInt64) (startTs : UInt64) (overflowChecks : Bool)

/-- The analysis behind `seen`, with the records `later` still to come. -/
structure Follows (seen : List CaptureMessage) (later : List TraceData) (a : Analysis) : Prop where
  writer : a.writer = storedWriter hashText seen
  clients : ∀ id, ∃ low, (∀ trace ∈ later, trace.id = id → low ≤ trace.frameIndex) ∧
    Tracks hashText startTs seen id low (a.client startTs id)
  inRange : InRange seen

variable {tsSecs durationMs hashText startTs overflowChecks} {seen capture : List CaptureMessage}
  {later : List TraceData} {trace : TraceData} {a : Analysis} {msg : CaptureMessage}

theorem follows_new : Follows hashText startTs [] later .new where
  writer := rfl
  clients id := ⟨0, fun _ _ _ => UInt32.zero_le, tracks_new id⟩
  inRange _ := by simp [numbered]

theorem client_insert (a : Analysis) (id other : ClientId) (client : AnalyzeClient)
    (writer : StorageWriter) (rows : List TraceRow) (captureEof : Bool) (processed total : Int32) :
    Analysis.client startTs
        ⟨a.clients.insert id client, writer, rows, captureEof, processed, total⟩ other =
      if other = id then client else a.client startTs other := by
  rw [Analysis.client]
  split_ifs with hother
  · rw [hother, AList.lookup_insert]
    rfl
  · rw [AList.lookup_insert_ne hother]
    rfl

theorem Follows.toNat_frameIndex (hfollows : Follows hashText startTs seen later a)
    (id : ClientId) : (a.client startTs id).frameIndex.toNat = numbered id seen := by
  obtain ⟨low, -, htracks⟩ := hfollows.clients id
  rw [htracks.frameIndex, UInt32.toNat_ofNat']
  exact Nat.mod_eq_of_lt (hfollows.inRange id)

theorem Follows.le_frameIndex_iff (hfollows : Follows hashText startTs seen later a)
    (trace : TraceData) :
    trace.frameIndex ≤ (a.client startTs trace.id).frameIndex ↔
      trace.frameIndex.toNat ≤ numbered trace.id seen := by
  rw [UInt32.le_iff_toNat_le, hfollows.toNat_frameIndex]

variable (overflowChecks) in
theorem Follows.readMessage (hfollows : Follows hashText startTs seen later a)
    (hrange : InRange (seen ++ [msg])) :
    ∃ clients writer, Merge.readMessage hashText startTs overflowChecks msg a =
        .ok { a with clients := clients, writer := writer } ∧
      Follows hashText startTs (seen ++ [msg]) later
        { a with clients := clients, writer := writer } := by
  have hcount := hfollows.toNat_frameIndex msg.id
  have hfits : ¬(overflowChecks = true ∧ isNumbered msg.event = true ∧
      (a.client startTs msg.id).frameIndex.toNat = 2 ^ 32 - 1) := by
    rintro ⟨-, hnumbered, hlast⟩
    have hnext := hrange msg.id
    rw [numbered_concat, if_pos ⟨rfl, hnumbered⟩] at hnext
    omega
  obtain ⟨low, hlow, htracks⟩ := hfollows.clients msg.id
  refine ⟨_, _, by rw [Merge.readMessage, if_neg hfits], ?_, ?_, hrange⟩
  · rw [hfollows.writer, storedWriter_concat]
    exact (onCapture_eq htracks).1
  · intro id
    rw [client_insert, hfollows.writer]
    split_ifs with hid
    · rw [hid]
      exact ⟨low, hlow, htracks.onCapture (hrange msg.id)⟩
    · obtain ⟨low, hlow, htracks⟩ := hfollows.clients id
      exact ⟨low, hlow, htracks.skip (Ne.symm hid)⟩

theorem Follows.readMessage_overflow (hfollows : Follows hashText startTs seen later a)
    (hrange : ¬InRange (seen ++ [msg])) :
    Merge.readMessage hashText startTs true msg a = .error .overflow := by
  have hcount := hfollows.toNat_frameIndex msg.id
  obtain ⟨id, hid⟩ := not_forall.mp hrange
  have hseen := hfollows.inRange id
  rw [numbered_concat] at hid
  have hown : msg.id = id ∧ isNumbered msg.event := by
    by_contra hother
    rw [if_neg hother] at hid
    exact hid hseen
  rw [if_pos hown] at hid
  rw [Merge.readMessage, if_pos]
  refine ⟨rfl, hown.2, ?_⟩
  rw [hcount, hown.1]
  omega

variable (tsSecs durationMs) in
/-- The record's row is written, and the next records of the client are not older. -/
theorem Follows.processTrace (hfollows : Follows hashText startTs seen (trace :: later) a)
    (hsorted : ∀ other ∈ later, trace.id = other.id → trace.frameIndex ≤ other.frameIndex)
    (hfirst : 1 ≤ trace.frameIndex.toNat)
    (hread : trace.frameIndex.toNat ≤ numbered trace.id seen)
    (hcount : ¬(overflowChecks = true ∧ a.tracesProcessed = Int32.maxValue)) :
    ∃ a', Merge.processTrace tsSecs durationMs startTs overflowChecks trace a = .ok a' ∧
      Follows hashText startTs seen later a' ∧
      a'.rows = a.rows ++ (expectedRow tsSecs durationMs hashText startTs seen trace).toList ∧
      a'.captureEof = a.captureEof ∧ a'.tracesTotal = a.tracesTotal ∧
      a'.tracesProcessed = a.tracesProcessed + 1 := by
  obtain ⟨low, hlow, htracks⟩ := hfollows.clients trace.id
  have hrow := onTrace_eq tsSecs durationMs htracks (hlow trace List.mem_cons_self rfl) hfirst
    (hfollows.inRange trace.id) a.rows
  have hprocess : Merge.processTrace tsSecs durationMs startTs overflowChecks trace a =
      .ok { a with
        clients := a.clients.insert trace.id (onTrace tsSecs durationMs trace
          (a.client startTs trace.id) a.rows).1
        rows := (onTrace tsSecs durationMs trace (a.client startTs trace.id) a.rows).2
        tracesProcessed := a.tracesProcessed + 1 } := by
    rw [Merge.processTrace, increment_eq hcount]
  rw [hrow] at hprocess
  refine ⟨_, hprocess, ⟨hfollows.writer, ?_, hfollows.inRange⟩, rfl, rfl, rfl, rfl⟩
  intro id
  rw [client_insert]
  split_ifs with hid
  · rw [hid]
    exact ⟨trace.frameIndex, fun other hother heq => hsorted other hother heq.symm,
      htracks.onTrace hread⟩
  · obtain ⟨low, hlow, htracks⟩ := hfollows.clients id
    exact ⟨low, fun other hother => hlow other (List.mem_cons_of_mem _ hother), htracks⟩

/-- A record is dealt with: its row, when it has one, is written, and what is left of the
capture is read later. -/
def Handles (tsSecs : UInt64 → UInt32) (durationMs : UInt32 → UInt32)
    (hashText : String → UInt64) (startTs : UInt64) (overflowChecks : Bool)
    (capture : List CaptureMessage) (later : List TraceData) (trace : TraceData) (a : Analysis)
    (result : Except AnalyzeError (List (Except IoError CaptureMessage) × Analysis)) : Prop :=
  ∃ seen rest a', result = .ok (rest.map .ok, a') ∧ seen ++ rest = capture ∧
    Follows hashText startTs seen later a' ∧ (a'.captureEof = true → rest = []) ∧
    a'.rows = a.rows ++ (expectedRow tsSecs durationMs hashText startTs capture trace).toList ∧
    a'.tracesTotal = a.tracesTotal ∧
    (a'.tracesProcessed = a.tracesProcessed ∨
      ¬(overflowChecks = true ∧ a.tracesProcessed = Int32.maxValue) ∧
        a'.tracesProcessed = a.tracesProcessed + 1)

/-- The record's event has been read. -/
theorem Follows.handles_processTrace {rest : List CaptureMessage}
    (hfollows : Follows hashText startTs seen (trace :: later) a)
    (hsorted : ∀ other ∈ later, trace.id = other.id → trace.frameIndex ≤ other.frameIndex)
    (hfirst : 1 ≤ trace.frameIndex.toNat)
    (hread : trace.frameIndex.toNat ≤ numbered trace.id seen) (hsplit : seen ++ rest = capture)
    (heof : a.captureEof = true → rest = [])
    (hcount : ¬(overflowChecks = true ∧ a.tracesProcessed = Int32.maxValue)) :
    Handles tsSecs durationMs hashText startTs overflowChecks capture later trace a
      (match Merge.processTrace tsSecs durationMs startTs overflowChecks trace a with
      | .ok a => .ok (rest.map .ok, a)
      | .error error => .error error) := by
  obtain ⟨a', hprocess, hafter, hrows, heof', htotal, hprocessed⟩ :=
    hfollows.processTrace tsSecs durationMs hsorted hfirst hread hcount
  rw [hprocess]
  refine ⟨seen, rest, a', rfl, hsplit, hafter, ?_, ?_, htotal, .inr ⟨hcount, hprocessed⟩⟩
  · rw [heof']
    exact heof
  · rw [hrows, expectedRow_of_isPrefix tsSecs durationMs ⟨rest, hsplit⟩ hfirst hread]

/-- The capture is read until the event of the record, or to its end. -/
theorem Follows.handles_readCapture {rest : List CaptureMessage}
    (hfollows : Follows hashText startTs seen (trace :: later) a)
    (hsorted : ∀ other ∈ later, trace.id = other.id → trace.frameIndex ≤ other.frameIndex)
    (hunread : numbered trace.id seen < trace.frameIndex.toNat) (hsplit : seen ++ rest = capture)
    (heof : a.captureEof = false)
    (hneeded : InRange (needed trace.id trace.frameIndex.toNat capture))
    (hcount : ¬(overflowChecks = true ∧ a.tracesProcessed = Int32.maxValue)) :
    Handles tsSecs durationMs hashText startTs overflowChecks capture later trace a
      (readCapture tsSecs durationMs hashText startTs overflowChecks trace (rest.map .ok) a) := by
  induction rest generalizing seen a with
  | nil =>
      rw [List.append_nil] at hsplit
      refine ⟨seen, [], _, rfl, by simpa using hsplit, ⟨hfollows.writer, ?_, hfollows.inRange⟩,
        fun _ => rfl, ?_, rfl, .inl rfl⟩
      · intro id
        obtain ⟨low, hlow, htracks⟩ := hfollows.clients id
        exact ⟨low, fun other hother => hlow other (List.mem_cons_of_mem _ hother), htracks⟩
      · rw [expectedRow_of_lt tsSecs durationMs (hsplit ▸ hunread)]
        exact (List.append_nil _).symm
  | cons msg rest ih =>
      have hnext : seen ++ [msg] ++ rest = capture := by simpa using hsplit
      have hrange : InRange (seen ++ [msg]) := by
        apply inRange_of_isPrefix hneeded
        rw [← hsplit, needed_append_of_lt _ hunread]
        obtain ⟨k, hk⟩ : ∃ k, trace.frameIndex.toNat - numbered trace.id seen = k + 1 :=
          ⟨_, (Nat.sub_add_cancel (by omega)).symm⟩
        rw [hk, needed]
        exact ⟨_, List.append_assoc ..⟩
      obtain ⟨clients, writer, hread, hafter⟩ :=
        hfollows.readMessage overflowChecks hrange
      obtain ⟨low, -, htracks⟩ := hafter.clients msg.id
      rw [List.map_cons, Merge.readCapture, hread]
      simp only [htracks.id_eq]
      split_ifs with hdone
      · obtain ⟨hid, hle⟩ := hdone
        have hle : trace.frameIndex.toNat ≤ numbered trace.id (seen ++ [msg]) := by
          rw [UInt32.le_iff_toNat_le, hafter.toNat_frameIndex, hid] at hle
          exact hle
        exact hafter.handles_processTrace hsorted (by omega) hle hnext
          (fun h => absurd (heof.symm.trans h) (by simp)) hcount
      · have hstill : numbered trace.id (seen ++ [msg]) < trace.frameIndex.toNat := by
          by_contra hle
          by_cases hid : msg.id = trace.id
          · apply hdone
            refine ⟨hid, ?_⟩
            rw [UInt32.le_iff_toNat_le, hafter.toNat_frameIndex, hid]
            omega
          · rw [numbered_concat, if_neg (fun h => hid h.1)] at hle
            omega
        exact ih hafter hstill hnext heof hcount

/-- With overflow checks the capture is read until a frame index overflows. -/
theorem Follows.readCapture_overflow {rest : List CaptureMessage}
    (hfollows : Follows hashText startTs seen later a) (hsplit : seen ++ rest = capture)
    (hneeded : ¬InRange (needed trace.id trace.frameIndex.toNat capture)) :
    Merge.readCapture tsSecs durationMs hashText startTs true trace (rest.map .ok) a =
      .error .overflow := by
  have hunread {part after : List CaptureMessage} (hpart : part ++ after = capture)
      (hrange : InRange part) : ¬trace.frameIndex.toNat ≤ numbered trace.id part := by
    intro hle
    apply hneeded
    rw [← hpart, needed_append_of_le _ hle]
    exact inRange_of_isPrefix hrange (needed_isPrefix ..)
  induction rest generalizing seen a with
  | nil =>
      rw [List.append_nil] at hsplit
      exact absurd (inRange_of_isPrefix (hsplit ▸ hfollows.inRange) (needed_isPrefix ..)) hneeded
  | cons msg rest ih =>
      have hnext : seen ++ [msg] ++ rest = capture := by simpa using hsplit
      by_cases hrange : InRange (seen ++ [msg])
      · obtain ⟨clients, writer, hread, hafter⟩ := hfollows.readMessage true hrange
        obtain ⟨low, -, htracks⟩ := hafter.clients msg.id
        rw [List.map_cons, Merge.readCapture, hread]
        simp only [htracks.id_eq]
        split_ifs with hdone
        · obtain ⟨hid, hle⟩ := hdone
          rw [UInt32.le_iff_toNat_le, hafter.toNat_frameIndex, hid] at hle
          exact absurd hle (hunread hnext hrange)
        · exact ih hafter hnext
      · rw [List.map_cons, Merge.readCapture, hfollows.readMessage_overflow hrange]

/-- The clients that `entry` makes are those that are there already. -/
theorem Follows.insert_client (hfollows : Follows hashText startTs seen later a)
    (id : ClientId) :
    Follows hashText startTs seen later
      { a with clients := a.clients.insert id (a.client startTs id) } where
  writer := hfollows.writer
  clients other := by
    rw [client_insert]
    split_ifs with hother
    · exact hother ▸ hfollows.clients id
    · exact hfollows.clients other
  inRange := hfollows.inRange

theorem Follows.handles_handleTrace {rest : List CaptureMessage}
    (hfollows : Follows hashText startTs seen (trace :: later) a)
    (hsorted : ∀ other ∈ later, trace.id = other.id → trace.frameIndex ≤ other.frameIndex)
    (hfirst : 1 ≤ trace.frameIndex.toNat) (hsplit : seen ++ rest = capture)
    (heof : a.captureEof = true → rest = [])
    (hneeded : InRange (needed trace.id trace.frameIndex.toNat capture))
    (hcount : ¬(overflowChecks = true ∧ a.tracesProcessed = Int32.maxValue)) :
    Handles tsSecs durationMs hashText startTs overflowChecks capture later trace a
      (handleTrace tsSecs durationMs hashText startTs overflowChecks trace (rest.map .ok) a) := by
  have hentry := hfollows.insert_client trace.id
  have hiff := hfollows.le_frameIndex_iff trace
  rw [handleTrace]
  split_ifs with hread hend
  · exact hentry.handles_processTrace hsorted hfirst (hiff.mp hread) hsplit heof hcount
  · have hrest := heof hend
    subst hrest
    rw [List.append_nil] at hsplit
    have hunread : numbered trace.id capture < trace.frameIndex.toNat := by
      rw [← hsplit]
      exact Nat.lt_of_not_le fun hle => hread (hiff.mpr hle)
    refine ⟨seen, [], _, rfl, by simpa using hsplit, ⟨hentry.writer, ?_, hentry.inRange⟩,
      fun _ => rfl, ?_, rfl, .inl rfl⟩
    · intro id
      obtain ⟨low, hlow, htracks⟩ := hentry.clients id
      exact ⟨low, fun other hother => hlow other (List.mem_cons_of_mem _ hother), htracks⟩
    · rw [expectedRow_of_lt tsSecs durationMs hunread]
      exact (List.append_nil _).symm
  · have hunread := Nat.lt_of_not_le fun hle => hread (hiff.mpr hle)
    exact hentry.handles_readCapture hsorted hunread hsplit (by simpa using hend) hneeded hcount

theorem Follows.handleTrace_overflow {rest : List CaptureMessage}
    (hfollows : Follows hashText startTs seen later a) (hsplit : seen ++ rest = capture)
    (heof : a.captureEof = true → rest = [])
    (hneeded : ¬InRange (needed trace.id trace.frameIndex.toNat capture)) :
    handleTrace tsSecs durationMs hashText startTs true trace (rest.map .ok) a =
      .error .overflow := by
  have hiff := hfollows.le_frameIndex_iff trace
  rw [handleTrace]
  split_ifs with hread hend
  · rw [← hsplit, needed_append_of_le _ (hiff.mp hread)] at hneeded
    exact absurd (inRange_of_isPrefix hfollows.inRange (needed_isPrefix ..)) hneeded
  · have hrest := heof hend
    subst hrest
    rw [List.append_nil] at hsplit
    exact absurd (inRange_of_isPrefix (hsplit ▸ hfollows.inRange) (needed_isPrefix ..)) hneeded
  · exact (hfollows.insert_client trace.id).readCapture_overflow hsplit hneeded

/-- The counts of the records behind `n` of them. -/
structure Counts (n : ℕ) (a : Analysis) : Prop where
  total : a.tracesTotal.toInt = n
  processed : a.tracesProcessed.toInt ≤ n

theorem tracesTotal_processTrace {a' : Analysis}
    (hok : Merge.processTrace tsSecs durationMs startTs overflowChecks trace a = .ok a') :
    a'.tracesTotal = a.tracesTotal := by
  simp only [Merge.processTrace] at hok
  cases hincrement : increment overflowChecks a.tracesProcessed with
  | error error =>
      rw [hincrement] at hok
      nomatch hok
  | ok processed =>
      rw [hincrement] at hok
      cases hok
      rfl

theorem tracesTotal_readMessage {a' : Analysis}
    (hok : Merge.readMessage hashText startTs overflowChecks msg a = .ok a') :
    a'.tracesTotal = a.tracesTotal := by
  simp only [Merge.readMessage] at hok
  split_ifs at hok
  cases hok
  rfl

theorem tracesTotal_readCapture {file rest : List (Except IoError CaptureMessage)} {a' : Analysis}
    (hok : Merge.readCapture tsSecs durationMs hashText startTs overflowChecks trace file a =
      .ok (rest, a')) : a'.tracesTotal = a.tracesTotal := by
  induction file generalizing a with
  | nil =>
      cases hok
      rfl
  | cons result file ih =>
      cases result with
      | error error => nomatch hok
      | ok msg =>
          rw [Merge.readCapture] at hok
          cases hread : Merge.readMessage hashText startTs overflowChecks msg a with
          | error error =>
              rw [hread] at hok
              nomatch hok
          | ok middle =>
              rw [hread] at hok
              rw [← tracesTotal_readMessage hread]
              simp only at hok
              split_ifs at hok with hdone
              · cases hprocess : Merge.processTrace tsSecs durationMs startTs overflowChecks trace
                  middle with
                | error error =>
                    rw [hprocess] at hok
                    nomatch hok
                | ok after =>
                    rw [hprocess] at hok
                    cases hok
                    exact tracesTotal_processTrace hprocess
              · exact ih hok

theorem tracesTotal_handleTrace {file rest : List (Except IoError CaptureMessage)} {a' : Analysis}
    (hok : handleTrace tsSecs durationMs hashText startTs overflowChecks trace file a =
      .ok (rest, a')) : a'.tracesTotal = a.tracesTotal := by
  simp only [handleTrace] at hok
  split_ifs at hok with hread hend
  · split at hok
    · next middle hprocess =>
        cases hok
        have htotal := tracesTotal_processTrace hprocess
        exact htotal
    · nomatch hok
  · cases hok
    rfl
  · have htotal := tracesTotal_readCapture hok
    exact htotal

variable (tsSecs durationMs overflowChecks) in
/-- Every record is dealt with as long as nothing overflows, and with overflow checks a
run that ends has overflowed nothing. -/
theorem analyzeLoop_spec {n : ℕ} {rest : List CaptureMessage}
    (hfollows : Follows hashText startTs seen later a) (hsplit : seen ++ rest = capture)
    (heof : a.captureEof = true → rest = [])
    (hsorted : later.Pairwise fun trace other => trace.id = other.id →
      trace.frameIndex ≤ other.frameIndex)
    (hfirst : ∀ trace ∈ later, 1 ≤ trace.frameIndex.toNat)
    (hcounts : overflowChecks = true → Counts n a) :
    (FramesFit capture later → (overflowChecks = true → n + later.length < 2 ^ 31) →
        ∃ a', analyzeLoop tsSecs durationMs hashText startTs overflowChecks (later.map .ok)
            (rest.map .ok) a = .ok a' ∧
          a'.rows = a.rows ++
            later.filterMap (expectedRow tsSecs durationMs hashText startTs capture)) ∧
      (overflowChecks = true →
        (∃ a', analyzeLoop tsSecs durationMs hashText startTs overflowChecks (later.map .ok)
          (rest.map .ok) a = .ok a') →
        FramesFit capture later ∧ n + later.length < 2 ^ 31) := by
  induction later generalizing n seen rest a with
  | nil =>
      refine ⟨fun _ _ => ⟨a, rfl, (List.append_nil _).symm⟩, fun hchecks _ => ⟨?_, ?_⟩⟩
      · exact fun trace htrace => absurd htrace List.not_mem_nil
      · have hlt := a.tracesTotal.toInt_lt
        rw [(hcounts hchecks).total] at hlt
        simpa using by exact_mod_cast hlt
  | cons trace later ih =>
      obtain ⟨hlater, hsorted⟩ := List.pairwise_cons.mp hsorted
      have hrest : ∀ other ∈ later, 1 ≤ other.frameIndex.toNat := fun other hother =>
        hfirst other (List.mem_cons_of_mem _ hother)
      rw [List.map_cons, analyzeLoop, List.length_cons, List.filterMap_cons]
      by_cases hneeded : InRange (needed trace.id trace.frameIndex.toNat capture)
      · by_cases hfull : overflowChecks = true ∧ a.tracesTotal = Int32.maxValue
        · have hn : n = 2 ^ 31 - 1 := by
            have htotal := (hcounts hfull.1).total
            rw [hfull.2, toInt_maxValue] at htotal
            omega
          constructor
          · intro _ hlength
            have hlt := hlength hfull.1
            omega
          · rintro - ⟨a', hok⟩
            cases hhandle : handleTrace tsSecs durationMs hashText startTs overflowChecks trace
              (rest.map .ok) a with
            | error error =>
                rw [hhandle] at hok
                nomatch hok
            | ok result =>
                have htotal := tracesTotal_handleTrace hhandle
                rw [hhandle] at hok
                simp only [htotal, increment, if_pos hfull] at hok
                nomatch hok
        · have hcount : ¬(overflowChecks = true ∧ a.tracesProcessed = Int32.maxValue) := by
            rintro ⟨hchecks, hmax⟩
            have htotal := (hcounts hchecks).total
            have hprocessed := (hcounts hchecks).processed
            have hlt := a.tracesTotal.toInt_lt
            rw [hmax, toInt_maxValue] at hprocessed
            refine hfull ⟨hchecks, Int32.toInt_inj.mp ?_⟩
            rw [toInt_maxValue]
            omega
          obtain ⟨seen', rest', a', hhandle, hsplit', hfollows', heof', hrows, htotal, hprocessed⟩ :=
            hfollows.handles_handleTrace hlater (hfirst trace List.mem_cons_self) hsplit heof hneeded
              hcount
          have hincrement : increment overflowChecks a'.tracesTotal = .ok (a.tracesTotal + 1) := by
            rw [htotal, increment_eq hfull]
          have hcounted : overflowChecks = true →
              Counts (n + 1) { a' with tracesTotal := a.tracesTotal + 1 } := by
            intro hchecks
            obtain ⟨htotal, hbefore⟩ := hcounts hchecks
            have hmore := toInt_add_one fun hmax => hfull ⟨hchecks, hmax⟩
            constructor
            · rw [hmore, htotal]
              rfl
            · rcases hprocessed with hsame | ⟨hroom, hone⟩
              · rw [hsame]
                push_cast
                omega
              · rw [hone, toInt_add_one fun hmax => hroom ⟨hchecks, hmax⟩]
                push_cast
                omega
          have hafter : Follows hashText startTs seen' later
              { a' with tracesTotal := a.tracesTotal + 1 } :=
            ⟨hfollows'.writer, hfollows'.clients, hfollows'.inRange⟩
          obtain ⟨hends, hfits⟩ := ih hafter hsplit' heof' hsorted hrest hcounted
          rw [hhandle]
          simp only [hincrement]
          constructor
          · intro hfit hlength
            obtain ⟨final, hfinal, hfinalRows⟩ := hends
              (fun other hother => hfit other (List.mem_cons_of_mem _ hother))
              (fun hchecks => by have := hlength hchecks; omega)
            refine ⟨final, hfinal, ?_⟩
            rw [hfinalRows, hrows]
            cases expectedRow tsSecs durationMs hashText startTs capture trace <;> simp
          · intro hchecks hok
            obtain ⟨hfit, hlength⟩ := hfits hchecks hok
            exact ⟨List.forall_mem_cons.mpr ⟨hneeded, hfit⟩, by omega⟩
      · constructor
        · intro hfit
          exact absurd (hfit trace List.mem_cons_self) hneeded
        · rintro rfl ⟨a', hok⟩
          rw [hfollows.handleTrace_overflow hsplit heof hneeded] at hok
          nomatch hok

end Run

variable (tsSecs : UInt64 → UInt32) (durationMs : UInt32 → UInt32)
  (hashText : String → UInt64) (startTs : UInt64)

/-- The merge is exact while every frame index that is counted fits its 32 bits, and in a
build with overflow checks exactly then, as long as the records can be counted too.
The event of a record depends on the order of its client's own events alone. -/
theorem analyze_isExact {capture : List CaptureMessage} {traces : List TraceData}
    (hsorted : traces.Pairwise fun trace other => trace.id = other.id →
      trace.frameIndex ≤ other.frameIndex)
    (hfirst : ∀ trace ∈ traces, 1 ≤ trace.frameIndex) :
    (FramesFit capture traces →
        IsExact tsSecs durationMs hashText startTs false capture traces) ∧
      (IsExact tsSecs durationMs hashText startTs true capture traces ↔
        FramesFit capture traces ∧ traces.length < 2 ^ 31) ∧
      ∀ other : List CaptureMessage, (∀ id, own id other = own id capture) →
        ∀ trace, attributed trace other = attributed trace capture := by
  have hpositive : ∀ trace ∈ traces, 1 ≤ trace.frameIndex.toNat := fun trace htrace =>
    UInt32.le_iff_toNat_le.mp (hfirst trace htrace)
  have hcounts : Counts 0 .new := ⟨rfl, le_rfl⟩
  have hstart : Follows hashText startTs [] traces .new := follows_new
  have hspec (overflowChecks : Bool) := analyzeLoop_spec tsSecs durationMs overflowChecks hstart
    (List.nil_append capture) (fun h => nomatch h) hsorted hpositive fun _ => hcounts
  refine ⟨fun hfit => ?_, ⟨?_, ?_⟩, ?_⟩
  · exact (hspec false).1 hfit fun hchecks => nomatch hchecks
  · rintro ⟨a, hok, -⟩
    have hfits := (hspec true).2 rfl ⟨a, hok⟩
    rwa [Nat.zero_add] at hfits
  · rintro ⟨hfit, hlength⟩
    exact (hspec true).1 hfit fun _ => by rwa [Nat.zero_add]
  · intro other hown trace
    rw [attributed, attributed, hown]

/-- Client 1 parses, binds and executes while client 2 queries. -/
def interleaved : List CaptureMessage :=
  [⟨1, 10, .parse "s" "SELECT $1" [23]⟩, ⟨2, 11, .simpleQuery "BEGIN"⟩,
    ⟨1, 12, .bind "" "s" [] [⟨23, none⟩]⟩, ⟨1, 13, .execute "" 0⟩]

/-- The execute is traced twice, and client 2 has no second event. -/
def interleavedTraces : List TraceData :=
  [⟨1, 3, 100, 1⟩, ⟨2, 1, 200, 1⟩, ⟨1, 3, 300, 2⟩, ⟨2, 2, 400, 1⟩]

theorem analyze_isExact_interleaved :
    IsExact (fun ts => ts.toUInt32) (fun duration => duration) (fun _ => 0) 10 false interleaved
        interleavedTraces ∧
      IsExact (fun ts => ts.toUInt32) (fun duration => duration) (fun _ => 0) 10 true interleaved
        interleavedTraces := by
  have hfit : FramesFit interleaved interleavedTraces := by
    intro trace _ id
    calc numbered id (needed trace.id trace.frameIndex.toNat interleaved)
        ≤ numbered id interleaved := numbered_mono (needed_isPrefix ..)
      _ ≤ interleaved.length := List.countP_le_length
      _ < 2 ^ 32 := by decide
  obtain ⟨hwraps, hchecked, -⟩ := @analyze_isExact (fun ts => ts.toUInt32)
    (fun duration => duration) (fun _ => 0) 10 interleaved interleavedTraces
    (by simp [interleavedTraces]) (by simp [interleavedTraces])
  exact ⟨hwraps hfit, hchecked.mpr ⟨hfit, by decide⟩⟩

/-! ## A frame index that wraps -/

section Wrapped

variable (tsSecs : UInt64 → UInt32) (durationMs : UInt32 → UInt32)
  (hashText : String → UInt64) (startTs : UInt64) (text : String)

/-- Queries of client 1. -/
def queries (n : ℕ) : List CaptureMessage :=
  List.replicate n ⟨1, 0, .simpleQuery text⟩

/-- The record of client 2 has the whole capture read before client 1 is asked for. -/
def lateTraces : List TraceData :=
  [⟨2, 1, 0, 1⟩, ⟨1, 1, 0, 1⟩]

/-- Without overflow checks a message is always read. -/
theorem readMessage_unchecked (msg : CaptureMessage) (a : Analysis) :
    readMessage hashText startTs false msg a =
      .ok { a with
        clients := a.clients.insert msg.id
          (onCapture hashText msg (a.client startTs msg.id) a.writer).1
        writer := (onCapture hashText msg (a.client startTs msg.id) a.writer).2 } := by
  rw [readMessage, if_neg fun h => absurd h.1 (by decide)]

theorem readCapture_queries {trace : TraceData} (htrace : trace.id = 2) (n : ℕ) {a : Analysis}
    (hid : (a.client startTs 1).id = 1) :
    ∃ a', readCapture tsSecs durationMs hashText startTs false trace
        ((queries text n).map .ok) a = .ok ([], a') ∧
      a'.captureEof = true ∧ a'.rows = a.rows ∧
      (a'.client startTs 1).frameIndex = (a.client startTs 1).frameIndex + UInt32.ofNat n := by
  induction n generalizing a with
  | zero => exact ⟨_, rfl, rfl, rfl, by simp [Analysis.client]⟩
  | succ n ih =>
      obtain ⟨after, hread, hrows, hclient⟩ : ∃ after,
          readMessage hashText startTs false ⟨1, 0, .simpleQuery text⟩ a = .ok after ∧
            after.rows = a.rows ∧ after.client startTs 1 =
              (onCapture hashText ⟨1, 0, .simpleQuery text⟩ (a.client startTs 1) a.writer).1 := by
        refine ⟨_, readMessage_unchecked .., rfl, ?_⟩
        rw [client_insert, if_pos rfl]
      have hidAfter : (after.client startTs 1).id = 1 := by
        rw [hclient]
        exact hid
      obtain ⟨a', hrest, heof, hrowsRest, hindex⟩ := ih hidAfter
      refine ⟨a', ?_, heof, hrowsRest.trans hrows, ?_⟩
      · rw [queries, List.replicate_succ, List.map_cons, readCapture, hread]
        simp only [hidAfter, htrace]
        rw [if_neg fun h => absurd h.1 (by decide)]
        exact hrest
      · rw [hindex, hclient, frameIndex_onCapture, UInt32.ofNat_add, UInt32.add_assoc,
          UInt32.add_comm (UInt32.ofNat n)]
        rfl

/-- When the frame index of client 1 has come back to 0, its record is dropped. -/
theorem analyze_queries {n : ℕ} (hwraps : UInt32.ofNat n = 0) :
    ∃ a, analyze tsSecs durationMs hashText startTs false ((queries text n).map .ok)
      (lateTraces.map .ok) = .ok a ∧ a.rows = [] := by
  obtain ⟨a, hread, heof, hrows, hindex⟩ := @readCapture_queries tsSecs durationMs hashText startTs
    text ⟨2, 1, 0, 1⟩ rfl n
    { Analysis.new with clients := Analysis.new.clients.insert 2 (Analysis.new.client startTs 2) } rfl
  have hzero : (a.client startTs 1).frameIndex = 0 := by
    rw [hindex, hwraps]
    rfl
  have hfirst : handleTrace tsSecs durationMs hashText startTs false ⟨2, 1, 0, 1⟩
      ((queries text n).map .ok) .new = .ok ([], a) := by
    have hunread : ¬(1 : UInt32) ≤ (Analysis.new.client startTs 2).frameIndex := by
      have hnew : (Analysis.new.client startTs 2).frameIndex = 0 := rfl
      rw [hnew]
      decide
    rw [handleTrace, if_neg hunread]
    exact hread
  have hsecond (total : Int32) : ∃ final,
      handleTrace tsSecs durationMs hashText startTs false ⟨1, 1, 0, 1⟩ []
        { a with tracesTotal := total } = .ok ([], final) ∧ final.rows = a.rows := by
    have hindex : (Analysis.client startTs { a with tracesTotal := total } 1).frameIndex = 0 :=
      hzero
    have hunread : ¬(1 : UInt32) ≤
        (Analysis.client startTs { a with tracesTotal := total } 1).frameIndex := by
      rw [hindex]
      decide
    refine ⟨{ a with
      clients := a.clients.insert 1 (Analysis.client startTs { a with tracesTotal := total } 1)
      tracesTotal := total }, ?_, rfl⟩
    rw [handleTrace, if_neg hunread]
    exact if_pos heof
  obtain ⟨final, hfinal, hfinalRows⟩ := hsecond (a.tracesTotal + 1)
  refine ⟨{ final with tracesTotal := final.tracesTotal + 1 }, ?_, hfinalRows.trans hrows⟩
  rw [analyze, lateTraces, List.map_cons, List.map_cons, List.map_nil, analyzeLoop, hfirst]
  simp only [increment, Bool.false_eq_true, false_and, if_false, analyzeLoop, hfinal]

/-- The event of the record is there. -/
theorem expectedRow_queries (n : ℕ) :
    (expectedRow tsSecs durationMs hashText startTs (queries text (n + 1))
      ⟨1, 1, 0, 1⟩).isSome := by
  have hinitial : queries text 1 <+: queries text (n + 1) := ⟨queries text n, by
    rw [queries, queries, queries, List.replicate_append_replicate, Nat.add_comm]⟩
  have hone : numbered 1 (queries text 1) = 1 := rfl
  have hrow := @expectedRow_of_isPrefix tsSecs durationMs hashText startTs (queries text 1)
    (queries text (n + 1)) ⟨1, 1, 0, 1⟩ hinitial le_rfl hone.ge
  rw [hrow]
  rfl

/-- The first query of client 1 gets no row once the frame index has wrapped. -/
theorem not_isExact_wrapped :
    ¬IsExact (fun ts => ts.toUInt32) (fun duration => duration) (fun _ => 0) 0 false
      (queries "" (2 ^ 32)) lateTraces := by
  rintro ⟨a, hok, hrows⟩
  obtain ⟨final, hfinal, hnone⟩ := @analyze_queries (fun ts => ts.toUInt32)
    (fun duration => duration) (fun _ => 0) 0 "" (2 ^ 32) (by decide)
  have hrow := expectedRow_queries (fun ts => ts.toUInt32) (fun duration => duration) (fun _ => 0)
    0 "" (2 ^ 32 - 1)
  obtain rfl := Except.ok.inj (hfinal.symm.trans hok)
  obtain ⟨row, hsome⟩ := Option.isSome_iff_exists.mp hrow
  have hmem : row ∈ lateTraces.filterMap (expectedRow (fun ts => ts.toUInt32)
      (fun duration => duration) (fun _ => 0) 0 (queries "" (2 ^ 32))) :=
    List.mem_filterMap.mpr ⟨_, List.mem_cons_of_mem _ List.mem_cons_self, hsome⟩
  rw [← hrows, hnone] at hmem
  exact absurd hmem List.not_mem_nil

end Wrapped

end Pgr.MergeExact
