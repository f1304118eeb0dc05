import Pgr.Analysis.ViewerLookup
import Pgr.Core.Transition

/-!
# The page of the viewer

`fetchQueries` and `fetchParams` of `api.ts` over the responses of `viewer.rs`, and what
`main.ts` does with them: cells that are rendered schedule their offsets for one request,
a selected row asks for its own, and `connect` forgets all that was loaded.  The responses
come in any order, or not at all.

A request that is on its way when the page connects elsewhere is answered into the caches
of the new backend.  In the runs without such a connect the caches hold what the file of
the backend has at each offset, and no offset is asked for twice unless a request for it
has failed.
-/

namespace Pgr.ViewerPage

open Pgr.FixedWidth Pgr.Decoding Pgr.Viewer Pgr.QueriesFile Pgr.ViewerLookup Pgr.Transition

/-! ## Requests -/

/-- `encodeOffsets`; `setBigUint64` keeps the low 64 bits of an offset. -/
def encodeOffsets (offsets : List ℕ) : List UInt8 :=
  offsets.flatMap fun offset => leBytes 8 offset

/-- The two files that a backend looks offsets up in. -/
structure Files where
  queries : List UInt8
  params : List UInt8

/-- What `fetchQueries` reads from the response, and nothing behind an exception. -/
def fetchedQueries (files : Files) (missing : List ℕ) : Option (ℕ → Option QueryEntry) :=
  match postQueries files.queries (encodeOffsets missing) with
  | some (.ok data) => parseQueries data missing
  | _ => none

def fetchedParams (files : Files) (offset : ℕ) : Option ParamsEntry :=
  match postParams files.params (encodeOffsets [offset]) with
  | some (.ok data) => (parseParams data [offset]).bind fun parsed => parsed offset
  | _ => none

/-- The answer to a request for one offset alone. -/
def storedQuery (files : Files) (offset : ℕ) : Option QueryEntry :=
  (fetchedQueries files [offset]).bind fun parsed => parsed offset

/-! ## The page -/

variable {Url : Type}

structure QueriesRequest (Url : Type) where
  baseUrl : Url
  missing : List ℕ
  deriving DecidableEq

structure ParamsRequest (Url : Type) where
  baseUrl : Url
  offset : ℕ
  deriving DecidableEq

/-- The variables of `api.ts` and `main.ts` with the requests that are not answered yet.
The last three fields are history: the offsets that were to be shown, those that were
requested and those whose request has failed, all since the last connect. -/
structure Page (Url : Type) where
  currentBackendUrl : Url
  queryCache : ℕ → Option QueryEntry
  queryPending : Finset ℕ
  paramsCache : ℕ → Option ParamsEntry
  pendingOffsetsToFetch : List ℕ
  fetchTimeout : Bool
  queriesRequests : List (QueriesRequest Url)
  paramsRequests : List (ParamsRequest Url)
  asked : List ℕ
  sent : List ℕ
  failed : List ℕ

namespace Page

/-- The page behind `loadData(currentBackendUrl)`. -/
def new (url : Url) : Page Url where
  currentBackendUrl := url
  queryCache := fun _ => none
  queryPending := ∅
  paramsCache := fun _ => none
  pendingOffsetsToFetch := []
  fetchTimeout := false
  queriesRequests := []
  paramsRequests := []
  asked := []
  sent := []
  failed := []

def missingOf (page : Page Url) (offsets : List ℕ) : List ℕ :=
  offsets.filter fun offset => (page.queryCache offset).isNone && offset ∉ page.queryPending

def requestQueries (page : Page Url) (missing : List ℕ) : Page Url :=
  { page with
    queryPending := page.queryPending ∪ missing.toFinset
    queriesRequests := page.queriesRequests ++ [⟨page.currentBackendUrl, missing⟩]
    sent := page.sent ++ missing }

/-- `fetchQueries` up to its request. -/
def fetchQueries (page : Page Url) (offsets : List ℕ) : Page Url :=
  if page.missingOf offsets = [] then page else page.requestQueries (page.missingOf offsets)

/-- `pendingOffsetsToFetch.add`. -/
def addOffset (offsets : List ℕ) (offset : ℕ) : List ℕ :=
  if offset ∈ offsets then offsets else offsets ++ [offset]

def scheduleQueryFetch (page : Page Url) (offset : ℕ) : Page Url :=
  if (page.queryCache offset).isSome ∨ offset ∈ page.queryPending then page
  else { page with
    pendingOffsetsToFetch := addOffset page.pendingOffsetsToFetch offset
    fetchTimeout := true }

def ask (page : Page Url) (offset : ℕ) : Page Url :=
  { page with asked := page.asked ++ [offset] }

/-- `queryCellRenderer` on a row whose text is to be shown. -/
def queryCellRenderer (page : Page Url) (offset : ℕ) : Page Url :=
  if (page.queryCache offset).isSome then page.ask offset
  else (page.ask offset).scheduleQueryFetch offset

def clearTimeout (page : Page Url) : Page Url :=
  { page with pendingOffsetsToFetch := [], fetchTimeout := false }

/-- The callback of `setTimeout`. -/
def onTimeout (page : Page Url) : Page Url :=
  let offsets := page.pendingOffsetsToFetch
  if offsets = [] then page.clearTimeout else page.clearTimeout.fetchQueries offsets

/-- `renderDetail` up to its first `await`. -/
def renderDetail (page : Page Url) (queryOffset : ℕ) : Page Url :=
  (page.ask queryOffset).fetchQueries [queryOffset]

/-- `fetchParams` up to its request. -/
def fetchParams (page : Page Url) (offset : ℕ) : Page Url :=
  if (page.paramsCache offset).isSome then page
  else { page with
    paramsRequests := page.paramsRequests ++ [⟨page.currentBackendUrl, offset⟩] }

/-- `loadData`: all is forgotten but the requests, which nobody cancels. -/
def loadData (page : Page Url) (url : Url) : Page Url where
  currentBackendUrl := url
  queryCache := fun _ => none
  queryPending := ∅
  paramsCache := fun _ => none
  pendingOffsetsToFetch := []
  fetchTimeout := false
  queriesRequests := page.queriesRequests
  paramsRequests := page.paramsRequests
  asked := []
  sent := []
  failed := []

def endQueries (page : Page Url) (index : ℕ) : Page Url :=
  { page with queriesRequests := page.queriesRequests.eraseIdx index }

def endParams (page : Page Url) (index : ℕ) : Page Url :=
  { page with paramsRequests := page.paramsRequests.eraseIdx index }

/-- `fetchQueries` behind its request, with what it has parsed. -/
def onQueries (page : Page Url) (missing : List ℕ) (fetched : Option (ℕ → Option QueryEntry)) :
    Page Url :=
  let pending := page.queryPending \ missing.toFinset
  match fetched with
  | some parsed =>
      { page with
        queryPending := pending
        queryCache := fun offset => (parsed offset).or (page.queryCache offset) }
  | none => { page with queryPending := pending, failed := page.failed ++ missing }

/-- `fetchParams` behind its request. -/
def onParams (page : Page Url) (offset : ℕ) (fetched : Option ParamsEntry) : Page Url :=
  match fetched with
  | some entry =>
      { page with paramsCache := Function.update page.paramsCache offset (some entry) }
  | none => page

end Page

/-- What happens on the page.  A response arrives, or the request is found to have
failed. -/
inductive Event (Url : Type) where
  | queryCell (offset : ℕ)
  | timeout
  | detail (queryOffset : ℕ)
  | detailParams (paramsOffset : ℕ)
  | queries (index : ℕ) (delivered : Bool)
  | params (index : ℕ) (delivered : Bool)
  | connect (url : Url)

/-- `NO_PARAMS`. -/
def noParams : ℕ := numberOfBigInt (2 ^ 64 - 1)

def step (backends : Url → Files) (page : Page Url) : Event Url → Option (Page Url)
  | .queryCell offset => some (page.queryCellRenderer offset)
  | .timeout => if page.fetchTimeout then some page.onTimeout else none
  | .detail queryOffset => some (page.renderDetail queryOffset)
  | .detailParams paramsOffset =>
      if paramsOffset = noParams then none else some (page.fetchParams paramsOffset)
  | .queries index delivered =>
      page.queriesRequests[index]?.map fun request =>
        (page.endQueries index).onQueries request.missing
          (if delivered then fetchedQueries (backends request.baseUrl) request.missing else none)
  | .params index delivered =>
      page.paramsRequests[index]?.map fun request =>
        (page.endParams index).onParams request.offset
          (if delivered then fetchedParams (backends request.baseUrl) request.offset else none)
  | .connect url => some (page.loadData url)

/-! ## One request for many offsets -/

section Fetched

variable {files : Files} {offset : ℕ} {missing : List ℕ}

theorem leBytes_mod (width value : ℕ) :
    leBytes width (value % 256 ^ width) = leBytes width value := by
  have hbytes := leBytes_ofLeBytes (leBytes width value)
  rwa [ofLeBytes_leBytes, length_leBytes] at hbytes

theorem encodeOffsets_eq (offsets : List ℕ) :
    encodeOffsets offsets =
      (offsets.map UInt64.ofNat).flatMap fun offset => leBytes 8 offset.toNat := by
  rw [encodeOffsets, List.flatMap_map]
  congr 1
  funext offset
  rw [UInt64.toNat_ofNat']
  exact (leBytes_mod 8 offset).symm

theorem fetchedQueries_eq (files : Files) (missing : List ℕ) :
    fetchedQueries files missing =
      match readQueries files.queries (missing.map UInt64.ofNat) with
      | .ok data => parseQueries data missing
      | .error _ => none := by
  rw [fetchedQueries, postQueries, post, encodeOffsets_eq, parseOffsets_flatMap]
  dsimp only
  cases readQueries files.queries (missing.map UInt64.ofNat) with
  | ok data => rfl
  | error failure => cases failure <;> rfl

def entryOf (record : QueryRecord) : QueryEntry :=
  ⟨decodeText record.text, record.oids⟩

theorem decodes_record (record : QueryRecord) :
    Decodes .outOfBounds parseQueryEntry record.layout (entryOf record) := by
  have hoids : Decodes .outOfBounds (readMany getUint32 record.oids.length)
      (record.oids.flatMap fun oid => leBytes 4 oid.toNat) record.oids :=
    Decodes.readMany_self _ fun oid _ => decodes_getUint32 oid
  refine (decodes_getUint 4 record.text_lt).bind ?_
  refine (Decodes.readExact rfl).bind ?_
  refine (decodes_getUint 2 record.oids_lt).bind ?_
  exact hoids.bind_pure

/-- A record starts at an offset of the queries file. -/
def HoldsAt (files : Files) (record : QueryRecord) (offset : ℕ) : Prop :=
  StartsEntry IsQueryEntry files.queries (UInt64.ofNat offset) record.layout

/-- What the loop of `parseQueries` has set behind the records of its offsets. -/
theorem parseQueriesLoop_records {stored : ℕ → Option QueryEntry} {records : List QueryRecord}
    (hrecords : List.Forall₂ (fun offset record => stored offset = some (entryOf record))
      missing records) (out : ℕ → Option QueryEntry) :
    parseQueriesLoop missing out (records.flatMap QueryRecord.layout) =
      .ok (fun offset => if offset ∈ missing then stored offset else out offset) [] := by
  induction hrecords generalizing out with
  | nil => simp [parseQueriesLoop, pure, EStateM.pure]
  | @cons offset record missing records hrecord _ ih =>
      rw [List.flatMap_cons, parseQueriesLoop, bind_of_ok ((decodes_record record).run_append _),
        ih]
      congr 1
      funext other
      by_cases hlater : other ∈ missing
      · rw [if_pos hlater, if_pos (List.mem_cons_of_mem _ hlater)]
      · rw [if_neg hlater]
        by_cases hother : other = offset
        · subst hother
          rw [Function.update_self, if_pos List.mem_cons_self, hrecord]
        · rw [Function.update_of_ne hother, if_neg (by simp [hother, hlater])]

theorem exists_records (hrecords : ∀ offset ∈ missing, ∃ record, HoldsAt files record offset) :
    ∃ records, List.Forall₂ (fun offset record => HoldsAt files record offset)
      missing records := by
  induction missing with
  | nil => exact ⟨[], .nil⟩
  | cons offset missing ih =>
      obtain ⟨hrecord, hrest⟩ := List.forall_mem_cons.mp hrecords
      obtain ⟨record, hrecord⟩ := hrecord
      obtain ⟨records, hrecords⟩ := ih hrest
      exact ⟨record :: records, .cons hrecord hrecords⟩

theorem readQueries_records {records : List QueryRecord}
    (hrecords : List.Forall₂ (fun offset record => HoldsAt files record offset) missing records) :
    readQueries files.queries (missing.map UInt64.ofNat) =
      .ok (records.flatMap QueryRecord.layout) := by
  apply (readEntries_ok_iff walks_queries).mpr
  refine ⟨records.map QueryRecord.layout, ?_, List.flatMap_def⟩
  rw [List.forall₂_map_left_iff, List.forall₂_map_right_iff]
  exact hrecords

/-- A request whose offsets all start a record is answered with their entries. -/
theorem fetchedQueries_records {stored : ℕ → Option QueryEntry} {records : List QueryRecord}
    (hrecords : List.Forall₂ (fun offset record => HoldsAt files record offset) missing records)
    (hstored : List.Forall₂ (fun offset record => stored offset = some (entryOf record))
      missing records) :
    fetchedQueries files missing =
      some fun offset => if offset ∈ missing then stored offset else none := by
  rw [fetchedQueries_eq, readQueries_records hrecords]
  dsimp only
  rw [parseQueries, parseQueriesLoop_records hstored]

/-- A request with an offset that starts no record fails. -/
theorem fetchedQueries_of_no_record (hmem : offset ∈ missing)
    (hnone : ∀ record, ¬HoldsAt files record offset) : fetchedQueries files missing = none := by
  rw [fetchedQueries_eq]
  cases hread : readQueries files.queries (missing.map UInt64.ofNat) with
  | error failure => rfl
  | ok data =>
      obtain ⟨entries, hentries, -⟩ := (readEntries_ok_iff walks_queries).mp hread
      rw [List.forall₂_map_left_iff] at hentries
      obtain ⟨index, hindex, rfl⟩ := List.getElem_of_mem hmem
      have hentry := List.Forall₂.get hentries hindex (hentries.length_eq ▸ hindex)
      obtain ⟨record, hrecord⟩ := hentry.1
      apply absurd _ (hnone record)
      rw [HoldsAt, ← hrecord]
      exact hentry

theorem storedQuery_of_holdsAt {record : QueryRecord} (hrecord : HoldsAt files record offset) :
    storedQuery files offset = some (entryOf record) := by
  have hfetched := @fetchedQueries_records files [offset] (fun _ => some (entryOf record)) _
    (.cons hrecord .nil) (.cons rfl .nil)
  rw [storedQuery, hfetched]
  simp

theorem storedQuery_of_no_record (hnone : ∀ record, ¬HoldsAt files record offset) :
    storedQuery files offset = none := by
  rw [storedQuery, fetchedQueries_of_no_record List.mem_cons_self hnone]
  rfl

/-- Whatever is stored at an offset is the entry of the record that starts there. -/
theorem storedQuery_eq_some_iff {entry : QueryEntry} :
    storedQuery files offset = some entry ↔
      ∃ record, HoldsAt files record offset ∧ entry = entryOf record := by
  by_cases hrecord : ∃ record, HoldsAt files record offset
  · obtain ⟨record, hrecord⟩ := hrecord
    rw [storedQuery_of_holdsAt hrecord, Option.some.injEq]
    constructor
    · intro hentry
      exact ⟨record, hrecord, hentry.symm⟩
    · rintro ⟨other, hother, rfl⟩
      have hsame := (storedQuery_of_holdsAt hrecord).symm.trans (storedQuery_of_holdsAt hother)
      exact Option.some.inj hsame
  · rw [storedQuery_of_no_record (not_exists.mp hrecord)]
    constructor
    · rintro ⟨⟩
    · rintro ⟨record, hholds, -⟩
      exact absurd ⟨record, hholds⟩ hrecord

theorem exists_record_of_stored (hstored : storedQuery files offset ≠ none) :
    ∃ record, HoldsAt files record offset := by
  obtain ⟨entry, hentry⟩ := Option.ne_none_iff_exists'.mp hstored
  obtain ⟨record, hrecord, -⟩ := storedQuery_eq_some_iff.mp hentry
  exact ⟨record, hrecord⟩

theorem fetchedQueries_of_stored (hstored : ∀ offset ∈ missing, storedQuery files offset ≠ none) :
    fetchedQueries files missing =
      some fun offset => if offset ∈ missing then storedQuery files offset else none := by
  obtain ⟨records, hrecords⟩ :=
    exists_records fun offset hoffset => exists_record_of_stored (hstored offset hoffset)
  exact fetchedQueries_records hrecords (hrecords.imp fun _ _ => storedQuery_of_holdsAt)

theorem fetchedQueries_of_not_stored (hmem : offset ∈ missing)
    (hnone : storedQuery files offset = none) : fetchedQueries files missing = none := by
  apply fetchedQueries_of_no_record hmem
  intro record hrecord
  cases hnone.symm.trans (storedQuery_of_holdsAt hrecord)

/-- What a request has read, it has read at each of its offsets, and of no other. -/
theorem stored_of_fetchedQueries {parsed : ℕ → Option QueryEntry}
    (hfetched : fetchedQueries files missing = some parsed) :
    (∀ offset ∈ missing, storedQuery files offset ≠ none) ∧
      parsed = fun offset => if offset ∈ missing then storedQuery files offset else none := by
  have hstored : ∀ offset ∈ missing, storedQuery files offset ≠ none := by
    intro offset hmem hnone
    cases (fetchedQueries_of_not_stored hmem hnone).symm.trans hfetched
  exact ⟨hstored, Option.some.inj (hfetched.symm.trans (fetchedQueries_of_stored hstored))⟩

end Fetched

/-- A request for many offsets answers each as a request for that one alone does, and
fails if and only if one of those fails. -/
theorem fetchedQueries_agrees_alone (files : Files) (missing : List ℕ) :
    fetchedQueries files missing =
      if ∀ offset ∈ missing, (fetchedQueries files [offset]).isSome then
        some fun offset => if offset ∈ missing then storedQuery files offset else none
      else none := by
  have halone : ∀ offset, (fetchedQueries files [offset]).isSome ↔
      storedQuery files offset ≠ none := by
    intro offset
    rw [storedQuery]
    cases hfetched : fetchedQueries files [offset] with
    | none => simp
    | some parsed =>
        obtain ⟨hstored, rfl⟩ := stored_of_fetchedQueries hfetched
        simpa using hstored
  simp only [halone]
  by_cases hstored : ∀ offset ∈ missing, storedQuery files offset ≠ none
  · rw [if_pos hstored]
    exact fetchedQueries_of_stored hstored
  · rw [if_neg hstored]
    obtain ⟨offset, hoffset⟩ := not_forall.mp hstored
    obtain ⟨hmem, hnone⟩ := Classical.not_imp.mp hoffset
    exact fetchedQueries_of_not_stored hmem (not_not.mp hnone)

/-! ## What the handlers change -/

namespace Page

/-- The offsets that a request is on its way for. -/
def inFlight (page : Page Url) : List ℕ :=
  page.queriesRequests.flatMap QueriesRequest.missing

section Handlers

variable {page : Page Url} {offset other index : ℕ} {offsets missing : List ℕ}

theorem mem_missingOf : offset ∈ page.missingOf offsets ↔
    offset ∈ offsets ∧ page.queryCache offset = none ∧ offset ∉ page.queryPending := by
  simp [missingOf]

@[simp]
theorem fetchQueries_currentBackendUrl :
    (page.fetchQueries offsets).currentBackendUrl = page.currentBackendUrl := by
  unfold fetchQueries
  split <;> rfl

@[simp]
theorem fetchQueries_queryCache :
    (page.fetchQueries offsets).queryCache = page.queryCache := by
  unfold fetchQueries
  split <;> rfl

@[simp]
theorem fetchQueries_paramsCache :
    (page.fetchQueries offsets).paramsCache = page.paramsCache := by
  unfold fetchQueries
  split <;> rfl

@[simp]
theorem fetchQueries_paramsRequests :
    (page.fetchQueries offsets).paramsRequests = page.paramsRequests := by
  unfold fetchQueries
  split <;> rfl

@[simp]
theorem fetchQueries_pendingOffsetsToFetch :
    (page.fetchQueries offsets).pendingOffsetsToFetch = page.pendingOffsetsToFetch := by
  unfold fetchQueries
  split <;> rfl

@[simp]
theorem fetchQueries_fetchTimeout :
    (page.fetchQueries offsets).fetchTimeout = page.fetchTimeout := by
  unfold fetchQueries
  split <;> rfl

@[simp]
theorem fetchQueries_asked : (page.fetchQueries offsets).asked = page.asked := by
  unfold fetchQueries
  split <;> rfl

@[simp]
theorem fetchQueries_failed : (page.fetchQueries offsets).failed = page.failed := by
  unfold fetchQueries
  split <;> rfl

@[simp]
theorem fetchQueries_queryPending : (page.fetchQueries offsets).queryPending =
    page.queryPending ∪ (page.missingOf offsets).toFinset := by
  unfold fetchQueries
  split
  · rename_i hnone
    simp [hnone]
  · rfl

@[simp]
theorem fetchQueries_sent :
    (page.fetchQueries offsets).sent = page.sent ++ page.missingOf offsets := by
  unfold fetchQueries
  split
  · rename_i hnone
    simp [hnone]
  · rfl

@[simp]
theorem fetchQueries_inFlight :
    (page.fetchQueries offsets).inFlight = page.inFlight ++ page.missingOf offsets := by
  unfold fetchQueries
  split
  · rename_i hnone
    simp [hnone]
  · simp [inFlight, requestQueries]

theorem onTimeout_eq :
    page.onTimeout = page.clearTimeout.fetchQueries page.pendingOffsetsToFetch := by
  unfold onTimeout
  by_cases hnone : page.pendingOffsetsToFetch = []
  · rw [hnone]
    rfl
  · exact if_neg hnone

theorem mem_addOffset : other ∈ addOffset offsets offset ↔ other ∈ offsets ∨ other = offset := by
  unfold addOffset
  split
  · rename_i hmem
    constructor
    · exact Or.inl
    · rintro (hother | rfl)
      · exact hother
      · exact hmem
  · simp

/-- The offsets of a request that ends are no longer on their way for it. -/
theorem inFlight_perm {request : QueriesRequest Url}
    (hrequest : page.queriesRequests[index]? = some request) :
    page.inFlight.Perm (request.missing ++ (page.endQueries index).inFlight) := by
  obtain ⟨hindex, hget⟩ := List.getElem?_eq_some_iff.mp hrequest
  have hperm := (List.getElem_cons_eraseIdx_perm hindex).symm
  rw [hget] at hperm
  exact hperm.flatMap_right QueriesRequest.missing

end Handlers

/-! ## Nothing asked for is forgotten -/

/-- The text is there, or somebody is at work on it, or its request has failed. -/
def Known (page : Page Url) (offset : ℕ) : Prop :=
  (page.queryCache offset).isSome ∨ offset ∈ page.pendingOffsetsToFetch ∨
    offset ∈ page.inFlight ∨ offset ∈ page.failed

structure Tracked (page : Page Url) : Prop where
  pending : ∀ offset ∈ page.queryPending, offset ∈ page.inFlight
  timed : page.pendingOffsetsToFetch ≠ [] → page.fetchTimeout = true
  known : ∀ offset ∈ page.asked, page.Known offset

section Tracked

variable {page : Page Url} {offset other index : ℕ} {offsets missing : List ℕ}

theorem Known.fetchQueries (hknown : page.Known offset) :
    (page.fetchQueries offsets).Known offset := by
  unfold Known at hknown ⊢
  simp only [fetchQueries_queryCache, fetchQueries_pendingOffsetsToFetch, fetchQueries_inFlight,
    fetchQueries_failed, List.mem_append]
  tauto

/-- What is fetched is there, or on its way. -/
theorem fetchQueries_finds (hpending : ∀ offset ∈ page.queryPending, offset ∈ page.inFlight)
    (hmem : offset ∈ offsets) : (page.fetchQueries offsets).Known offset := by
  cases hcached : page.queryCache offset with
  | some entry =>
      left
      rw [fetchQueries_queryCache, hcached]
      rfl
  | none =>
      right
      right
      left
      rw [fetchQueries_inFlight, List.mem_append]
      by_cases hpend : offset ∈ page.queryPending
      · exact Or.inl (hpending offset hpend)
      · exact Or.inr (mem_missingOf.mpr ⟨hmem, hcached, hpend⟩)

theorem pending_fetchQueries (hpending : ∀ offset ∈ page.queryPending, offset ∈ page.inFlight) :
    ∀ offset ∈ (page.fetchQueries offsets).queryPending,
      offset ∈ (page.fetchQueries offsets).inFlight := by
  intro offset hmem
  rw [fetchQueries_queryPending, Finset.mem_union, List.mem_toFinset] at hmem
  rw [fetchQueries_inFlight, List.mem_append]
  exact hmem.imp_left (hpending offset)

theorem Tracked.ask (htracked : page.Tracked) (hknown : page.Known offset) :
    (page.ask offset).Tracked := by
  refine ⟨htracked.pending, htracked.timed, fun asked hasked => ?_⟩
  rcases List.mem_append.mp hasked with hbefore | hnow
  · exact htracked.known asked hbefore
  · rw [List.mem_singleton.mp hnow]
    exact hknown

theorem Tracked.queryCellRenderer (htracked : page.Tracked) :
    (page.queryCellRenderer offset).Tracked := by
  unfold Page.queryCellRenderer
  split
  · rename_i hcached
    exact htracked.ask (Or.inl hcached)
  · unfold scheduleQueryFetch
    split
    · rename_i hthere
      apply htracked.ask
      rcases hthere with hcached | hpend
      · exact Or.inl hcached
      · exact Or.inr (Or.inr (Or.inl (htracked.pending offset hpend)))
    · refine ⟨htracked.pending, fun _ => rfl, fun asked hasked => ?_⟩
      rcases List.mem_append.mp hasked with hbefore | hnow
      · rcases htracked.known asked hbefore with hcached | hscheduled | hrest
        · exact Or.inl hcached
        · exact Or.inr (Or.inl (mem_addOffset.mpr (Or.inl hscheduled)))
        · exact Or.inr (Or.inr hrest)
      · exact Or.inr (Or.inl (mem_addOffset.mpr (Or.inr (List.mem_singleton.mp hnow))))

theorem Tracked.onTimeout (htracked : page.Tracked) : page.onTimeout.Tracked := by
  rw [onTimeout_eq]
  refine ⟨pending_fetchQueries htracked.pending, fun hscheduled => ?_, fun asked hasked => ?_⟩
  · rw [fetchQueries_pendingOffsetsToFetch] at hscheduled
    exact absurd rfl hscheduled
  · rw [fetchQueries_asked] at hasked
    rcases htracked.known asked hasked with hcached | hscheduled | hrest
    · exact Known.fetchQueries (Or.inl hcached)
    · exact fetchQueries_finds htracked.pending hscheduled
    · exact Known.fetchQueries (Or.inr (Or.inr hrest))

theorem Tracked.renderDetail (htracked : page.Tracked) :
    (page.renderDetail offset).Tracked := by
  refine ⟨pending_fetchQueries htracked.pending, fun hscheduled => ?_, fun asked hasked => ?_⟩
  · rw [Page.renderDetail, fetchQueries_pendingOffsetsToFetch] at hscheduled
    rw [Page.renderDetail, fetchQueries_fetchTimeout]
    exact htracked.timed hscheduled
  · rw [Page.renderDetail, fetchQueries_asked] at hasked
    rcases List.mem_append.mp hasked with hbefore | hnow
    · have hknown : (page.ask offset).Known asked := htracked.known asked hbefore
      exact hknown.fetchQueries
    · exact fetchQueries_finds htracked.pending hnow

theorem Tracked.onQueries {request : QueriesRequest Url} (htracked : page.Tracked)
    (hrequest : page.queriesRequests[index]? = some request)
    {fetched : Option (ℕ → Option QueryEntry)}
    (hfetched : ∀ parsed, fetched = some parsed → ∀ offset ∈ request.missing,
      (parsed offset).isSome) :
    ((page.endQueries index).onQueries request.missing fetched).Tracked := by
  have hinFlight : ∀ offset, offset ∈ page.inFlight →
      offset ∈ request.missing ∨ offset ∈ (page.endQueries index).inFlight := by
    intro offset hoffset
    exact List.mem_append.mp ((inFlight_perm hrequest).mem_iff.mp hoffset)
  have hpending : ∀ offset ∈ page.queryPending \ request.missing.toFinset,
      offset ∈ (page.endQueries index).inFlight := by
    intro offset hoffset
    obtain ⟨hpend, hother⟩ := Finset.mem_sdiff.mp hoffset
    rcases hinFlight offset (htracked.pending offset hpend) with hmissing | hrest
    · exact absurd (List.mem_toFinset.mpr hmissing) hother
    · exact hrest
  cases fetched with
  | none =>
      refine ⟨hpending, htracked.timed, fun asked hasked => ?_⟩
      rcases htracked.known asked hasked with hcached | hscheduled | hflight | hfailed
      · exact Or.inl hcached
      · exact Or.inr (Or.inl hscheduled)
      · rcases hinFlight asked hflight with hmissing | hrest
        · exact Or.inr (Or.inr (Or.inr (List.mem_append_right _ hmissing)))
        · exact Or.inr (Or.inr (Or.inl hrest))
      · exact Or.inr (Or.inr (Or.inr (List.mem_append_left _ hfailed)))
  | some parsed =>
      refine ⟨hpending, htracked.timed, fun asked hasked => ?_⟩
      rcases htracked.known asked hasked with hcached | hscheduled | hflight | hfailed
      · left
        change ((parsed asked).or (page.queryCache asked)).isSome = true
        rw [Option.isSome_or, hcached, Bool.or_true]
      · exact Or.inr (Or.inl hscheduled)
      · rcases hinFlight asked hflight with hmissing | hrest
        · left
          change ((parsed asked).or (page.queryCache asked)).isSome = true
          rw [Option.isSome_or, hfetched parsed rfl asked hmissing, Bool.true_or]
        · exact Or.inr (Or.inr (Or.inl hrest))
      · exact Or.inr (Or.inr (Or.inr hfailed))

end Tracked

end Page

variable {backends : Url → Files} {page page' : Page Url}

/-- What a request that is delivered has read for one of its offsets. -/
theorem isSome_of_delivered {files : Files} {missing : List ℕ} {delivered : Bool}
    {parsed : ℕ → Option QueryEntry}
    (hparsed : (if delivered then fetchedQueries files missing else none) = some parsed) :
    (∀ offset ∈ missing, (parsed offset).isSome) ∧
      parsed = fun offset => if offset ∈ missing then storedQuery files offset else none := by
  cases delivered with
  | false => cases hparsed
  | true =>
      obtain ⟨hstored, rfl⟩ := stored_of_fetchedQueries hparsed
      refine ⟨fun offset hmem => ?_, rfl⟩
      dsimp only
      rw [if_pos hmem]
      exact Option.isSome_iff_ne_none.mpr (hstored offset hmem)

theorem tracked_step {event : Event Url} (htracked : page.Tracked)
    (hstep : step backends page event = some page') : page'.Tracked := by
  cases event with
  | queryCell offset =>
      cases hstep
      exact htracked.queryCellRenderer
  | timeout =>
      rw [step] at hstep
      split_ifs at hstep
      cases hstep
      exact htracked.onTimeout
  | detail queryOffset =>
      cases hstep
      exact htracked.renderDetail
  | detailParams paramsOffset =>
      rw [step] at hstep
      split_ifs at hstep
      cases hstep
      unfold Page.fetchParams
      split
      · exact htracked
      · exact ⟨htracked.pending, htracked.timed, htracked.known⟩
  | queries index delivered =>
      obtain ⟨request, hrequest, rfl⟩ := Option.map_eq_some_iff.mp hstep
      exact htracked.onQueries hrequest fun parsed hparsed => (isSome_of_delivered hparsed).1
  | params index delivered =>
      obtain ⟨request, hrequest, rfl⟩ := Option.map_eq_some_iff.mp hstep
      unfold Page.onParams
      split <;> exact ⟨htracked.pending, htracked.timed, htracked.known⟩
  | connect url =>
      cases hstep
      refine ⟨fun offset hoffset => ?_, fun hscheduled => ?_, fun offset hasked => ?_⟩
      · cases hoffset
      · exact absurd rfl hscheduled
      · cases hasked

theorem tracked_of_reaches {cond : Page Url → Event Url → Prop} {url : Url}
    (hreaches : Reaches (step backends) cond (Page.new url) page) : page.Tracked := by
  apply hreaches.invariant
  · refine ⟨fun offset hoffset => ?_, fun hscheduled => ?_, fun offset hasked => ?_⟩
    · cases hoffset
    · exact absurd rfl hscheduled
    · cases hasked
  · intro page event page' htracked _ hstep
    exact tracked_step htracked hstep

/-! ## What is shown is what the file has -/

/-- The page connects to a backend only when all requests on their way go to it. -/
def NoneElsewhere (page : Page Url) : Event Url → Prop
  | .connect url =>
      (∀ request ∈ page.queriesRequests, request.baseUrl = url) ∧
        ∀ request ∈ page.paramsRequests, request.baseUrl = url
  | _ => True

/-- All that is loaded, or on its way, is of the current backend. -/
structure Current (backends : Url → Files) (page : Page Url) : Prop where
  queriesRequests : ∀ request ∈ page.queriesRequests, request.baseUrl = page.currentBackendUrl
  paramsRequests : ∀ request ∈ page.paramsRequests, request.baseUrl = page.currentBackendUrl
  queries : ∀ offset entry, page.queryCache offset = some entry →
    storedQuery (backends page.currentBackendUrl) offset = some entry
  params : ∀ offset entry, page.paramsCache offset = some entry →
    fetchedParams (backends page.currentBackendUrl) offset = some entry

section Current

variable {offset index : ℕ} {offsets : List ℕ}

theorem Current.fetchQueries (hcurrent : Current backends page) :
    Current backends (page.fetchQueries offsets) := by
  unfold Page.fetchQueries
  split
  · exact hcurrent
  · refine ⟨fun request hrequest => ?_, hcurrent.paramsRequests, hcurrent.queries,
      hcurrent.params⟩
    rcases List.mem_append.mp hrequest with hbefore | hnew
    · exact hcurrent.queriesRequests request hbefore
    · rw [List.mem_singleton.mp hnew]
      rfl

theorem Current.queryCellRenderer (hcurrent : Current backends page) :
    Current backends (page.queryCellRenderer offset) := by
  have hkept : ∀ asked scheduled timeout, Current backends { page with
      asked := asked, pendingOffsetsToFetch := scheduled, fetchTimeout := timeout } :=
    fun _ _ _ => ⟨hcurrent.queriesRequests, hcurrent.paramsRequests, hcurrent.queries,
      hcurrent.params⟩
  unfold Page.queryCellRenderer Page.scheduleQueryFetch
  split_ifs <;> exact hkept _ _ _

theorem Current.fetchParams (hcurrent : Current backends page) :
    Current backends (page.fetchParams offset) := by
  unfold Page.fetchParams
  split
  · exact hcurrent
  · refine ⟨hcurrent.queriesRequests, fun request hrequest => ?_, hcurrent.queries,
      hcurrent.params⟩
    rcases List.mem_append.mp hrequest with hbefore | hnew
    · exact hcurrent.paramsRequests request hbefore
    · rw [List.mem_singleton.mp hnew]

theorem Current.onQueries {request : QueriesRequest Url} {delivered : Bool}
    (hcurrent : Current backends page) (hrequest : page.queriesRequests[index]? = some request) :
    Current backends ((page.endQueries index).onQueries request.missing
      (if delivered then fetchedQueries (backends request.baseUrl) request.missing else none)) := by
  have hleft : ∀ request ∈ page.queriesRequests.eraseIdx index,
      request.baseUrl = page.currentBackendUrl := fun request hmem =>
    hcurrent.queriesRequests request (List.mem_of_mem_eraseIdx hmem)
  have hurl := hcurrent.queriesRequests request (List.mem_of_getElem? hrequest)
  cases hfetched : (if delivered then fetchedQueries (backends request.baseUrl) request.missing
      else none) with
  | none => exact ⟨hleft, hcurrent.paramsRequests, hcurrent.queries, hcurrent.params⟩
  | some parsed =>
      refine ⟨hleft, hcurrent.paramsRequests, fun offset entry hentry => ?_, hcurrent.params⟩
      obtain ⟨-, rfl⟩ := isSome_of_delivered hfetched
      rcases Option.or_eq_some_iff.mp hentry with hparsed | ⟨-, hbefore⟩
      · dsimp only at hparsed
        split_ifs at hparsed with hmem
        rw [hurl] at hparsed
        exact hparsed
      · exact hcurrent.queries offset entry hbefore

theorem Current.onParams {request : ParamsRequest Url} {delivered : Bool}
    (hcurrent : Current backends page) (hrequest : page.paramsRequests[index]? = some request) :
    Current backends ((page.endParams index).onParams request.offset
      (if delivered then fetchedParams (backends request.baseUrl) request.offset else none)) := by
  have hleft : ∀ request ∈ page.paramsRequests.eraseIdx index,
      request.baseUrl = page.currentBackendUrl := fun request hmem =>
    hcurrent.paramsRequests request (List.mem_of_mem_eraseIdx hmem)
  have hurl := hcurrent.paramsRequests request (List.mem_of_getElem? hrequest)
  cases hfetched : (if delivered then fetchedParams (backends request.baseUrl) request.offset
      else none) with
  | none => exact ⟨hcurrent.queriesRequests, hleft, hcurrent.queries, hcurrent.params⟩
  | some parsed =>
      refine ⟨hcurrent.queriesRequests, hleft, hcurrent.queries, fun offset entry hentry => ?_⟩
      by_cases hoffset : offset = request.offset
      · subst hoffset
        have hsame : parsed = entry := by
          simpa [Page.onParams] using hentry
        cases delivered with
        | false => cases hfetched
        | true =>
            rw [hurl, hsame] at hfetched
            exact hfetched
      · apply hcurrent.params offset entry
        simpa [Page.onParams, hoffset, Page.endParams] using hentry

theorem current_step {event : Event Url} (hcurrent : Current backends page)
    (hcond : NoneElsewhere page event) (hstep : step backends page event = some page') :
    Current backends page' := by
  cases event with
  | queryCell offset =>
      cases hstep
      exact hcurrent.queryCellRenderer
  | timeout =>
      rw [step] at hstep
      split_ifs at hstep
      cases hstep
      have hcleared : Current backends page.clearTimeout := ⟨hcurrent.queriesRequests,
        hcurrent.paramsRequests, hcurrent.queries, hcurrent.params⟩
      rw [Page.onTimeout_eq]
      exact hcleared.fetchQueries
  | detail queryOffset =>
      cases hstep
      have hasked : Current backends (page.ask queryOffset) := ⟨hcurrent.queriesRequests,
        hcurrent.paramsRequests, hcurrent.queries, hcurrent.params⟩
      exact hasked.fetchQueries
  | detailParams paramsOffset =>
      rw [step] at hstep
      split_ifs at hstep
      cases hstep
      exact hcurrent.fetchParams
  | queries index delivered =>
      obtain ⟨request, hrequest, rfl⟩ := Option.map_eq_some_iff.mp hstep
      exact hcurrent.onQueries hrequest
  | params index delivered =>
      obtain ⟨request, hrequest, rfl⟩ := Option.map_eq_some_iff.mp hstep
      exact hcurrent.onParams hrequest
  | connect url =>
      cases hstep
      obtain ⟨hqueries, hparams⟩ := hcond
      refine ⟨hqueries, hparams, ?_, ?_⟩
      · rintro offset entry ⟨⟩
      · rintro offset entry ⟨⟩

theorem current_of_reaches {url : Url}
    (hreaches : Reaches (step backends) NoneElsewhere (Page.new url) page) :
    Current backends page := by
  apply hreaches.invariant
  · refine ⟨List.forall_mem_nil _, List.forall_mem_nil _, ?_, ?_⟩
    · rintro offset entry ⟨⟩
    · rintro offset entry ⟨⟩
  · intro page event page' hcurrent hcond hstep
    exact current_step hcurrent hcond hstep

end Current

/-- No timer is set and no request for queries is on its way. -/
structure Idle (page : Page Url) : Prop where
  noTimeout : page.fetchTimeout = false
  noRequests : page.queriesRequests = []

/-- A page that is idle shows each text it was asked for as the file of its backend has it,
unless a request for this text has failed.  No response of another backend is in between
when the page never connects elsewhere with a request on its way. -/
theorem idle_page_shows_file {url : Url}
    (hreaches : Reaches (step backends) NoneElsewhere (Page.new url) page) (hidle : Idle page) :
    ∀ offset ∈ page.asked,
      (∃ record, HoldsAt (backends page.currentBackendUrl) record offset ∧
        page.queryCache offset = some (entryOf record)) ∨
      (page.queryCache offset = none ∧ offset ∈ page.failed) := by
  intro offset hasked
  have htracked := tracked_of_reaches hreaches
  cases hcached : page.queryCache offset with
  | some entry =>
      have hstored := (current_of_reaches hreaches).queries offset entry hcached
      obtain ⟨record, hrecord, rfl⟩ := storedQuery_eq_some_iff.mp hstored
      exact Or.inl ⟨record, hrecord, rfl⟩
  | none =>
      refine Or.inr ⟨rfl, ?_⟩
      rcases htracked.known offset hasked with hthere | hscheduled | hflight | hfailed
      · rw [hcached] at hthere
        cases hthere
      · have htimed := htracked.timed (List.ne_nil_of_mem hscheduled)
        cases htimed.symm.trans hidle.noTimeout
      · rw [Page.inFlight, hidle.noRequests] at hflight
        cases hflight
      · exact hfailed

instance [DecidableEq Url] (page : Page Url) (event : Event Url) :
    Decidable (NoneElsewhere page event) :=
  match event with
  | .connect url => inferInstanceAs (Decidable
      ((∀ request ∈ page.queriesRequests, request.baseUrl = url) ∧
        ∀ request ∈ page.paramsRequests, request.baseUrl = url))
  | .queryCell _ | .timeout | .detail _ | .detailParams _ | .queries .. | .params .. =>
      isTrue trivial

/-- A backend of one query, the letter `a`. -/
def oneQuery : Files where
  queries := [1, 0, 0, 0, 97, 0, 0]
  params := []

/-- A cell is rendered twice, and its text is fetched once. -/
def cellEvents : List (Event Unit) :=
  [.queryCell 0, .queryCell 0, .timeout, .queries 0 true]

theorem idle_page_shows_file_cell : ∃ page : Page Unit,
    Reaches (step fun _ => oneQuery) NoneElsewhere (Page.new ()) page ∧ page.asked = [0, 0] ∧
      ∃ record, HoldsAt oneQuery record 0 ∧ page.queryCache 0 = some (entryOf record) := by
  have hrun : ∃ page : Page Unit, runWhile (step fun _ => oneQuery) NoneElsewhere (Page.new ())
      cellEvents = some page ∧ page.fetchTimeout = false ∧ page.queriesRequests = [] ∧
        page.asked = [0, 0] ∧ page.failed = [] := ⟨_, rfl, rfl, rfl, rfl, rfl⟩
  obtain ⟨page, hpage, hno, hnone, hasked, hfailed⟩ := hrun
  have hreaches := reaches_of_runWhile hpage
  have hmem : 0 ∈ page.asked := hasked ▸ List.mem_cons_self
  refine ⟨page, hreaches, hasked, ?_⟩
  rcases idle_page_shows_file hreaches ⟨hno, hnone⟩ 0 hmem with hshown | ⟨-, hlost⟩
  · exact hshown
  · rw [hfailed] at hlost
    cases hlost

/-! ## How often an offset is requested -/

/-- The page connects only when no request for queries is on its way. -/
def NoneOnItsWay (page : Page Url) : Event Url → Prop
  | .connect _ => page.queriesRequests = []
  | _ => True

structure Counted (page : Page Url) : Prop where
  scheduled_nodup : page.pendingOffsetsToFetch.Nodup
  inFlight_nodup : page.inFlight.Nodup
  pending_iff : ∀ offset, offset ∈ page.queryPending ↔ offset ∈ page.inFlight
  uncached : ∀ offset ∈ page.inFlight, page.queryCache offset = none
  counted : ∀ offset, page.sent.count offset = page.failed.count offset +
    page.inFlight.count offset + if (page.queryCache offset).isSome then 1 else 0

section Counted

variable {offset index : ℕ} {offsets : List ℕ}

theorem Counted.fetchQueries (hcounted : Counted page) (hoffsets : offsets.Nodup) :
    Counted (page.fetchQueries offsets) where
  scheduled_nodup := by
    rw [Page.fetchQueries_pendingOffsetsToFetch]
    exact hcounted.scheduled_nodup
  inFlight_nodup := by
    rw [Page.fetchQueries_inFlight]
    apply hcounted.inFlight_nodup.append (hoffsets.filter _)
    intro offset hflight hmissing
    exact (Page.mem_missingOf.mp hmissing).2.2 ((hcounted.pending_iff offset).mpr hflight)
  pending_iff offset := by
    rw [Page.fetchQueries_queryPending, Page.fetchQueries_inFlight, Finset.mem_union,
      List.mem_toFinset, List.mem_append, hcounted.pending_iff]
  uncached offset := by
    rw [Page.fetchQueries_inFlight, Page.fetchQueries_queryCache, List.mem_append]
    rintro (hflight | hmissing)
    · exact hcounted.uncached offset hflight
    · exact (Page.mem_missingOf.mp hmissing).2.1
  counted offset := by
    rw [Page.fetchQueries_sent, Page.fetchQueries_failed, Page.fetchQueries_inFlight,
      Page.fetchQueries_queryCache, List.count_append, List.count_append, hcounted.counted]
    ring

theorem Counted.queryCellRenderer (hcounted : Counted page) :
    Counted (page.queryCellRenderer offset) := by
  have hkept : ∀ asked scheduled timeout, scheduled.Nodup → Counted { page with
      asked := asked, pendingOffsetsToFetch := scheduled, fetchTimeout := timeout } :=
    fun _ _ _ hnodup => ⟨hnodup, hcounted.inFlight_nodup, hcounted.pending_iff,
      hcounted.uncached, hcounted.counted⟩
  unfold Page.queryCellRenderer Page.scheduleQueryFetch
  split_ifs
  · exact hkept _ _ _ hcounted.scheduled_nodup
  · exact hkept _ _ _ hcounted.scheduled_nodup
  · apply hkept
    unfold Page.addOffset
    split
    · exact hcounted.scheduled_nodup
    · rename_i hnew
      exact List.nodup_append'.mpr ⟨hcounted.scheduled_nodup, List.nodup_singleton _,
        List.disjoint_singleton.mpr hnew⟩

theorem Counted.onQueries {request : QueriesRequest Url} {delivered : Bool} {files : Files}
    (hcounted : Counted page) (hrequest : page.queriesRequests[index]? = some request) :
    Counted ((page.endQueries index).onQueries request.missing
      (if delivered then fetchedQueries files request.missing else none)) := by
  have hperm := Page.inFlight_perm hrequest
  have hnodup := hperm.nodup_iff.mp hcounted.inFlight_nodup
  obtain ⟨hmissing, hleft, hdisjoint⟩ := List.nodup_append'.mp hnodup
  have hmem : ∀ offset, offset ∈ page.inFlight ↔
      offset ∈ request.missing ∨ offset ∈ (page.endQueries index).inFlight := by
    intro offset
    rw [hperm.mem_iff, List.mem_append]
  have hpending : ∀ offset, offset ∈ page.queryPending \ request.missing.toFinset ↔
      offset ∈ (page.endQueries index).inFlight := by
    intro offset
    rw [Finset.mem_sdiff, List.mem_toFinset, hcounted.pending_iff, hmem]
    constructor
    · rintro ⟨hhere | hthere, hother⟩
      · exact absurd hhere hother
      · exact hthere
    · intro hthere
      exact ⟨Or.inr hthere, fun hhere => hdisjoint hhere hthere⟩
  have huncached : ∀ offset ∈ (page.endQueries index).inFlight, page.queryCache offset = none :=
    fun offset hthere => hcounted.uncached offset ((hmem offset).mpr (Or.inr hthere))
  have hsent : ∀ offset, page.sent.count offset = page.failed.count offset +
      (request.missing.count offset + (page.endQueries index).inFlight.count offset) +
        if (page.queryCache offset).isSome then 1 else 0 := by
    intro offset
    rw [hcounted.counted, hperm.count_eq, List.count_append]
  cases hfetched : (if delivered then fetchedQueries files request.missing else none) with
  | none =>
      refine ⟨hcounted.scheduled_nodup, hleft, hpending, huncached, fun offset => ?_⟩
      calc page.sent.count offset
          = page.failed.count offset + (request.missing.count offset +
              (page.endQueries index).inFlight.count offset) +
              if (page.queryCache offset).isSome then 1 else 0 := hsent offset
        _ = (page.failed ++ request.missing).count offset +
              (page.endQueries index).inFlight.count offset +
              if (page.queryCache offset).isSome then 1 else 0 := by
            rw [List.count_append]
            ring
  | some parsed =>
      obtain ⟨hall, rfl⟩ := isSome_of_delivered hfetched
      refine ⟨hcounted.scheduled_nodup, hleft, hpending, fun offset hthere => ?_,
        fun offset => ?_⟩
      · have hother : offset ∉ request.missing := fun hhere => hdisjoint hhere hthere
        change ((if offset ∈ request.missing then storedQuery files offset else none).or
          (page.queryCache offset)) = none
        rw [if_neg hother, huncached offset hthere]
        rfl
      · change page.sent.count offset = page.failed.count offset +
          (page.endQueries index).inFlight.count offset +
            if ((if offset ∈ request.missing then storedQuery files offset else none).or
              (page.queryCache offset)).isSome then 1 else 0
        rw [hsent]
        by_cases hhere : offset ∈ request.missing
        · have hstored := hall offset hhere
          dsimp only at hstored
          rw [Option.isSome_or, hstored, hcounted.uncached offset ((hmem offset).mpr
            (Or.inl hhere)), List.count_eq_one_of_mem hmissing hhere]
          simp only [Option.isSome_none, Bool.true_or, if_true, Bool.false_eq_true, if_false]
          ring
        · rw [if_neg hhere, List.count_eq_zero_of_not_mem hhere, Option.none_or, Nat.zero_add]

theorem counted_step {event : Event Url} (hcounted : Counted page)
    (hcond : NoneOnItsWay page event) (hstep : step backends page event = some page') :
    Counted page' := by
  cases event with
  | queryCell offset =>
      cases hstep
      exact hcounted.queryCellRenderer
  | timeout =>
      rw [step] at hstep
      split_ifs at hstep
      cases hstep
      have hcleared : Counted page.clearTimeout := ⟨List.nodup_nil, hcounted.inFlight_nodup,
        hcounted.pending_iff, hcounted.uncached, hcounted.counted⟩
      rw [Page.onTimeout_eq]
      exact hcleared.fetchQueries hcounted.scheduled_nodup
  | detail queryOffset =>
      cases hstep
      have hasked : Counted (page.ask queryOffset) := ⟨hcounted.scheduled_nodup,
        hcounted.inFlight_nodup, hcounted.pending_iff, hcounted.uncached, hcounted.counted⟩
      exact hasked.fetchQueries (List.nodup_singleton _)
  | detailParams paramsOffset =>
      rw [step] at hstep
      split_ifs at hstep
      cases hstep
      unfold Page.fetchParams
      split
      · exact hcounted
      · exact ⟨hcounted.scheduled_nodup, hcounted.inFlight_nodup, hcounted.pending_iff,
          hcounted.uncached, hcounted.counted⟩
  | queries index delivered =>
      obtain ⟨request, hrequest, rfl⟩ := Option.map_eq_some_iff.mp hstep
      exact hcounted.onQueries hrequest
  | params index delivered =>
      obtain ⟨request, hrequest, rfl⟩ := Option.map_eq_some_iff.mp hstep
      unfold Page.onParams
      split <;> exact ⟨hcounted.scheduled_nodup, hcounted.inFlight_nodup, hcounted.pending_iff,
        hcounted.uncached, hcounted.counted⟩
  | connect url =>
      cases hstep
      have hnone : (page.loadData url).inFlight = [] := by
        have hrequests : page.queriesRequests = [] := hcond
        simp [Page.inFlight, Page.loadData, hrequests]
      refine ⟨List.nodup_nil, ?_, fun offset => ?_, fun offset _ => rfl, fun offset => ?_⟩
      · rw [hnone]
        exact List.nodup_nil
      · rw [hnone]
        simp [Page.loadData]
      · rw [hnone]
        rfl

/-- Since the last connect each offset has been requested as often as its requests have
failed, and once more if its text is there or on its way.  So no text is loaded twice, and
none is requested by two requests at once, when the page never connects with a request on
its way. -/
theorem requests_counted {url : Url}
    (hreaches : Reaches (step backends) NoneOnItsWay (Page.new url) page) (offset : ℕ) :
    page.sent.count offset = page.failed.count offset +
      if (page.queryCache offset).isSome ∨ offset ∈ page.inFlight then 1 else 0 := by
  have hcounted : Counted page := by
    apply hreaches.invariant
    · refine ⟨List.nodup_nil, List.nodup_nil, fun offset => ?_, fun offset _ => rfl,
        fun offset => rfl⟩
      simp [Page.new, Page.inFlight]
    · intro page event page' hcounted hcond hstep
      exact counted_step hcounted hcond hstep
  rw [hcounted.counted]
  by_cases hflight : offset ∈ page.inFlight
  · rw [List.count_eq_one_of_mem hcounted.inFlight_nodup hflight, hcounted.uncached offset hflight,
      if_pos (Or.inr hflight)]
    rfl
  · rw [List.count_eq_zero_of_not_mem hflight]
    simp only [hflight, or_false, Nat.add_zero]

end Counted

instance (page : Page Url) (event : Event Url) : Decidable (NoneOnItsWay page event) :=
  match event with
  | .connect _ => decidable_of_iff (page.queriesRequests.isEmpty = true) List.isEmpty_iff
  | .queryCell _ | .timeout | .detail _ | .detailParams _ | .queries .. | .params .. =>
      isTrue trivial

theorem requests_counted_cell : ∃ page : Page Unit,
    Reaches (step fun _ => oneQuery) NoneOnItsWay (Page.new ()) page ∧ page.asked = [0, 0] ∧
      page.sent.count 0 = 1 := by
  have hrun : ∃ page : Page Unit, runWhile (step fun _ => oneQuery) NoneOnItsWay (Page.new ())
      cellEvents = some page ∧ page.asked = [0, 0] ∧ page.failed = [] ∧
        (page.queryCache 0).isSome = true := ⟨_, rfl, rfl, rfl, rfl⟩
  obtain ⟨page, hpage, hasked, hfailed, hcached⟩ := hrun
  have hreaches := reaches_of_runWhile hpage
  refine ⟨page, hreaches, hasked, ?_⟩
  rw [requests_counted hreaches 0, hfailed, if_pos (Or.inl hcached)]
  rfl

end Pgr.ViewerPage
