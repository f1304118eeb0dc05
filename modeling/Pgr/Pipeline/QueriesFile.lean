import Pgr.Analysis.Storage
import Pgr.Analysis.Viewer

/-!
# The queries file between analyzer and viewer

`map_query` stores a query under the hash of its text, so two calls share an
entry when their hashes agree, whatever their texts and parameter types are.
`read_queries` of `viewer.rs` cuts the entry out of the file and `parseQueries`
of `api.ts` decodes it.  A call reads back what it passed exactly when no other
call of the run shares its hash with other arguments, its text can be counted
in four bytes and does not begin with a byte order mark.
-/

namespace Pgr.QueriesFile

open Pgr.FixedWidth Pgr.Decoding Pgr.Utf8Lossy Pgr.Storage Pgr.Viewer

/-! ## Readers -/

/-- The length of the entry at the front of `buf`. -/
def queryEntryLength (buf : List UInt8) : Except ReadError ℕ := do
  checkLength buf 4 "truncated query text len"
  let textLen := leAt 4 buf 0
  let afterText := 4 + textLen
  checkLength buf (afterText + 2) "truncated oid count"
  let oidCount := leAt 2 buf afterText
  let total := afterText + 2 + oidCount * 4
  checkLength buf total "truncated oids"
  pure total

def readQueries (queries : List UInt8) : (offsets : List ℕ) → Except ReadError (List UInt8)
  | [] => .ok []
  | offset :: offsets =>
      if queries.length < offset then .error .outOfRange
      else do
        let buf := queries.drop offset
        let total ← queryEntryLength buf
        let out ← readQueries queries offsets
        pure (buf.take total ++ out)

structure QueryEntry where
  text : String
  oids : List UInt32
  deriving DecidableEq

/-- The UTF-8 byte order mark. -/
def byteOrderMark : List UInt8 := [0xEF, 0xBB, 0xBF]

/-- `TextDecoder.decode`: lossy, and a byte order mark in front is dropped. -/
def decodeText (bytes : List UInt8) : String :=
  if byteOrderMark <+: bytes then fromUtf8Lossy (bytes.drop 3) else fromUtf8Lossy bytes

def getUint32 : ViewReader UInt32 := do
  let value ← getUint 4
  pure (UInt32.ofNat value)

def parseQueryEntry : ViewReader QueryEntry := do
  let textLen ← getUint 4
  let textBytes ← readExact .outOfBounds textLen
  let oidCount ← getUint 2
  let oids ← readMany getUint32 oidCount
  pure ⟨decodeText textBytes, oids⟩

/-- The loop of `parseQueries`, with the entries it has set so far. -/
def parseQueriesLoop : (offsets : List ℕ) → (out : ℕ → Option QueryEntry) →
    ViewReader (ℕ → Option QueryEntry)
  | [], out => pure out
  | offset :: offsets, out => do
      let entry ← parseQueryEntry
      parseQueriesLoop offsets (Function.update out offset (some entry))

def parseQueries (buf : List UInt8) (offsets : List ℕ) : Option (ℕ → Option QueryEntry) :=
  match parseQueriesLoop offsets (fun _ => none) buf with
  | .ok out _ => some out
  | .error _ _ => none

/-! ## Calls -/

/-- The arguments of `map_query`; a Parse message counts its types in two bytes. -/
structure QueryCall where
  text : String
  parameterTypes : List UInt32
  parameterTypes_le : parameterTypes.length ≤ 65535
  deriving DecidableEq

section Calls

variable (hashText : String → UInt64)

/-- The offsets a sequence of calls returns. -/
def mapQueries : List QueryCall → StorageWriter → List ℕ × StorageWriter
  | [], writer => ([], writer)
  | call :: calls, writer =>
      let first := mapQuery hashText call.text call.parameterTypes writer
      let rest := mapQueries calls first.2
      (first.1 :: rest.1, rest.2)

/-- The calls with the offsets that a new writer returns for them. -/
def answers (calls : List QueryCall) : List (QueryCall × ℕ) :=
  calls.zip (mapQueries hashText calls StorageWriter.new).1

def queriesFileOf (calls : List QueryCall) : List UInt8 :=
  (mapQueries hashText calls StorageWriter.new).2.queryFile

/-- At the offset that a call returned stands an entry with its arguments. -/
def RoundTrips (calls : List QueryCall) : Prop :=
  ∀ answer ∈ answers hashText calls, ∃ bytes entries,
    readQueries (queriesFileOf hashText calls) [answer.2] = .ok bytes ∧
      parseQueries bytes [answer.2] = some entries ∧
      entries answer.2 = some ⟨answer.1.text, answer.1.parameterTypes⟩

/-- Calls whose hashes agree agree in all, every text can be counted, and none
begins with a byte order mark. -/
structure Distinguishes (calls : List QueryCall) : Prop where
  same : ∀ call ∈ calls, ∀ other ∈ calls, hashText call.text = hashText other.text → call = other
  counted : ∀ call ∈ calls, (asBytes call.text).length < 2 ^ 32
  unmarked : ∀ call ∈ calls, ¬byteOrderMark <+: asBytes call.text

end Calls

/-! ## The layout -/

/-- The bytes `map_query` appends for a call. -/
def entryBytes (call : QueryCall) : List UInt8 :=
  leBytes 4 (asBytes call.text).length ++ (asBytes call.text ++
    (leBytes 2 call.parameterTypes.length ++
      call.parameterTypes.flatMap fun oid => leBytes 4 oid.toNat))

theorem length_entryBytes (call : QueryCall) : (entryBytes call).length =
    4 + (asBytes call.text).length + 2 + call.parameterTypes.length * 4 := by
  simp only [entryBytes, List.length_append, length_leBytes, List.length_flatMap,
    List.map_const', List.sum_replicate_nat]
  omega

theorem parameterTypes_lt (call : QueryCall) : call.parameterTypes.length < 256 ^ 2 :=
  Nat.lt_succ_of_le call.parameterTypes_le

theorem decodes_getUint32 (oid : UInt32) :
    Decodes .outOfBounds getUint32 (leBytes 4 oid.toNat) oid := by
  have hoid := (decodes_getUint 4 oid.toNat_lt).bind_pure (f := UInt32.ofNat)
  rwa [UInt32.ofNat_toNat] at hoid

theorem decodes_parseQueryEntry {call : QueryCall} (hcounted : (asBytes call.text).length < 2 ^ 32) :
    Decodes .outOfBounds parseQueryEntry (entryBytes call)
      ⟨decodeText (asBytes call.text), call.parameterTypes⟩ := by
  have hoids : Decodes .outOfBounds (readMany getUint32 call.parameterTypes.length)
      (call.parameterTypes.flatMap fun oid => leBytes 4 oid.toNat) call.parameterTypes :=
    Decodes.readMany_self _ fun oid _ => decodes_getUint32 oid
  refine (decodes_getUint 4 hcounted).bind ?_
  refine (Decodes.readExact rfl).bind ?_
  refine (decodes_getUint 2 (parameterTypes_lt call)).bind ?_
  exact hoids.bind_pure

theorem queryEntryLength_entryBytes {call : QueryCall}
    (hcounted : (asBytes call.text).length < 2 ^ 32) (tail : List UInt8) :
    queryEntryLength (entryBytes call ++ tail) = .ok (entryBytes call).length := by
  have hlength := length_entryBytes call
  have hcounted : (asBytes call.text).length < 256 ^ 4 := hcounted
  have htext : leAt 4 (entryBytes call ++ tail) 0 = (asBytes call.text).length := by
    have hread := leAt_append [] ((asBytes call.text ++
      (leBytes 2 call.parameterTypes.length ++
        call.parameterTypes.flatMap fun oid => leBytes 4 oid.toNat)) ++ tail) hcounted
    simpa [entryBytes] using hread
  have hoids : leAt 2 (entryBytes call ++ tail) (4 + (asBytes call.text).length) =
      call.parameterTypes.length := by
    have hread := leAt_append (leBytes 4 (asBytes call.text).length ++ asBytes call.text)
      ((call.parameterTypes.flatMap fun oid => leBytes 4 oid.toNat) ++ tail)
      (parameterTypes_lt call)
    simpa [entryBytes] using hread
  have hfits : ∀ stop, stop ≤ (entryBytes call).length →
      stop ≤ (entryBytes call ++ tail).length := fun stop hstop => by
    rw [List.length_append]
    exact Nat.le_add_right_of_le hstop
  simp only [queryEntryLength, htext, hoids]
  rw [checkLength_eq_ok _ (hfits _ (by omega)), checkLength_eq_ok _ (hfits _ (by omega)),
    checkLength_eq_ok _ (hfits _ (by omega)), hlength]
  rfl

/-! ## What a run leaves in the writer -/

section Run

variable {hashText : String → UInt64} {calls : List QueryCall} {call : QueryCall}
variable {writer : StorageWriter} {key : UInt64} {offset : ℕ}

/-- The map names positions of entries of calls made so far. -/
structure Stores (hashText : String → UInt64) (calls : List QueryCall)
    (writer : StorageWriter) : Prop where
  queryOffset : writer.queryOffset = writer.queryFile.length
  entry : ∀ key offset, writer.queryMap.lookup key = some offset →
    ∃ call ∈ calls, hashText call.text = key ∧ offset ≤ writer.queryFile.length ∧
      entryBytes call <+: writer.queryFile.drop offset

theorem stores_new : Stores hashText [] StorageWriter.new :=
  ⟨rfl, fun key offset hlookup => by simp [StorageWriter.new] at hlookup⟩

theorem queryFile_mapQuery_of_new (hnew : writer.queryMap.lookup (hashText call.text) = none) :
    mapQuery hashText call.text call.parameterTypes writer = (writer.queryOffset,
      { writer with
        queryFile := writer.queryFile ++ entryBytes call
        queryOffset := writer.queryOffset + (entryBytes call).length
        queryMap := writer.queryMap.insert (hashText call.text) writer.queryOffset }) := by
  simp only [mapQuery, hnew, length_entryBytes]
  simp [entryBytes]

theorem Stores.mapQuery (hstores : Stores hashText calls writer) :
    Stores hashText (calls ++ [call])
      (mapQuery hashText call.text call.parameterTypes writer).2 := by
  cases hlookup : writer.queryMap.lookup (hashText call.text) with
  | some offset =>
      simp only [Storage.mapQuery, hlookup]
      refine ⟨hstores.queryOffset, fun key offset hkey => ?_⟩
      obtain ⟨earlier, hearlier, hentry⟩ := hstores.entry key offset hkey
      exact ⟨earlier, List.mem_append_left _ hearlier, hentry⟩
  | none =>
      rw [queryFile_mapQuery_of_new hlookup]
      constructor
      · simp [hstores.queryOffset]
      · intro key offset hkey
        by_cases hsame : key = hashText call.text
        · subst hsame
          rw [AList.lookup_insert] at hkey
          obtain rfl := Option.some.inj hkey
          refine ⟨call, by simp, rfl, ?_, ?_⟩
          · simp [hstores.queryOffset]
          · rw [hstores.queryOffset]
            simp
        · rw [AList.lookup_insert_ne hsame] at hkey
          obtain ⟨earlier, hearlier, hhash, hle, hinitial⟩ := hstores.entry key offset hkey
          refine ⟨earlier, List.mem_append_left _ hearlier, hhash, ?_, ?_⟩
          · rw [List.length_append]
            exact Nat.le_add_right_of_le hle
          · rw [List.drop_append_of_le_length hle]
            exact hinitial.trans (List.prefix_append _ _)

/-- The map keeps what it has. -/
theorem lookup_mapQuery_of_some (hkey : writer.queryMap.lookup key = some offset) :
    (mapQuery hashText call.text call.parameterTypes writer).2.queryMap.lookup key =
      some offset := by
  cases hlookup : writer.queryMap.lookup (hashText call.text) with
  | some other => simpa only [Storage.mapQuery, hlookup] using hkey
  | none =>
      have hne : key ≠ hashText call.text := fun heq => by
        rw [heq, hlookup] at hkey
        nomatch hkey
      rw [queryFile_mapQuery_of_new hlookup]
      simpa [AList.lookup_insert_ne hne] using hkey

/-- The returned offset is the one in the map. -/
theorem lookup_mapQuery :
    (mapQuery hashText call.text call.parameterTypes writer).2.queryMap.lookup
        (hashText call.text) =
      some (mapQuery hashText call.text call.parameterTypes writer).1 := by
  cases hlookup : writer.queryMap.lookup (hashText call.text) with
  | some other => simp only [Storage.mapQuery, hlookup]
  | none =>
      rw [queryFile_mapQuery_of_new hlookup]
      simp

theorem lookup_mapQueries_of_some (hkey : writer.queryMap.lookup key = some offset) :
    (mapQueries hashText calls writer).2.queryMap.lookup key = some offset := by
  induction calls generalizing writer with
  | nil => exact hkey
  | cons call calls ih => exact ih (lookup_mapQuery_of_some hkey)

theorem lookup_mapQueries (hanswer : (call, offset) ∈
      calls.zip (mapQueries hashText calls writer).1) :
    (mapQueries hashText calls writer).2.queryMap.lookup (hashText call.text) = some offset := by
  induction calls generalizing writer with
  | nil => nomatch hanswer
  | cons first calls ih =>
      rw [mapQueries, List.zip_cons_cons, List.mem_cons] at hanswer
      rcases hanswer with heq | hlater
      · obtain ⟨rfl, rfl⟩ := Prod.mk.inj heq
        rw [mapQueries]
        exact lookup_mapQueries_of_some lookup_mapQuery
      · exact ih hlater

theorem Stores.mapQueries {later : List QueryCall} (hstores : Stores hashText calls writer) :
    Stores hashText (calls ++ later) (mapQueries hashText later writer).2 := by
  induction later generalizing calls writer with
  | nil =>
      rw [List.append_nil]
      exact hstores
  | cons call later ih =>
      have hfirst : Stores hashText (calls ++ [call])
          (Storage.mapQuery hashText call.text call.parameterTypes writer).2 := hstores.mapQuery
      have hrest := ih hfirst
      rwa [List.append_assoc] at hrest

theorem length_mapQueries (calls : List QueryCall) (writer : StorageWriter) :
    (mapQueries hashText calls writer).1.length = calls.length := by
  induction calls generalizing writer with
  | nil => rfl
  | cons call calls ih => simp [QueriesFile.mapQueries, ih]

theorem exists_answer (hashText : String → UInt64) (hcall : call ∈ calls) :
    ∃ offset, (call, offset) ∈ answers hashText calls := by
  obtain ⟨i, hi, rfl⟩ := List.getElem_of_mem hcall
  have hzip : i < (answers hashText calls).length := by
    simpa [answers, length_mapQueries] using hi
  exact ⟨_, by simpa [answers] using List.getElem_mem hzip⟩

/-- At the offset of an answer stands the entry of a call with the same hash. -/
theorem exists_entry_of_answer (hanswer : (call, offset) ∈ answers hashText calls) :
    ∃ stored ∈ calls, hashText stored.text = hashText call.text ∧
      offset ≤ (queriesFileOf hashText calls).length ∧
      entryBytes stored <+: (queriesFileOf hashText calls).drop offset := by
  have hstores : Stores hashText ([] ++ calls) (mapQueries hashText calls StorageWriter.new).2 :=
    stores_new.mapQueries
  exact hstores.entry _ _ (lookup_mapQueries hanswer)

end Run

/-! ## Decoding what was stored -/

section Decode

variable {call : QueryCall} {offset : ℕ} {buf : List UInt8} {entries : ℕ → Option QueryEntry}

theorem parseQueryEntry_of_parseQueries (hparse : parseQueries buf [offset] = some entries) :
    ∃ entry rest, parseQueryEntry buf = .ok entry rest ∧ entries offset = some entry := by
  rw [parseQueries] at hparse
  split at hparse
  next out tail hloop =>
    obtain ⟨entry, rest, hentry, hpure⟩ := bind_eq_ok hloop
    obtain ⟨rfl, -⟩ := pure_eq_ok hpure
    cases hparse
    exact ⟨entry, rest, hentry, by simp⟩
  next => cases hparse

/-- The text of a decoded entry comes from the bytes behind the length. -/
theorem exists_text_of_parseQueryEntry {entry : QueryEntry} {rest : List UInt8}
    (hparse : parseQueryEntry buf = .ok entry rest) :
    ∃ textBytes tail, buf = leBytes 4 textBytes.length ++ (textBytes ++ tail) ∧
      textBytes.length < 2 ^ 32 ∧ entry.text = decodeText textBytes := by
  obtain ⟨textLen, middle, hlen, hparse⟩ := bind_eq_ok hparse
  obtain ⟨textBytes, later, htext, hparse⟩ := bind_eq_ok hparse
  obtain ⟨oidCount, _, -, hparse⟩ := bind_eq_ok hparse
  obtain ⟨oids, _, -, hpure⟩ := bind_eq_ok hparse
  obtain ⟨rfl, -⟩ := pure_eq_ok hpure
  obtain ⟨_, rfl, rfl, hlt⟩ := consumes_getUint 4 _ _ _ hlen
  obtain ⟨_, rfl, rfl, rfl⟩ := consumes_readExact _ _ _ _ _ htext
  exact ⟨textBytes, later, rfl, hlt, rfl⟩

theorem exists_prefix_of_readQueries {queries : List UInt8}
    (hread : readQueries queries [offset] = .ok buf) : buf <+: queries.drop offset := by
  rw [readQueries] at hread
  split_ifs at hread
  cases hlength : queryEntryLength (queries.drop offset) with
  | error failure =>
      simp only [hlength, bind, Except.bind] at hread
      nomatch hread
  | ok total =>
      simp only [hlength, bind, Except.bind, readQueries, pure, Except.pure, List.append_nil,
        Except.ok.injEq] at hread
      rw [← hread]
      exact List.take_prefix _ _

theorem asBytes_ofList (chars : List Char) :
    asBytes (String.ofList chars) = chars.flatMap String.utf8EncodeChar := by
  rw [asBytes, String.toList_ofList]

/-- A text behind a byte order mark begins with its character. -/
theorem eq_cons_of_byteOrderMark {text : String} (hmark : byteOrderMark <+: asBytes text) :
    ∃ chars, text.toList = Char.ofNat 0xFEFF :: chars ∧
      (asBytes text).drop 3 = chars.flatMap String.utf8EncodeChar := by
  have hencode : String.utf8EncodeChar (Char.ofNat 0xFEFF) = byteOrderMark := by decide
  obtain ⟨tail, htail⟩ := hmark
  rw [← hencode] at htail
  cases hchars : text.toList with
  | nil =>
      rw [asBytes, hchars, hencode] at htail
      cases htail
  | cons char chars =>
      rw [asBytes, hchars, List.flatMap_cons] at htail
      have hhead := headChar_encode_append (Char.ofNat 0xFEFF) tail
      rw [htail, headChar_encode_append] at hhead
      obtain rfl := Option.some.inj hhead
      refine ⟨chars, rfl, ?_⟩
      rw [asBytes, hchars, List.flatMap_cons, hencode]
      rfl

theorem length_decodeText_le {text : String} {part : List UInt8}
    (hpart : part <+: asBytes text) : (asBytes (decodeText part)).length ≤ part.length + 6 := by
  rw [decodeText]
  split_ifs with hmark
  · obtain ⟨chars, -, hdrop⟩ := eq_cons_of_byteOrderMark (hmark.trans hpart)
    have hcut : part.drop 3 <+: chars.flatMap String.utf8EncodeChar := by
      rw [← hdrop]
      exact hpart.drop 3
    have hle := length_decodeChunks_prefix_le chars hcut le_rfl
    rw [asBytes_fromUtf8Lossy]
    rw [List.length_drop] at hle ⊢
    omega
  · rw [asBytes_fromUtf8Lossy]
    exact length_decodeChunks_prefix_le text.toList hpart le_rfl

theorem decodeText_asBytes_eq_iff (text : String) :
    decodeText (asBytes text) = text ↔ ¬byteOrderMark <+: asBytes text := by
  rw [decodeText]
  split_ifs with hmark
  · refine iff_of_false (fun heq => ?_) (not_not.mpr hmark)
    obtain ⟨chars, hchars, hdrop⟩ := eq_cons_of_byteOrderMark hmark
    rw [hdrop, ← asBytes_ofList, fromUtf8Lossy_asBytes] at heq
    have hlength := congrArg (fun s : String => s.toList.length) heq
    simp [hchars] at hlength
  · exact iff_of_true (fromUtf8Lossy_asBytes text) hmark

end Decode

/-! ## The round trip -/

section RoundTrip

variable {hashText : String → UInt64} {calls : List QueryCall} {call : QueryCall} {offset : ℕ}

theorem roundTrips_of_distinguishes (hcalls : Distinguishes hashText calls) :
    RoundTrips hashText calls := by
  rintro ⟨call, offset⟩ hanswer
  have hcall : call ∈ calls := (List.of_mem_zip hanswer).1
  obtain ⟨stored, hstored, hhash, hle, tail, htail⟩ := exists_entry_of_answer hanswer
  obtain rfl := hcalls.same stored hstored call hcall hhash
  have hcounted := hcalls.counted stored hcall
  have hlength := queryEntryLength_entryBytes hcounted tail
  have hparse := (decodes_parseQueryEntry hcounted).run
  refine ⟨entryBytes stored, Function.update (fun _ => none) offset (some ⟨stored.text,
    stored.parameterTypes⟩), ?_, ?_, by simp⟩
  · rw [readQueries, if_neg (Nat.not_lt.mpr hle), ← htail]
    simp [hlength, readQueries, bind, Except.bind, pure, Except.pure]
  · rw [parseQueries, parseQueriesLoop, bind_of_ok hparse,
      (decodeText_asBytes_eq_iff stored.text).mpr (hcalls.unmarked stored hcall)]
    rfl

/-- Calls with one hash get one offset, and so one entry. -/
theorem eq_of_roundTrips {other : QueryCall} (htrips : RoundTrips hashText calls)
    (hcall : call ∈ calls) (hother : other ∈ calls)
    (hhash : hashText call.text = hashText other.text) : call = other := by
  obtain ⟨offset, hanswer⟩ := exists_answer hashText hcall
  obtain ⟨otherOffset, hotherAnswer⟩ := exists_answer hashText hother
  have hlookup := lookup_mapQueries hanswer
  have hotherLookup := lookup_mapQueries hotherAnswer
  rw [← hhash, hlookup, Option.some.injEq] at hotherLookup
  subst hotherLookup
  obtain ⟨bytes, entries, hread, hparse, hentry⟩ := htrips _ hanswer
  obtain ⟨otherBytes, otherEntries, hotherRead, hotherParse, hotherEntry⟩ :=
    htrips _ hotherAnswer
  simp only at hread hparse hentry hotherRead hotherParse hotherEntry
  rw [hread, Except.ok.injEq] at hotherRead
  subst hotherRead
  rw [hparse, Option.some.injEq] at hotherParse
  subst hotherParse
  rw [hentry, Option.some.injEq, QueryEntry.mk.injEq] at hotherEntry
  cases call
  cases other
  simpa using hotherEntry

theorem fits_of_roundTrips (htrips : RoundTrips hashText calls) (hcall : call ∈ calls) :
    (asBytes call.text).length < 2 ^ 32 ∧ ¬byteOrderMark <+: asBytes call.text := by
  obtain ⟨offset, hanswer⟩ := exists_answer hashText hcall
  obtain ⟨bytes, entries, hread, hparse, hentry⟩ := htrips _ hanswer
  obtain ⟨entry, rest, hparsed, hset⟩ := parseQueryEntry_of_parseQueries hparse
  obtain ⟨stored, hstored, hhash, -, hthere⟩ := exists_entry_of_answer hanswer
  obtain rfl := eq_of_roundTrips htrips hstored hcall hhash
  obtain ⟨textBytes, tail, rfl, hlt, htext⟩ := exists_text_of_parseQueryEntry hparsed
  rw [hset, Option.some.injEq] at hentry
  subst hentry
  have htext : decodeText textBytes = stored.text := htext.symm
  obtain ⟨behind, hbehind⟩ := exists_prefix_of_readQueries hread
  obtain ⟨storedTail, hstoredTail⟩ := hthere
  have hbytes := hbehind.trans hstoredTail.symm
  simp only [entryBytes, List.append_assoc] at hbytes
  obtain ⟨hlengthBytes, hrest⟩ := List.append_inj hbytes (by simp)
  have hlength : textBytes.length = (asBytes stored.text).length % 256 ^ 4 := by
    rw [← ofLeBytes_leBytes_of_lt (show textBytes.length < 256 ^ 4 from hlt), hlengthBytes,
      ofLeBytes_leBytes]
  have hinitial : textBytes <+: asBytes stored.text := by
    refine List.prefix_of_prefix_length_le ⟨_, hrest⟩ ⟨_, rfl⟩ ?_
    rw [hlength]
    exact Nat.mod_le _ _
  have hle := length_decodeText_le hinitial
  rw [htext] at hle
  have hcounted : (asBytes stored.text).length < 2 ^ 32 := by omega
  have hwhole : textBytes = asBytes stored.text := by
    apply hinitial.eq_of_length
    rw [hlength]
    exact Nat.mod_eq_of_lt hcounted
  rw [hwhole] at htext
  exact ⟨hcounted, (decodeText_asBytes_eq_iff stored.text).mp htext⟩

/-- Every call of a run reads back its arguments exactly when the run tells all its
calls apart by their hashes, and all texts are counted and unmarked. -/
theorem roundTrips_iff_distinguishes (hashText : String → UInt64) (calls : List QueryCall) :
    RoundTrips hashText calls ↔ Distinguishes hashText calls :=
  ⟨fun htrips =>
    ⟨fun _ hcall _ hother hhash => eq_of_roundTrips htrips hcall hother hhash,
      fun _ hcall => (fits_of_roundTrips htrips hcall).1,
      fun _ hcall => (fits_of_roundTrips htrips hcall).2⟩,
    roundTrips_of_distinguishes⟩

/-- The same text with two lists of types: whatever the hash is, the second call
reads back the types of the first. -/
theorem not_roundTrips_of_types : ¬∃ hashText,
    RoundTrips hashText [⟨"a", [], by decide⟩, ⟨"a", [23], by decide⟩] := by
  rintro ⟨hashText, htrips⟩
  have hsame := eq_of_roundTrips htrips List.mem_cons_self
    (List.mem_cons_of_mem _ List.mem_cons_self) rfl
  exact absurd (congrArg QueryCall.parameterTypes hsame) (by decide)

end RoundTrip

end Pgr.QueriesFile
