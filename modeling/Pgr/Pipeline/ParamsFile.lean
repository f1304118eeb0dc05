import Pgr.Analysis.Storage
import Pgr.Analysis.Viewer

/-!
# The params file between analyzer and viewer

The writer puts four bytes of type OID where both readers expect a two-byte
format code, and its own offsets count two.  An entry therefore survives the
file exactly when it has no parameters, its result formats can be counted, and
its query offset is a number of the viewer.
-/

namespace Pgr.ParamsFile

open Pgr.FixedWidth Pgr.Decoding Pgr.Capture Pgr.Storage Pgr.Viewer

/-- The entry decodes to the arguments of the call: one format code for each
parameter, and the result formats as the viewer's signed codes. -/
structure IsEntryOf (call : ParamsCall) (entry : ParamsEntry) : Prop where
  queryOffset : entry.queryOffset = call.queryOffset.toNat
  paramFormatCodes : entry.paramFormatCodes.length = call.parameters.length
  params : entry.params = call.parameters.map BindParam.value
  resultFormatCodes : entry.resultFormatCodes = call.resultFormats.map UInt16.toInt16

/-- The offsets that `calls` return for a new file. -/
def returnedOffsets (calls : List ParamsCall) : List ℕ :=
  (writeAllParams calls StorageWriter.new).1

def paramsFileOf (calls : List ParamsCall) : List UInt8 :=
  (writeAllParams calls StorageWriter.new).2.paramsFile

/-- Every returned offset is the position of the call's bytes, and any list of
returned offsets reads back those bytes and decodes to the calls' arguments. -/
structure RoundTrips (calls : List ParamsCall) : Prop where
  offset_eq : ∀ i < calls.length, (returnedOffsets calls)[i]? =
    some ((calls.take i).flatMap paramsBytes).length
  read_eq : ∀ picks : List (ParamsCall × ℕ), picks ⊆ calls.zip (returnedOffsets calls) →
    readParams (paramsFileOf calls) (picks.map Prod.snd) =
      .ok (picks.flatMap fun pick => paramsBytes pick.1)
  parse_eq : ∀ picks : List (ParamsCall × ℕ), picks ⊆ calls.zip (returnedOffsets calls) →
    ∃ entries, parseParams (picks.flatMap fun pick => paramsBytes pick.1)
        (picks.map Prod.snd) = some entries ∧
      ∀ pick ∈ picks, ∃ entry, entries pick.2 = some entry ∧ IsEntryOf pick.1 entry

/-- The calls whose entries the viewer understands. -/
def IsReadable (call : ParamsCall) : Prop :=
  call.parameters = [] ∧ call.resultFormats.length ≤ 65535 ∧
    2 ^ (call.queryOffset.toNat.log2 - 52) ∣ call.queryOffset.toNat

/-! ## Entries at an offset -/

theorem numberOfBigInt_eq_self_iff (n : ℕ) :
    numberOfBigInt n = n ↔ 2 ^ (n.log2 - 52) ∣ n := by
  rw [numberOfBigInt]
  set unit := 2 ^ (n.log2 - 52) with hunit
  have hpos : 0 < unit := Nat.two_pow_pos _
  have hdiv := Nat.div_add_mod' n unit
  have hlt := Nat.mod_lt n hpos
  rw [Nat.dvd_iff_mod_eq_zero]
  by_cases hdown : n % unit * 2 < unit ∨ n % unit * 2 = unit ∧ n / unit % 2 = 0
  · rw [if_pos hdown]
    omega
  · rw [if_neg hdown, Nat.add_mul, Nat.one_mul]
    omega

theorem paramLayout_eq_valueBytes (value : Option (List UInt8)) :
    paramLayout value = valueBytes value := by
  cases value <;> rfl

theorem length_layout (record : ParamsRecord) :
    record.layout.length = 8 + 2 + record.paramFormatCodes.length * 2 + 2 +
      (record.params.map valueSize).sum + (2 + record.resultFormatCodes.length * 2) := by
  have hparams : (record.params.flatMap paramLayout).length =
      (record.params.map valueSize).sum := by
    rw [List.length_flatMap]
    congr 1
    exact List.map_congr_left fun value _ => by
      rw [paramLayout_eq_valueBytes, length_valueBytes]
  simp only [ParamsRecord.layout, List.length_append, length_leBytes,
    length_flatMap_codeLayout, hparams]
  omega

/-- The readers agree on where an entry ends, so an entry that reads back and
decodes from its own bytes is a record of the layout. -/
theorem exists_record_of_read {params bytes : List UInt8} {offset : ℕ} {entry : ParamsEntry}
    {rest : List UInt8} (hread : readParams params [offset] = .ok bytes)
    (hparse : parseParamsEntry bytes = .ok entry rest) :
    ∃ record : ParamsRecord, bytes = record.layout ∧ entry = record.entry := by
  obtain ⟨_, rfl, record, rfl, rfl⟩ := consumes_parseParamsEntry _ _ _ hparse
  rw [readParams] at hread
  split_ifs at hread with hoffset
  cases hlength : paramsEntryLength (params.drop offset) with
  | error error =>
      simp only [hlength, bind, Except.bind] at hread
      cases hread
  | ok idx =>
      simp only [hlength, bind, Except.bind, readParams, pure, Except.pure, List.append_nil]
        at hread
      have htake : (params.drop offset).take idx = record.layout ++ rest := Except.ok.inj hread
      have hsplit : params.drop offset =
          record.layout ++ (rest ++ (params.drop offset).drop idx) := by
        rw [← List.append_assoc, ← htake, List.take_append_drop]
      rw [hsplit, paramsEntryLength_layout] at hlength
      cases hlength
      refine ⟨record, ?_, rfl⟩
      rw [← htake, hsplit, List.take_left]

theorem readParams_layouts {params : List UInt8} {picks : List (ParamsRecord × ℕ)}
    (hpicks : ∀ pick ∈ picks, pick.2 ≤ params.length ∧
      pick.1.layout <+: params.drop pick.2) :
    readParams params (picks.map Prod.snd) =
      .ok (picks.flatMap fun pick => pick.1.layout) := by
  induction picks with
  | nil => rfl
  | cons pick picks ih =>
      obtain ⟨⟨hoffset, tail, htail⟩, hrest⟩ := List.forall_mem_cons.mp hpicks
      rw [List.map_cons, readParams, if_neg (Nat.not_lt.mpr hoffset), ← htail]
      simp [paramsEntryLength_layout, ih hrest, bind, Except.bind, pure, Except.pure]

/-- Bytes begin with at most one record. -/
theorem entry_eq_of_layout_isPrefix {bytes : List UInt8} {left right : ParamsRecord}
    (hleft : left.layout <+: bytes) (hright : right.layout <+: bytes) :
    left.entry = right.entry := by
  obtain ⟨leftTail, rfl⟩ := hleft
  obtain ⟨rightTail, heq⟩ := hright
  have hdecoded := (decodes_parseParamsEntry left).run_append leftTail
  rw [← heq, (decodes_parseParamsEntry right).run_append rightTail] at hdecoded
  exact (EStateM.Result.ok.inj hdecoded).1.symm

/-- The entries that the loop of `parseParams` has set at its end. -/
def setEntries (picks : List (ParamsRecord × ℕ)) (out : ℕ → Option ParamsEntry) :
    ℕ → Option ParamsEntry :=
  picks.foldl (fun out pick => Function.update out pick.2 (some pick.1.entry)) out

theorem parseParamsLoop_layouts (picks : List (ParamsRecord × ℕ))
    (out : ℕ → Option ParamsEntry) :
    parseParamsLoop (picks.map Prod.snd) out (picks.flatMap fun pick => pick.1.layout) =
      .ok (setEntries picks out) [] := by
  induction picks generalizing out with
  | nil => rfl
  | cons pick picks ih =>
      rw [List.map_cons, List.flatMap_cons, parseParamsLoop,
        bind_of_ok ((decodes_parseParamsEntry pick.1).run_append _), ih]
      rfl

theorem setEntries_eq_some {picks : List (ParamsRecord × ℕ)} {out : ℕ → Option ParamsEntry}
    {offset : ℕ} {entry : ParamsEntry}
    (hentry : ∀ pick ∈ picks, pick.2 = offset → pick.1.entry = entry)
    (hset : out offset = some entry ∨ offset ∈ picks.map Prod.snd) :
    setEntries picks out offset = some entry := by
  induction picks generalizing out with
  | nil => simpa [setEntries] using hset
  | cons pick picks ih =>
      obtain ⟨hpick, hrest⟩ := List.forall_mem_cons.mp hentry
      refine ih hrest ?_
      by_cases hoffset : pick.2 = offset
      · subst hoffset
        simp [hpick rfl]
      · have hne : offset ≠ pick.2 := fun heq => hoffset heq.symm
        simpa [Function.update_of_ne hne, hne] using hset

/-! ## Readable calls -/

theorem paramsSize_eq_of_isReadable {call : ParamsCall} (hcall : IsReadable call) :
    paramsSize call = (paramsBytes call).length := by
  rw [length_paramsBytes, hcall.1]
  simp

/-- The record that a readable call stores. -/
def recordOf (call : ParamsCall) (hcall : IsReadable call) : ParamsRecord where
  queryOffset := call.queryOffset.toNat
  paramFormatCodes := []
  params := []
  resultFormatCodes := call.resultFormats.map UInt16.toInt16
  queryOffset_lt := call.queryOffset.toNat_lt
  paramFormatCodes_lt := by decide
  params_lt := by decide
  params_fit := by simp
  resultFormatCodes_lt := by
    rw [List.length_map]
    exact Nat.lt_succ_of_le hcall.2.1

theorem layout_recordOf {call : ParamsCall} (hcall : IsReadable call) :
    (recordOf call hcall).layout = paramsBytes call := by
  simp [recordOf, ParamsRecord.layout, paramsBytes, hcall.1, codeLayout, List.flatMap_map]

theorem isEntryOf_recordOf {call : ParamsCall} (hcall : IsReadable call) :
    IsEntryOf call (recordOf call hcall).entry where
  queryOffset := (numberOfBigInt_eq_self_iff _).mpr hcall.2.2
  paramFormatCodes := by simp [recordOf, ParamsRecord.entry, hcall.1]
  params := by simp [recordOf, ParamsRecord.entry, hcall.1]
  resultFormatCodes := rfl

theorem isReadable_of_isEntryOf {call : ParamsCall} {record : ParamsRecord}
    (hbytes : paramsBytes call = record.layout) (hentry : IsEntryOf call record.entry) :
    IsReadable call := by
  have hcodes : record.paramFormatCodes.length = call.parameters.length :=
    hentry.paramFormatCodes
  have hparams : record.params = call.parameters.map BindParam.value := hentry.params
  have hresults : record.resultFormatCodes.length = call.resultFormats.length := by
    have hformats : record.resultFormatCodes = call.resultFormats.map UInt16.toInt16 :=
      hentry.resultFormatCodes
    rw [hformats, List.length_map]
  have hquery : record.queryOffset = call.queryOffset.toNat := by
    have hhead := congrArg (fun bytes => ofLeBytes (bytes.take 8)) hbytes
    have htake : ∀ value tail, (leBytes 8 value ++ tail).take 8 = leBytes 8 value := by simp
    simp only [paramsBytes, ParamsRecord.layout, htake] at hhead
    rw [ofLeBytes_leBytes_of_lt call.queryOffset.toNat_lt,
      ofLeBytes_leBytes_of_lt record.queryOffset_lt] at hhead
    exact hhead.symm
  refine ⟨List.eq_nil_of_length_eq_zero ?_, ?_, ?_⟩
  · -- The two readers leave no room for the second half of each type OID.
    have hlength := congrArg List.length hbytes
    rw [length_paramsBytes, length_layout, hcodes, hresults, hparams, List.map_map] at hlength
    simp only [paramsSize, Function.comp_def] at hlength
    omega
  · exact Nat.le_of_lt_succ (hresults ▸ record.resultFormatCodes_lt)
  · rw [← numberOfBigInt_eq_self_iff, ← hquery]
    exact hentry.queryOffset.trans hquery.symm

theorem exists_mem_zip {calls : List ParamsCall} {call : ParamsCall} (hcall : call ∈ calls) :
    ∃ offset, (call, offset) ∈ calls.zip (returnedOffsets calls) := by
  obtain ⟨i, hi, rfl⟩ := List.getElem_of_mem hcall
  have hlength := length_writeAllParams calls StorageWriter.new
  have hzip : i < (calls.zip (returnedOffsets calls)).length := by
    simp [returnedOffsets, hlength, hi]
  exact ⟨_, by simpa using List.getElem_mem hzip⟩

/-- While all entries have the counted size, offsets are positions. -/
theorem offset_eq_of_isReadable {calls : List ParamsCall}
    (hcalls : ∀ call ∈ calls, IsReadable call) {i : ℕ} (hi : i < calls.length) :
    (returnedOffsets calls)[i]? = some ((calls.take i).flatMap paramsBytes).length := by
  have hsizes : (calls.take i).map paramsSize =
      (calls.take i).map fun call => (paramsBytes call).length :=
    List.map_congr_left fun call hcall =>
      paramsSize_eq_of_isReadable (hcalls call (List.mem_of_mem_take hcall))
  rw [returnedOffsets, getElem?_writeAllParams hi, hsizes, List.length_flatMap]
  simp [StorageWriter.new]

theorem paramsBytes_at_offset {calls : List ParamsCall}
    (hcalls : ∀ call ∈ calls, IsReadable call) {call : ParamsCall} {offset : ℕ}
    (hpick : (call, offset) ∈ calls.zip (returnedOffsets calls)) :
    offset ≤ (paramsFileOf calls).length ∧
      paramsBytes call <+: (paramsFileOf calls).drop offset := by
  obtain ⟨i, hi, hget⟩ := List.getElem_of_mem hpick
  simp only [List.getElem_zip, Prod.mk.injEq] at hget
  obtain ⟨hcall, hoffset⟩ := hget
  have hlength : i < calls.length := by
    simp only [List.length_zip] at hi
    omega
  have hposition := offset_eq_of_isReadable hcalls hlength
  rw [List.getElem?_eq_getElem (by simp only [List.length_zip] at hi; omega), hoffset,
    Option.some.injEq] at hposition
  have hfile : paramsFileOf calls = (calls.take i).flatMap paramsBytes ++
      (paramsBytes call ++ (calls.drop (i + 1)).flatMap paramsBytes) := by
    rw [paramsFileOf, paramsFile_writeAllParams, ← hcall, ← List.flatMap_cons,
      ← List.drop_eq_getElem_cons, ← List.flatMap_append, List.take_append_drop]
    rfl
  rw [hfile, hposition, List.drop_left]
  exact ⟨by simp, List.prefix_append _ _⟩

theorem parseParamsEntry_of_parseParams {buf : List UInt8} {offset : ℕ}
    {entries : ℕ → Option ParamsEntry} (hparse : parseParams buf [offset] = some entries) :
    ∃ entry rest, parseParamsEntry buf = .ok entry rest ∧ entries offset = some entry := by
  rw [parseParams] at hparse
  split at hparse
  next out tail hloop =>
    obtain ⟨entry, rest, hentry, hpure⟩ := bind_eq_ok hloop
    obtain ⟨rfl, -⟩ := pure_eq_ok hpure
    cases hparse
    exact ⟨entry, rest, hentry, by simp⟩
  next => cases hparse

theorem isReadable_of_roundTrips {calls : List ParamsCall} (htrips : RoundTrips calls)
    {call : ParamsCall} (hcall : call ∈ calls) : IsReadable call := by
  obtain ⟨offset, hpick⟩ := exists_mem_zip hcall
  have hpicks : [(call, offset)] ⊆ calls.zip (returnedOffsets calls) := by
    simpa only [List.cons_subset, List.nil_subset, and_true] using hpick
  have hread : readParams (paramsFileOf calls) [offset] = .ok (paramsBytes call) := by
    simpa using htrips.read_eq _ hpicks
  obtain ⟨entries, hparse, hentries⟩ := htrips.parse_eq _ hpicks
  obtain ⟨entry, hset, hentry⟩ := hentries (call, offset) (by simp)
  obtain ⟨parsed, rest, hparsed, hsame⟩ := parseParamsEntry_of_parseParams hparse
  rw [hset, Option.some.injEq] at hsame
  subst hsame
  rw [List.flatMap_singleton] at hparsed
  obtain ⟨record, hbytes, rfl⟩ := exists_record_of_read hread hparsed
  exact isReadable_of_isEntryOf hbytes hentry

theorem roundTrips_of_isReadable {calls : List ParamsCall}
    (hcalls : ∀ call ∈ calls, IsReadable call) : RoundTrips calls := by
  have hpick : ∀ pick ∈ calls.zip (returnedOffsets calls), IsReadable pick.1 := fun pick hpick =>
    hcalls pick.1 (List.of_mem_zip hpick).1
  -- Every pick as the record that its call has stored.
  let toRecord (pick : ParamsCall × ℕ) (hreadable : IsReadable pick.1) : ParamsRecord × ℕ :=
    (recordOf pick.1 hreadable, pick.2)
  have hoffsets : ∀ picks hreadable, (List.pmap toRecord picks hreadable).map Prod.snd =
      picks.map Prod.snd := fun picks hreadable => by simp [List.map_pmap, toRecord]
  have hbytes : ∀ picks hreadable,
      ((List.pmap toRecord picks hreadable).flatMap fun pick => pick.1.layout) =
        picks.flatMap fun pick => paramsBytes pick.1 := fun picks hreadable => by
    simp [List.flatMap_def, List.map_pmap, toRecord, layout_recordOf]
  refine ⟨fun i hi => offset_eq_of_isReadable hcalls hi, fun picks hpicks => ?_,
    fun picks hpicks => ?_⟩
  · have hreadable : ∀ pick ∈ picks, IsReadable pick.1 := fun pick hmem =>
      hpick pick (hpicks hmem)
    rw [← hoffsets picks hreadable, ← hbytes picks hreadable]
    apply readParams_layouts
    intro record hrecord
    obtain ⟨pick, hmem, rfl⟩ := List.mem_pmap.mp hrecord
    simpa only [toRecord, layout_recordOf] using paramsBytes_at_offset hcalls (hpicks hmem)
  · have hreadable : ∀ pick ∈ picks, IsReadable pick.1 := fun pick hmem =>
      hpick pick (hpicks hmem)
    refine ⟨setEntries (List.pmap toRecord picks hreadable) fun _ => none, ?_, ?_⟩
    · rw [← hoffsets picks hreadable, ← hbytes picks hreadable, parseParams,
        parseParamsLoop_layouts]
    · intro pick hmem
      have hrecord := isEntryOf_recordOf (hreadable pick hmem)
      refine ⟨_, setEntries_eq_some ?_ (Or.inr ?_), hrecord⟩
      · intro other hother hsame
        obtain ⟨otherPick, hotherMem, rfl⟩ := List.mem_pmap.mp hother
        have hthere := (paramsBytes_at_offset hcalls (hpicks hotherMem)).2
        have hhere := (paramsBytes_at_offset hcalls (hpicks hmem)).2
        rw [← layout_recordOf (hreadable otherPick hotherMem)] at hthere
        rw [← layout_recordOf (hreadable pick hmem), ← hsame] at hhere
        exact entry_eq_of_layout_isPrefix hthere hhere
      · rw [hoffsets]
        exact List.mem_map_of_mem hmem

/-- Every call of a sequence survives the params file exactly when every call is
readable. -/
theorem roundTrips_iff (calls : List ParamsCall) :
    RoundTrips calls ↔ ∀ call ∈ calls, IsReadable call :=
  ⟨fun htrips _ hcall => isReadable_of_roundTrips htrips hcall, roundTrips_of_isReadable⟩

/-- Two calls with one parameter each: the second entry begins two bytes behind
the offset that is returned for it. -/
theorem not_roundTrips_of_parameters :
    ¬RoundTrips (List.replicate 2 ⟨0, [⟨25, some [0x61]⟩], []⟩) := by
  intro htrips
  exact absurd (htrips.offset_eq 1 (by decide)) (by decide)

end Pgr.ParamsFile
