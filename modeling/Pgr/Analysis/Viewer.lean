import Pgr.Core.Decoding

/-!
# The viewer's readers of the params file

An entry of the params file is walked by two readers: `read_params` of
`viewer.rs` finds its length to cut the entry out of the file, and `parseParams`
of `api.ts` decodes it.  `ParamsRecord` is the layout on which both agree:
the first returns its length, the second its fields, and nothing else decodes.
-/

namespace Pgr.Viewer

open Pgr.FixedWidth Pgr.Decoding

/-! ## `read_params` -/

/-- An error of `read_params`, or a slice out of range. -/
inductive ReadError where
  | outOfRange
  | unexpectedEof (message : String)
  deriving DecidableEq

/-- `u32::MAX`, the length of a null value. -/
def nullLength : ℕ := 2 ^ 32 - 1

def checkLength (buf : List UInt8) (stop : ℕ) (message : String) : Except ReadError Unit :=
  if buf.length < stop then .error (.unexpectedEof message) else .ok ()

/-- The loop over the values of an entry. -/
def skipParams (buf : List UInt8) : (paramCount idx : ℕ) → Except ReadError ℕ
  | 0, idx => .ok idx
  | paramCount + 1, idx => do
      checkLength buf (idx + 4) "truncated param len"
      let len := leAt 4 buf idx
      skipParams buf paramCount (if len = nullLength then idx + 4 else idx + 4 + len)

/-- The length of the entry at the front of `buf`. -/
def paramsEntryLength (buf : List UInt8) : Except ReadError ℕ := do
  checkLength buf 8 "truncated params query_offset"
  checkLength buf (8 + 2) "truncated fmt code count"
  let fmtCount := leAt 2 buf 8
  let idx := 8 + (2 + fmtCount * 2)
  checkLength buf (idx + 2) "truncated param count"
  let paramCount := leAt 2 buf idx
  let idx ← skipParams buf paramCount (idx + 2)
  checkLength buf (idx + 2) "truncated result fmt count"
  let resultFmtCount := leAt 2 buf idx
  let idx := idx + (2 + resultFmtCount * 2)
  checkLength buf idx "truncated params entry"
  pure idx

def readParams (params : List UInt8) : (offsets : List ℕ) → Except ReadError (List UInt8)
  | [] => .ok []
  | offset :: offsets =>
      if params.length < offset then .error .outOfRange
      else do
        let buf := params.drop offset
        let idx ← paramsEntryLength buf
        let out ← readParams params offsets
        pure (buf.take idx ++ out)

/-! ## `parseParams` -/

/-- A read of a `DataView` past its end. -/
inductive RangeError where
  | outOfBounds
  deriving DecidableEq

abbrev ViewReader := Reader RangeError

/-- `Number` of a 64-bit integer: the nearest double, ties to even. -/
def numberOfBigInt (n : ℕ) : ℕ :=
  let unit := 2 ^ (n.log2 - 52)
  let quotient := n / unit
  let remainder := n % unit
  if remainder * 2 < unit ∨ (remainder * 2 = unit ∧ quotient % 2 = 0) then quotient * unit
  else (quotient + 1) * unit

structure ParamsEntry where
  queryOffset : ℕ
  paramFormatCodes : List Int16
  params : List (Option (List UInt8))
  resultFormatCodes : List Int16
  deriving DecidableEq

def getUint (width : ℕ) : ViewReader ℕ := do
  let bytes ← readExact .outOfBounds width
  pure (ofLeBytes bytes)

def getInt16 : ViewReader Int16 := do
  let bytes ← readExact .outOfBounds 2
  pure (UInt16.ofNat (ofLeBytes bytes)).toInt16

def parseParam : ViewReader (Option (List UInt8)) := do
  let len ← getUint 4
  if len = nullLength then pure none
  else do
    let bytes ← readExact .outOfBounds len
    pure (some bytes)

def parseParamsEntry : ViewReader ParamsEntry := do
  let queryOffset ← getUint 8
  let fmtCount ← getUint 2
  let paramFormatCodes ← readMany getInt16 fmtCount
  let paramCount ← getUint 2
  let params ← readMany parseParam paramCount
  let resultFmtCount ← getUint 2
  let resultFormatCodes ← readMany getInt16 resultFmtCount
  pure ⟨numberOfBigInt queryOffset, paramFormatCodes, params, resultFormatCodes⟩

/-- The loop of `parseParams`, with the entries it has set so far. -/
def parseParamsLoop : (offsets : List ℕ) → (out : ℕ → Option ParamsEntry) →
    ViewReader (ℕ → Option ParamsEntry)
  | [], out => pure out
  | offset :: offsets, out => do
      let entry ← parseParamsEntry
      parseParamsLoop offsets (Function.update out offset (some entry))

def parseParams (buf : List UInt8) (offsets : List ℕ) : Option (ℕ → Option ParamsEntry) :=
  match parseParamsLoop offsets (fun _ => none) buf with
  | .ok out _ => some out
  | .error _ _ => none

/-! ## The layout -/

def codeLayout (code : Int16) : List UInt8 :=
  leBytes 2 code.toUInt16.toNat

def paramLayout : Option (List UInt8) → List UInt8
  | some bytes => leBytes 4 bytes.length ++ bytes
  | none => leBytes 4 nullLength

/-- No value is as long as the null sentinel. -/
def ParamFits (param : Option (List UInt8)) : Prop :=
  ∀ bytes, param = some bytes → bytes.length < nullLength

/-- An entry whose counts fit their fields. -/
structure ParamsRecord where
  queryOffset : ℕ
  paramFormatCodes : List Int16
  params : List (Option (List UInt8))
  resultFormatCodes : List Int16
  queryOffset_lt : queryOffset < 2 ^ 64
  paramFormatCodes_lt : paramFormatCodes.length < 2 ^ 16
  params_lt : params.length < 2 ^ 16
  params_fit : ∀ param ∈ params, ParamFits param
  resultFormatCodes_lt : resultFormatCodes.length < 2 ^ 16

namespace ParamsRecord

def layout (record : ParamsRecord) : List UInt8 :=
  leBytes 8 record.queryOffset ++
    (leBytes 2 record.paramFormatCodes.length ++
      (record.paramFormatCodes.flatMap codeLayout ++
        (leBytes 2 record.params.length ++
          (record.params.flatMap paramLayout ++
            (leBytes 2 record.resultFormatCodes.length ++
              record.resultFormatCodes.flatMap codeLayout)))))

def entry (record : ParamsRecord) : ParamsEntry where
  queryOffset := numberOfBigInt record.queryOffset
  paramFormatCodes := record.paramFormatCodes
  params := record.params
  resultFormatCodes := record.resultFormatCodes

end ParamsRecord

@[simp]
theorem length_codeLayout (code : Int16) : (codeLayout code).length = 2 := by
  simp [codeLayout]

@[simp]
theorem length_flatMap_codeLayout (codes : List Int16) :
    (codes.flatMap codeLayout).length = codes.length * 2 := by
  simp [List.length_flatMap]

/-! ## `parseParams` decodes the layout and nothing else -/

theorem decodes_getUint (width : ℕ) {value : ℕ} (hvalue : value < 256 ^ width) :
    Decodes .outOfBounds (getUint width) (leBytes width value) value :=
  Decodes.leBytes width id hvalue

theorem decodes_getInt16 (code : Int16) :
    Decodes .outOfBounds getInt16 (codeLayout code) code := by
  have hcode := Decodes.leBytes (e := RangeError.outOfBounds) 2
    (fun value => (UInt16.ofNat value).toInt16) code.toUInt16.toNat_lt
  rwa [UInt16.ofNat_toNat, Int16.toInt16_toUInt16] at hcode

theorem decodes_parseParam {param : Option (List UInt8)} (hparam : ParamFits param) :
    Decodes .outOfBounds parseParam (paramLayout param) param := by
  cases param with
  | none =>
      have hlen := decodes_getUint 4 (by decide : nullLength < 256 ^ 4)
      rw [paramLayout, ← List.append_nil (leBytes 4 nullLength)]
      refine hlen.bind ?_
      rw [if_pos rfl]
      exact Decodes.pure none
  | some bytes =>
      have hlength := hparam bytes rfl
      have hlen := decodes_getUint 4
        (hlength.trans (by decide : nullLength < 256 ^ 4))
      refine hlen.bind ?_
      rw [if_neg hlength.ne]
      exact (Decodes.readExact rfl).bind_pure

theorem decodes_parseParamsEntry (record : ParamsRecord) :
    Decodes .outOfBounds parseParamsEntry record.layout record.entry := by
  have hcodes : ∀ codes : List Int16, Decodes .outOfBounds (readMany getInt16 codes.length)
      (codes.flatMap codeLayout) codes := fun codes =>
    Decodes.readMany_self codes fun code _ => decodes_getInt16 code
  have hparams : Decodes .outOfBounds (readMany parseParam record.params.length)
      (record.params.flatMap paramLayout) record.params :=
    Decodes.readMany_self _ fun param hparam => decodes_parseParam (record.params_fit param hparam)
  refine (decodes_getUint 8 record.queryOffset_lt).bind ?_
  refine (decodes_getUint 2 record.paramFormatCodes_lt).bind ?_
  refine (hcodes record.paramFormatCodes).bind ?_
  refine (decodes_getUint 2 record.params_lt).bind (hparams.bind ?_)
  refine (decodes_getUint 2 record.resultFormatCodes_lt).bind ?_
  exact (hcodes record.resultFormatCodes).bind_pure

/-! ### Exactness -/

theorem consumes_getUint (width : ℕ) :
    Consumes (getUint width) fun value bytes =>
      bytes = leBytes width value ∧ value < 256 ^ width := by
  intro input value rest hread
  obtain ⟨bytes, middle, hbytes, hpure⟩ := bind_eq_ok hread
  obtain ⟨rfl, rfl⟩ := pure_eq_ok hpure
  obtain ⟨_, rfl, rfl, rfl⟩ := consumes_readExact _ _ _ _ _ hbytes
  exact ⟨bytes, rfl, (leBytes_ofLeBytes bytes).symm, ofLeBytes_lt bytes⟩

theorem consumes_getInt16 :
    Consumes getInt16 fun code bytes => bytes = codeLayout code := by
  intro input code rest hread
  obtain ⟨bytes, middle, hbytes, hpure⟩ := bind_eq_ok hread
  obtain ⟨rfl, rfl⟩ := pure_eq_ok hpure
  obtain ⟨_, rfl, rfl, hlength⟩ := consumes_readExact _ _ _ _ _ hbytes
  have hvalue : (UInt16.ofNat (ofLeBytes bytes)).toNat = ofLeBytes bytes := by
    have hlt := ofLeBytes_lt bytes
    rw [hlength] at hlt
    exact Nat.mod_eq_of_lt hlt
  refine ⟨bytes, rfl, ?_⟩
  calc bytes = leBytes bytes.length (ofLeBytes bytes) := (leBytes_ofLeBytes bytes).symm
    _ = leBytes 2 (UInt16.ofNat (ofLeBytes bytes)).toNat := by rw [hlength, hvalue]
    _ = codeLayout (UInt16.ofNat (ofLeBytes bytes)).toInt16 := by
      rw [codeLayout, UInt16.toUInt16_toInt16]

theorem consumes_parseParam :
    Consumes parseParam fun param bytes => bytes = paramLayout param ∧ ParamFits param := by
  intro input param rest hread
  obtain ⟨len, middle, hlen, hvalue⟩ := bind_eq_ok hread
  obtain ⟨_, rfl, rfl, hlt⟩ := consumes_getUint 4 _ _ _ hlen
  split_ifs at hvalue with hnull
  · obtain ⟨rfl, rfl⟩ := pure_eq_ok hvalue
    exact ⟨_, rfl, by rw [paramLayout, hnull], by simp [ParamFits]⟩
  · obtain ⟨bytes, _, hbytes, hpure⟩ := bind_eq_ok hvalue
    obtain ⟨rfl, rfl⟩ := pure_eq_ok hpure
    obtain ⟨_, rfl, rfl, rfl⟩ := consumes_readExact _ _ _ _ _ hbytes
    refine ⟨leBytes 4 bytes.length ++ bytes, by simp, rfl, ?_⟩
    rintro _ ⟨⟩
    rw [nullLength] at hnull ⊢
    omega

/-- Whatever `parseParams` accepts as an entry is the layout of one. -/
theorem consumes_parseParamsEntry :
    Consumes parseParamsEntry fun entry bytes =>
      ∃ record : ParamsRecord, bytes = record.layout ∧ entry = record.entry := by
  intro input entry rest hread
  have hcodes := consumes_getInt16.readMany fun _ _ hbytes => ⟨hbytes, trivial⟩
  have hparams := consumes_parseParam.readMany fun _ _ hbytes => hbytes
  obtain ⟨queryOffset, _, hquery, hread⟩ := bind_eq_ok hread
  obtain ⟨fmtCount, _, hfmt, hread⟩ := bind_eq_ok hread
  obtain ⟨codes, _, hcodesRead, hread⟩ := bind_eq_ok hread
  obtain ⟨paramCount, _, hcount, hread⟩ := bind_eq_ok hread
  obtain ⟨params, _, hparamsRead, hread⟩ := bind_eq_ok hread
  obtain ⟨resultCount, _, hresult, hread⟩ := bind_eq_ok hread
  obtain ⟨results, _, hresultsRead, hpure⟩ := bind_eq_ok hread
  obtain ⟨rfl, rfl⟩ := pure_eq_ok hpure
  obtain ⟨_, rfl, rfl, hqueryLt⟩ := consumes_getUint 8 _ _ _ hquery
  obtain ⟨_, rfl, rfl, hfmtLt⟩ := consumes_getUint 2 _ _ _ hfmt
  obtain ⟨_, rfl, rfl, rfl, -⟩ := hcodes _ _ _ _ hcodesRead
  obtain ⟨_, rfl, rfl, hcountLt⟩ := consumes_getUint 2 _ _ _ hcount
  obtain ⟨_, rfl, rfl, rfl, hfit⟩ := hparams _ _ _ _ hparamsRead
  obtain ⟨_, rfl, rfl, hresultLt⟩ := consumes_getUint 2 _ _ _ hresult
  obtain ⟨_, rfl, rfl, rfl, -⟩ := hcodes _ _ _ _ hresultsRead
  let record : ParamsRecord :=
    ⟨queryOffset, codes, params, results, hqueryLt, hfmtLt, hcountLt, hfit, hresultLt⟩
  exact ⟨record.layout, by simp [record, ParamsRecord.layout], record, rfl, rfl⟩

/-! ## `read_params` cuts out the layout -/

theorem checkLength_eq_ok {buf : List UInt8} {stop : ℕ} (message : String)
    (hstop : stop ≤ buf.length) : checkLength buf stop message = .ok () :=
  if_neg (Nat.not_lt.mpr hstop)

theorem skipParams_succ {buf : List UInt8} {idx : ℕ} (hidx : idx + 4 ≤ buf.length)
    (paramCount : ℕ) :
    skipParams buf (paramCount + 1) idx = skipParams buf paramCount
      (if leAt 4 buf idx = nullLength then idx + 4 else idx + 4 + leAt 4 buf idx) := by
  rw [skipParams, checkLength_eq_ok _ hidx]
  rfl

theorem skipped_paramLayout {param : Option (List UInt8)} (hparam : ParamFits param)
    (head tail : List UInt8) :
    (if leAt 4 (head ++ (paramLayout param ++ tail)) head.length = nullLength
      then head.length + 4
      else head.length + 4 + leAt 4 (head ++ (paramLayout param ++ tail)) head.length) =
        (head ++ paramLayout param).length := by
  cases param with
  | none => simp [paramLayout, leAt_append _ _ (by decide : nullLength < 256 ^ 4)]
  | some bytes =>
      have hlength := hparam bytes rfl
      have hlt : bytes.length < 256 ^ 4 := hlength.trans (by decide)
      rw [paramLayout, List.append_assoc, leAt_append _ _ hlt, if_neg hlength.ne]
      simp [Nat.add_assoc]

theorem skipParams_layout {params : List (Option (List UInt8))}
    (hparams : ∀ param ∈ params, ParamFits param) (head tail : List UInt8) :
    skipParams (head ++ (params.flatMap paramLayout ++ tail)) params.length head.length =
      .ok (head ++ params.flatMap paramLayout).length := by
  induction params generalizing head with
  | nil => simp [skipParams]
  | cons param params ih =>
      obtain ⟨hparam, hrest⟩ := List.forall_mem_cons.mp hparams
      have hsize : 4 ≤ (paramLayout param).length := by
        cases param <;> simp [paramLayout]
      rw [List.flatMap_cons, List.append_assoc, List.length_cons, skipParams_succ,
        skipped_paramLayout hparam, ← List.append_assoc, ih hrest, List.append_assoc]
      simp only [List.length_append]
      omega

/-- The walk over an entry ends where the entry ends. -/
theorem paramsEntryLength_layout (record : ParamsRecord) (tail : List UInt8) :
    paramsEntryLength (record.layout ++ tail) = .ok record.layout.length := by
  -- The three counts of the entry, each behind the fields in front of it.
  let codes := leBytes 8 record.queryOffset ++ (leBytes 2 record.paramFormatCodes.length ++
    record.paramFormatCodes.flatMap codeLayout)
  let values := codes ++ (leBytes 2 record.params.length ++ record.params.flatMap paramLayout)
  let results := leBytes 2 record.resultFormatCodes.length ++
    record.resultFormatCodes.flatMap codeLayout
  have hcodes : codes.length = 8 + (2 + record.paramFormatCodes.length * 2) := by
    simp [codes]
  have hlayout : record.layout = values ++ results := by
    simp [values, results, codes, ParamsRecord.layout]
  have hresults : results.length = 2 + record.resultFormatCodes.length * 2 := by
    simp [results]
  have hfmt : leAt 2 (record.layout ++ tail) 8 = record.paramFormatCodes.length := by
    simpa [ParamsRecord.layout] using
      leAt_append (leBytes 8 record.queryOffset) _ record.paramFormatCodes_lt
  have hcount : leAt 2 (record.layout ++ tail) codes.length = record.params.length := by
    simpa [ParamsRecord.layout, codes] using leAt_append codes _ record.params_lt
  have hskip : skipParams (record.layout ++ tail) record.params.length (codes.length + 2) =
      .ok values.length := by
    simpa [ParamsRecord.layout, codes, values, results, Nat.add_assoc] using
      skipParams_layout record.params_fit (codes ++ leBytes 2 record.params.length)
        (results ++ tail)
  have hresult : leAt 2 (record.layout ++ tail) values.length =
      record.resultFormatCodes.length := by
    simpa [hlayout, results] using leAt_append values _ record.resultFormatCodes_lt
  have hvalues : codes.length + 2 ≤ values.length := by
    simp [values]
  have hend : values.length + results.length ≤ (record.layout ++ tail).length := by
    simp [hlayout]
  rw [paramsEntryLength]
  simp only [hfmt, ← hcodes, hcount, hskip, hresult, ← hresults, bind, Except.bind, pure,
    Except.pure]
  rw [checkLength_eq_ok, checkLength_eq_ok, checkLength_eq_ok, checkLength_eq_ok,
    checkLength_eq_ok]
  · simp [hlayout]
  all_goals omega

end Pgr.Viewer
