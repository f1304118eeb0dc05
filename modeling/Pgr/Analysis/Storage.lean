import Pgr.Replay.Capture

/-!
# The analyzer's storage writer

`StorageWriter` of `analyzer.rs`: query texts and bind parameters are appended
to two files, and an entry is named by the offset at which it begins.  The
writer counts offsets by itself, next to the bytes it writes.  The text hash is
that of a foreign hasher and a parameter here; the trace and chunk files are
not part of this model.
-/

namespace Pgr.Storage

open Pgr.FixedWidth Pgr.Capture Pgr.Utf8Lossy

/-- `NO_PARAMS`, the offset of no entry. -/
def noParams : ℕ := 2 ^ 64 - 1

structure StorageWriter where
  queryFile : List UInt8
  paramsFile : List UInt8
  queryOffset : ℕ
  paramsOffset : ℕ
  queryMap : AList fun _ : UInt64 => ℕ

def StorageWriter.new : StorageWriter where
  queryFile := []
  paramsFile := []
  queryOffset := 0
  paramsOffset := 0
  queryMap := ∅

def mapQuery (hashText : String → UInt64) (text : String) (parameterTypes : List UInt32)
    (writer : StorageWriter) : ℕ × StorageWriter :=
  let key := hashText text
  match writer.queryMap.lookup key with
  | some offset => (offset, writer)
  | none =>
      let offset := writer.queryOffset
      let textBytes := asBytes text
      (offset,
        { writer with
          queryFile := writer.queryFile ++ leBytes 4 textBytes.length ++ textBytes ++
            leBytes 2 parameterTypes.length ++
            parameterTypes.flatMap fun oid => leBytes 4 oid.toNat
          queryOffset := offset + (4 + textBytes.length + 2 + parameterTypes.length * 4)
          queryMap := writer.queryMap.insert key offset })

/-- The arguments of `write_params`. -/
structure ParamsCall where
  queryOffset : UInt64
  parameters : List BindParam
  resultFormats : List UInt16
  deriving DecidableEq

/-- A value behind its length; null has the greatest length and no bytes. -/
def valueBytes : Option (List UInt8) → List UInt8
  | some bytes => leBytes 4 bytes.length ++ bytes
  | none => leBytes 4 (2 ^ 32 - 1)

/-- The bytes `write_params` appends to the params file. -/
def paramsBytes (call : ParamsCall) : List UInt8 :=
  leBytes 8 call.queryOffset.toNat ++
    (leBytes 2 call.parameters.length ++
      ((call.parameters.flatMap fun param => leBytes 4 param.typeOid.toNat) ++
        (leBytes 2 call.parameters.length ++
          ((call.parameters.flatMap fun param => valueBytes param.value) ++
            (leBytes 2 call.resultFormats.length ++
              call.resultFormats.flatMap fun code => leBytes 2 code.toNat)))))

def valueSize : Option (List UInt8) → ℕ
  | some bytes => 4 + bytes.length
  | none => 4

/-- The size `write_params` counts for them. -/
def paramsSize (call : ParamsCall) : ℕ :=
  8 + 2 + call.parameters.length * 2 + 2 +
    (call.parameters.map fun param => valueSize param.value).sum +
    (2 + call.resultFormats.length * 2)

def writeParams (call : ParamsCall) (writer : StorageWriter) : ℕ × StorageWriter :=
  (writer.paramsOffset,
    { writer with
      paramsFile := writer.paramsFile ++ paramsBytes call
      paramsOffset := writer.paramsOffset + paramsSize call })

/-- The offsets a sequence of calls returns. -/
def writeAllParams : List ParamsCall → StorageWriter → List ℕ × StorageWriter
  | [], writer => ([], writer)
  | call :: calls, writer =>
      let first := writeParams call writer
      let rest := writeAllParams calls first.2
      (first.1 :: rest.1, rest.2)

@[simp]
theorem length_valueBytes (value : Option (List UInt8)) :
    (valueBytes value).length = valueSize value := by
  cases value <;> simp [valueBytes, valueSize]

/-- The type of a parameter takes four bytes, of which two are counted. -/
theorem length_paramsBytes (call : ParamsCall) :
    (paramsBytes call).length = paramsSize call + call.parameters.length * 2 := by
  simp only [paramsBytes, paramsSize, List.length_append, length_leBytes, List.length_flatMap,
    length_valueBytes, List.map_const', List.sum_replicate_nat]
  omega

theorem length_writeAllParams (calls : List ParamsCall) (writer : StorageWriter) :
    (writeAllParams calls writer).1.length = calls.length := by
  induction calls generalizing writer with
  | nil => rfl
  | cons call calls ih => simp [writeAllParams, ih]

theorem paramsFile_writeAllParams (calls : List ParamsCall) (writer : StorageWriter) :
    (writeAllParams calls writer).2.paramsFile =
      writer.paramsFile ++ calls.flatMap paramsBytes := by
  induction calls generalizing writer with
  | nil => simp [writeAllParams]
  | cons call calls ih => simp [writeAllParams, writeParams, ih]

/-- The offsets lag behind the file by the bytes that are not counted. -/
theorem getElem?_writeAllParams {calls : List ParamsCall} {i : ℕ} (hi : i < calls.length)
    (writer : StorageWriter) :
    (writeAllParams calls writer).1[i]? =
      some (writer.paramsOffset + ((calls.take i).map paramsSize).sum) := by
  induction calls generalizing writer i with
  | nil => simp at hi
  | cons call calls ih =>
      cases i with
      | zero => simp [writeAllParams, writeParams]
      | succ i =>
          have hnext := ih (by simpa using hi) (writeParams call writer).2
          simpa [writeAllParams, writeParams, Nat.add_assoc] using hnext

end Pgr.Storage
