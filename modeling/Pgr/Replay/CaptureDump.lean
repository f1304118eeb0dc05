import Pgr.Core.Csv
import Pgr.Core.Decimal
import Pgr.Replay.Capture

/-!
# The CSV dump of a capture

`capture_dump.rs`: a header, a line for the opening LSN and one for every event
behind it.  Every line is the layout of a CSV record, a parser that remembers quotes
splits the output into these records, and the event is read back from its record.
-/

namespace Pgr.CaptureDump

open Pgr.Csv Pgr.Decimal Pgr.Utf8Lossy Pgr.Decoding Pgr.Capture

def space : UInt8 := 0x20

def point : UInt8 := 0x2E

/-- The difference of two timestamps in seconds. -/
def ts (ts base : UInt64) : List UInt8 :=
  let d := ts.toInt64 - base.toInt64
  let a := d.toInt.natAbs
  signed d.toInt (decimal (a / 1000000) ++ point :: paddedDecimal 6 (a % 1000000))

/-- A round of the loop of `text`, with what it has written and where the next slice
starts. -/
def textRound (b : List UInt8) (written : List UInt8 × ℕ) (i : ℕ) : List UInt8 × ℕ :=
  if b[i]? = some quote then
    (written.1 ++ (b.drop written.2).take (i + 1 - written.2), i)
  else written

def textLoop (b : List UInt8) (count : ℕ) : List UInt8 × ℕ :=
  (List.range count).foldl (textRound b) ([], 0)

def text (s : List UInt8) : List UInt8 :=
  let b := asBytes (fromUtf8Lossy s)
  let written := textLoop b b.length
  [comma, quote] ++ written.1 ++ b.drop written.2 ++ [quote]

def head (t base : UInt64) (id : ClientId) (name : String) : List UInt8 :=
  ts t base ++ comma :: decimal id.toNat ++ comma :: asBytes name

def list {T : Type} (display : T → List UInt8) (v : List T) : List UInt8 :=
  [comma, quote] ++
    v.zipIdx.flatMap (fun x => (if 0 < x.2 then [space] else []) ++ display x.1) ++ [quote]

def param (p : BindParam) : List UInt8 :=
  comma :: decimal p.typeOid.toNat ++
    match p.value with
    | some v => text v
    | none => comma :: asBytes "NULL"

/-- The body of the loop of `dump`, up to the line end. -/
def line (base : UInt64) (m : CaptureMessage) : List UInt8 :=
  match m.event with
  | .lsn lsn => head m.ts base m.id "lsn" ++ comma :: decimal lsn.toNat
  | .connect sessionId => head m.ts base m.id "connect" ++ text (asBytes sessionId)
  | .disconnect => head m.ts base m.id "disconnect"
  | .simpleQuery q => head m.ts base m.id "simple_query" ++ text (asBytes q)
  | .parse name query paramTypes =>
      head m.ts base m.id "parse" ++ text (asBytes name) ++ text (asBytes query) ++
        list (fun type => decimal type.toNat) paramTypes
  | .bind portal statement resultFormats params =>
      head m.ts base m.id "bind" ++ text (asBytes portal) ++ text (asBytes statement) ++
        list (fun format => decimal format.toNat) resultFormats ++ params.flatMap param
  | .execute portal maxRows =>
      head m.ts base m.id "execute" ++ text (asBytes portal) ++
        comma :: signed maxRows.toInt (decimal maxRows.toInt.natAbs)
  | .sync => head m.ts base m.id "sync"
  | .txEnd committed xid lsn =>
      head m.ts base m.id "tx_end" ++
        text (if committed then asBytes "commit" else asBytes "abort") ++
        comma :: decimal xid.toNat ++ comma :: decimal lsn.toNat
  | .close kind name =>
      head m.ts base m.id "close" ++ comma :: decimal kind.toNat ++ text (asBytes name)

/-- The loop of `dump`, for at most `rounds` rounds. -/
def lines (base : UInt64) : (rounds : ℕ) → List UInt8 → Option (Except IoError (List UInt8))
  | 0, _ => none
  | rounds + 1, buf =>
      match readEvent buf with
      | .ok none _ => some (.ok [])
      | .error error _ => some (.error error)
      | .ok (some m) rest =>
          (lines base rounds rest).map (Except.map fun behind => line base m ++ [lineFeed] ++ behind)

/-- What `dump` has written when it returns without an error. -/
def dump (rounds : ℕ) (reader : CaptureReader) : Option (Except IoError (List UInt8)) :=
  let base := reader.startTs
  (lines base rounds reader.buf).map (Except.map fun behind =>
    asBytes "timestamp,client_id,message,fields\n" ++
      (head base base 0 "lsn" ++ comma :: decimal reader.lsn.toNat ++ [lineFeed]) ++ behind)

/-! ## The records -/

def plainField (bytes : List UInt8) : Field :=
  ⟨false, bytes⟩

def quotedField (bytes : List UInt8) : Field :=
  ⟨true, bytes⟩

def listField {T : Type} (display : T → List UInt8) (v : List T) : Field :=
  quotedField ([space].intercalate (v.map display))

def valueField : Option (List UInt8) → Field
  | some v => quotedField v
  | none => plainField (asBytes "NULL")

def paramFields (p : BindParam) : List Field :=
  [plainField (decimal p.typeOid.toNat), valueField p.value]

def eventName : ClientEvent → String
  | .lsn _ => "lsn"
  | .connect _ => "connect"
  | .disconnect => "disconnect"
  | .simpleQuery _ => "simple_query"
  | .parse .. => "parse"
  | .bind .. => "bind"
  | .execute .. => "execute"
  | .sync => "sync"
  | .txEnd .. => "tx_end"
  | .close .. => "close"

def eventFields : ClientEvent → List Field
  | .lsn lsn => [plainField (decimal lsn.toNat)]
  | .connect sessionId => [quotedField (asBytes sessionId)]
  | .disconnect => []
  | .simpleQuery q => [quotedField (asBytes q)]
  | .parse name query paramTypes =>
      [quotedField (asBytes name), quotedField (asBytes query),
        listField (fun type => decimal type.toNat) paramTypes]
  | .bind portal statement resultFormats params =>
      quotedField (asBytes portal) :: quotedField (asBytes statement) ::
        listField (fun format => decimal format.toNat) resultFormats ::
        params.flatMap paramFields
  | .execute portal maxRows =>
      [quotedField (asBytes portal),
        plainField (signed maxRows.toInt (decimal maxRows.toInt.natAbs))]
  | .sync => []
  | .txEnd committed xid lsn =>
      [quotedField (if committed then asBytes "commit" else asBytes "abort"),
        plainField (decimal xid.toNat), plainField (decimal lsn.toNat)]
  | .close kind name => [plainField (decimal kind.toNat), quotedField (asBytes name)]

def record (base : UInt64) (m : CaptureMessage) : List Field :=
  plainField (ts m.ts base) :: plainField (decimal m.id.toNat) ::
    plainField (asBytes (eventName m.event)) :: eventFields m.event

def header : List Field :=
  [plainField (asBytes "timestamp"), plainField (asBytes "client_id"),
    plainField (asBytes "message"), plainField (asBytes "fields")]

/-- The opening LSN as the reader keeps it. -/
def opening (reader : CaptureReader) : CaptureMessage :=
  ⟨0, reader.startTs, .lsn reader.lsn⟩

/-! ## Reading a record -/

def readText (field : Field) : String :=
  fromUtf8Lossy field.bytes

def readNat (field : Field) : ℕ :=
  ofDecimal field.bytes

def readInt (field : Field) : ℤ :=
  ofSigned ofDecimal field.bytes

def readList (field : Field) : List ℕ :=
  if field.bytes = [] then [] else (field.bytes.splitOn space).map ofDecimal

/-- Seconds and six digits behind the point. -/
def readMicroseconds (bytes : List UInt8) : ℕ :=
  ofDecimal (bytes.takeWhile isDigit) * 1000000 + ofDecimal ((bytes.dropWhile isDigit).drop 1)

def readTs (field : Field) : ℤ :=
  ofSigned readMicroseconds field.bytes

/-- Only what is not quoted is null. -/
def readValue (field : Field) : Option (List UInt8) :=
  if field.quoted then some field.bytes else none

def readParams : List Field → Option (List BindParam)
  | [] => some []
  | [_] => none
  | type :: value :: fields =>
      (readParams fields).map (⟨UInt32.ofNat (readNat type), readValue value⟩ :: ·)

def readEventFields (name : String) (fields : List Field) : Option ClientEvent :=
  match name, fields with
  | "lsn", [lsn] => some (.lsn (UInt64.ofNat (readNat lsn)))
  | "connect", [session] => some (.connect (readText session))
  | "disconnect", [] => some .disconnect
  | "simple_query", [q] => some (.simpleQuery (readText q))
  | "parse", [name, query, types] =>
      some (.parse (readText name) (readText query) ((readList types).map UInt32.ofNat))
  | "bind", portal :: statement :: formats :: params =>
      (readParams params).map
        (.bind (readText portal) (readText statement) ((readList formats).map UInt16.ofNat))
  | "execute", [portal, maxRows] =>
      some (.execute (readText portal) (Int64.ofInt (readInt maxRows)))
  | "sync", [] => some .sync
  | "tx_end", [outcome, xid, lsn] =>
      some (.txEnd (outcome.bytes = asBytes "commit") (UInt32.ofNat (readNat xid))
        (UInt64.ofNat (readNat lsn)))
  | "close", [kind, name] => some (.close (UInt8.ofNat (readNat kind)) (readText name))
  | _, _ => none

/-- The time behind the start in microseconds, the client and the event. -/
def readRecord : List Field → Option (ℤ × ClientId × ClientEvent)
  | time :: id :: name :: fields =>
      (readEventFields (readText name) fields).map fun event =>
        (readTs time, UInt32.ofNat (readNat id), event)
  | _ => none

/-- The parameter values are texts. -/
def Utf8Values : ClientEvent → Prop
  | .bind _ _ _ params => ∀ p ∈ params, ∀ v, p.value = some v → IsUtf8 v
  | _ => True

/-- The events that the reader finds one after the other. -/
inductive Reads : List UInt8 → List CaptureMessage → Prop where
  | done {buf rest : List UInt8} (hread : readEvent buf = .ok none rest) : Reads buf []
  | event {buf rest : List UInt8} {m : CaptureMessage} {messages : List CaptureMessage}
      (hread : readEvent buf = .ok (some m) rest) (hrest : Reads rest messages) :
      Reads buf (m :: messages)

/-! ## The loop of `text` -/

/-- The slice up to a byte and the byte. -/
theorem take_drop_succ {b : List UInt8} {start count : ℕ} (hstart : start ≤ count)
    (hcount : count < b.length) :
    (b.drop start).take (count + 1 - start) =
      (b.drop start).take (count - start) ++ [b[count]] := by
  have hindex : start + (count - start) = count := by omega
  have hlength : count - start < (b.drop start).length := by
    rw [List.length_drop]
    omega
  rw [Nat.succ_sub hstart, List.take_succ_eq_append_getElem hlength, List.getElem_drop]
  simp only [hindex]

/-- What is written and the slice that starts behind it are the bytes so far with their
quotes doubled. -/
theorem textLoop_spec (b : List UInt8) {count : ℕ} (hcount : count ≤ b.length) :
    (textLoop b count).2 ≤ count ∧
      (textLoop b count).1 ++ (b.drop (textLoop b count).2).take (count - (textLoop b count).2) =
        doubleQuotes (b.take count) := by
  induction count with
  | zero => exact ⟨le_rfl, by simp [textLoop, doubleQuotes]⟩
  | succ count ih =>
      obtain ⟨hstart, hwritten⟩ := ih (Nat.le_of_succ_le hcount)
      have hround : textLoop b (count + 1) = textRound b (textLoop b count) count := by
        simp [textLoop, List.range_succ]
      have htake : b.take (count + 1) = b.take count ++ [b[count]] :=
        List.take_succ_eq_append_getElem hcount
      rw [hround, htake, doubleQuotes, List.flatMap_append, ← doubleQuotes, ← hwritten, textRound,
        List.getElem?_eq_getElem hcount]
      split_ifs with hquote
      · obtain hbyte : b[count] = quote := Option.some.inj hquote
        have hlast := take_drop_succ (le_refl count) hcount
        rw [Nat.sub_self, List.take_zero, List.nil_append] at hlast
        refine ⟨Nat.le_succ count, ?_⟩
        rw [hlast, take_drop_succ hstart hcount]
        simp [hbyte]
      · have hbyte : b[count] ≠ quote := fun heq => hquote (congrArg some heq)
        refine ⟨hstart.trans (Nat.le_succ count), ?_⟩
        rw [take_drop_succ hstart hcount]
        simp [hbyte]

/-- `text` writes a quoted field. -/
theorem text_eq {s : List UInt8} (hs : IsUtf8 s) :
    text s = comma :: (quotedField s).layout := by
  have hbytes := (asBytes_fromUtf8Lossy_eq_iff s).mpr hs
  obtain ⟨-, hwritten⟩ := textLoop_spec s le_rfl
  have hloop : (textLoop s s.length).1 ++ s.drop (textLoop s s.length).2 = doubleQuotes s := by
    rw [List.take_of_length_le (by rw [List.length_drop]), List.take_length] at hwritten
    exact hwritten
  rw [text, hbytes]
  simp only [quotedField, Field.layout, if_pos, ← hloop]
  simp

theorem text_asBytes (s : String) : text (asBytes s) = comma :: (quotedField (asBytes s)).layout :=
  text_eq ⟨s, rfl⟩

/-! ## Lines are records -/

theorem plainField_layout (bytes : List UInt8) : (plainField bytes).layout = bytes := rfl

theorem flatMap_zipIdx_succ {T : Type} (display : T → List UInt8) (v : List T) (start : ℕ) :
    (v.zipIdx (start + 1)).flatMap
        (fun x => (if 0 < x.2 then [space] else []) ++ display x.1) =
      v.flatMap fun x => space :: display x := by
  induction v generalizing start with
  | nil => rfl
  | cons first rest ih =>
      rw [List.zipIdx_cons, List.flatMap_cons, List.flatMap_cons, ih, if_pos (Nat.succ_pos start)]
      rfl

theorem intercalate_cons {first : List UInt8} (rest : List (List UInt8)) :
    [space].intercalate (first :: rest) = first ++ rest.flatMap fun item => space :: item := by
  induction rest generalizing first with
  | nil => simp
  | cons next rest ih =>
      rw [List.intercalate_cons_cons, ih, List.flatMap_cons]
      simp

/-- `list` writes a quoted field as long as no item has a quote. -/
theorem list_eq {T : Type} {display : T → List UInt8} {v : List T}
    (hdisplay : ∀ x ∈ v, quote ∉ display x) :
    list display v = comma :: (listField display v).layout := by
  have hitems : v.zipIdx.flatMap (fun x => (if 0 < x.2 then [space] else []) ++ display x.1) =
      [space].intercalate (v.map display) := by
    cases v with
    | nil => rfl
    | cons first rest =>
        rw [List.zipIdx_cons, List.flatMap_cons, flatMap_zipIdx_succ, List.map_cons,
          intercalate_cons, List.flatMap_map]
        rfl
  have hquote : quote ∉ [space].intercalate (v.map display) := by
    rw [← hitems]
    intro hmem
    obtain ⟨x, hx, hbyte⟩ := List.mem_flatMap.mp hmem
    rcases List.mem_append.mp hbyte with hspace | hitem
    · split_ifs at hspace
      · exact absurd (List.mem_singleton.mp hspace) (by decide)
      · cases hspace
    · exact hdisplay x.1 (List.fst_mem_of_mem_zipIdx hx) hitem
  rw [list, hitems, listField, quotedField, Field.layout, if_pos rfl, doubleQuotes_eq_self hquote]
  rfl

theorem quote_not_mem_decimal (value : ℕ) : quote ∉ decimal value := by
  intro hmem
  exact absurd (isDigit_of_mem_decimal hmem) (by decide)

theorem param_eq {p : BindParam} (hvalue : ∀ v, p.value = some v → IsUtf8 v) :
    param p = (paramFields p).flatMap fun field => comma :: field.layout := by
  rw [param, paramFields]
  cases hp : p.value with
  | none => simp [valueField, plainField_layout]
  | some v =>
      have htext := text_eq (hvalue v hp)
      simp [valueField, plainField_layout, htext]

theorem params_eq {params : List BindParam}
    (hvalues : ∀ p ∈ params, ∀ v, p.value = some v → IsUtf8 v) :
    params.flatMap param = (params.flatMap paramFields).flatMap fun field =>
      comma :: field.layout := by
  rw [List.flatMap_assoc]
  apply List.flatMap_congr
  intro p hp
  exact param_eq (hvalues p hp)

/-- A line of the dump is the layout of the record of its event. -/
theorem line_eq (base : UInt64) {m : CaptureMessage} (hvalues : Utf8Values m.event) :
    line base m ++ [lineFeed] = recordLayout (record base m) := by
  obtain ⟨id, t, event⟩ := m
  cases event with
  | bind portal statement resultFormats params =>
      have hparams := params_eq hvalues
      have hlist := @list_eq _ (fun format : UInt16 => decimal format.toNat) resultFormats
        fun format _ => quote_not_mem_decimal _
      simp [line, record, recordLayout, head, eventName, eventFields, plainField_layout,
        text_asBytes, hlist, hparams]
  | parse name query paramTypes =>
      have hlist := @list_eq _ (fun type : UInt32 => decimal type.toNat) paramTypes
        fun type _ => quote_not_mem_decimal _
      simp [line, record, recordLayout, head, eventName, eventFields, plainField_layout,
        text_asBytes, hlist]
  | txEnd committed xid lsn =>
      cases committed <;>
        simp [line, record, recordLayout, head, eventName, eventFields, plainField_layout,
          text_asBytes]
  | _ =>
      simp [line, record, recordLayout, head, eventName, eventFields, plainField_layout,
        text_asBytes]

/-! ## Records are valid -/

/-- The bytes from the digits on are no punctuation of the file. -/
theorem isPlain_of_le {byte : UInt8} (hbyte : 0x30 ≤ byte.toNat) : IsPlain byte := by
  refine ⟨?_, ?_, ?_, ?_⟩ <;> rintro rfl <;> exact absurd hbyte (by decide)

theorem isPlain_of_all {bytes : List UInt8}
    (hbytes : bytes.all (fun byte => 0x30 ≤ byte.toNat) = true) : ∀ byte ∈ bytes, IsPlain byte := by
  intro byte hbyte
  exact isPlain_of_le (of_decide_eq_true (List.all_eq_true.mp hbytes byte hbyte))

theorem isPlain_of_isDigit {byte : UInt8} (hbyte : isDigit byte = true) : IsPlain byte := by
  rw [isDigit, decide_eq_true_iff] at hbyte
  exact isPlain_of_le hbyte.1

theorem isPlain_of_mem_decimal {value : ℕ} {byte : UInt8} (hbyte : byte ∈ decimal value) :
    IsPlain byte :=
  isPlain_of_isDigit (isDigit_of_mem_decimal hbyte)

theorem valid_quotedField (bytes : List UInt8) : (quotedField bytes).Valid := by
  intro hquoted
  cases hquoted

theorem valid_plainField {bytes : List UInt8} (hbytes : ∀ byte ∈ bytes, IsPlain byte) :
    (plainField bytes).Valid :=
  fun _ => hbytes

theorem valid_decimal (value : ℕ) : (plainField (decimal value)).Valid :=
  valid_plainField fun _ => isPlain_of_mem_decimal

theorem isPlain_of_mem_signed {value : ℤ} {magnitude : List UInt8}
    (hmagnitude : ∀ byte ∈ magnitude, IsPlain byte) {byte : UInt8}
    (hbyte : byte ∈ signed value magnitude) : IsPlain byte := by
  rw [signed] at hbyte
  split_ifs at hbyte
  · rcases List.mem_cons.mp hbyte with rfl | hmem
    · exact ⟨by decide, by decide, by decide, by decide⟩
    · exact hmagnitude byte hmem
  · exact hmagnitude byte hbyte

theorem valid_signed (value : ℤ) : (plainField (signed value (decimal value.natAbs))).Valid :=
  valid_plainField fun _ => isPlain_of_mem_signed fun _ => isPlain_of_mem_decimal

theorem valid_ts (t base : UInt64) : (plainField (ts t base)).Valid := by
  apply valid_plainField
  intro byte hbyte
  apply isPlain_of_mem_signed _ hbyte
  intro byte hbyte
  rcases List.mem_append.mp hbyte with hseconds | hmicros
  · exact isPlain_of_mem_decimal hseconds
  · rcases List.mem_cons.mp hmicros with rfl | hmicros
    · exact ⟨by decide, by decide, by decide, by decide⟩
    · exact isPlain_of_isDigit (isDigit_of_mem_paddedDecimal hmicros)

theorem valid_eventName (event : ClientEvent) :
    (plainField (asBytes (eventName event))).Valid := by
  have hnames : ∀ name ∈ ["lsn", "connect", "disconnect", "simple_query", "parse", "bind",
      "execute", "sync", "tx_end", "close"],
      (asBytes name).all (fun byte => 0x30 ≤ byte.toNat) = true := by
    decide +kernel
  apply valid_plainField
  apply isPlain_of_all
  apply hnames
  cases event <;> simp [eventName]

theorem valid_paramFields (p : BindParam) : ∀ field ∈ paramFields p, field.Valid := by
  have hnull : ∀ byte ∈ asBytes "NULL", IsPlain byte := isPlain_of_all (by decide +kernel)
  obtain ⟨typeOid, value⟩ := p
  cases value with
  | none => simpa [paramFields, valueField] using ⟨valid_decimal _, valid_plainField hnull⟩
  | some v => simpa [paramFields, valueField] using ⟨valid_decimal _, valid_quotedField v⟩

theorem valid_eventFields (event : ClientEvent) :
    ∀ field ∈ eventFields event, field.Valid := by
  cases event with
  | bind portal statement resultFormats params =>
      intro field hfield
      simp only [eventFields, listField, List.mem_cons, List.mem_flatMap] at hfield
      rcases hfield with rfl | rfl | rfl | ⟨p, -, hfield⟩
      · exact valid_quotedField _
      · exact valid_quotedField _
      · exact valid_quotedField _
      · exact valid_paramFields p field hfield
  | _ =>
      simp [eventFields, listField, valid_quotedField, valid_decimal, valid_signed]

theorem valid_record (base : UInt64) (m : CaptureMessage) :
    record base m ≠ [] ∧ ∀ field ∈ record base m, field.Valid := by
  refine ⟨List.cons_ne_nil _ _, ?_⟩
  simp only [record, List.forall_mem_cons]
  exact ⟨valid_ts m.ts base, valid_decimal _, valid_eventName m.event, valid_eventFields m.event⟩

theorem valid_header : header ≠ [] ∧ ∀ field ∈ header, field.Valid := by
  have hnames : ∀ name ∈ ["timestamp", "client_id", "message", "fields"],
      (asBytes name).all (fun byte => 0x30 ≤ byte.toNat) = true := by
    decide +kernel
  have hvalid : ∀ name ∈ ["timestamp", "client_id", "message", "fields"],
      (plainField (asBytes name)).Valid := fun name hname =>
    valid_plainField (isPlain_of_all (hnames name hname))
  refine ⟨List.cons_ne_nil _ _, ?_⟩
  simp only [header, List.forall_mem_cons]
  exact ⟨hvalid _ (by simp), hvalid _ (by simp), hvalid _ (by simp), hvalid _ (by simp), by simp⟩

/-! ## Records determine their events -/

theorem readMicroseconds_eq (a : ℕ) :
    readMicroseconds (decimal (a / 1000000) ++ point :: paddedDecimal 6 (a % 1000000)) = a := by
  have hrest : ∀ byte, (point :: paddedDecimal 6 (a % 1000000)).head? = some byte →
      isDigit byte = false := by
    intro byte hbyte
    cases hbyte
    decide
  rw [readMicroseconds, takeWhile_decimal_append hrest, dropWhile_decimal_append hrest,
    ofDecimal_decimal, List.drop_one, List.tail_cons, ofDecimal_paddedDecimal]
  omega

theorem toInt_toInt64_of_lt {n : UInt64} (hn : n.toNat < 2 ^ 63) : n.toInt64.toInt = n.toNat := by
  have hofNat : n.toInt64 = Int64.ofNat n.toNat := by
    rw [← UInt64.toInt64_ofNat', UInt64.ofNat_toNat]
  rw [hofNat, Int64.toInt_ofNat_of_lt hn]

/-- The difference of two timestamps below `2 ^ 63` does not wrap, and is read back with
its sign. -/
theorem readTs_ts {t base : UInt64} (ht : t.toNat < 2 ^ 63) (hbase : base.toNat < 2 ^ 63) :
    readTs (plainField (ts t base)) = (t.toNat : ℤ) - base.toNat := by
  have hdifference : (t.toInt64 - base.toInt64).toInt = (t.toNat : ℤ) - base.toNat := by
    rw [Int64.toInt_sub, toInt_toInt64_of_lt ht, toInt_toInt64_of_lt hbase]
    apply Int.bmod_eq_of_le <;> omega
  rw [readTs, plainField, ts]
  dsimp only
  rw [ofSigned_signed (readMicroseconds_eq _) (head?_decimal_ne_minus _ _), hdifference]

theorem readInt_signed (value : ℤ) :
    readInt (plainField (signed value (decimal value.natAbs))) = value := by
  have hsign := head?_decimal_ne_minus value.natAbs []
  rw [List.append_nil] at hsign
  exact ofSigned_signed (ofDecimal_decimal value.natAbs) hsign

theorem readNat_decimal (value : ℕ) : readNat (plainField (decimal value)) = value :=
  ofDecimal_decimal value

theorem readText_asBytes (quoted : Bool) (s : String) : readText ⟨quoted, asBytes s⟩ = s :=
  fromUtf8Lossy_asBytes s

/-- The numbers of a list are what stands between the spaces. -/
theorem readList_listField {T : Type} (value : T → ℕ) (v : List T) :
    readList (listField (fun x => decimal (value x)) v) = v.map value := by
  rw [readList, listField, quotedField]
  dsimp only
  cases v with
  | nil => rfl
  | cons first rest =>
      have hne : [space].intercalate ((first :: rest).map fun x => decimal (value x)) ≠ [] := by
        rw [List.map_cons, intercalate_cons]
        intro hnil
        exact decimal_ne_nil _ (List.append_eq_nil_iff.mp hnil).1
      have hspace : ∀ item ∈ (first :: rest).map fun x => decimal (value x), space ∉ item := by
        intro item hitem hmem
        obtain ⟨x, -, rfl⟩ := List.mem_map.mp hitem
        exact absurd (isDigit_of_mem_decimal hmem) (by decide)
      rw [if_neg hne, List.splitOn_intercalate space hspace (by simp), List.map_map]
      apply List.map_congr_left
      intro x _
      exact ofDecimal_decimal (value x)

theorem readParams_eq (params : List BindParam) :
    readParams (params.flatMap paramFields) = some params := by
  induction params with
  | nil => rfl
  | cons p params ih =>
      obtain ⟨typeOid, value⟩ := p
      have hvalue : readValue (valueField value) = value := by
        cases value <;> rfl
      rw [List.flatMap_cons, paramFields]
      simp [readParams, ih, readNat_decimal, hvalue]

/-- The fields of an event determine it. -/
theorem readEventFields_eq (event : ClientEvent) :
    readEventFields (eventName event) (eventFields event) = some event := by
  cases event with
  | bind portal statement resultFormats params =>
      have hformats := readList_listField UInt16.toNat resultFormats
      simp [readEventFields, eventName, eventFields, readParams_eq, hformats, quotedField,
        readText_asBytes, Function.comp_def]
  | parse name query paramTypes =>
      have htypes := readList_listField UInt32.toNat paramTypes
      simp [readEventFields, eventName, eventFields, htypes, quotedField, readText_asBytes,
        Function.comp_def]
  | txEnd committed xid lsn =>
      have houtcome : asBytes "abort" ≠ asBytes "commit" := by decide +kernel
      cases committed <;>
        simp [readEventFields, eventName, eventFields, quotedField, readNat_decimal, houtcome]
  | _ =>
      simp [readEventFields, eventName, eventFields, quotedField, readText_asBytes,
        readNat_decimal, readInt_signed]

theorem readRecord_record {base : UInt64} {m : CaptureMessage} (hts : m.ts.toNat < 2 ^ 63)
    (hbase : base.toNat < 2 ^ 63) :
    readRecord (record base m) =
      some ((m.ts.toNat : ℤ) - base.toNat, m.id, m.event) := by
  have htext : readText (plainField (asBytes (eventName m.event))) = eventName m.event :=
    readText_asBytes false _
  rw [record, readRecord, htext, readEventFields_eq, readTs_ts hts hbase, readNat_decimal]
  simp

/-! ## The dump -/

/-- With more rounds than events the loop ends, and it has written their lines. -/
theorem lines_eq {base : UInt64} {buf : List UInt8} {messages : List CaptureMessage}
    (hreads : Reads buf messages) (hvalues : ∀ m ∈ messages, Utf8Values m.event) {rounds : ℕ}
    (hrounds : messages.length < rounds) :
    lines base rounds buf = some (.ok ((messages.map (record base)).flatMap recordLayout)) := by
  induction hreads generalizing rounds with
  | done hread =>
      cases rounds with
      | zero => cases hrounds
      | succ rounds =>
          rw [lines, hread]
          rfl
  | @event _ _ m _ hread _ ih =>
      cases rounds with
      | zero => cases hrounds
      | succ rounds =>
          obtain ⟨hvalue, hrest⟩ := List.forall_mem_cons.mp hvalues
          have htail := ih hrest (Nat.lt_of_succ_lt_succ hrounds)
          rw [lines, hread]
          dsimp only
          rw [htail, line_eq base hvalue]
          rfl

theorem dump_eq {reader : CaptureReader} {messages : List CaptureMessage}
    (hreads : Reads reader.buf messages) (hvalues : ∀ m ∈ messages, Utf8Values m.event)
    {rounds : ℕ} (hrounds : messages.length < rounds) :
    dump rounds reader = some (.ok ((header ::
      (opening reader :: messages).map (record reader.startTs)).flatMap recordLayout)) := by
  have hheader : asBytes "timestamp,client_id,message,fields\n" = recordLayout header := by
    decide +kernel
  have hopening : head reader.startTs reader.startTs 0 "lsn" ++
      comma :: decimal reader.lsn.toNat ++ [lineFeed] =
        recordLayout (record reader.startTs (opening reader)) :=
    @line_eq reader.startTs (opening reader) trivial
  rw [dump, lines_eq hreads hvalues hrounds, hheader]
  rw [hopening]
  simp [Except.map]

/-- The dump of a capture is a CSV file with a header and one record for the opening LSN
and each event, in order, and from each record its event can be read: the time behind
the start in microseconds, the client, the kind and all fields. -/
theorem dump_faithful {reader : CaptureReader} {messages : List CaptureMessage}
    (hreads : Reads reader.buf messages) (hbase : reader.startTs.toNat < 2 ^ 63)
    (hts : ∀ m ∈ messages, m.ts.toNat < 2 ^ 63) (hvalues : ∀ m ∈ messages, Utf8Values m.event)
    {rounds : ℕ} (hrounds : messages.length < rounds) :
    ∃ output records, dump rounds reader = some (.ok output) ∧
      parse output = some (header :: records) ∧
      records.map readRecord = (opening reader :: messages).map fun m =>
        some ((m.ts.toNat : ℤ) - reader.startTs.toNat, m.id, m.event) := by
  refine ⟨_, (opening reader :: messages).map (record reader.startTs),
    dump_eq hreads hvalues hrounds, ?_, ?_⟩
  · apply parse_records
    rw [List.forall_mem_cons]
    refine ⟨valid_header, ?_⟩
    intro fields hfields
    obtain ⟨m, -, rfl⟩ := List.mem_map.mp hfields
    exact valid_record reader.startTs m
  · rw [List.map_map]
    apply List.map_congr_left
    intro m hm
    apply readRecord_record _ hbase
    rcases List.mem_cons.mp hm with rfl | hm
    · exact hbase
    · exact hts m hm

/-- A bind in front of the opening LSN, with a null, the text NULL and an empty text. -/
def bindMessage : CaptureMessage :=
  ⟨7, 1, .bind "" "" [] [⟨25, none⟩, ⟨25, some (asBytes "NULL")⟩, ⟨25, some []⟩]⟩

def bindReader : CaptureReader where
  buf := [6, 7, 0, 0, 0, 1, 0, 0, 0, 0, 0, 0, 0, 0, 0, 0, 0, 0, 0, 0, 0, 0, 0, 3, 0,
    25, 0, 0, 0, 255, 255, 255, 255, 25, 0, 0, 0, 4, 0, 0, 0, 78, 85, 76, 76,
    25, 0, 0, 0, 0, 0, 0, 0]
  lsn := 9
  startTs := 1500001

theorem dump_faithful_bind :
    ∃ output records, dump 2 bindReader = some (.ok output) ∧
      parse output = some (header :: records) ∧
      records.map readRecord =
        [some (0, 0, .lsn 9), some (-1500000, 7, bindMessage.event)] := by
  have hread : readEvent bindReader.buf = .ok (some bindMessage) [] := rfl
  have hreads : Reads bindReader.buf [bindMessage] := .event hread (.done readEvent_nil)
  have hvalues : Utf8Values bindMessage.event := by
    simp only [bindMessage, Utf8Values, List.forall_mem_cons]
    refine ⟨by simp, ?_, ?_, by simp⟩
    · rintro v ⟨⟩
      exact ⟨"NULL", rfl⟩
    · rintro v ⟨⟩
      exact ⟨"", rfl⟩
  exact dump_faithful hreads (by decide) (by simp [bindMessage]) (by simpa using hvalues)
    (by decide)

end Pgr.CaptureDump
