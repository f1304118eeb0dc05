import Mathlib

/-!
# Comma-separated values

The format of RFC 4180, read by a machine that takes one byte at a time and
remembers of each field whether it was quoted.  A line ends at LF or at CR LF.
Records that are printed field by field are read back.
-/

namespace Pgr.Csv

def comma : UInt8 := 0x2C

def quote : UInt8 := 0x22

def lineFeed : UInt8 := 0x0A

def carriageReturn : UInt8 := 0x0D

structure Field where
  quoted : Bool
  bytes : List UInt8
  deriving DecidableEq

/-! ## Reading -/

inductive Mode where
  | start
  | plain
  | quoted
  /-- Behind a quote inside a quoted field. -/
  | closing
  | carriageReturn
  deriving DecidableEq

structure Parser where
  mode : Mode
  field : List UInt8
  fields : List Field
  records : List (List Field)

def Parser.init : Parser :=
  ⟨.start, [], [], []⟩

def endField (quoted : Bool) (p : Parser) : Parser :=
  { p with mode := .start, field := [], fields := p.fields ++ [⟨quoted, p.field⟩] }

def endRecord (p : Parser) : Parser :=
  { p with mode := .start, fields := [], records := p.records ++ [p.fields] }

/-- A byte that ends the field. -/
def delimiter (quoted : Bool) (p : Parser) (byte : UInt8) : Option Parser :=
  if byte = comma then some (endField quoted p)
  else if byte = lineFeed then some (endRecord (endField quoted p))
  else if byte = carriageReturn then some { endField quoted p with mode := .carriageReturn }
  else none

def plainByte (p : Parser) (byte : UInt8) : Option Parser :=
  if byte = quote then none
  else some ((delimiter false p byte).getD
    { p with mode := .plain, field := p.field ++ [byte] })

def step (p : Parser) (byte : UInt8) : Option Parser :=
  match p.mode with
  | .start => if byte = quote then some { p with mode := .quoted } else plainByte p byte
  | .plain => plainByte p byte
  | .quoted =>
      some (if byte = quote then { p with mode := .closing }
        else { p with field := p.field ++ [byte] })
  | .closing =>
      if byte = quote then some { p with mode := .quoted, field := p.field ++ [quote] }
      else delimiter true p byte
  | .carriageReturn => if byte = lineFeed then some (endRecord p) else none

/-- The last record may lack its line end. -/
def finish (p : Parser) : Option (List (List Field)) :=
  match p.mode with
  | .start =>
      some (if p.fields = [] then p.records else (endRecord (endField false p)).records)
  | .plain => some (endRecord (endField false p)).records
  | .closing => some (endRecord (endField true p)).records
  | .quoted | .carriageReturn => none

def parse (bytes : List UInt8) : Option (List (List Field)) :=
  (bytes.foldlM step Parser.init).bind finish

/-! ## Printing -/

/-- Every quote twice. -/
def doubleQuotes (bytes : List UInt8) : List UInt8 :=
  bytes.flatMap fun byte => if byte = quote then [quote, quote] else [byte]

theorem doubleQuotes_eq_self {bytes : List UInt8} (hbytes : quote ∉ bytes) :
    doubleQuotes bytes = bytes := by
  induction bytes with
  | nil => rfl
  | cons byte bytes ih =>
      obtain ⟨hbyte, hrest⟩ := List.ne_and_not_mem_of_not_mem_cons hbytes
      rw [doubleQuotes] at ih ⊢
      rw [List.flatMap_cons, ih hrest, if_neg (Ne.symm hbyte)]
      rfl

def Field.layout (field : Field) : List UInt8 :=
  if field.quoted then quote :: (doubleQuotes field.bytes ++ [quote]) else field.bytes

def recordLayout : List Field → List UInt8
  | [] => [lineFeed]
  | first :: rest =>
      first.layout ++ rest.flatMap (fun field => comma :: field.layout) ++ [lineFeed]

def IsPlain (byte : UInt8) : Prop :=
  byte ≠ quote ∧ byte ≠ comma ∧ byte ≠ lineFeed ∧ byte ≠ carriageReturn

instance (byte : UInt8) : Decidable (IsPlain byte) :=
  inferInstanceAs (Decidable (_ ∧ _))

/-- What is not quoted needs no quotes. -/
def Field.Valid (field : Field) : Prop :=
  field.quoted = false → ∀ byte ∈ field.bytes, IsPlain byte

/-! ## The round trip -/

variable {p : Parser}

/-- The modes in which the bytes of an unquoted field are read. -/
def Unquoted (mode : Mode) : Prop :=
  mode = .start ∨ mode = .plain

theorem step_unquoted (hmode : Unquoted p.mode) {byte : UInt8} (hbyte : byte ≠ quote) :
    step p byte = plainByte p byte := by
  rw [step]
  rcases hmode with hstart | hplain
  · rw [hstart]
    exact if_neg hbyte
  · rw [hplain]

theorem plainByte_isPlain {byte : UInt8} (hbyte : IsPlain byte) :
    plainByte p byte = some { p with mode := .plain, field := p.field ++ [byte] } := by
  obtain ⟨hquote, hcomma, hline, hreturn⟩ := hbyte
  rw [plainByte, delimiter, if_neg hquote, if_neg hcomma, if_neg hline, if_neg hreturn]
  rfl

theorem run_plain {bytes : List UInt8} (hbytes : ∀ byte ∈ bytes, IsPlain byte)
    (hmode : Unquoted p.mode) :
    ∃ mode, Unquoted mode ∧
      bytes.foldlM step p = some { p with mode := mode, field := p.field ++ bytes } := by
  induction bytes generalizing p with
  | nil => exact ⟨p.mode, hmode, by simp⟩
  | cons byte bytes ih =>
      obtain ⟨hbyte, hrest⟩ := List.forall_mem_cons.mp hbytes
      obtain ⟨mode, hunquoted, hrun⟩ :=
        @ih { p with mode := .plain, field := p.field ++ [byte] } hrest (.inr rfl)
      refine ⟨mode, hunquoted, ?_⟩
      rw [List.foldlM_cons, step_unquoted hmode hbyte.1, plainByte_isPlain hbyte]
      simpa using hrun

theorem run_doubleQuotes (bytes : List UInt8) (hmode : p.mode = .quoted) :
    (doubleQuotes bytes).foldlM step p = some { p with field := p.field ++ bytes } := by
  induction bytes generalizing p with
  | nil => simp [doubleQuotes]
  | cons byte bytes ih =>
      have hrest := @ih { p with field := p.field ++ [byte] } hmode
      rw [doubleQuotes] at hrest ⊢
      rw [List.flatMap_cons, List.foldlM_append]
      split_ifs with hbyte
      · subst hbyte
        simpa [step, hmode] using hrest
      · simpa [step, hmode, hbyte] using hrest

/-- A printed field is read up to the byte behind it, which ends it. -/
theorem run_field {field : Field} (hvalid : field.Valid) (hmode : p.mode = .start)
    (hfield : p.field = []) {byte : UInt8} (hbyte : byte = comma ∨ byte = lineFeed) :
    (field.layout ++ [byte]).foldlM step p =
      delimiter field.quoted { p with field := field.bytes } byte := by
  have hquote : byte ≠ quote := by rcases hbyte with rfl | rfl <;> decide
  rw [Field.layout, List.foldlM_append]
  cases hquoted : field.quoted with
  | false =>
      obtain ⟨mode, hunquoted, hrun⟩ := run_plain (hvalid hquoted) (.inl hmode)
      rw [if_neg Bool.false_ne_true, hrun, hfield, List.nil_append]
      simp only [Option.bind_eq_bind, Option.bind_some, List.foldlM_cons, List.foldlM_nil]
      rw [step_unquoted hunquoted hquote, plainByte, if_neg hquote]
      rcases hbyte with rfl | rfl <;> rfl
  | true =>
      have hrun := @run_doubleQuotes { p with mode := .quoted } field.bytes rfl
      have hopen : step p quote = some { p with mode := .quoted } := by simp [step, hmode]
      rw [if_pos rfl, List.foldlM_cons, hopen]
      simp only [Option.bind_eq_bind, Option.bind_some, List.foldlM_append, hrun]
      rw [hfield, List.nil_append]
      rcases hbyte with rfl | rfl <;> simp [step, delimiter, endField, comma, lineFeed, quote]

theorem run_record {first : Field} {rest : List Field} (hfirst : first.Valid)
    (hrest : ∀ field ∈ rest, field.Valid) (hmode : p.mode = .start) (hfield : p.field = []) :
    (recordLayout (first :: rest)).foldlM step p =
      some ⟨.start, [], [], p.records ++ [p.fields ++ first :: rest]⟩ := by
  induction rest generalizing first p with
  | nil =>
      have hrun := run_field hfirst hmode hfield (.inr rfl)
      rw [recordLayout, List.flatMap_nil, List.append_nil, hrun]
      simp [delimiter, endRecord, endField, lineFeed, comma]
  | cons next rest ih =>
      obtain ⟨hnext, hothers⟩ := List.forall_mem_cons.mp hrest
      have hlayout : recordLayout (first :: next :: rest) =
          (first.layout ++ [comma]) ++ recordLayout (next :: rest) := by
        simp [recordLayout]
      have hrun := run_field hfirst hmode hfield (.inl rfl)
      have htail := @ih (endField first.quoted { p with field := first.bytes }) next hnext hothers
        rfl rfl
      rw [hlayout, List.foldlM_append, hrun, delimiter, if_pos rfl]
      simpa [endField] using htail

theorem run_records {records : List (List Field)}
    (hrecords : ∀ fields ∈ records, fields ≠ [] ∧ ∀ field ∈ fields, field.Valid)
    (hmode : p.mode = .start) (hfield : p.field = []) (hfields : p.fields = []) :
    (records.flatMap recordLayout).foldlM step p =
      some ⟨.start, [], [], p.records ++ records⟩ := by
  induction records generalizing p with
  | nil =>
      obtain ⟨mode, field, fields, records⟩ := p
      cases hmode
      cases hfield
      cases hfields
      simp
  | cons fields records ih =>
      obtain ⟨⟨hne, hvalid⟩, hrest⟩ := List.forall_mem_cons.mp hrecords
      cases fields with
      | nil => exact absurd rfl hne
      | cons first rest =>
          obtain ⟨hfirst, hothers⟩ := List.forall_mem_cons.mp hvalid
          have hrun := run_record hfirst hothers hmode hfield
          have htail := @ih ⟨.start, [], [], p.records ++ [first :: rest]⟩ hrest rfl rfl rfl
          rw [List.flatMap_cons, List.foldlM_append, hrun, hfields, List.nil_append]
          simpa using htail

/-- Printed records are read back, every field with its quotes. -/
theorem parse_records {records : List (List Field)}
    (hrecords : ∀ fields ∈ records, fields ≠ [] ∧ ∀ field ∈ fields, field.Valid) :
    parse (records.flatMap recordLayout) = some records := by
  have hrun := @run_records Parser.init records hrecords rfl rfl rfl
  rw [parse, hrun]
  rfl

example : parse [0x61, 0x2C, 0x22, 0x2C, 0x22, 0x22, 0x22, 0x0D, 0x0A, 0x22, 0x22] =
    some [[⟨false, [0x61]⟩, ⟨true, [0x2C, 0x22]⟩], [⟨true, []⟩]] := by decide

end Pgr.Csv
