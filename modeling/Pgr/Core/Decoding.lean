import Pgr.Core.FixedWidth

/-!
# Byte readers and exact decoding

A reader consumes a byte string from the front and keeps the unread rest, also
when it fails.  `Decodes eof reader bytes value` is the contract of one record
field: in front of any continuation the reader returns `value` and consumes
exactly `bytes`, and on every proper prefix of `bytes` it runs into the end of
the input.  The contract composes along `bind`, so a record inherits it from
its fields, at every cut point.
-/

namespace Pgr.Decoding

open Pgr.FixedWidth

/-- A reader over a byte string with errors in `E`. -/
abbrev Reader (E A : Type) := EStateM E (List UInt8) A

variable {E A B : Type}

/-- Exactly `count` bytes, or `eof` with everything consumed. -/
def readExact (eof : E) (count : ℕ) : Reader E (List UInt8) := fun bytes =>
  if count ≤ bytes.length then .ok (bytes.take count) (bytes.drop count)
  else .error eof []

/-- The bytes in front of the first NUL, which is consumed too. -/
def readCStr (eof : E) : Reader E (List UInt8) := fun bytes =>
  let text := bytes.takeWhile (· != 0)
  if text.length < bytes.length then .ok text (bytes.drop (text.length + 1))
  else .error eof []

/-- `count` values, one after the other. -/
def readMany (reader : Reader E A) : (count : ℕ) → Reader E (List A)
  | 0 => pure []
  | count + 1 => do
      let value ← reader
      let values ← readMany reader count
      pure (value :: values)

structure Decodes (eof : E) (reader : Reader E A) (bytes : List UInt8)
    (value : A) : Prop where
  run_append : ∀ rest, reader (bytes ++ rest) = .ok value rest
  run_truncated : ∀ part, part <+: bytes → part ≠ bytes →
    reader part = .error eof []

theorem bind_of_ok {reader : Reader E A} {next : A → Reader E B}
    {input rest : List UInt8} {value : A} (hreader : reader input = .ok value rest) :
    (reader >>= next) input = next value rest := by
  simp only [bind, EStateM.bind, hreader]

theorem bind_of_error {reader : Reader E A} {next : A → Reader E B}
    {input rest : List UInt8} {error : E} (hreader : reader input = .error error rest) :
    (reader >>= next) input = .error error rest := by
  simp only [bind, EStateM.bind, hreader]

/-- A prefix of two consecutive fields is cut inside the first one, or contains
it whole. -/
theorem cut_append {first second part : List UInt8} (hpart : part <+: first ++ second) :
    (part <+: first ∧ part ≠ first) ∨
      ∃ tail, part = first ++ tail ∧ tail <+: second := by
  rcases le_or_gt first.length part.length with hlength | hlength
  · obtain ⟨tail, rfl⟩ := List.prefix_of_prefix_length_le
      (List.prefix_append first second) hpart hlength
    exact Or.inr ⟨tail, rfl, (List.prefix_append_right_inj first).mp hpart⟩
  · refine Or.inl ⟨List.prefix_of_prefix_length_le hpart
      (List.prefix_append first second) hlength.le, ?_⟩
    rintro rfl
    exact lt_irrefl _ hlength

namespace Decodes

variable {e : E}

theorem run {reader : Reader E A} {bytes : List UInt8} {value : A}
    (hreader : Decodes e reader bytes value) : reader bytes = .ok value [] := by
  simpa using hreader.run_append []

theorem pure (value : A) : Decodes e (pure value) [] value where
  run_append _ := rfl
  run_truncated _ hpart hne := (hne (List.prefix_nil.mp hpart)).elim

theorem bind {reader : Reader E A} {k : A → Reader E B}
    {first second : List UInt8} {value : A} {result : B}
    (hreader : Decodes e reader first value)
    (hnext : Decodes e (k value) second result) :
    Decodes e (reader >>= k) (first ++ second) result where
  run_append rest := by
    rw [List.append_assoc, bind_of_ok (hreader.run_append _), hnext.run_append]
  run_truncated part hpart hne := by
    rcases cut_append hpart with ⟨hfirst, hneFirst⟩ | ⟨tail, rfl, htail⟩
    · exact bind_of_error (hreader.run_truncated part hfirst hneFirst)
    · have hneTail : tail ≠ second := fun heq => hne (by rw [heq])
      rw [bind_of_ok (hreader.run_append tail), hnext.run_truncated tail htail hneTail]

/-- The last field of a record: what follows it only builds the value. -/
theorem bind_pure {reader : Reader E A} {f : A → B} {bytes : List UInt8}
    {value : A} (hreader : Decodes e reader bytes value) :
    Decodes e (do let field ← reader; Pure.pure (f field)) bytes (f value) := by
  simpa using hreader.bind (k := fun field => Pure.pure (f field))
    (Decodes.pure (f value))

theorem map {reader : Reader E A} {f : A → B} {bytes : List UInt8}
    {value : A} (hreader : Decodes e reader bytes value) :
    Decodes e (f <$> reader) bytes (f value) where
  run_append rest := by
    simp only [Functor.map, EStateM.map, hreader.run_append]
  run_truncated part hpart hne := by
    simp only [Functor.map, EStateM.map, hreader.run_truncated part hpart hne]

theorem readExact {count : ℕ} {bytes : List UInt8} (hcount : bytes.length = count) :
    Decodes e (readExact e count) bytes bytes where
  run_append rest := by
    subst hcount
    simp [Decoding.readExact]
  run_truncated part hpart hne := by
    have hlength : part.length < count := by
      rcases hpart.length_le.lt_or_eq with hlt | heq
      · omega
      · exact (hne (hpart.eq_of_length heq)).elim
    simp [Decoding.readExact, Nat.not_le.mpr hlength]

/-- A list of known length decodes when each of its entries does. -/
theorem readMany {reader : Reader E B} {encode : A → List UInt8} {decoded : A → B}
    {items : List A}
    (hitems : ∀ item ∈ items, Decodes e reader (encode item) (decoded item)) :
    Decodes e (readMany reader items.length) (items.flatMap encode)
      (items.map decoded) := by
  induction items with
  | nil => exact Decodes.pure []
  | cons item items ih =>
      rw [List.flatMap_cons]
      refine (hitems item (by simp)).bind ?_
      exact (ih fun other hother => hitems other (by simp [hother])).bind_pure

/-- The case of records that are read back as they are. -/
theorem readMany_self {reader : Reader E A} {encode : A → List UInt8} (items : List A)
    (hitems : ∀ item ∈ items, Decodes e reader (encode item) item) :
    Decodes e (Decoding.readMany reader items.length) (items.flatMap encode) items := by
  have hmapped : ∀ item ∈ items, Decodes e reader (encode item) (id item) := hitems
  simpa using readMany hmapped

/-- A fixed-width little-endian integer. -/
theorem leBytes (width : ℕ) (f : ℕ → A) {value : ℕ} (hvalue : value < 256 ^ width) :
    Decodes e
      (do let bytes ← Decoding.readExact e width; Pure.pure (f (ofLeBytes bytes)))
      (FixedWidth.leBytes width value) (f value) := by
  have hread := (readExact (e := e) (length_leBytes width value)).bind_pure
    (f := fun bytes => f (ofLeBytes bytes))
  rwa [ofLeBytes_leBytes_of_lt hvalue] at hread

/-- A fixed-width big-endian integer. -/
theorem beBytes (width : ℕ) (f : ℕ → A) {value : ℕ} (hvalue : value < 256 ^ width) :
    Decodes e
      (do let bytes ← Decoding.readExact e width; Pure.pure (f (ofBeBytes bytes)))
      (FixedWidth.beBytes width value) (f value) := by
  have hread := (readExact (e := e) (length_beBytes width value)).bind_pure
    (f := fun bytes => f (ofBeBytes bytes))
  rwa [ofBeBytes_beBytes_of_lt hvalue] at hread

theorem takeWhile_nul_free {text : List UInt8} (htext : 0 ∉ text) (rest : List UInt8) :
    (text ++ rest).takeWhile (· != 0) = text ++ rest.takeWhile (· != 0) := by
  refine List.takeWhile_append_of_pos fun byte hbyte => ?_
  have hne : byte ≠ 0 := fun heq => htext (heq ▸ hbyte)
  simpa using hne

/-- A NUL-terminated byte string. -/
theorem readCStr {text : List UInt8} (htext : 0 ∉ text) :
    Decodes e (readCStr e) (text ++ [0]) text where
  run_append rest := by
    have htake : (text ++ 0 :: rest).takeWhile (· != 0) = text := by
      simpa using takeWhile_nul_free htext (0 :: rest)
    simp [Decoding.readCStr, htake]
  run_truncated part hpart hne := by
    -- A proper prefix stops in front of the terminator, so it holds no NUL.
    have hfree : 0 ∉ part := by
      rcases List.prefix_concat_iff.mp hpart with heq | hinside
      · exact (hne heq).elim
      · exact fun hmem => htext (hinside.subset hmem)
    have htake : part.takeWhile (· != 0) = part := by
      simpa using takeWhile_nul_free hfree []
    simp [Decoding.readCStr, htake]

end Decodes

/-! ## Exact readers

The converse of decoding: what a reader returns determines the bytes it has
consumed, so nothing else decodes to that value. -/

def Consumes (reader : Reader E A) (Valid : A → List UInt8 → Prop) : Prop :=
  ∀ input value rest, reader input = .ok value rest →
    ∃ bytes, input = bytes ++ rest ∧ Valid value bytes

theorem bind_eq_ok {reader : Reader E A} {next : A → Reader E B}
    {input rest : List UInt8} {result : B}
    (hbind : (reader >>= next) input = .ok result rest) :
    ∃ value middle, reader input = .ok value middle ∧ next value middle = .ok result rest := by
  cases hreader : reader input with
  | ok value middle => exact ⟨value, middle, rfl, by rwa [bind_of_ok hreader] at hbind⟩
  | error error middle => rw [bind_of_error hreader] at hbind; cases hbind

theorem pure_eq_ok {value result : A} {input rest : List UInt8}
    (hpure : (pure value : Reader E A) input = .ok result rest) :
    result = value ∧ rest = input := by
  cases hpure
  exact ⟨rfl, rfl⟩

theorem consumes_readExact (eof : E) (count : ℕ) :
    Consumes (readExact eof count) fun value bytes =>
      value = bytes ∧ bytes.length = count := by
  intro input value rest hread
  rw [readExact] at hread
  split_ifs at hread with hcount
  cases hread
  exact ⟨input.take count, (List.take_append_drop count input).symm, rfl,
    List.length_take_of_le hcount⟩

theorem Consumes.readMany {reader : Reader E A} {Valid : A → List UInt8 → Prop}
    {encode : A → List UInt8} {Fits : A → Prop} (hreader : Consumes reader Valid)
    (hvalid : ∀ value bytes, Valid value bytes → bytes = encode value ∧ Fits value)
    (count : ℕ) :
    Consumes (readMany reader count) fun values bytes =>
      values.length = count ∧ bytes = values.flatMap encode ∧ ∀ value ∈ values, Fits value := by
  induction count with
  | zero =>
      intro input values rest hread
      obtain ⟨rfl, rfl⟩ := pure_eq_ok hread
      exact ⟨[], rfl, rfl, rfl, by simp⟩
  | succ count ih =>
      intro input values rest hread
      obtain ⟨value, middle, hvalue, hrest⟩ := bind_eq_ok hread
      obtain ⟨others, last, hothers, hpure⟩ := bind_eq_ok hrest
      obtain ⟨rfl, rfl⟩ := pure_eq_ok hpure
      obtain ⟨bytes, rfl, hbytes⟩ := hreader _ _ _ hvalue
      obtain ⟨rfl, hfits⟩ := hvalid _ _ hbytes
      obtain ⟨tail, rfl, hlength, rfl, hall⟩ := ih _ _ _ hothers
      refine ⟨encode value ++ others.flatMap encode, by simp, by simp [hlength], by simp, ?_⟩
      exact List.forall_mem_cons.mpr ⟨hfits, hall⟩

/-! ## Logs of records

A log is read record by record until the reader reports that there is no further
one.  `ReadsRecord` is the contract of one record of such a log: a truncated
record counts as no record. -/

structure ReadsRecord (reader : Reader E (Option A)) (bytes : List UInt8)
    (value : A) : Prop where
  run_append : ∀ rest, reader (bytes ++ rest) = .ok (some value) rest
  run_truncated : ∀ part, part <+: bytes → part ≠ bytes →
    reader part = .ok none []

theorem readMany_succ_of_ok {reader : Reader E A} {input rest tail : List UInt8}
    {value : A} {values : List A} {count : ℕ}
    (hhead : reader input = .ok value rest)
    (htail : readMany reader count rest = .ok values tail) :
    readMany reader (count + 1) input = .ok (value :: values) tail := by
  rw [readMany, bind_of_ok hhead, bind_of_ok htail]
  rfl

theorem readMany_at_end {reader : Reader E (Option A)} (hend : reader [] = .ok none [])
    (count : ℕ) : readMany reader count [] = .ok (List.replicate count none) [] := by
  induction count with
  | zero => rfl
  | succ count ih =>
      rw [List.replicate_succ]
      exact readMany_succ_of_ok hend ih

/-- A truncated log yields exactly the records that lie wholly inside it, in
order, and then no record, however often it is asked. -/
theorem readMany_truncated {reader : Reader E (Option A)}
    (hend : reader [] = .ok none []) {records : List (List UInt8 × A)}
    (hrecords : ∀ record ∈ records, ReadsRecord reader record.1 record.2)
    {part : List UInt8} (hpart : part <+: (records.map Prod.fst).flatten) :
    ∃ count ≤ records.length,
      ((records.take count).map Prod.fst).flatten <+: part ∧
      (count < records.length →
        ¬((records.take (count + 1)).map Prod.fst).flatten <+: part) ∧
      ∀ extra, ∃ rest, readMany reader (count + extra) part =
        .ok ((records.take count).map (fun record => some record.2) ++
          List.replicate extra none) rest := by
  induction records generalizing part with
  | nil =>
      obtain rfl := List.prefix_nil.mp hpart
      exact ⟨0, le_rfl, by simp, by simp, fun extra =>
        ⟨[], by simpa using readMany_at_end hend extra⟩⟩
  | cons record records ih =>
      have hrecord := hrecords record (by simp)
      rw [List.map_cons, List.flatten_cons] at hpart
      rcases cut_append hpart with ⟨hinside, hne⟩ | ⟨tail, rfl, htail⟩
      · refine ⟨0, Nat.zero_le _, by simp, fun _ hwhole => ?_, fun extra => ?_⟩
        · exact hne (hinside.eq_of_length_le (by simpa using hwhole.length_le))
        · cases extra with
          | zero => exact ⟨part, rfl⟩
          | succ extra =>
              refine ⟨[], ?_⟩
              rw [Nat.zero_add, List.replicate_succ]
              exact readMany_succ_of_ok (hrecord.run_truncated part hinside hne)
                (readMany_at_end hend extra)
      · obtain ⟨count, hcount, hwhole, hnext, hread⟩ :=
          ih (fun other hother => hrecords other (by simp [hother])) htail
        refine ⟨count + 1, by simpa using hcount, ?_, fun hlt => ?_, fun extra => ?_⟩
        · simpa using (List.prefix_append_right_inj record.1).mpr hwhole
        · simpa [List.prefix_append_right_inj] using hnext (by simpa using hlt)
        · obtain ⟨rest, hrest⟩ := hread extra
          refine ⟨rest, ?_⟩
          rw [Nat.add_right_comm]
          simpa using readMany_succ_of_ok (hrecord.run_append tail) hrest

/-- Reads records for as long as there are any, in at most so many rounds. -/
def readLog (reader : Reader E (Option A)) : (rounds : ℕ) → List UInt8 → List A
  | 0, _ => []
  | rounds + 1, bytes =>
      match reader bytes with
      | .ok (some value) rest => value :: readLog reader rounds rest
      | _ => []

theorem readLog_of_readMany {reader : Reader E (Option A)} {values : List A}
    {input rest : List UInt8} {rounds : ℕ}
    (hread : readMany reader (values.length + 1) input = .ok (values.map some ++ [none]) rest)
    (hrounds : values.length ≤ rounds) : readLog reader rounds input = values := by
  induction values generalizing input rounds with
  | nil =>
      obtain ⟨value, middle, hvalue, hothers⟩ := bind_eq_ok hread
      obtain ⟨others, last, -, hpure⟩ := bind_eq_ok hothers
      obtain ⟨heq, -⟩ := pure_eq_ok hpure
      obtain rfl : none = value := (List.cons.inj heq).1
      cases rounds with
      | zero => rfl
      | succ rounds => rw [readLog, hvalue]
  | cons value values ih =>
      obtain ⟨first, middle, hfirst, hothers⟩ := bind_eq_ok hread
      obtain ⟨others, last, htail, hpure⟩ := bind_eq_ok hothers
      obtain ⟨heq, rfl⟩ := pure_eq_ok hpure
      obtain ⟨rfl, hlast⟩ := List.cons.inj heq
      obtain rfl : values.map some ++ [none] = others := hlast
      rw [List.length_cons] at hrounds
      cases rounds with
      | zero => omega
      | succ rounds =>
          rw [readLog, hfirst]
          exact congrArg _ (ih htail (Nat.le_of_succ_le_succ hrounds))

/-- A log of records of one size that is cut anywhere yields the records that lie
wholly in front of the cut. -/
theorem readLog_truncated {reader : Reader E (Option A)} (hend : reader [] = .ok none [])
    {width : ℕ} (hwidth : 0 < width) {layout : B → List UInt8} {decoded : B → A}
    (hrecord : ∀ item, ReadsRecord reader (layout item) (decoded item))
    (hlength : ∀ item, (layout item).length = width) {items : List B} {part : List UInt8}
    (hpart : part <+: items.flatMap layout) {rounds : ℕ} (hrounds : part.length ≤ rounds) :
    readLog reader rounds part = (items.take (part.length / width)).map decoded := by
  induction items generalizing part rounds with
  | nil =>
      obtain rfl := List.prefix_nil.mp hpart
      cases rounds with
      | zero => simp [readLog]
      | succ rounds => simp [readLog, hend]
  | cons item items ih =>
      rw [List.flatMap_cons] at hpart
      rcases cut_append hpart with ⟨hinside, hne⟩ | ⟨tail, rfl, htail⟩
      · have hshort : part.length < width := by
          rw [← hlength item]
          exact lt_of_le_of_ne hinside.length_le fun heq => hne (hinside.eq_of_length heq)
        rw [Nat.div_eq_of_lt hshort, List.take_zero, List.map_nil]
        cases rounds with
        | zero => rfl
        | succ rounds => rw [readLog, (hrecord item).run_truncated part hinside hne]
      · rw [List.length_append, hlength] at hrounds ⊢
        cases rounds with
        | zero => omega
        | succ rounds =>
            rw [readLog, (hrecord item).run_append, Nat.add_div_left _ hwidth, List.take_succ_cons,
              List.map_cons]
            exact congrArg _ (ih htail (by omega))

/-! ## Readers that need not notice a cut

The first half of the contract: a reader that stops early on a truncated input
still returns the value of a whole one. -/

def Reads (reader : Reader E A) (bytes : List UInt8) (value : A) : Prop :=
  ∀ rest, reader (bytes ++ rest) = .ok value rest

theorem Decodes.reads {eof : E} {reader : Reader E A} {bytes : List UInt8} {value : A}
    (hreader : Decodes eof reader bytes value) : Reads reader bytes value :=
  hreader.run_append

theorem Reads.bind {reader : Reader E A} {next : A → Reader E B} {first second : List UInt8}
    {value : A} {result : B} (hreader : Reads reader first value)
    (hnext : Reads (next value) second result) :
    Reads (reader >>= next) (first ++ second) result := by
  intro rest
  rw [List.append_assoc, bind_of_ok (hreader _), hnext]

theorem Reads.bind_pure {reader : Reader E A} {bytes : List UInt8} {value : A}
    (hreader : Reads reader bytes value) (f : A → B) :
    Reads (do let field ← reader; pure (f field)) bytes (f value) := by
  intro rest
  rw [bind_of_ok (hreader rest)]
  rfl

theorem Reads.readMany {reader : Reader E B} {encode : A → List UInt8} {decoded : A → B}
    {items : List A} (hitems : ∀ item ∈ items, Reads reader (encode item) (decoded item)) :
    Reads (readMany reader items.length) (items.flatMap encode) (items.map decoded) := by
  induction items with
  | nil => exact fun _ => rfl
  | cons item items ih =>
      obtain ⟨hitem, hrest⟩ := List.forall_mem_cons.mp hitems
      exact hitem.bind ((ih hrest).bind_pure _)

end Pgr.Decoding
