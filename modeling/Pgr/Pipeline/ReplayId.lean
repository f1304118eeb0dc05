import Pgr.Extension.ReserveId
import Pgr.Pipeline.EventFiles
import Pgr.Pipeline.SessionNames
import Pgr.Replay.Client

/-!
# The id of a replay client

`queue_startup` of `client.rs` writes the captured id into the startup packet of a
connection, and `read_client_info` of `client_info.c` finds it among the options that
the server has read from the packet.  The backend puts the id into its trace and timing
records.  The server that reads the packet is a parameter; `ReadsOptions` is what the
startup protocol says about it.
-/

namespace Pgr.ReplayId

open Pgr.Decimal Pgr.Decoding Pgr.FixedWidth Pgr.Utf8Lossy Pgr.Proto Pgr.Client Pgr.Trace
  Pgr.EventFiles Pgr.ReserveId Pgr.SessionNames Pgr.WholeMessages

/-! ## `client_info.c` -/

structure ClientInfo where
  myReplayId : Int32
  clientIsPsql : Bool

def ClientInfo.start : ClientInfo :=
  ⟨-1, false⟩

/-- What `strtol` to the base 10 says: the number, what is left behind it, and whether
it was out of range. -/
structure Parsed where
  value : ℤ
  rest : List UInt8
  erange : Bool

/-- The value of a run of digits behind a sign, cut to a `long`. -/
def longOf (negative : Bool) (digits : List UInt8) : ℤ × Bool :=
  if negative then
    if 2 ^ 63 < ofDecimal digits then (-2 ^ 63, true) else (-(ofDecimal digits : ℤ), false)
  else if 2 ^ 63 - 1 < ofDecimal digits then (2 ^ 63 - 1, true) else (ofDecimal digits, false)

def strtol (str : List UInt8) : Parsed :=
  let text := str.dropWhile isSpace
  let unsigned := if text.head?.any isSign then text.tail else text
  let digits := unsigned.takeWhile isDigit
  if digits = [] then ⟨0, str, false⟩
  else
    let long := longOf (text.head? = some 0x2D) digits
    ⟨long.1, unsigned.dropWhile isDigit, long.2⟩

/-- The id that a value stands for. -/
def clientId (value : List UInt8) : Option Int32 :=
  let parsed := strtol value
  if parsed.erange = false ∧ parsed.rest ≠ value ∧ parsed.rest = [] ∧
      -2 ^ 31 ≤ parsed.value ∧ parsed.value ≤ 2 ^ 31 - 1 then
    some (Int32.ofInt parsed.value)
  else none

/-- `port->guc_options` is a list of names, each followed by its value. -/
def readClientInfo : List (List UInt8) → ClientInfo → ClientInfo
  | name :: value :: options, info =>
      let info :=
        if name = asBytes "application_name" ∧ value = asBytes "psql" then
          { info with clientIsPsql := true }
        else info
      match if name = asBytes "pgr.client_id" then clientId value else none with
      | some id => { info with myReplayId := id }
      | none => readClientInfo options info
  | _, info => info

def isReplayClient (info : ClientInfo) : Bool :=
  info.myReplayId ≠ -1

/-- What `send_timing_event` pushes. -/
def sendTimingEvent (info : ClientInfo) (running : Bool) (type : UInt8) (ts : UInt64) :
    Option (List UInt8) :=
  if isReplayClient info ∧ running then
    some (timingRecord (Backend.start info.myReplayId.toUInt32) type ts)
  else none

/-- What `trace_end` pushes, and `pgr_post_parse_analyze_hook`. -/
def traceEnd (info : ClientInfo) (running : Bool) (statementIndex : UInt64) (durationUs : UInt32)
    (eventType : UInt8) : Option (List UInt8) :=
  if isReplayClient info ∧ running then
    some (traceRecord ⟨info.myReplayId.toUInt32, statementIndex⟩ durationUs eventType)
  else none

/-! ## The server -/

/-- The names of a parameter and its value. -/
abbrev Param := List UInt8 × List UInt8

def startupPacket (params : List Param) : List UInt8 :=
  let body := beBytes 4 fProtoVersion ++
    (params.flatMap fun param => param.1 ++ [0] ++ param.2 ++ [0]) ++ [0]
  beBytes 4 (4 + body.length) ++ body

/-- The parameters that the server does not pass on as options. -/
def isServerParam (param : Param) : Bool :=
  param.1 = asBytes "database" ∨ param.1 = asBytes "user"

/-- Parameters that a server accepts: no replication connection, no protocol extensions,
no command line, and a user. -/
structure Acceptable (params : List Param) : Prop where
  named : ∀ param ∈ params, param.1 ≠ []
  nulFree : ∀ param ∈ params, 0 ∉ param.1 ∧ 0 ∉ param.2
  plain : ∀ param ∈ params, param.1 ≠ asBytes "options" ∧ param.1 ≠ asBytes "replication" ∧
    ¬asBytes "_pq_." <+: param.1
  user : ∃ name, name ≠ [] ∧ (asBytes "user", name) ∈ params
  /-- `MAX_STARTUP_PACKET_LENGTH`, without the length itself. -/
  length_le : (startupPacket params).length ≤ 4 + 10000

/-- `ProcessStartupPacket` passes the parameters on in their order. -/
def ReadsOptions (processStartupPacket : List UInt8 → Option (List (List UInt8))) : Prop :=
  ∀ params, Acceptable params → processStartupPacket (startupPacket params) =
    some ((params.filter fun param => !isServerParam param).flatMap fun param =>
      [param.1, param.2])

/-! ## The id as a number -/

theorem strtol_decimal {value : ℕ} (hvalue : value < 2 ^ 63) :
    strtol (decimal value) = ⟨value, [], false⟩ := by
  obtain ⟨byte, digits, hdecimal⟩ := List.exists_cons_of_ne_nil (decimal_ne_nil value)
  have hbyte : isDigit byte = true := by
    apply isDigit_of_mem_decimal
    rw [hdecimal]
    exact List.mem_cons_self
  have hspace : (decimal value).dropWhile isSpace = decimal value := by
    rw [hdecimal, List.dropWhile_cons, isSpace_of_isDigit hbyte, if_neg (by decide)]
  have hsign : (decimal value).head?.any isSign = false := by
    rw [hdecimal]
    exact isSign_of_isDigit hbyte
  have hminus : ((decimal value).head? = some 0x2D) = False := by
    rw [hdecimal, List.head?_cons, eq_iff_iff, iff_false, Option.some.injEq]
    intro heq
    rw [heq] at hbyte
    exact absurd hbyte (by decide)
  have hend : ∀ other, ([] : List UInt8).head? = some other → isDigit other = false := by
    rintro other ⟨⟩
  have htake : (decimal value).takeWhile isDigit = decimal value := by
    simpa using @takeWhile_decimal_append value [] hend
  have hdrop : (decimal value).dropWhile isDigit = [] := by
    simpa using @dropWhile_decimal_append value [] hend
  have hlong : longOf false (decimal value) = ((value : ℤ), false) := by
    rw [longOf, ofDecimal_decimal, if_neg (by decide), if_neg (by omega)]
  rw [strtol]
  simp only [hspace, hsign, hminus, Bool.false_eq_true, if_false, decide_false]
  rw [htake, hdrop, hlong, if_neg (decimal_ne_nil value)]

/-- An id that fits an `int32` is read back, and no other. -/
theorem clientId_decimal (id : UInt32) :
    clientId (decimal id.toNat) = if id.toNat < 2 ^ 31 then some id.toInt32 else none := by
  have hid : id.toNat < 2 ^ 32 := id.toNat_lt
  have hvalue : Int32.ofInt id.toNat = id.toInt32 := by
    rw [Int32.ofInt_eq_ofNat, ← UInt32.toInt32_ofNat', UInt32.ofNat_toNat]
  rw [clientId, strtol_decimal (by omega)]
  dsimp only
  rw [hvalue]
  have hne : ([] : List UInt8) ≠ decimal id.toNat := (decimal_ne_nil _).symm
  by_cases hsmall : id.toNat < 2 ^ 31
  · rw [if_pos hsmall, if_pos ⟨rfl, hne, rfl, by omega, by omega⟩]
  · rw [if_neg hsmall, if_neg]
    rintro ⟨-, -, -, -, hle⟩
    omega

theorem toInt32_ne_neg_one {id : UInt32} (hid : id.toNat < 2 ^ 31) : id.toInt32 ≠ -1 := by
  intro heq
  have hback : id = (-1 : Int32).toUInt32 := by
    rw [← heq, UInt32.toUInt32_toInt32]
  rw [hback] at hid
  exact absurd hid (by decide)

theorem asBytes_inj {left right : String} : asBytes left = asBytes right ↔ left = right := by
  constructor
  · intro heq
    rw [← fromUtf8Lossy_asBytes left, heq, fromUtf8Lossy_asBytes]
  · exact congrArg asBytes

theorem readClientInfo_of_ne {name : List UInt8} (hname : name ≠ asBytes "pgr.client_id")
    (value : List UInt8) (options : List (List UInt8)) (info : ClientInfo) :
    readClientInfo (name :: value :: options) info = readClientInfo options
      (if name = asBytes "application_name" ∧ value = asBytes "psql" then
        { info with clientIsPsql := true } else info) := by
  rw [readClientInfo, if_neg hname]

theorem readClientInfo_clientId (value : List UInt8) (options : List (List UInt8))
    (info : ClientInfo) :
    readClientInfo (asBytes "pgr.client_id" :: value :: options) info =
      match clientId value with
      | some id => { info with myReplayId := id }
      | none => readClientInfo options info := by
  have hname : asBytes "pgr.client_id" ≠ asBytes "application_name" := by decide +kernel
  rw [readClientInfo, if_pos rfl, if_neg fun happ => hname happ.1]

/-! ## The packet of a replay client -/

section Startup

variable (id : UInt32) (config : ReplayConfig)

/-- What the server passes on of the parameters of a replay client. -/
def passedOptions : List (List UInt8) :=
  [asBytes "application_name", asBytes config.applicationName,
    asBytes "pgr.client_id", decimal id.toNat]

def startupBytes : List Param :=
  (ReplayClient.startupParams id config).map fun param => (asBytes param.1, asBytes param.2)

theorem data_connect : (ReplayClient.connect id config).outbox.data =
    startupPacket (startupBytes id config) := by
  have hdata : (ReplayClient.connect id config).outbox.data =
      [] ++ encodeStartup (ReplayClient.startupParams id config) :=
    Utils.Stream.data_write _ _
  rw [hdata, List.nil_append, encodeStartup, startupPacket, startupBytes, List.flatMap_map]

theorem readClientInfo_passedOptions : readClientInfo (passedOptions id config) ClientInfo.start =
    ⟨if id.toNat < 2 ^ 31 then id.toInt32 else -1,
      decide (config.applicationName = "psql")⟩ := by
  have hname : asBytes "application_name" ≠ asBytes "pgr.client_id" := by decide +kernel
  have hpsql : (if asBytes "application_name" = asBytes "application_name" ∧
        asBytes config.applicationName = asBytes "psql" then
      { ClientInfo.start with clientIsPsql := true } else ClientInfo.start) =
      ⟨-1, decide (config.applicationName = "psql")⟩ := by
    by_cases happ : config.applicationName = "psql" <;>
      simp [ClientInfo.start, asBytes_inj, happ]
  rw [passedOptions, readClientInfo_of_ne hname, hpsql, readClientInfo_clientId, clientId_decimal]
  by_cases hid : id.toNat < 2 ^ 31
  · rw [if_pos hid, if_pos hid]
  · rw [if_neg hid, if_neg hid]
    rfl

/-- The names of the parameters, and what they are not. -/
def startupNames : List (List UInt8) :=
  [asBytes "application_name", asBytes "user", asBytes "database", asBytes "pgr.client_id"]

theorem plain_startupNames : ∀ name ∈ startupNames, name ≠ [] ∧ 0 ∉ name ∧
    name ≠ asBytes "options" ∧ name ≠ asBytes "replication" ∧ ¬asBytes "_pq_." <+: name := by
  decide +kernel

theorem startupBytes_eq : startupBytes id config =
    [(asBytes "application_name", asBytes config.applicationName),
      (asBytes "user", asBytes config.user), (asBytes "database", asBytes config.dbname),
      (asBytes "pgr.client_id", decimal id.toNat)] := by
  have hprint : asBytes (toString id) = decimal id.toNat := asBytes_repr id.toNat
  rw [← hprint]
  rfl

theorem mem_startupNames {param : Param} (hparam : param ∈ startupBytes id config) :
    param.1 ∈ startupNames := by
  have hname := List.mem_map_of_mem (f := Prod.fst) hparam
  rwa [startupBytes_eq] at hname

/-- The parameters are acceptable when the texts of the configuration can be sent. -/
theorem acceptable_startupBytes (hnul : 0 ∉ asBytes config.applicationName ∧
      0 ∉ asBytes config.user ∧ 0 ∉ asBytes config.dbname) (huser : config.user ≠ "")
    (hlength : (ReplayClient.connect id config).outbox.data.length ≤ 4 + 10000) :
    Acceptable (startupBytes id config) where
  named param hparam := (plain_startupNames _ (mem_startupNames id config hparam)).1
  nulFree param hparam := by
    refine ⟨(plain_startupNames _ (mem_startupNames id config hparam)).2.1, ?_⟩
    have hdecimal : 0 ∉ decimal id.toNat := by
      intro hzero
      exact absurd (isDigit_of_mem_decimal hzero) (by decide)
    rw [startupBytes_eq] at hparam
    simp only [List.mem_cons, List.not_mem_nil, or_false] at hparam
    rcases hparam with rfl | rfl | rfl | rfl
    · exact hnul.1
    · exact hnul.2.1
    · exact hnul.2.2
    · exact hdecimal
  plain param hparam := (plain_startupNames _ (mem_startupNames id config hparam)).2.2
  user := by
    refine ⟨asBytes config.user, ?_, ?_⟩
    · intro hempty
      have hnil : asBytes config.user = asBytes "" := hempty
      exact huser (asBytes_inj.mp hnil)
    · rw [startupBytes_eq]
      simp
  length_le := by rwa [← data_connect]

theorem options_startupBytes :
    (((startupBytes id config).filter fun param => !isServerParam param).flatMap fun param =>
      [param.1, param.2]) = passedOptions id config := by
  rw [startupBytes_eq]
  simp [isServerParam, passedOptions, asBytes_inj]

end Startup

theorem readTimings_timingRecord (backend : Backend) (type : UInt8) (ts : UInt64) :
    readTimings (timingRecord backend type ts) = [⟨backend.myReplayId, type, ts⟩] := by
  have hpart : timingRecord backend type ts <+:
      [TimingEvent.mk backend type ts].flatMap TimingEvent.record := by
    simp [TimingEvent.record]
  have hread := readLog_truncated nextTiming_nil (by norm_num) readsRecord_timing length_timing
    hpart le_rfl
  simpa [readTimings, TimingEvent.data, length_timingRecord] using hread

theorem readTraces_traceRecord (backend : Backend) (durationUs : UInt32) (eventType : UInt8) :
    readTraces (traceRecord backend durationUs eventType) =
      [⟨backend.myReplayId, traceIndex backend, durationUs, eventType⟩] := by
  have hpart : traceRecord backend durationUs eventType <+:
      [TraceEvent.mk backend durationUs eventType].flatMap TraceEvent.record := by
    simp [TraceEvent.record]
  have hread := readLog_truncated traceOrEnd_nil (by norm_num) readsRecord_trace length_trace
    hpart le_rfl
  simpa [readTraces, TraceEvent.data, length_traceRecord] using hread

/-- A backend knows the captured id of its replay client, and its events are read back
under that id; a client whose id is no `int32` is taken for an ordinary one and
reports nothing. -/
theorem startup_identifies {processStartupPacket : List UInt8 → Option (List (List UInt8))}
    (hserver : ReadsOptions processStartupPacket) {id : UInt32} {config : ReplayConfig}
    (hnul : 0 ∉ asBytes config.applicationName ∧ 0 ∉ asBytes config.user ∧
      0 ∉ asBytes config.dbname)
    (huser : config.user ≠ "")
    (hlength : (ReplayClient.connect id config).outbox.data.length ≤ 4 + 10000) :
    ∃ options, processStartupPacket (ReplayClient.connect id config).outbox.data = some options ∧
      (readClientInfo options ClientInfo.start).clientIsPsql =
        decide (config.applicationName = "psql") ∧
      (∀ running type ts,
        (sendTimingEvent (readClientInfo options ClientInfo.start) running type ts).map
            readTimings =
          if running ∧ id.toNat < 2 ^ 31 then some [⟨id, type, ts⟩] else none) ∧
      ∀ running statementIndex durationUs eventType,
        (traceEnd (readClientInfo options ClientInfo.start) running statementIndex durationUs
            eventType).map readTraces =
          if running ∧ id.toNat < 2 ^ 31 then
            some [⟨id, statementIndex.toUInt32, durationUs, eventType⟩]
          else none := by
  have hread := hserver _ (acceptable_startupBytes id config hnul huser hlength)
  rw [← data_connect, options_startupBytes] at hread
  refine ⟨_, hread, ?_⟩
  rw [readClientInfo_passedOptions]
  by_cases hid : id.toNat < 2 ^ 31
  · have hreplay : isReplayClient ⟨id.toInt32, decide (config.applicationName = "psql")⟩ = true :=
      decide_eq_true (toInt32_ne_neg_one hid)
    rw [if_pos hid]
    refine ⟨rfl, fun running type ts => ?_, fun running statementIndex durationUs eventType => ?_⟩
    · cases running with
      | false => simp [sendTimingEvent]
      | true => simpa [sendTimingEvent, hreplay, readTimings_timingRecord, Backend.start] using hid
    · cases running with
      | false => simp [traceEnd]
      | true => simpa [traceEnd, hreplay, readTraces_traceRecord, traceIndex] using hid
  · rw [if_neg hid]
    refine ⟨rfl, fun running type ts => ?_, fun running statementIndex durationUs eventType => ?_⟩
    · simpa [sendTimingEvent, isReplayClient] using fun _ => Nat.le_of_not_lt hid
    · simpa [traceEnd, isReplayClient] using fun _ => Nat.le_of_not_lt hid

/-! ## A server -/

/-- The pairs of a packet, up to the empty name behind the last. -/
def packetParams : (rounds : ℕ) → List UInt8 → List Param
  | 0, _ => []
  | rounds + 1, bytes =>
      match readCStr () bytes with
      | .ok name rest =>
          if name = [] then []
          else
            match readCStr () rest with
            | .ok value rest => (name, value) :: packetParams rounds rest
            | .error _ _ => []
      | .error _ _ => []

def plainServer (packet : List UInt8) : Option (List (List UInt8)) :=
  some (((packetParams packet.length (packet.drop 8)).filter fun param =>
    !isServerParam param).flatMap fun param => [param.1, param.2])

theorem packetParams_layout {params : List Param} (hnamed : ∀ param ∈ params, param.1 ≠ [])
    (hnul : ∀ param ∈ params, 0 ∉ param.1 ∧ 0 ∉ param.2) {rounds : ℕ}
    (hrounds : params.length < rounds) :
    packetParams rounds
      ((params.flatMap fun param => param.1 ++ [0] ++ param.2 ++ [0]) ++ [0]) = params := by
  induction params generalizing rounds with
  | nil =>
      cases rounds with
      | zero => omega
      | succ rounds => rfl
  | cons param params ih =>
      cases rounds with
      | zero => omega
      | succ rounds =>
          obtain ⟨name, value⟩ := param
          obtain ⟨hname, hnamed⟩ := List.forall_mem_cons.mp hnamed
          obtain ⟨⟨hfree, hfree'⟩, hnul⟩ := List.forall_mem_cons.mp hnul
          have hrest := ih hnamed hnul (Nat.lt_of_succ_lt_succ hrounds)
          have hlayout : ((name, value) :: params).flatMap
              (fun param => param.1 ++ [0] ++ param.2 ++ [0]) ++ [0] =
              (name ++ [0]) ++ ((value ++ [0]) ++
                (params.flatMap (fun param => param.1 ++ [0] ++ param.2 ++ [0]) ++ [0])) := by
            simp
          rw [hlayout, packetParams, (Decodes.readCStr hfree).run_append]
          simp only [hname, if_false]
          rw [(Decodes.readCStr hfree').run_append]
          exact congrArg _ hrest

theorem readsOptions_plainServer : ReadsOptions plainServer := by
  intro params hparams
  have hcount : params.length < (startupPacket params).length := by
    have hsum : params.length ≤
        (params.flatMap fun param => param.1 ++ [0] ++ param.2 ++ [0]).length := by
      rw [List.length_flatMap]
      calc params.length = (params.map fun _ => 1).sum := by simp
        _ ≤ _ := List.sum_le_sum fun param _ => by simp; omega
    rw [startupPacket]
    simp only [List.length_append] at hsum ⊢
    rw [length_beBytes]
    omega
  have hbody : (startupPacket params).drop 8 =
      (params.flatMap fun param => param.1 ++ [0] ++ param.2 ++ [0]) ++ [0] := by
    rw [startupPacket]
    simp only [← List.append_assoc]
    rw [List.append_assoc]
    exact List.drop_left' (by simp)
  rw [plainServer, hbody, packetParams_layout hparams.named hparams.nulFree hcount]

/-- A replay client of the captured process 7. -/
theorem startup_identifies_seven : ∃ options,
    plainServer (ReplayClient.connect 7 ⟨"me", none, "db", "pgr"⟩).outbox.data = some options ∧
      (sendTimingEvent (readClientInfo options ClientInfo.start) true 2 9).map readTimings =
        some [⟨7, 2, 9⟩] := by
  obtain ⟨options, hoptions, -, htiming, -⟩ := startup_identifies readsOptions_plainServer
    (show 0 ∉ asBytes "pgr" ∧ 0 ∉ asBytes "me" ∧ 0 ∉ asBytes "db" by decide +kernel)
    (show "me" ≠ "" by decide)
    (show (ReplayClient.connect 7 ⟨"me", none, "db", "pgr"⟩).outbox.data.length ≤ 4 + 10000 by
      decide +kernel)
  refine ⟨options, hoptions, ?_⟩
  rw [htiming]
  exact if_pos ⟨rfl, by decide⟩

end Pgr.ReplayId
