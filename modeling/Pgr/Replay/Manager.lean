import Pgr.Replay.Capture
import Pgr.Replay.Proto

/-!
# From capture events to replay commands

`manager.rs`: `emit` turns one captured event into the commands of the replay
loop, with the frontend frame of the event as their data.  The queue between the
reading thread and the loop keeps their order, so `emit` is the list of the
commands it pushes.
-/

namespace Pgr.Manager

open Pgr.FixedWidth Pgr.Utf8Lossy Pgr.Capture Pgr.Proto

inductive CmdKind where
  | connect
  | send (tag : UInt8) (data : List UInt8)
  | endReplay
  deriving DecidableEq

structure ConnCommand where
  id : ClientId
  ts : ℕ
  kind : CmdKind
  deriving DecidableEq

def ConnCommand.connect (id : ClientId) (ts : ℕ) : ConnCommand :=
  ⟨id, ts, .connect⟩

def ConnCommand.send (id : ClientId) (ts : ℕ) (tag : UInt8) (data : List UInt8) :
    ConnCommand :=
  ⟨id, ts, .send tag data⟩

/-- `begin`: the tag and four bytes kept free for the length. -/
def beginFrame (tag : UInt8) : List UInt8 :=
  tag :: List.replicate 4 0

/-- `end`: the length field counts everything but the tag. -/
def endFrame (v : List UInt8) : List UInt8 :=
  v.take 1 ++ beBytes 4 (v.length - 1) ++ v.drop 5

def cstr (v : List UInt8) (s : String) : List UInt8 :=
  v ++ asBytes s ++ [0]

def queryFrame (q : String) : List UInt8 :=
  endFrame (cstr (beginFrame fQuery) q)

/-- `replace('\'', "''")`. -/
def doubleQuotes (s : String) : String :=
  String.ofList (s.toList.flatMap fun c =>
    if c = Char.ofNat 39 then [c, c] else [c])

def srestoreQuery (sessionId : String) : String :=
  "SELECT pgr.srestore('" ++ doubleQuotes sessionId ++ "')"

def paramBytes (param : BindParam) : List UInt8 :=
  match param.value with
  | some b => beBytes 4 b.length ++ b
  | none => beBytes 4 (2 ^ 32 - 1)

def parseFrame (name query : String) (paramTypes : List UInt32) : List UInt8 :=
  let v := cstr (cstr (beginFrame fParse) name) query
  endFrame (v ++ beBytes 2 paramTypes.length ++
    paramTypes.flatMap fun type => beBytes 4 type.toNat)

def bindFrame (portal statement : String) (resultFormats : List UInt16)
    (params : List BindParam) : List UInt8 :=
  let v := cstr (cstr (beginFrame fBind) portal) statement
  endFrame (v ++ beBytes 2 0 ++ beBytes 2 params.length ++ params.flatMap paramBytes ++
    beBytes 2 resultFormats.length ++ resultFormats.flatMap fun code => beBytes 2 code.toNat)

/-- `max_rows.clamp(0, i32::MAX as i64)`. -/
def clampRows (maxRows : Int64) : ℕ :=
  (max 0 (min maxRows.toInt (2 ^ 31 - 1))).toNat

def executeFrame (portal : String) (maxRows : Int64) : List UInt8 :=
  endFrame (cstr (beginFrame fExecute) portal ++ beBytes 4 (clampRows maxRows))

def closeFrame (kind : UInt8) (name : String) : List UInt8 :=
  endFrame (cstr (beginFrame fClose ++ [kind]) name)

def emit (msg : CaptureMessage) (ts : ℕ) : List ConnCommand :=
  match msg.event with
  | .lsn _ | .txEnd .. => []
  | .connect sessionId =>
      if sessionId = "" then [.connect msg.id ts]
      else [.connect msg.id ts, .send msg.id ts fQuery (queryFrame (srestoreQuery sessionId))]
  | .disconnect => [.send msg.id ts fTerminate terminateMsg]
  | .simpleQuery text => [.send msg.id ts fQuery (queryFrame text)]
  | .parse name query paramTypes =>
      [.send msg.id ts fParse (parseFrame name query paramTypes)]
  | .bind portal statement resultFormats params =>
      [.send msg.id ts fBind (bindFrame portal statement resultFormats params)]
  | .execute portal maxRows => [.send msg.id ts fExecute (executeFrame portal maxRows)]
  | .sync => [.send msg.id ts fSync (endFrame (beginFrame fSync))]
  | .close kind name => [.send msg.id ts fClose (closeFrame kind name)]

theorem id_of_mem_emit {msg : CaptureMessage} {ts : ℕ} {command : ConnCommand}
    (hcommand : command ∈ emit msg ts) : command.id = msg.id := by
  rcases msg with ⟨id, timestamp, event⟩
  cases event with
  | connect sessionId =>
      by_cases hsession : sessionId = ""
      · simp only [emit, if_pos hsession, List.mem_singleton] at hcommand
        rw [hcommand, ConnCommand.connect]
      · simp only [emit, if_neg hsession, List.mem_cons, List.not_mem_nil, or_false] at hcommand
        rcases hcommand with rfl | rfl <;> rfl
  | simpleQuery | parse | bind | execute | sync | close | disconnect =>
      rw [List.mem_singleton.mp hcommand, ConnCommand.send]
  | lsn | txEnd => exact absurd hcommand List.not_mem_nil

end Pgr.Manager
