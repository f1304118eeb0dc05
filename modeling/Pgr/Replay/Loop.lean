import Pgr.Core.Transition
import Pgr.Replay.Client

/-!
# The replay loop

`loop.rs`: one thread takes the commands from the channel, keeps a queue for each
client, and dispatches the head of a queue when its time has come and the server
has answered.  `run` calls the handlers in a fixed order; here a run calls them in
any order, each with its own clock.

What the operating system answers is an input of each handler: the results of
reads, writes and connects in the order in which the code asks for them.  The
scaling of a time by the floating-point `catchup` is the parameter `catchup`.
`pull` lets a command in at most `HORIZON_US` ahead of the clock, so no sum of
times overflows and times are natural numbers.

`accepted`, `delivered` and `replayed` of a connection and `closed` of the loop
are history variables.
-/

namespace Pgr.Loop

open Pgr.Capture Pgr.Proto Pgr.Manager Pgr.Utils Pgr.Client

def horizonUs : ℕ := 1000000

def idlePollUs : ℕ := 5000

def readBufSize : ℕ := 65536

/-- What `read` returns; `data` is a positive count. -/
inductive ReadAnswer where
  | eof
  | data (bytes : List UInt8)
  | wouldBlock
  | interrupted
  | failed

inductive WriteAnswer where
  | wrote (n : ℕ)
  | wouldBlock
  | interrupted
  | failed

/-- The answers to writes and to connects, in the order of the calls.  Behind the
last one a write would block and a connect succeeds. -/
structure Net where
  writes : List WriteAnswer
  opens : List Bool

structure Connection where
  client : ReplayClient
  writeStream : Stream
  connected : Bool
  /-- What the socket has taken. -/
  accepted : List UInt8
  /-- What the socket has handed over. -/
  delivered : List UInt8
  /-- The commands the client has been given. -/
  replayed : List CmdKind

structure Slot where
  queue : List ConnCommand
  awaiting : Bool
  rebase : Bool
  burst : Bool
  readyAt : ℕ
  conn : Option Connection

def Slot.new : Slot where
  queue := []
  awaiting := false
  rebase := false
  burst := false
  readyAt := 0
  conn := none

def Slot.blocked (slot : Slot) : Bool :=
  slot.conn.isSome && slot.awaiting

structure ReplayLoop where
  config : ReplayConfig
  /-- What the channel still delivers. -/
  rx : List ConnCommand
  lookahead : Option ConnCommand
  rxClosed : Bool
  ended : Bool
  lastTs : ℕ
  slots : AList fun _ : ClientId => Slot
  /-- The heap in its order. -/
  timers : List (ℕ × ClientId)
  shift : ℕ
  lastTick : ℕ
  net : Net
  /-- The connections the loop has let go of. -/
  closed : List (ClientId × Connection)

def ReplayLoop.new (config : ReplayConfig) (rx : List ConnCommand) : ReplayLoop where
  config := config
  rx := rx
  lookahead := none
  rxClosed := false
  ended := false
  lastTs := 0
  slots := ∅
  timers := []
  shift := 0
  lastTick := 0
  net := ⟨[], []⟩
  closed := []

variable (md5Hex : List UInt8 → String) (catchup : ℕ → ℕ)

/-! ## The sockets -/

def readConn : List ReadAnswer → Connection → Option Connection
  | [], conn => some conn
  | answer :: answers, conn =>
      if conn.client.state = .dead then some conn
      else
        match answer with
        | .eof => some { conn with client := conn.client.onEof }
        | .data bytes => do
            let client ← conn.client.onRead md5Hex bytes
            readConn answers
              { conn with client := client, delivered := conn.delivered ++ bytes }
        | .wouldBlock => some conn
        | .interrupted => readConn answers conn
        | .failed => some { conn with client := conn.client.onIoError }

/-- The loop of `flush_conn`, with the answers that are left over. -/
def writeConn : List WriteAnswer → Connection → Connection × List WriteAnswer
  | [], conn => (conn, [])
  | answer :: answers, conn =>
      let buf := conn.writeStream.data
      if buf = [] then (conn, answer :: answers)
      else
        match answer with
        | .wrote n =>
            if n = 0 then (conn, answers)
            else
              writeConn answers
                { conn with
                  writeStream := conn.writeStream.markRead n
                  accepted := conn.accepted ++ buf.take n }
        | .wouldBlock => (conn, answers)
        | .interrupted => writeConn answers conn
        | .failed => ({ conn with client := conn.client.onIoError }, answers)

def flushConn (answers : List WriteAnswer) (conn : Connection) :
    Connection × List WriteAnswer :=
  if conn.connected then
    writeConn answers
      { conn with
        writeStream := conn.writeStream.write conn.client.outbox.data
        client := { conn.client with outbox := conn.client.outbox.markReadAll } }
  else (conn, answers)

namespace ReplayLoop

/-! ## The clock and the timers -/

def catchUp (now : ℕ) (loop : ReplayLoop) : ReplayLoop :=
  if loop.shift = 0 then { loop with lastTick := now }
  else
    let d := catchup (now - loop.lastTick)
    if 0 < d then { loop with shift := loop.shift - d, lastTick := now } else loop

def Earlier (entry other : ℕ × ClientId) : Prop :=
  entry.1 < other.1 ∨ entry.1 = other.1 ∧ entry.2 ≤ other.2

instance : DecidableRel Earlier := fun entry other =>
  inferInstanceAs (Decidable (entry.1 < other.1 ∨ entry.1 = other.1 ∧ entry.2 ≤ other.2))

def pushTimer (entry : ℕ × ClientId) (loop : ReplayLoop) : ReplayLoop :=
  { loop with timers := loop.timers.orderedInsert Earlier entry }

/-- `next_timeout`; `slowed` is the division of the wait by `1 + catchup`. -/
def nextTimeout (slowed : ℕ → ℕ) (now : ℕ) (loop : ReplayLoop) : Option ℕ :=
  let timer := loop.timers.head?.map fun entry => slowed (entry.1 + loop.shift - now)
  let ahead := loop.lookahead.map fun cmd => cmd.ts - horizonUs - now
  let idle := if loop.rxClosed then none else some idlePollUs
  Option.merge min (Option.merge min timer ahead) idle

def setSlot (id : ClientId) (slot : Slot) (loop : ReplayLoop) : ReplayLoop :=
  { loop with slots := loop.slots.insert id slot }

/-! ## Taking commands -/

def schedule (id : ClientId) (loop : ReplayLoop) : ReplayLoop :=
  match loop.slots.lookup id with
  | none => loop
  | some slot =>
      if slot.blocked then loop
      else
        match slot.queue with
        | [] => loop
        | head :: _ => loop.pushTimer (if slot.burst then 0 else head.ts, id)

/-- The end of `enqueue`, and what `finish_clients` does for each client. -/
def pushBack (id : ClientId) (cmd : ConnCommand) (slot : Slot) (loop : ReplayLoop) :
    ReplayLoop :=
  let slot := { slot with queue := slot.queue ++ [cmd] }
  let loop := loop.setSlot id slot
  if slot.queue.length = 1 then loop.schedule id else loop

def enqueue (cmd : ConnCommand) (loop : ReplayLoop) : ReplayLoop :=
  match loop.slots.lookup cmd.id with
  | some slot => loop.pushBack cmd.id cmd slot
  | none => if cmd.kind = .connect then loop.pushBack cmd.id cmd Slot.new else loop

/-- The rounds of `pull` that find no lookahead.  Each has its own clock, and the
round behind the last one finds the channel empty, or closed if the sender is
gone. -/
def receive (senderGone : Bool) : List ℕ → ReplayLoop → ReplayLoop
  | [], loop => if senderGone ∧ loop.rx = [] then { loop with rxClosed := true } else loop
  | now :: clock, loop =>
      match loop.rx with
      | [] => if senderGone then { loop with rxClosed := true } else loop
      | cmd :: rx =>
          if cmd.ts > now + horizonUs then { loop with rx := rx, lookahead := some cmd }
          else
            receive senderGone clock
              (enqueue cmd { loop with rx := rx, lastTs := cmd.ts })

def pull (senderGone : Bool) (now : ℕ) (clock : List ℕ) (loop : ReplayLoop) : ReplayLoop :=
  match loop.lookahead with
  | none => receive senderGone (now :: clock) loop
  | some cmd =>
      if cmd.ts > now + horizonUs then loop
      else
        receive senderGone clock
          (enqueue cmd { loop with lookahead := none, lastTs := cmd.ts })

def finishClient (loop : ReplayLoop) (id : ClientId) : ReplayLoop :=
  match loop.slots.lookup id with
  | none => loop
  | some slot => loop.pushBack id ⟨id, loop.lastTs, .endReplay⟩ slot

def finishClients (loop : ReplayLoop) : ReplayLoop :=
  loop.slots.keys.foldl finishClient { loop with ended := true }

/-! ## Connections -/

def letGo (id : ClientId) (slot : Slot) : List (ClientId × Connection) :=
  slot.conn.toList.map fun conn => (id, conn)

def dropSlot (id : ClientId) (loop : ReplayLoop) : ReplayLoop :=
  match loop.slots.lookup id with
  | none => loop
  | some slot =>
      { loop with slots := loop.slots.erase id, closed := loop.closed ++ letGo id slot }

/-- What `remove_if_dead` returns. -/
def isDead (id : ClientId) (loop : ReplayLoop) : Bool :=
  ((loop.slots.lookup id).bind Slot.conn).any fun conn => conn.client.state = .dead

def removeIfDead (id : ClientId) (loop : ReplayLoop) : ReplayLoop :=
  if loop.isDead id then loop.dropSlot id else loop

/-- `open`, when it succeeds. -/
def openConn (id : ClientId) (config : ReplayConfig) : Connection where
  client := ReplayClient.connect id config
  writeStream := Stream.new readBufSize
  connected := false
  accepted := []
  delivered := []
  replayed := []

def connectClient (id : ClientId) (loop : ReplayLoop) : ReplayLoop :=
  let opened := loop.net.opens.headD true
  let loop := { loop with net := { loop.net with opens := loop.net.opens.tail } }
  if opened then
    match loop.slots.lookup id with
    | none => loop
    | some slot =>
        { loop with closed := loop.closed ++ letGo id slot }.setSlot id
          { slot with conn := some (openConn id loop.config), awaiting := true }
  else loop.dropSlot id

/-- The client of a connection is given a command, and the connection is flushed. -/
def giveConn (kind : CmdKind) (deliver : ReplayClient → ReplayClient)
    (answers : List WriteAnswer) (conn : Connection) : Connection × List WriteAnswer :=
  flushConn answers
    { conn with client := deliver conn.client, replayed := conn.replayed ++ [kind] }

def execute (id : ClientId) (cmd : ConnCommand) (loop : ReplayLoop) : ReplayLoop :=
  match cmd.kind with
  | .connect => loop.connectClient id
  | .send tag data =>
      removeIfDead id <|
        match loop.slots.lookup id with
        | none => loop
        | some slot =>
            match slot.conn with
            | none => loop
            | some conn =>
                let given := giveConn cmd.kind (ReplayClient.replayFrame tag data)
                  loop.net.writes conn
                let blocking : Bool := tag = fQuery ∨ tag = fSync
                { loop with net := { loop.net with writes := given.2 } }.setSlot id
                  { slot with
                    conn := some given.1
                    awaiting := slot.awaiting || blocking
                    burst := !blocking }
  | .endReplay =>
      removeIfDead id <|
        match loop.slots.lookup id with
        | none => loop
        | some slot =>
            match slot.conn with
            | none => loop
            | some conn =>
                let given := giveConn cmd.kind ReplayClient.onReplayEnd loop.net.writes conn
                { loop with net := { loop.net with writes := given.2 } }.setSlot id
                  { slot with conn := some given.1 }

/-! ## Dispatching -/

/-- The shift that the first command after an answer is due to. -/
def rebased (slot : Slot) (head : ConnCommand) (loop : ReplayLoop) : ReplayLoop :=
  if slot.rebase ∧ ¬slot.burst then
    { loop with shift := max loop.shift (slot.readyAt - head.ts) }
  else loop

/-- The rounds of `try_dispatch`, each of which takes a command from the queue. -/
def dispatchRounds (id : ClientId) (now : ℕ) : (rounds : ℕ) → ReplayLoop → ReplayLoop
  | 0, loop => loop
  | rounds + 1, loop =>
      match loop.slots.lookup id with
      | none => loop
      | some slot =>
          if slot.blocked then loop
          else
            match slot.queue with
            | [] => loop
            | head :: queue =>
                let loop := loop.rebased slot head
                let slot := { slot with rebase := slot.rebase && slot.burst }
                let due := if slot.burst then now else head.ts + loop.shift
                if due > now then (loop.setSlot id slot).pushTimer (head.ts, id)
                else
                  dispatchRounds id now rounds
                    ((loop.setSlot id { slot with queue := queue }).execute id head)

def queueLength (id : ClientId) (loop : ReplayLoop) : ℕ :=
  ((loop.slots.lookup id).map fun slot => slot.queue.length).getD 0

def tryDispatch (id : ClientId) (now : ℕ) (loop : ReplayLoop) : ReplayLoop :=
  dispatchRounds id now (loop.queueLength id + 1) loop

/-- The loop of `dispatch_ready`.  It takes no more rounds than there are timers,
because a timer that is pushed back is not due. -/
def dispatchTimers (now : ℕ) : (rounds : ℕ) → ReplayLoop → ReplayLoop
  | 0, loop => loop
  | rounds + 1, loop =>
      match loop.timers with
      | [] => loop
      | (ts, id) :: timers =>
          if ts + loop.shift > now then loop
          else dispatchTimers now rounds ({ loop with timers := timers }.tryDispatch id now)

def dispatchReady (now : ℕ) (loop : ReplayLoop) : ReplayLoop :=
  let loop := loop.catchUp catchup now
  dispatchTimers now loop.timers.length loop

/-! ## Readiness events -/

/-- What `peer_addr` returns. -/
inductive PeerAnswer where
  | connected
  | pending
  | failed
  deriving DecidableEq

structure Event where
  /-- `none` is the token of the waker. -/
  token : Option ClientId
  /-- Writable, an error, or closed for writing. -/
  ready : Bool
  takeError : Bool
  peerAddr : PeerAnswer
  reads : List ReadAnswer

/-- What an event finds out about a connection that is not yet connected. -/
inductive Connecting where
  | waiting
  | failed
  | connected
  deriving DecidableEq

def Event.connecting (event : Event) : Connecting :=
  if !event.ready then .waiting
  else if event.takeError then .failed
  else
    match event.peerAddr with
    | .connected => .connected
    | .pending => .waiting
    | .failed => .failed

/-- What is left to do once the connection is up: read, flush, and look for the
answer. -/
def serveConn (id : ClientId) (now : ℕ) (reads : List ReadAnswer) (slot : Slot)
    (conn : Connection) (loop : ReplayLoop) : Option ReplayLoop := do
  let conn ← readConn md5Hex reads conn
  let flushed := flushConn loop.net.writes conn
  let loop := { loop with net := { loop.net with writes := flushed.2 } }
  let conn := flushed.1
  let slot :=
    if conn.client.rfq then
      { slot with
        conn := some { conn with client := { conn.client with rfq := false } }
        awaiting := false
        rebase := true
        readyAt := now }
    else { slot with conn := some conn }
  let loop := loop.setSlot id slot
  if loop.isDead id then some (loop.removeIfDead id) else some (loop.tryDispatch id now)

/-- `none` is a panic. -/
def handleEvent (now : ℕ) (event : Event) (loop : ReplayLoop) : Option ReplayLoop :=
  match event.token with
  | none => some loop
  | some id =>
      let loop := loop.catchUp catchup now
      match loop.slots.lookup id with
      | none => some loop
      | some slot =>
          match slot.conn with
          | none => some loop
          | some conn =>
              if conn.connected then loop.serveConn md5Hex id now event.reads slot conn
              else
                match event.connecting with
                | .waiting => some loop
                | .failed => some (loop.dropSlot id)
                | .connected =>
                    loop.serveConn md5Hex id now event.reads slot
                      { conn with connected := true }

/-! ## Runs -/

/-- A call of a handler, with the clock and the answers it is given. -/
inductive Call where
  | pull (senderGone : Bool) (now : ℕ) (clock : List ℕ)
  | handleEvent (now : ℕ) (event : Event) (net : Net)
  | dispatchReady (now : ℕ) (net : Net)
  | finishClients

def step (loop : ReplayLoop) : Call → Option ReplayLoop
  | .pull senderGone now clock => some (loop.pull senderGone now clock)
  | .handleEvent now event net => { loop with net := net }.handleEvent md5Hex catchup now event
  | .dispatchReady now net => some ({ loop with net := net }.dispatchReady catchup now)
  | .finishClients =>
      if loop.rxClosed ∧ loop.lookahead = none ∧ ¬loop.ended then some loop.finishClients
      else none

end ReplayLoop

end Pgr.Loop
