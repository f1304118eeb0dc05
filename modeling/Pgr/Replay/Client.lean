import Pgr.Replay.Manager
import Pgr.Replay.Utils

/-!
# The replay client

`client.rs`: one connection to the replay server from the startup packet on.  The
client splits what it reads into frames, answers the authentication requests and
puts the captured frames into its outbox once the server is ready.

`notes` is a history variable: what the client has put into its outbox, and the
`ReadyForQuery` messages it has parsed, in their order.
-/

namespace Pgr.Client

open Pgr.Capture Pgr.Proto Pgr.Utils

structure ReplayConfig where
  user : String
  password : Option String
  dbname : String
  applicationName : String

inductive ClientState where
  | connecting
  | normal
  | dead
  deriving DecidableEq

inductive Note where
  | startup (bytes : List UInt8)
  | password (bytes : List UInt8)
  | frame (tag : UInt8) (bytes : List UInt8)
  | readyForQuery
  deriving DecidableEq

/-- What goes into the outbox with a note. -/
def Note.sent : Note → List UInt8
  | .startup bytes | .password bytes | .frame _ bytes => bytes
  | .readyForQuery => []

structure ReplayClient where
  id : ClientId
  config : ReplayConfig
  parseStream : Stream
  outbox : Stream
  state : ClientState
  sentTerminate : Bool
  rfq : Bool
  reqIndex : UInt32
  respIndex : UInt32
  notes : List Note

variable (md5Hex : List UInt8 → String)

namespace ReplayClient

/-- `send_frame` of the bytes of the note. -/
def sendFrame (note : Note) (client : ReplayClient) : ReplayClient :=
  { client with
    outbox := client.outbox.write note.sent
    reqIndex := client.reqIndex + 1
    notes := client.notes ++ [note] }

def startupParams (id : ClientId) (config : ReplayConfig) : List (String × String) :=
  [("application_name", config.applicationName), ("user", config.user),
    ("database", config.dbname), ("pgr.client_id", toString id)]

def queueStartup (client : ReplayClient) : ReplayClient :=
  client.sendFrame (.startup (encodeStartup (startupParams client.id client.config)))

/-- `connect`, when the socket could be made. -/
def connect (id : ClientId) (config : ReplayConfig) : ReplayClient :=
  queueStartup
    { id := id
      config := config
      parseStream := Stream.new 65536
      outbox := Stream.new 65536
      state := .connecting
      sentTerminate := false
      rfq := false
      reqIndex := 0
      respIndex := 0
      notes := [] }

def handleAuth (auth : Authentication) (client : ReplayClient) : ReplayClient :=
  match auth with
  | .ok => client
  | .cleartext =>
      match client.config.password with
      | some pass => client.sendFrame (.password (encodePassword pass))
      | none => { client with state := .dead }
  | .md5 salt =>
      match client.config.password with
      | some pass =>
          let hashed := hashMd5Password md5Hex client.config.user pass salt
          client.sendFrame (.password (encodePassword hashed))
      | none => { client with state := .dead }
  | .unsupported _ => { client with state := .dead }

/-- The two states in which `handle_frame` looks at a message. -/
def handleMessage (tag : UInt8) (data : List UInt8) (client : ReplayClient) : ReplayClient :=
  match client.state with
  | .dead => client
  | .connecting =>
      match parseMessage tag data with
      | some (.authentication auth) => handleAuth md5Hex auth client
      | some .readyForQuery =>
          { client with
            state := .normal
            rfq := true
            notes := client.notes ++ [.readyForQuery] }
      | _ => client
  | .normal =>
      match parseMessage tag data with
      | some .readyForQuery =>
          { client with rfq := true, notes := client.notes ++ [.readyForQuery] }
      | _ => client

def handleFrame (tag : UInt8) (data : List UInt8) (client : ReplayClient) : ReplayClient :=
  if client.state = .dead then client
  else
    let client := handleMessage md5Hex tag data client
    { client with respIndex := client.respIndex + 1 }

/-- The loop of `on_read`; each frame takes at least five bytes, and a shorter
length field makes the slice panic. -/
def parseFrames : (fuel : ℕ) → ReplayClient → Option ReplayClient
  | 0, client => some client
  | fuel + 1, client =>
      match tryReadFrame client.parseStream.data with
      | none => some client
      | some (tag, frameLen) =>
          if frameLen < 5 then none
          else
            let data := (client.parseStream.data.take frameLen).drop 5
            let client := handleFrame md5Hex tag data client
            let client := { client with parseStream := client.parseStream.markRead frameLen }
            if client.state = .dead then some client else parseFrames fuel client

def onRead (data : List UInt8) (client : ReplayClient) : Option ReplayClient :=
  let client := { client with parseStream := client.parseStream.write data }
  parseFrames md5Hex client.parseStream.data.length client

def onEof (client : ReplayClient) : ReplayClient :=
  { client with state := .dead }

def onIoError (client : ReplayClient) : ReplayClient :=
  { client with state := .dead }

def replayFrame (tag : UInt8) (data : List UInt8) (client : ReplayClient) : ReplayClient :=
  if client.state ≠ .normal then client
  else
    let client := if tag = fTerminate then { client with sentTerminate := true } else client
    client.sendFrame (.frame tag data)

def onReplayEnd (client : ReplayClient) : ReplayClient :=
  if client.sentTerminate then client else client.replayFrame fTerminate terminateMsg

end ReplayClient

end Pgr.Client
