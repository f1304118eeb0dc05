import Pgr.Replay.Chunking
import Pgr.Replay.CheckedRead
import Pgr.Replay.Dispatch

/-!
# What a connection hears and says

The effects of reading, flushing and giving a command on the notes of a client, on
its outbox and on the bytes that its socket has taken.  Reading adds the answers to
authentication requests and the `ReadyForQuery` messages; a command adds its frame;
flushing moves bytes along and loses none.
-/

namespace Pgr.Conversation

open Pgr.Proto Pgr.Manager Pgr.Utils Pgr.Client Pgr.Client.ReplayClient Pgr.Loop Pgr.Framing
open Pgr.Loop.ReplayLoop Pgr.Chunking Pgr.CheckedRead Pgr.Dispatch

variable (md5Hex : List UInt8 → String)

/-! ## Hearing -/

/-- The answer to an authentication request. -/
def authAnswer (config : ReplayConfig) (auth : Authentication) : List Note :=
  match auth, config.password with
  | .cleartext, some pass => [.password (encodePassword pass)]
  | .md5 salt, some pass =>
      [.password (encodePassword (hashMd5Password md5Hex config.user pass salt))]
  | _, _ => []

/-- What a client takes note of when it handles a frame. -/
def heard (config : ReplayConfig) (state : ClientState) (frame : List UInt8) : List Note :=
  match state, parseMessage (frame.headD 0) (frame.drop 5) with
  | .connecting, some (.authentication auth) => authAnswer md5Hex config auth
  | .connecting, some .readyForQuery | .normal, some .readyForQuery => [.readyForQuery]
  | _, _ => []

def stateBehind (config : ReplayConfig) (state : ClientState) (frame : List UInt8) : ClientState :=
  stateAfter config state (frame.headD 0) (frame.drop 5)

/-- The state behind some frames and the notes taken of them. -/
def hearAll (config : ReplayConfig) : ClientState → List (List UInt8) → ClientState × List Note
  | state, [] => (state, [])
  | state, frame :: frames =>
      let rest := hearAll config (stateBehind config state frame) frames
      (rest.1, heard md5Hex config state frame ++ rest.2)

/-- A client that has heard something: `state` is its state now and `more` are its new
notes. -/
structure Hears (client client' : ReplayClient) (state : ClientState) (more : List Note) :
    Prop where
  state : client'.state = state
  notes : client'.notes = client.notes ++ more
  outbox : client'.outbox.data = client.outbox.data ++ more.flatMap Note.sent
  rfq : client'.rfq = (client.rfq || decide (.readyForQuery ∈ more))
  sentTerminate : client'.sentTerminate = client.sentTerminate
  config : client'.config = client.config
  id : client'.id = client.id

theorem hears_nothing (client : ReplayClient) : Hears client client client.state [] where
  state := rfl
  notes := (List.append_nil _).symm
  outbox := (List.append_nil _).symm
  rfq := by simp
  sentTerminate := rfl
  config := rfl
  id := rfl

theorem Hears.trans {client middle client' : ReplayClient} {state state' : ClientState}
    {more last : List Note} (hfirst : Hears client middle state more)
    (hnext : Hears middle client' state' last) : Hears client client' state' (more ++ last) where
  state := hnext.state
  notes := by rw [hnext.notes, hfirst.notes, List.append_assoc]
  outbox := by rw [hnext.outbox, hfirst.outbox, List.flatMap_append, List.append_assoc]
  rfq := by
    rw [hnext.rfq, hfirst.rfq]
    simp [Bool.or_assoc]
  sentTerminate := hnext.sentTerminate.trans hfirst.sentTerminate
  config := hnext.config.trans hfirst.config
  id := hnext.id.trans hfirst.id

theorem hears_sendPassword (bytes : List UInt8) (client : ReplayClient) :
    Hears client (client.sendFrame (.password bytes)) client.state [.password bytes] where
  state := rfl
  notes := rfl
  outbox := by simp [sendFrame]
  rfq := by simp [sendFrame]
  sentTerminate := rfl
  config := rfl
  id := rfl

theorem hears_authAnswer (auth : Authentication) (client : ReplayClient) :
    Hears client (handleAuth md5Hex auth client) (handleAuth md5Hex auth client).state
      (authAnswer md5Hex client.config auth) := by
  cases auth with
  | ok => exact hears_nothing client
  | unsupported code => exact { hears_nothing client with state := rfl }
  | cleartext =>
      cases hpassword : client.config.password with
      | none =>
          simp only [handleAuth, authAnswer, hpassword]
          exact { hears_nothing client with state := rfl }
      | some pass =>
          simp only [handleAuth, authAnswer, hpassword]
          exact hears_sendPassword _ client
  | md5 salt =>
      cases hpassword : client.config.password with
      | none =>
          simp only [handleAuth, authAnswer, hpassword]
          exact { hears_nothing client with state := rfl }
      | some pass =>
          simp only [handleAuth, authAnswer, hpassword]
          exact hears_sendPassword _ client

theorem hears_readyForQuery (client : ReplayClient) (state : ClientState) :
    Hears client { client with
      state := state
      rfq := true
      notes := client.notes ++ [.readyForQuery] } state [.readyForQuery] where
  state := rfl
  notes := rfl
  outbox := by simp [Note.sent]
  rfq := by simp
  sentTerminate := rfl
  config := rfl
  id := rfl

theorem hears_handleMessage (frame : List UInt8) (client : ReplayClient) :
    Hears client (handleMessage md5Hex (frame.headD 0) (frame.drop 5) client)
      (handleMessage md5Hex (frame.headD 0) (frame.drop 5) client).state
      (heard md5Hex client.config client.state frame) := by
  have hnothing := hears_nothing client
  cases hstate : client.state with
  | dead =>
      simp only [handleMessage, heard, hstate]
      exact { hnothing with state := hstate }
  | connecting =>
      cases hmessage : parseMessage (frame.headD 0) (frame.drop 5) with
      | none =>
          simp only [handleMessage, heard, hstate, hmessage]
          exact { hnothing with state := hstate }
      | some message =>
          cases message with
          | authentication auth =>
              simp only [handleMessage, heard, hstate, hmessage]
              exact hears_authAnswer md5Hex auth client
          | readyForQuery =>
              simp only [handleMessage, heard, hstate, hmessage]
              exact hears_readyForQuery client .normal
          | _ =>
              simp only [handleMessage, heard, hstate, hmessage]
              exact { hnothing with state := hstate }
  | normal =>
      cases hmessage : parseMessage (frame.headD 0) (frame.drop 5) with
      | none =>
          simp only [handleMessage, heard, hstate, hmessage]
          exact { hnothing with state := hstate }
      | some message =>
          cases message with
          | readyForQuery =>
              simp only [handleMessage, heard, hstate, hmessage]
              exact { hears_readyForQuery client client.state with state := rfl }
          | _ =>
              simp only [handleMessage, heard, hstate, hmessage]
              exact { hnothing with state := hstate }

theorem hears_handleWhole (frame : List UInt8) (client : ReplayClient) :
    Hears client (handleWhole md5Hex client frame)
      (stateBehind client.config client.state frame)
      (heard md5Hex client.config client.state frame) := by
  have hstate := (handleFrame_spec md5Hex (frame.headD 0) (frame.drop 5) client).2
  rw [handleWhole]
  by_cases hdead : client.state = .dead
  · rw [handleFrame, if_pos hdead, hdead]
    exact { hears_nothing client with state := hdead }
  · have hmessage := hears_handleMessage md5Hex frame client
    rw [handleFrame, if_neg hdead] at hstate ⊢
    exact { hmessage with state := hstate }

theorem hears_handleAll (frames : List (List UInt8)) (client : ReplayClient) :
    Hears client (handleAll md5Hex frames client)
      (hearAll md5Hex client.config client.state frames).1
      (hearAll md5Hex client.config client.state frames).2 := by
  induction frames generalizing client with
  | nil => exact hears_nothing client
  | cons frame frames ih =>
      have hfirst := hears_handleWhole md5Hex frame client
      have hrest := ih (handleWhole md5Hex client frame)
      rw [hfirst.state, hfirst.config] at hrest
      exact hfirst.trans hrest

theorem hearAll_append (config : ReplayConfig) (state : ClientState)
    (frames more : List (List UInt8)) :
    hearAll md5Hex config state (frames ++ more) =
      ((hearAll md5Hex config (hearAll md5Hex config state frames).1 more).1,
        (hearAll md5Hex config state frames).2 ++
          (hearAll md5Hex config (hearAll md5Hex config state frames).1 more).2) := by
  induction frames generalizing state with
  | nil => rfl
  | cons frame frames ih =>
      simp only [List.cons_append, hearAll, ih, List.append_assoc]

/-! ## Reading -/

/-- A call of `on_read` that returns. -/
theorem consumed_of_onRead {client client' : ReplayClient} {data : List UInt8}
    (hread : client.onRead md5Hex data = some client') :
    ∃ frames, Consumed md5Hex client client' (client.parseStream.data ++ data) frames := by
  obtain ⟨frames, hconsumed⟩ := consumed_of_parseFrames md5Hex hread
  rw [Stream.data_write] at hconsumed
  refine ⟨frames, hconsumed.isFrame, hconsumed.buf, ?_⟩
  have hclient := hconsumed.client
  change client' = withUnread client'.parseStream
    (handleAll md5Hex frames (withUnread (client.parseStream.write data) client)) at hclient
  rwa [handleAll_withUnread, withUnread_withUnread] at hclient

/-- What reading leaves as it is. -/
structure SameWires (conn conn' : Connection) : Prop where
  writeStream : conn'.writeStream = conn.writeStream
  connected : conn'.connected = conn.connected
  accepted : conn'.accepted = conn.accepted
  replayed : conn'.replayed = conn.replayed

/-- A connection that has read some frames.  It may have died of an error as well. -/
structure Listened (conn conn' : Connection) (frames : List (List UInt8)) : Prop where
  isFrame : ∀ frame ∈ frames, IsFrame frame
  bytes : ∃ more, conn'.delivered = conn.delivered ++ more ∧
    conn.client.parseStream.data ++ more = frames.flatten ++ conn'.client.parseStream.data
  hears : ∃ middle, Hears conn.client middle
      (hearAll md5Hex conn.client.config conn.client.state frames).1
      (hearAll md5Hex conn.client.config conn.client.state frames).2 ∧
    (conn'.client = { middle with parseStream := conn'.client.parseStream } ∨
      conn'.client = { middle with parseStream := conn'.client.parseStream, state := .dead })
  same : SameWires conn conn'

theorem listened_nothing (conn : Connection) : Listened md5Hex conn conn [] where
  isFrame _ hframe := by cases hframe
  bytes := ⟨[], by simp, by simp⟩
  hears := ⟨conn.client, hears_nothing conn.client, .inl rfl⟩
  same := ⟨rfl, rfl, rfl, rfl⟩

/-- A read that brings some bytes, and those behind it. -/
theorem Listened.cons {conn conn' : Connection} {client : ReplayClient} {data : List UInt8}
    {frames more : List (List UInt8)}
    (hconsumed : Consumed md5Hex conn.client client (conn.client.parseStream.data ++ data) frames)
    (hrest : Listened md5Hex { conn with client := client, delivered := conn.delivered ++ data }
      conn' more) : Listened md5Hex conn conn' (frames ++ more) := by
  have hfirst := hears_handleAll md5Hex frames conn.client
  have hclient : Hears conn.client client
      (hearAll md5Hex conn.client.config conn.client.state frames).1
      (hearAll md5Hex conn.client.config conn.client.state frames).2 := by
    rw [hconsumed.client]
    exact { hfirst with }
  obtain ⟨middle, hhears, hend⟩ := hrest.hears
  rw [hclient.state, hclient.config] at hhears
  refine ⟨?_, ?_, ⟨middle, ?_, hend⟩, ⟨hrest.same.writeStream, hrest.same.connected,
    hrest.same.accepted, hrest.same.replayed⟩⟩
  · intro frame hframe
    rcases List.mem_append.mp hframe with hmem | hmem
    · exact hconsumed.isFrame frame hmem
    · exact hrest.isFrame frame hmem
  · obtain ⟨last, hdelivered, hbytes⟩ := hrest.bytes
    refine ⟨data ++ last, by rw [hdelivered, List.append_assoc], ?_⟩
    rw [← List.append_assoc, hconsumed.buf, List.append_assoc, hbytes, List.flatten_append,
      List.append_assoc]
  · rw [hearAll_append]
    exact hclient.trans hhears

theorem listened_of_readConn {reads : List ReadAnswer} {conn conn' : Connection}
    (hread : readConn md5Hex reads conn = some conn') :
    ∃ frames, Listened md5Hex conn conn' frames := by
  induction reads generalizing conn with
  | nil =>
      cases hread
      exact ⟨[], listened_nothing md5Hex _⟩
  | cons answer reads ih =>
      have hnothing := listened_nothing md5Hex conn
      have hdies : Listened md5Hex conn
          { conn with client := { conn.client with state := .dead } } [] :=
        { hnothing with
          hears := ⟨conn.client, hears_nothing conn.client, .inr rfl⟩
          same := ⟨rfl, rfl, rfl, rfl⟩ }
      rw [readConn.eq_def] at hread
      dsimp only at hread
      split_ifs at hread with hdead
      · cases hread
        exact ⟨[], hnothing⟩
      · cases answer with
        | eof =>
            cases hread
            exact ⟨[], hdies⟩
        | failed =>
            cases hread
            exact ⟨[], hdies⟩
        | wouldBlock =>
            cases hread
            exact ⟨[], hnothing⟩
        | interrupted => exact ih hread
        | data bytes =>
            obtain ⟨client, honRead, hrest⟩ := Option.bind_eq_some_iff.mp hread
            obtain ⟨frames, hconsumed⟩ := consumed_of_onRead md5Hex honRead
            obtain ⟨more, hmore⟩ := ih hrest
            exact ⟨frames ++ more, Listened.cons md5Hex hconsumed hmore⟩

/-! ## Flushing -/

/-- The bytes of a connection from its first on: taken by the socket, on their way to
it, and in the outbox. -/
def said (conn : Connection) : List UInt8 :=
  conn.accepted ++ conn.writeStream.data ++ conn.client.outbox.data

/-- What a flush leaves as it is: everything but the place of the bytes, and the state if
a write fails. -/
structure Flushed (conn conn' : Connection) : Prop where
  said : said conn' = said conn
  client : ∃ outbox, conn'.client = { conn.client with outbox := outbox } ∨
    conn'.client = { conn.client with outbox := outbox, state := .dead }
  accepted : conn.accepted <+: conn'.accepted
  connected : conn'.connected = conn.connected
  delivered : conn'.delivered = conn.delivered
  replayed : conn'.replayed = conn.replayed

theorem flushed_nothing (conn : Connection) : Flushed conn conn where
  said := rfl
  client := ⟨_, .inl rfl⟩
  accepted := List.prefix_refl _
  connected := rfl
  delivered := rfl
  replayed := rfl

theorem Flushed.trans {conn middle conn' : Connection} (hfirst : Flushed conn middle)
    (hnext : Flushed middle conn') : Flushed conn conn' where
  said := hnext.said.trans hfirst.said
  client := by
    obtain ⟨outbox, hclient⟩ := hfirst.client
    obtain ⟨outbox', hclient'⟩ := hnext.client
    refine ⟨outbox', ?_⟩
    rcases hclient with halive | hdead
    · rw [halive] at hclient'
      exact hclient'
    · rw [hdead] at hclient'
      rcases hclient' with hsame | hsame
      · exact .inr hsame
      · exact .inr hsame
  accepted := hfirst.accepted.trans hnext.accepted
  connected := hnext.connected.trans hfirst.connected
  delivered := hnext.delivered.trans hfirst.delivered
  replayed := hnext.replayed.trans hfirst.replayed

/-- A write moves bytes from the stream to the socket, and does not touch the outbox. -/
theorem flushed_writeConn (answers : List WriteAnswer) (conn : Connection) :
    Flushed conn (writeConn answers conn).1 ∧
      (writeConn answers conn).1.client.outbox = conn.client.outbox := by
  induction answers generalizing conn with
  | nil => exact ⟨flushed_nothing conn, rfl⟩
  | cons answer answers ih =>
      rw [writeConn.eq_def]
      dsimp only
      split_ifs with hempty
      · exact ⟨flushed_nothing conn, rfl⟩
      · cases answer with
        | wouldBlock => exact ⟨flushed_nothing conn, rfl⟩
        | interrupted => exact ih conn
        | failed =>
            refine ⟨{ flushed_nothing conn with client := ⟨_, .inr rfl⟩ }, rfl⟩
        | wrote n =>
            dsimp only
            split_ifs with hzero
            · exact ⟨flushed_nothing conn, rfl⟩
            · obtain ⟨hflushed, houtbox⟩ := ih { conn with
                writeStream := conn.writeStream.markRead n
                accepted := conn.accepted ++ conn.writeStream.data.take n }
              refine ⟨Flushed.trans ?_ hflushed, houtbox⟩
              exact { flushed_nothing conn with
                said := by simp [said]
                accepted := List.prefix_append _ _ }

theorem flushed_flushConn (answers : List WriteAnswer) (conn : Connection) :
    Flushed conn (flushConn answers conn).1 ∧
      (conn.connected = true → (flushConn answers conn).1.client.outbox.data = []) := by
  rw [flushConn]
  split_ifs with hconnected
  · obtain ⟨hflushed, houtbox⟩ := flushed_writeConn answers { conn with
      writeStream := conn.writeStream.write conn.client.outbox.data
      client := { conn.client with outbox := conn.client.outbox.markReadAll } }
    refine ⟨Flushed.trans ?_ hflushed, fun _ => by rw [houtbox]; exact Stream.data_markReadAll _⟩
    exact { flushed_nothing conn with
      said := by simp [said]
      client := ⟨_, .inl rfl⟩ }
  · exact ⟨flushed_nothing conn, fun htrue => absurd htrue hconnected⟩

/-! ## Giving a command -/

/-- The note of a command that is given to a client in its normal state. -/
def toldNotes (sentTerminate : Bool) : CmdKind → List Note
  | .connect => []
  | .send tag data => [.frame tag data]
  | .endReplay => if sentTerminate then [] else [.frame fTerminate terminateMsg]

def isTerminate : Note → Bool
  | .frame tag _ => tag = fTerminate
  | _ => false

/-- A client that has been given a command. -/
structure Told (kind : CmdKind) (client client' : ReplayClient) : Prop where
  notes : client'.notes = client.notes ++ toldNotes client.sentTerminate kind
  outbox : client'.outbox.data =
    client.outbox.data ++ (toldNotes client.sentTerminate kind).flatMap Note.sent
  sentTerminate : client'.sentTerminate =
    (client.sentTerminate || (toldNotes client.sentTerminate kind).any isTerminate)
  state : client'.state = client.state
  rfq : client'.rfq = client.rfq
  parseStream : client'.parseStream = client.parseStream
  config : client'.config = client.config
  id : client'.id = client.id

theorem told_replayFrame {client : ReplayClient} (hstate : client.state = .normal) (tag : UInt8)
    (data : List UInt8) : Told (.send tag data) client (client.replayFrame tag data) := by
  rw [replayFrame, if_neg (not_not_intro hstate)]
  dsimp only
  split_ifs with htag
  · exact
      { notes := rfl
        outbox := by simp [sendFrame, toldNotes]
        sentTerminate := by simp [sendFrame, toldNotes, isTerminate, htag]
        state := rfl
        rfq := rfl
        parseStream := rfl
        config := rfl
        id := rfl }
  · exact
      { notes := rfl
        outbox := by simp [sendFrame, toldNotes]
        sentTerminate := by simp [sendFrame, toldNotes, isTerminate, htag]
        state := rfl
        rfq := rfl
        parseStream := rfl
        config := rfl
        id := rfl }

theorem told_deliver {client : ReplayClient} (hstate : client.state = .normal) {kind : CmdKind} :
    Told kind client (deliver kind client) := by
  cases kind with
  | connect =>
      exact
        { notes := (List.append_nil _).symm
          outbox := (List.append_nil _).symm
          sentTerminate := by simp [toldNotes, deliver]
          state := rfl
          rfq := rfl
          parseStream := rfl
          config := rfl
          id := rfl }
  | send tag data => exact told_replayFrame hstate tag data
  | endReplay =>
      cases hterminate : client.sentTerminate with
      | true =>
          have hsame : deliver .endReplay client = client := by
            rw [deliver, onReplayEnd, hterminate, if_pos rfl]
          rw [hsame]
          exact
            { notes := by simp [toldNotes, hterminate]
              outbox := by simp [toldNotes, hterminate]
              sentTerminate := by simp [toldNotes, hterminate]
              state := rfl
              rfq := rfl
              parseStream := rfl
              config := rfl
              id := rfl }
      | false =>
          have htold := told_replayFrame hstate fTerminate terminateMsg
          have hsame : deliver .endReplay client = client.replayFrame fTerminate terminateMsg := by
            rw [deliver, onReplayEnd, hterminate, if_neg Bool.false_ne_true]
          have hnotes : toldNotes client.sentTerminate .endReplay =
              toldNotes client.sentTerminate (.send fTerminate terminateMsg) := by
            simp [toldNotes, hterminate]
          rw [hsame]
          exact
            { htold with
              notes := by rw [hnotes]; exact htold.notes
              outbox := by rw [hnotes]; exact htold.outbox
              sentTerminate := by rw [hnotes]; exact htold.sentTerminate }

/-! ## A handler and its flush -/

/-- A connection whose client has new notes and which has been flushed: its state is
`state`, unless an error has killed it. -/
structure Advances (conn conn' : Connection) (state : ClientState) (more : List Note) : Prop where
  state : conn'.client.state = state ∨ conn'.client.state = .dead
  notes : conn'.client.notes = conn.client.notes ++ more
  said : said conn' = said conn ++ more.flatMap Note.sent
  rfq : conn'.client.rfq = (conn.client.rfq || decide (.readyForQuery ∈ more))
  sentTerminate : conn'.client.sentTerminate =
    (conn.client.sentTerminate || more.any isTerminate)
  accepted : conn.accepted <+: conn'.accepted
  outbox : conn'.connected = true → conn'.client.outbox.data = []

/-- A connection that has been given a command in its normal state. -/
structure Given (kind : CmdKind) (conn conn' : Connection) : Prop where
  advances : Advances conn conn' conn.client.state (toldNotes conn.client.sentTerminate kind)
  replayed : conn'.replayed = conn.replayed ++ [kind]
  delivered : conn'.delivered = conn.delivered
  parseStream : conn'.client.parseStream = conn.client.parseStream
  connected : conn'.connected = conn.connected
  config : conn'.client.config = conn.client.config

theorem readyForQuery_not_mem_toldNotes (sentTerminate : Bool) (kind : CmdKind) :
    .readyForQuery ∉ toldNotes sentTerminate kind := by
  cases kind <;> cases sentTerminate <;> simp [toldNotes]

theorem given_giveConn {conn : Connection} (hstate : conn.client.state = .normal)
    (kind : CmdKind) (answers : List WriteAnswer) :
    Given kind conn (giveConn kind (deliver kind) answers conn).1 := by
  obtain ⟨conn', hconn'⟩ : ∃ conn',
      (giveConn kind (deliver kind) answers conn).1 = conn' := ⟨_, rfl⟩
  obtain ⟨hflushed, houtbox⟩ := flushed_flushConn answers
    { conn with client := deliver kind conn.client, replayed := conn.replayed ++ [kind] }
  have htold : Told kind conn.client (deliver kind conn.client) := told_deliver hstate
  rw [giveConn] at hconn'
  rw [hconn'] at hflushed houtbox
  rw [giveConn, hconn']
  obtain ⟨outbox, hclient⟩ := hflushed.client
  have hsaid := hflushed.said
  refine ⟨⟨?_, ?_, ?_, ?_, ?_, hflushed.accepted, ?_⟩, hflushed.replayed, hflushed.delivered, ?_,
    hflushed.connected, ?_⟩
  · rcases hclient with hsame | hsame <;> rw [hsame]
    · exact .inl htold.state
    · exact .inr rfl
  · rcases hclient with hsame | hsame <;> rw [hsame] <;> exact htold.notes
  · rw [hsaid]
    simp [said, htold.outbox]
  · rw [decide_eq_false (readyForQuery_not_mem_toldNotes _ kind), Bool.or_false]
    rcases hclient with hsame | hsame <;> rw [hsame] <;> exact htold.rfq
  · rcases hclient with hsame | hsame <;> rw [hsame] <;> exact htold.sentTerminate
  · rw [hflushed.connected]
    exact houtbox
  · rcases hclient with hsame | hsame <;> rw [hsame] <;> exact htold.parseStream
  · rcases hclient with hsame | hsame <;> rw [hsame] <;> exact htold.config

/-- A connection that has read the frames and has been flushed. -/
structure Heard (frames : List (List UInt8)) (conn conn' : Connection) : Prop where
  advances : Advances conn conn' (hearAll md5Hex conn.client.config conn.client.state frames).1
    (hearAll md5Hex conn.client.config conn.client.state frames).2
  isFrame : ∀ frame ∈ frames, IsFrame frame
  bytes : ∃ more, conn'.delivered = conn.delivered ++ more ∧
    conn.client.parseStream.data ++ more = frames.flatten ++ conn'.client.parseStream.data
  replayed : conn'.replayed = conn.replayed
  connected : conn'.connected = conn.connected
  config : conn'.client.config = conn.client.config

theorem not_isTerminate_heard (config : ReplayConfig) (state : ClientState) (frame : List UInt8) :
    (heard md5Hex config state frame).any isTerminate = false := by
  rw [heard.eq_def]
  split
  · rw [authAnswer.eq_def]
    split <;> rfl
  · rfl
  · rfl
  · rfl

theorem not_isTerminate_hearAll (config : ReplayConfig) (state : ClientState)
    (frames : List (List UInt8)) :
    (hearAll md5Hex config state frames).2.any isTerminate = false := by
  induction frames generalizing state with
  | nil => rfl
  | cons frame frames ih =>
      rw [hearAll, List.any_append, not_isTerminate_heard, ih]
      rfl

theorem heard_of_readConn {reads : List ReadAnswer} {conn middle : Connection}
    (hread : readConn md5Hex reads conn = some middle) (answers : List WriteAnswer) :
    ∃ frames, Heard md5Hex frames conn (flushConn answers middle).1 := by
  obtain ⟨frames, hlistened⟩ := listened_of_readConn md5Hex hread
  obtain ⟨conn', hconn'⟩ : ∃ conn', (flushConn answers middle).1 = conn' := ⟨_, rfl⟩
  obtain ⟨hflushed, houtbox⟩ := flushed_flushConn answers middle
  rw [hconn'] at hflushed houtbox ⊢
  obtain ⟨client, hhears, hmiddle⟩ := hlistened.hears
  obtain ⟨outbox, hclient⟩ := hflushed.client
  have hsame := hlistened.same
  have hsaid : said middle = conn.accepted ++ conn.writeStream.data ++ client.outbox.data := by
    rw [said, hsame.accepted, hsame.writeStream]
    rcases hmiddle with halive | hdead
    · rw [halive]
    · rw [hdead]
  refine ⟨frames, ⟨⟨?_, ?_, ?_, ?_, ?_, ?_, ?_⟩, hlistened.isFrame, ?_, ?_, ?_, ?_⟩⟩
  · rw [← hhears.state]
    rcases hclient with hkept | hdied
    · rcases hmiddle with halive | hdead
      · exact .inl (by rw [hkept, halive])
      · exact .inr (by rw [hkept, hdead])
    · exact .inr (by rw [hdied])
  · rw [← hhears.notes]
    rcases hclient with hkept | hkept <;> rcases hmiddle with halive | halive <;>
      rw [hkept, halive]
  · rw [hflushed.said, hsaid, hhears.outbox]
    simp [said]
  · rw [← hhears.rfq]
    rcases hclient with hkept | hkept <;> rcases hmiddle with halive | halive <;>
      rw [hkept, halive]
  · rw [not_isTerminate_hearAll, Bool.or_false, ← hhears.sentTerminate]
    rcases hclient with hkept | hkept <;> rcases hmiddle with halive | halive <;>
      rw [hkept, halive]
  · rw [← hsame.accepted]
    exact hflushed.accepted
  · rw [hflushed.connected]
    exact houtbox
  · have hparse : conn'.client.parseStream = middle.client.parseStream := by
      rcases hclient with hkept | hkept <;> rw [hkept]
    rw [hflushed.delivered, hparse]
    exact hlistened.bytes
  · rw [hflushed.replayed, hsame.replayed]
  · rw [hflushed.connected, hsame.connected]
  · rw [← hhears.config]
    rcases hclient with hkept | hkept <;> rcases hmiddle with halive | halive <;>
      rw [hkept, halive]

/-! ## Executing a command -/

/-- A client whose slot does not wait has been let in. -/
theorem normal_of_alive {state : ClientState} (halive : state ≠ .dead)
    (hconnecting : state = .connecting → false = true) : state = .normal := by
  cases state with
  | normal => rfl
  | dead => exact absurd rfl halive
  | connecting => cases hconnecting rfl

/-- What holds of a fresh connection and is kept by giving a command holds, when a command
is executed, of the connection that is then in the slot. -/
theorem executed_of_given {config : ReplayConfig} {id : Capture.ClientId} {cmd : ConnCommand}
    {slot : Slot} {after : Option Slot} {gone : List Connection}
    {Holds : Bool → Connection → Prop} {Left : Connection → Prop}
    (hopened : Holds true (openConn id config))
    (hleft : ∀ awaiting conn, Holds awaiting conn → Left conn)
    (hnormal : ∀ conn, Holds false conn → conn.client.state = .normal)
    (hgive : ∀ conn conn', Holds false conn → Given cmd.kind conn conn' →
      Left conn' ∧ (conn'.client.state ≠ .dead → Holds (blocking cmd.kind) conn'))
    (hkeeps : ∀ conn, slot.conn = some conn → Holds slot.awaiting conn)
    (hblocked : slot.blocked = false) (hexecuted : Executed config id cmd slot after gone) :
    (∀ slot', after = some slot' → ∀ conn, slot'.conn = some conn → Holds slot'.awaiting conn) ∧
      ∀ conn ∈ gone, Left conn := by
  have hgone : ∀ conn ∈ slot.conn.toList, Left conn := by
    intro conn hconn
    exact hleft _ conn (hkeeps conn (Option.mem_toList.mp hconn))
  have hopen : ∀ conn, slot.conn = some conn → slot.awaiting = false ∧ Holds false conn := by
    intro conn hconn
    have hawaiting : slot.awaiting = false := by simpa [Slot.blocked, hconn] using hblocked
    have hholds := hkeeps conn hconn
    rw [hawaiting] at hholds
    exact ⟨hawaiting, hholds⟩
  cases hexecuted with
  | connected hkind =>
      refine ⟨?_, hgone⟩
      rintro slot' ⟨⟩ conn ⟨⟩
      exact hopened
  | refused hkind => exact ⟨by simp, hgone⟩
  | unconnected hkind hconn =>
      refine ⟨?_, by simp⟩
      rintro slot' ⟨⟩
      exact hkeeps
  | @given hkind conn hconn conn' answers hgiven hstate burst =>
      obtain ⟨hawaiting, hholds⟩ := hopen conn hconn
      have hspec := given_giveConn (hnormal conn hholds) cmd.kind answers
      rw [hgiven] at hspec
      refine ⟨?_, by simp⟩
      rintro slot' ⟨⟩ found ⟨⟩
      change Holds (slot.awaiting || blocking cmd.kind) conn'
      rw [hawaiting, Bool.false_or]
      exact (hgive conn conn' hholds hspec).2 hstate
  | @lost hkind conn hconn conn' answers hgiven hstate =>
      obtain ⟨-, hholds⟩ := hopen conn hconn
      have hspec := given_giveConn (hnormal conn hholds) cmd.kind answers
      rw [hgiven] at hspec
      exact ⟨by simp, by simpa using (hgive conn conn' hholds hspec).1⟩

end Pgr.Conversation
