import Pgr.Replay.Client
import Pgr.Replay.Framing

/-!
# Chunks of the server's bytes

`on_read` is called with whatever the socket had to give.  What it makes of the
client depends on the frames in the bytes only: a client that has read some chunks
is the client that has handled the frames in them one by one, with other unread
bytes.
-/

namespace Pgr.Chunking

open Pgr.Proto Pgr.Utils Pgr.Client Pgr.Client.ReplayClient Pgr.Framing

variable (md5Hex : List UInt8 → String)

/-- The calls of `on_read` with one chunk after the other. -/
def feed (chunks : List (List UInt8)) (client : ReplayClient) : Option ReplayClient :=
  chunks.foldlM (fun client chunk => client.onRead md5Hex chunk) client

/-- The client with other unread bytes. -/
def withUnread (unread : Stream) (client : ReplayClient) : ReplayClient :=
  { client with parseStream := unread }

/-- `handle_frame` for a frame with its header. -/
def handleWhole (client : ReplayClient) (frame : List UInt8) : ReplayClient :=
  handleFrame md5Hex (frame.headD 0) (frame.drop 5) client

def handleAll (frames : List (List UInt8)) (client : ReplayClient) : ReplayClient :=
  frames.foldl (handleWhole md5Hex) client

/-- Every frame has room for its header. -/
def WellFramed (buf : List UInt8) : Prop :=
  ∀ frame ∈ (splitFrames buf).1, 5 ≤ frame.length

/-! ## Handling a frame -/

@[simp]
theorem withUnread_withUnread (first second : Stream) (client : ReplayClient) :
    withUnread second (withUnread first client) = withUnread second client := rfl

theorem withUnread_parseStream (client : ReplayClient) :
    withUnread client.parseStream client = client := rfl

/-- The unread bytes play no part in the handling of a frame. -/
theorem handleAuth_withUnread (auth : Authentication) (unread : Stream) (client : ReplayClient) :
    handleAuth md5Hex auth (withUnread unread client) =
      withUnread unread (handleAuth md5Hex auth client) := by
  cases auth with
  | ok => rfl
  | cleartext | md5 salt =>
      rw [handleAuth, handleAuth]
      cases hpassword : client.config.password with
      | none => simp only [withUnread, hpassword]
      | some pass => simp only [withUnread, hpassword]; rfl
  | unsupported code => rfl

theorem handleMessage_withUnread (tag : UInt8) (data : List UInt8) (unread : Stream)
    (client : ReplayClient) :
    handleMessage md5Hex tag data (withUnread unread client) =
      withUnread unread (handleMessage md5Hex tag data client) := by
  have hstate : (withUnread unread client).state = client.state := rfl
  rw [handleMessage, handleMessage, hstate]
  cases client.state with
  | dead => rfl
  | connecting =>
      cases hmessage : parseMessage tag data with
      | none => rfl
      | some message =>
          cases message with
          | authentication auth => exact handleAuth_withUnread md5Hex auth unread client
          | _ => rfl
  | normal =>
      cases hmessage : parseMessage tag data with
      | none => rfl
      | some message => cases message <;> rfl

theorem handleFrame_withUnread (tag : UInt8) (data : List UInt8) (unread : Stream)
    (client : ReplayClient) :
    handleFrame md5Hex tag data (withUnread unread client) =
      withUnread unread (handleFrame md5Hex tag data client) := by
  have hstate : (withUnread unread client).state = client.state := rfl
  rw [handleFrame, handleFrame, hstate]
  by_cases hdead : client.state = .dead
  · rw [if_pos hdead, if_pos hdead]
  · rw [if_neg hdead, if_neg hdead, handleMessage_withUnread]
    rfl

theorem handleAll_withUnread (frames : List (List UInt8)) (unread : Stream)
    (client : ReplayClient) :
    handleAll md5Hex frames (withUnread unread client) =
      withUnread unread (handleAll md5Hex frames client) := by
  induction frames generalizing client with
  | nil => rfl
  | cons frame frames ih =>
      change handleAll md5Hex frames (handleWhole md5Hex (withUnread unread client) frame) = _
      rw [handleWhole, handleFrame_withUnread, ih]
      rfl

theorem handleAll_of_dead {client : ReplayClient} (hdead : client.state = .dead)
    (frames : List (List UInt8)) : handleAll md5Hex frames client = client := by
  induction frames with
  | nil => rfl
  | cons frame frames ih =>
      have hsame : handleWhole md5Hex client frame = client := by
        rw [handleWhole, handleFrame, if_pos hdead]
      change handleAll md5Hex frames (handleWhole md5Hex client frame) = client
      rw [hsame, ih]

/-! ## Reading a chunk -/

/-- A client that has taken some frames off its unread bytes and handled them. -/
structure Consumed (client client' : ReplayClient) (buf : List UInt8)
    (frames : List (List UInt8)) : Prop where
  isFrame : ∀ frame ∈ frames, IsFrame frame
  buf : buf = frames.flatten ++ client'.parseStream.data
  client : client' = withUnread client'.parseStream (handleAll md5Hex frames client)

/-- Where the loop of `on_read` stops. -/
def Settled (client : ReplayClient) : Prop :=
  client.state = .dead ∨ tryReadFrame client.parseStream.data = none

theorem parseStream_handleFrame (tag : UInt8) (data : List UInt8) (client : ReplayClient) :
    (handleFrame md5Hex tag data client).parseStream = client.parseStream := by
  have hsame := handleFrame_withUnread md5Hex tag data client.parseStream client
  rw [withUnread_parseStream] at hsame
  rw [hsame]
  rfl

/-- A client that has taken one frame. -/
theorem Consumed.cons {client client' : ReplayClient} {buf frame : List UInt8}
    {frames : List (List UInt8)} {unread : Stream} (hframe : IsFrame frame)
    (hrest : Consumed md5Hex (withUnread unread (handleWhole md5Hex client frame)) client' buf
      frames) :
    Consumed md5Hex client client' (frame ++ buf) (frame :: frames) where
  isFrame := List.forall_mem_cons.mpr ⟨hframe, hrest.isFrame⟩
  buf := by
    rw [List.flatten_cons, List.append_assoc, ← hrest.buf]
  client := by
    have hclient := hrest.client
    rw [handleAll_withUnread, withUnread_withUnread] at hclient
    exact hclient

theorem consumed_nil (client : ReplayClient) :
    Consumed md5Hex client client client.parseStream.data [] where
  isFrame _ hframe := by cases hframe
  buf := rfl
  client := rfl

/-- The client behind a round of the loop of `on_read` that takes a frame. -/
def taken (frameLen : ℕ) (client : ReplayClient) : ReplayClient :=
  withUnread (client.parseStream.markRead frameLen)
    (handleWhole md5Hex client (client.parseStream.data.take frameLen))

theorem parseFrames_taken {fuel : ℕ} {client : ReplayClient} {tag : UInt8} {frameLen : ℕ}
    (hframe : tryReadFrame client.parseStream.data = some (tag, frameLen))
    (hheader : 5 ≤ frameLen) :
    parseFrames md5Hex (fuel + 1) client =
      if (taken md5Hex frameLen client).state = .dead then some (taken md5Hex frameLen client)
      else parseFrames md5Hex fuel (taken md5Hex frameLen client) := by
  obtain ⟨-, htag⟩ := tryReadFrame_take hframe hheader
  have hstep : ({ handleFrame md5Hex tag
      ((client.parseStream.data.take frameLen).drop 5) client with
        parseStream := (handleFrame md5Hex tag
          ((client.parseStream.data.take frameLen).drop 5)
            client).parseStream.markRead frameLen } : ReplayClient) =
      taken md5Hex frameLen client := by
    rw [parseStream_handleFrame, taken, handleWhole, htag]
    rfl
  have hstate : (handleFrame md5Hex tag
      ((client.parseStream.data.take frameLen).drop 5) client).state =
        (taken md5Hex frameLen client).state := by
    rw [← hstep]
  rw [parseFrames, hframe]
  simp only [hstep]
  rw [hstate, if_neg (not_lt.mpr hheader)]

/-- A round takes its frame off the unread bytes, and the other rounds take theirs. -/
theorem Consumed.taken {client client' : ReplayClient} {tag : UInt8} {frameLen : ℕ}
    {frames : List (List UInt8)}
    (hframe : tryReadFrame client.parseStream.data = some (tag, frameLen))
    (hheader : 5 ≤ frameLen)
    (hrest : Consumed md5Hex (taken md5Hex frameLen client) client'
      (taken md5Hex frameLen client).parseStream.data frames) :
    Consumed md5Hex client client' client.parseStream.data
      (client.parseStream.data.take frameLen :: frames) := by
  have hbounds := tryReadFrame_bounds hframe
  obtain ⟨hself, -⟩ := tryReadFrame_take hframe hheader
  have hisFrame : IsFrame (client.parseStream.data.take frameLen) := by
    refine ⟨tag, ?_⟩
    rw [hself, List.length_take, min_eq_left hbounds.2.1]
  have hunread : (Chunking.taken md5Hex frameLen client).parseStream.data =
      client.parseStream.data.drop frameLen :=
    Stream.data_markRead _ _
  have hcons := Consumed.cons md5Hex hisFrame hrest
  rwa [hunread, List.take_append_drop] at hcons

theorem parseFrames_consumed {fuel : ℕ} {client : ReplayClient}
    (hfuel : client.parseStream.data.length ≤ fuel)
    (hframed : WellFramed client.parseStream.data) :
    ∃ client' frames, parseFrames md5Hex fuel client = some client' ∧
      Consumed md5Hex client client' client.parseStream.data frames ∧ Settled client' := by
  induction fuel generalizing client with
  | zero =>
      have hempty := List.eq_nil_of_length_eq_zero (Nat.le_zero.mp hfuel)
      exact ⟨client, [], rfl, consumed_nil md5Hex client, .inr (by rw [hempty]; rfl)⟩
  | succ fuel ih =>
      cases hframe : tryReadFrame client.parseStream.data with
      | none =>
          rw [parseFrames, hframe]
          exact ⟨client, [], rfl, consumed_nil md5Hex client, .inr hframe⟩
      | some found =>
          obtain ⟨tag, frameLen⟩ := found
          rw [WellFramed, splitFrames_of_some hframe, List.forall_mem_cons] at hframed
          obtain ⟨hheader, hframed⟩ := hframed
          have hbounds := tryReadFrame_bounds hframe
          rw [List.length_take, min_eq_left hbounds.2.1] at hheader
          have hunread : (taken md5Hex frameLen client).parseStream.data =
              client.parseStream.data.drop frameLen :=
            Stream.data_markRead _ _
          rw [parseFrames_taken md5Hex hframe hheader]
          by_cases hdead : (taken md5Hex frameLen client).state = .dead
          · rw [if_pos hdead]
            have hlast := consumed_nil md5Hex (taken md5Hex frameLen client)
            exact ⟨_, _, rfl, Consumed.taken md5Hex hframe hheader hlast, .inl hdead⟩
          · rw [if_neg hdead]
            rw [← hunread] at hframed
            obtain ⟨client', frames, hparse, hconsumed, hsettled⟩ :=
              ih (by rw [hunread, List.length_drop]; omega) hframed
            exact ⟨client', _, hparse, Consumed.taken md5Hex hframe hheader hconsumed, hsettled⟩

/-- Whenever the loop of `on_read` returns, the client has handled the frames in front
of what it has left unread. -/
theorem consumed_of_parseFrames {fuel : ℕ} {client client' : ReplayClient}
    (hparse : parseFrames md5Hex fuel client = some client') :
    ∃ frames, Consumed md5Hex client client' client.parseStream.data frames := by
  induction fuel generalizing client with
  | zero =>
      cases hparse
      exact ⟨[], consumed_nil md5Hex _⟩
  | succ fuel ih =>
      cases hframe : tryReadFrame client.parseStream.data with
      | none =>
          rw [parseFrames, hframe] at hparse
          cases hparse
          exact ⟨[], consumed_nil md5Hex _⟩
      | some found =>
          obtain ⟨tag, frameLen⟩ := found
          by_cases hheader : 5 ≤ frameLen
          · rw [parseFrames_taken md5Hex hframe hheader] at hparse
            split_ifs at hparse with hdead
            · cases hparse
              have hlast := consumed_nil md5Hex (taken md5Hex frameLen client)
              exact ⟨_, Consumed.taken md5Hex hframe hheader hlast⟩
            · obtain ⟨frames, hconsumed⟩ := ih hparse
              exact ⟨_, Consumed.taken md5Hex hframe hheader hconsumed⟩
          · rw [parseFrames, hframe] at hparse
            dsimp only at hparse
            rw [if_pos (not_le.mp hheader)] at hparse
            cases hparse

/-- It returns when it finds no more frames, or a frame has killed the client. -/
theorem settled_of_parseFrames {fuel : ℕ} {client client' : ReplayClient}
    (hfuel : client.parseStream.data.length ≤ fuel)
    (hparse : parseFrames md5Hex fuel client = some client') : Settled client' := by
  induction fuel generalizing client with
  | zero =>
      have hempty : client.parseStream.data = [] :=
        List.eq_nil_of_length_eq_zero (Nat.le_zero.mp hfuel)
      have hnone : tryReadFrame client.parseStream.data = none := by
        rw [hempty]
        rfl
      cases hparse
      exact .inr hnone
  | succ fuel ih =>
      cases hframe : tryReadFrame client.parseStream.data with
      | none =>
          rw [parseFrames, hframe] at hparse
          cases hparse
          exact .inr hframe
      | some found =>
          obtain ⟨tag, frameLen⟩ := found
          by_cases hheader : 5 ≤ frameLen
          · rw [parseFrames_taken md5Hex hframe hheader] at hparse
            split_ifs at hparse with hdead
            · cases hparse
              exact .inl hdead
            · have hunread : (taken md5Hex frameLen client).parseStream.data =
                  client.parseStream.data.drop frameLen :=
                Stream.data_markRead _ _
              apply ih _ hparse
              rw [hunread, List.length_drop]
              omega
          · rw [parseFrames, hframe] at hparse
            dsimp only at hparse
            rw [if_pos (not_le.mp hheader)] at hparse
            cases hparse

/-! ## Reading a list of chunks -/

theorem handleAll_append (frames more : List (List UInt8)) (client : ReplayClient) :
    handleAll md5Hex (frames ++ more) client =
      handleAll md5Hex more (handleAll md5Hex frames client) :=
  List.foldl_append

theorem Consumed.trans {client middle client' : ReplayClient} {chunk buf : List UInt8}
    {frames more : List (List UInt8)}
    (hfirst : Consumed md5Hex client middle (client.parseStream.data ++ chunk) frames)
    (hnext : Consumed md5Hex middle client' (middle.parseStream.data ++ buf) more) :
    Consumed md5Hex client client' (client.parseStream.data ++ (chunk ++ buf)) (frames ++ more) where
  isFrame frame hframe := (List.mem_append.mp hframe).elim (hfirst.isFrame frame)
    (hnext.isFrame frame)
  buf := by
    rw [← List.append_assoc, hfirst.buf, List.append_assoc, hnext.buf, List.flatten_append,
      List.append_assoc]
  client := by
    have hclient := hnext.client
    rw [hfirst.client, handleAll_withUnread, withUnread_withUnread, ← handleAll_append] at hclient
    exact hclient

theorem WellFramed.of_flatten_append {frames : List (List UInt8)} {buf : List UInt8}
    (hframes : ∀ frame ∈ frames, IsFrame frame) (hframed : WellFramed (frames.flatten ++ buf)) :
    WellFramed buf := by
  rw [WellFramed, splitFrames_flatten hframes] at hframed
  exact fun frame hframe => hframed frame (List.mem_append_right _ hframe)

/-- What follows cannot make a frame shorter. -/
theorem WellFramed.of_append {buf more : List UInt8} (hframed : WellFramed (buf ++ more)) :
    WellFramed buf := by
  induction hlength : buf.length using Nat.strong_induction_on generalizing buf with
  | _ length ih =>
      cases hframe : tryReadFrame buf with
      | none =>
          rw [WellFramed, splitFrames_of_none hframe]
          exact fun _ hnone => absurd hnone List.not_mem_nil
      | some found =>
          obtain ⟨tag, frameLen⟩ := found
          have hbounds := tryReadFrame_bounds hframe
          rw [WellFramed, splitFrames_of_some (tryReadFrame_append hframe more),
            List.take_append_of_le_length hbounds.2.1, List.drop_append_of_le_length hbounds.2.1,
            List.forall_mem_cons] at hframed
          rw [WellFramed, splitFrames_of_some hframe, List.forall_mem_cons]
          have hshorter : (buf.drop frameLen).length < length := by
            rw [List.length_drop, ← hlength]
            omega
          exact ⟨hframed.1, ih _ hshorter hframed.2 rfl⟩

theorem onRead_consumed {client : ReplayClient} {chunk : List UInt8}
    (hframed : WellFramed (client.parseStream.data ++ chunk)) :
    ∃ client' frames, client.onRead md5Hex chunk = some client' ∧
      Consumed md5Hex client client' (client.parseStream.data ++ chunk) frames ∧
        Settled client' := by
  have hdata : (withUnread (client.parseStream.write chunk) client).parseStream.data =
      client.parseStream.data ++ chunk := Stream.data_write _ _
  rw [← hdata] at hframed
  obtain ⟨client', frames, hparse, hconsumed, hsettled⟩ :=
    parseFrames_consumed md5Hex le_rfl hframed
  refine ⟨client', frames, hparse, ?_, hsettled⟩
  rw [hdata] at hconsumed
  refine ⟨hconsumed.isFrame, hconsumed.buf, ?_⟩
  have hclient := hconsumed.client
  rwa [handleAll_withUnread, withUnread_withUnread] at hclient

theorem feed_consumed {chunks : List (List UInt8)} {client : ReplayClient}
    (hframed : WellFramed (client.parseStream.data ++ chunks.flatten)) :
    ∃ client' frames, feed md5Hex chunks client = some client' ∧
      Consumed md5Hex client client' (client.parseStream.data ++ chunks.flatten) frames ∧
        (chunks ≠ [] ∨ Settled client → Settled client') := by
  induction chunks generalizing client with
  | nil =>
      refine ⟨client, [], rfl, ?_, fun hsettled => hsettled.resolve_left fun hne => hne rfl⟩
      rw [List.flatten_nil, List.append_nil]
      exact consumed_nil md5Hex client
  | cons chunk chunks ih =>
      rw [List.flatten_cons] at hframed ⊢
      have hfirst : WellFramed (client.parseStream.data ++ chunk) := by
        rw [← List.append_assoc] at hframed
        exact hframed.of_append
      obtain ⟨middle, frames, hread, hconsumed, hsettled⟩ := onRead_consumed md5Hex hfirst
      have hrest : WellFramed (middle.parseStream.data ++ chunks.flatten) := by
        rw [← List.append_assoc, hconsumed.buf, List.append_assoc] at hframed
        exact hframed.of_flatten_append hconsumed.isFrame
      obtain ⟨client', more, hfeed, hmore, hlast⟩ := ih hrest
      refine ⟨client', frames ++ more, ?_, Consumed.trans md5Hex hconsumed hmore,
        fun _ => hlast (.inr hsettled)⟩
      rw [feed, List.foldlM_cons, hread]
      exact hfeed

/-- A client that has stopped has handled all the frames there are, as far as they
matter to it. -/
theorem Consumed.eq_handleAll {client client' : ReplayClient} {buf : List UInt8}
    {frames : List (List UInt8)} (hconsumed : Consumed md5Hex client client' buf frames)
    (hsettled : Settled client') :
    client' = withUnread client'.parseStream (handleAll md5Hex (splitFrames buf).1 client) := by
  rw [hconsumed.buf, splitFrames_flatten hconsumed.isFrame, handleAll_append]
  obtain hdead | hnone := hsettled
  · have hstate : (handleAll md5Hex frames client).state = .dead := by
      rw [hconsumed.client] at hdead
      exact hdead
    rw [handleAll_of_dead md5Hex hstate]
    exact hconsumed.client
  · rw [splitFrames_of_none hnone]
    exact hconsumed.client

/-- What is compared of two clients that have read the same bytes. -/
structure SameOutcome (client other : ReplayClient) : Prop where
  state : client.state = other.state
  rfq : client.rfq = other.rfq
  respIndex : client.respIndex = other.respIndex
  reqIndex : client.reqIndex = other.reqIndex
  outbox : client.outbox.data = other.outbox.data

/-- Two ways to cut the same well-formed bytes make the same client.  Both must be
cut into some calls, unless the client has nothing left to handle, as between any
two calls of `on_read`. -/
theorem feed_sameOutcome {client : ReplayClient} {chunks others : List (List UInt8)}
    (hbytes : chunks.flatten = others.flatten)
    (hcalls : (chunks = [] ↔ others = []) ∨ Settled client)
    (hframed : WellFramed (client.parseStream.data ++ chunks.flatten)) :
    ∃ client' other', feed md5Hex chunks client = some client' ∧
      feed md5Hex others client = some other' ∧ SameOutcome client' other' := by
  obtain ⟨client', frames, hfeed, hconsumed, hsettled⟩ := feed_consumed md5Hex hframed
  rw [hbytes] at hframed
  obtain ⟨other', others', hfeed', hconsumed', hsettled'⟩ := feed_consumed md5Hex hframed
  refine ⟨client', other', hfeed, hfeed', ?_⟩
  by_cases hnone : chunks = [] ∧ others = []
  · rw [hnone.1] at hfeed
    rw [hnone.2] at hfeed'
    cases hfeed
    cases hfeed'
    exact ⟨rfl, rfl, rfl, rfl, rfl⟩
  · have hstops : Settled client' ∧ Settled other' := by
      obtain hiff | hclient := hcalls
      · have hsome : chunks ≠ [] := fun hchunks => hnone ⟨hchunks, hiff.mp hchunks⟩
        exact ⟨hsettled (.inl hsome), hsettled' (.inl fun hothers => hsome (hiff.mpr hothers))⟩
      · exact ⟨hsettled (.inr hclient), hsettled' (.inr hclient)⟩
    have hclient := Consumed.eq_handleAll md5Hex hconsumed hstops.1
    have hother := Consumed.eq_handleAll md5Hex hconsumed' hstops.2
    rw [← hbytes] at hother
    rw [hclient, hother]
    exact ⟨rfl, rfl, rfl, rfl, rfl⟩

/-- `ReadyForQuery`, cut inside its header and not cut at all. -/
theorem feed_sameOutcome_readyForQuery :
    ∃ client' other',
      feed (fun _ => "") [[0x5A, 0, 0], [0, 5, 73]] (connect 7 ⟨"u", none, "d", "pgr"⟩) =
        some client' ∧
      feed (fun _ => "") [[0x5A, 0, 0, 0, 5, 73]] (connect 7 ⟨"u", none, "d", "pgr"⟩) =
        some other' ∧ SameOutcome client' other' := by
  have hframe : IsFrame [0x5A, 0, 0, 0, 5, 73] := ⟨0x5A, by decide⟩
  have hframed : WellFramed [0x5A, 0, 0, 0, 5, 73] := by
    have hend : splitFrames [] = ([], []) := splitFrames_of_none rfl
    have hsplit := splitFrames_cons hframe []
    rw [List.append_nil, hend] at hsplit
    rw [WellFramed, hsplit]
    decide
  have hcalls : ([[0x5A, 0, 0], [0, 5, 73]] : List (List UInt8)) = [] ↔
      ([[0x5A, 0, 0, 0, 5, 73]] : List (List UInt8)) = [] := by decide
  exact feed_sameOutcome _ rfl (.inl hcalls) hframed

end Pgr.Chunking
