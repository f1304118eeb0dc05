import Pgr.Replay.Accounting
import Pgr.Replay.EmittedFrames
import Pgr.Replay.Gating

/-!
# What the socket of a client is sent

The bytes that a connection has given away are its startup packet, its answers to the
authentication requests that it has read, and the frames of the commands that it has
been given.  The commands of a client are all accounted for, and so the socket takes the
captured frames in their order, each once.
-/

namespace Pgr.Fidelity

open Pgr.Capture Pgr.Proto Pgr.Manager Pgr.Client Pgr.Client.ReplayClient Pgr.Loop
open Pgr.Loop.ReplayLoop Pgr.Transition Pgr.Framing Pgr.EmittedFrames Pgr.Chunking Pgr.CheckedRead
open Pgr.Dispatch Pgr.Conversation Pgr.LocalInvariant Pgr.Gating Pgr.OneClient Pgr.Accounting

variable (md5Hex : List UInt8 → String) (catchup : ℕ → ℕ)

/-! ## The answers to authentication requests -/

def isReadyMessage (frame : List UInt8) : Bool :=
  match parseMessage (frame.headD 0) (frame.drop 5) with
  | some .readyForQuery => true
  | _ => false

def authRequest (frame : List UInt8) : Option Authentication :=
  match parseMessage (frame.headD 0) (frame.drop 5) with
  | some (.authentication auth) => some auth
  | _ => none

/-- The bytes of the answer to a request. -/
def replyBytes (config : ReplayConfig) (auth : Authentication) : List UInt8 :=
  (authAnswer md5Hex config auth).flatMap Note.sent

/-- The answers to the requests that the server makes before it is ready. -/
def authReplies (config : ReplayConfig) (frames : List (List UInt8)) : List UInt8 :=
  ((frames.takeWhile fun frame => !isReadyMessage frame).filterMap authRequest).flatMap
    (replyBytes md5Hex config)

/-- What a client that is connecting puts into its outbox when it reads the frames. -/
def replied (config : ReplayConfig) (frames : List (List UInt8)) : List UInt8 :=
  (hearAll md5Hex config .connecting frames).2.flatMap Note.sent

theorem hearAll_dead (config : ReplayConfig) (frames : List (List UInt8)) :
    hearAll md5Hex config .dead frames = (.dead, []) := by
  induction frames with
  | nil => rfl
  | cons frame frames ih =>
      have hbehind : stateBehind config .dead frame = .dead := rfl
      rw [hearAll, hbehind, ih]
      rfl

/-- A client that is ready answers nothing. -/
theorem hearAll_normal (config : ReplayConfig) (frames : List (List UInt8)) :
    (hearAll md5Hex config .normal frames).1 = .normal ∧
      (hearAll md5Hex config .normal frames).2.flatMap Note.sent = [] := by
  induction frames with
  | nil => exact ⟨rfl, rfl⟩
  | cons frame frames ih =>
      have hbehind : stateBehind config .normal frame = .normal := rfl
      have hheard : (heard md5Hex config .normal frame).flatMap Note.sent = [] := by
        rw [heard.eq_def]
        cases parseMessage (frame.headD 0) (frame.drop 5) with
        | none => rfl
        | some message => cases message <;> rfl
      rw [hearAll, hbehind, List.flatMap_append, hheard, ih.2]
      exact ⟨ih.1, rfl⟩

theorem stateBehind_authentication {config : ReplayConfig} {frame : List UInt8}
    {auth : Authentication}
    (hmessage : parseMessage (frame.headD 0) (frame.drop 5) = some (.authentication auth)) :
    stateBehind config .connecting frame = .connecting ∨
      stateBehind config .connecting frame = .dead := by
  rw [stateBehind, stateAfter.eq_def, hmessage]
  dsimp only
  split
  · exact .inl rfl
  · split_ifs
    · exact .inl rfl
    · exact .inr rfl
  · split_ifs
    · exact .inl rfl
    · exact .inr rfl
  · exact .inr rfl

/-- What one frame adds to the answers. -/
theorem replied_cons (config : ReplayConfig) (frame : List UInt8) (frames : List (List UInt8)) :
    (isReadyMessage frame = true ∧ (hearAll md5Hex config .connecting (frame :: frames)).1 = .normal ∧
        replied md5Hex config (frame :: frames) = []) ∨
      (∃ auth, authRequest frame = some auth ∧ isReadyMessage frame = false ∧
        (hearAll md5Hex config .connecting (frame :: frames)).1 = .dead ∧
        replied md5Hex config (frame :: frames) = replyBytes md5Hex config auth) ∨
      isReadyMessage frame = false ∧
        (hearAll md5Hex config .connecting (frame :: frames)).1 =
          (hearAll md5Hex config .connecting frames).1 ∧
        replied md5Hex config (frame :: frames) =
          (authRequest frame).toList.flatMap (replyBytes md5Hex config) ++
            replied md5Hex config frames := by
  have hheard := heard.eq_def md5Hex config .connecting frame
  have hbehind : stateBehind config .connecting frame = _ := stateAfter.eq_def _ _ _ _
  rw [replied, replied, hearAll, List.flatMap_append]
  cases hmessage : parseMessage (frame.headD 0) (frame.drop 5) with
  | none =>
      rw [hmessage] at hheard hbehind
      rw [hheard, hbehind, isReadyMessage, authRequest, hmessage]
      exact .inr (.inr ⟨rfl, rfl, rfl⟩)
  | some message =>
      rw [hmessage] at hheard hbehind
      cases message with
      | readyForQuery =>
          left
          obtain ⟨hstate, hsent⟩ := hearAll_normal md5Hex config frames
          rw [hheard, hbehind, isReadyMessage, hmessage]
          exact ⟨rfl, hstate, by rw [hsent]; rfl⟩
      | authentication auth =>
          right
          have hready : isReadyMessage frame = false := by rw [isReadyMessage, hmessage]
          have hrequest : authRequest frame = some auth := by rw [authRequest, hmessage]
          rcases stateBehind_authentication hmessage with hsame | hdead
          · right
            rw [hsame, hheard, hrequest]
            exact ⟨hready, rfl, by simp [replyBytes]⟩
          · left
            rw [hdead, hheard, hearAll_dead]
            exact ⟨auth, hrequest, hready, rfl, by simp [replyBytes]⟩
      | _ =>
          rw [hheard, hbehind, isReadyMessage, authRequest, hmessage]
          exact .inr (.inr ⟨rfl, rfl, rfl⟩)

theorem authReplies_cons_ready (config : ReplayConfig) {frame : List UInt8}
    (hready : isReadyMessage frame = true) (frames : List (List UInt8)) :
    authReplies md5Hex config (frame :: frames) = [] := by
  rw [authReplies, List.takeWhile_cons_of_neg (by simp [hready])]
  rfl

theorem authReplies_cons (config : ReplayConfig) {frame : List UInt8}
    (hready : isReadyMessage frame = false) (frames : List (List UInt8)) :
    authReplies md5Hex config (frame :: frames) =
      (authRequest frame).toList.flatMap (replyBytes md5Hex config) ++
        authReplies md5Hex config frames := by
  rw [authReplies, List.takeWhile_cons_of_pos (by simp [hready]), List.filterMap_cons]
  cases authRequest frame with
  | none => rfl
  | some auth => simp [authReplies]

/-- A client answers the requests in their order, all of them unless one kills it. -/
theorem replied_isPrefix (config : ReplayConfig) (frames more : List (List UInt8)) :
    replied md5Hex config frames <+: authReplies md5Hex config (frames ++ more) := by
  induction frames with
  | nil => exact List.nil_prefix
  | cons frame frames ih =>
      rw [List.cons_append]
      rcases replied_cons md5Hex config frame frames with
        ⟨-, -, hreplied⟩ | ⟨auth, hrequest, hready, -, hreplied⟩ | ⟨hready, -, hreplied⟩
      · rw [hreplied]
        exact List.nil_prefix
      · rw [hreplied, authReplies_cons md5Hex config hready, hrequest]
        simp
      · rw [hreplied, authReplies_cons md5Hex config hready]
        exact (List.prefix_append_right_inj _).mpr ih

theorem replied_of_alive {config : ReplayConfig} {frames : List (List UInt8)}
    (halive : (hearAll md5Hex config .connecting frames).1 ≠ .dead) :
    replied md5Hex config frames = authReplies md5Hex config frames := by
  induction frames with
  | nil => rfl
  | cons frame frames ih =>
      rcases replied_cons md5Hex config frame frames with
        ⟨hready, -, hreplied⟩ | ⟨auth, -, -, hdead, -⟩ | ⟨hready, hstate, hreplied⟩
      · rw [hreplied, authReplies_cons_ready md5Hex config hready]
      · exact absurd hdead halive
      · rw [hstate] at halive
        rw [hreplied, ih halive, authReplies_cons md5Hex config hready]

theorem replied_of_normal {config : ReplayConfig} {frames : List (List UInt8)}
    (hnormal : (hearAll md5Hex config .connecting frames).1 = .normal)
    (more : List (List UInt8)) :
    replied md5Hex config frames = authReplies md5Hex config (frames ++ more) := by
  induction frames with
  | nil => cases hnormal
  | cons frame frames ih =>
      rw [List.cons_append]
      rcases replied_cons md5Hex config frame frames with
        ⟨hready, -, hreplied⟩ | ⟨auth, -, -, hdead, -⟩ | ⟨hready, hstate, hreplied⟩
      · rw [hreplied, authReplies_cons_ready md5Hex config hready]
      · cases hdead.symm.trans hnormal
      · rw [hstate] at hnormal
        rw [hreplied, ih hnormal, authReplies_cons md5Hex config hready]

/-! ## The frames of the commands -/

/-- The notes of the commands that a client is given. -/
def toldAll (sentTerminate : Bool) : List CmdKind → List Note
  | [] => []
  | kind :: rest =>
      toldNotes sentTerminate kind ++
        toldAll (sentTerminate || (toldNotes sentTerminate kind).any isTerminate) rest

theorem toldAll_append (sentTerminate : Bool) (cmds more : List CmdKind) :
    toldAll sentTerminate (cmds ++ more) = toldAll sentTerminate cmds ++
      toldAll (sentTerminate || (toldAll sentTerminate cmds).any isTerminate) more := by
  induction cmds generalizing sentTerminate with
  | nil => simp [toldAll]
  | cons kind rest ih =>
      simp only [List.cons_append, toldAll, ih, List.any_append, List.append_assoc, Bool.or_assoc]

def sendOf (frame : UInt8 × List UInt8) : CmdKind :=
  .send frame.1 frame.2

def noteOf (frame : UInt8 × List UInt8) : Note :=
  .frame frame.1 frame.2

theorem toldAll_sends (sentTerminate : Bool) (sends : List (UInt8 × List UInt8)) :
    toldAll sentTerminate (sends.map sendOf) = sends.map noteOf := by
  induction sends generalizing sentTerminate with
  | nil => rfl
  | cons frame rest ih =>
      rw [List.map_cons, toldAll, ih]
      rfl

theorem sent_noteOf (sends : List (UInt8 × List UInt8)) :
    (sends.map noteOf).flatMap Note.sent = (sends.map Prod.snd).flatten := by
  rw [List.flatMap_map, List.flatten_eq_flatMap, List.flatMap_map]
  rfl

theorem any_isTerminate_noteOf (sends : List (UInt8 × List UInt8)) :
    (sends.map noteOf).any isTerminate = sends.any fun frame => frame.1 = fTerminate := by
  rw [List.any_map]
  rfl

/-- The `Terminate` frame of the end of the replay. -/
def farewell (ended captured : Bool) : List UInt8 :=
  if ended ∧ captured = false then terminateMsg else []

/-- The frames of all commands, and that of the end if it has come. -/
theorem sent_toldAll (sends : List (UInt8 × List UInt8)) (ended : Bool) :
    (toldAll false (sends.map sendOf ++ closing ended)).flatMap Note.sent =
      (sends.map Prod.snd).flatten ++
        farewell ended (sends.any fun frame => frame.1 = fTerminate) := by
  rw [toldAll_append, toldAll_sends, Bool.false_or, any_isTerminate_noteOf, List.flatMap_append,
    sent_noteOf]
  congr 1
  cases ended with
  | false => rfl
  | true =>
      cases hcaptured : sends.any fun frame => frame.1 = fTerminate
      · rfl
      · rfl

theorem endReplay_mem_iff (sends : List (UInt8 × List UInt8)) (ended : Bool) :
    decide (.endReplay ∈ sends.map sendOf ++ closing ended) = ended := by
  have hsends : CmdKind.endReplay ∉ sends.map sendOf := by
    intro hmem
    obtain ⟨frame, -, hframe⟩ := List.mem_map.mp hmem
    cases hframe
  cases ended with
  | false =>
      rw [closing, if_neg Bool.false_ne_true, List.append_nil]
      exact decide_eq_false hsends
  | true => simp [closing]

/-- The frames of the first commands. -/
theorem sent_toldAll_isPrefix {sends : List (UInt8 × List UInt8)} {replayed : List CmdKind}
    (hreplayed : replayed <+: sends.map sendOf ++ [.endReplay]) :
    (toldAll false replayed).flatMap Note.sent <+: (sends.map Prod.snd).flatten ++
      farewell (decide (.endReplay ∈ replayed)) (sends.any fun frame => frame.1 = fTerminate) := by
  rcases List.prefix_concat_iff.mp hreplayed with hall | ⟨rest, hrest⟩
  · have hclosing : replayed = sends.map sendOf ++ closing true := hall
    rw [hclosing, endReplay_mem_iff, sent_toldAll]
  · obtain ⟨first, last, hsends, hfirst, -⟩ := List.map_eq_append_iff.mp hrest.symm
    have hopen : replayed = first.map sendOf ++ closing false := by
      rw [hfirst]
      exact (List.append_nil _).symm
    rw [hopen, sent_toldAll, endReplay_mem_iff, hsends, List.map_append, List.flatten_append,
      List.append_assoc]
    apply (List.prefix_append_right_inj _).mpr
    rw [farewell, if_neg (by simp)]
    exact List.nil_prefix

/-! ## One connection -/

/-- What a connection has said after it has read the frames, whether it still lives or
not. -/
structure Spoken (config : ReplayConfig) (id : ClientId) (frames : List (List UInt8))
    (conn : Connection) : Prop where
  sameConfig : conn.client.config = config
  isFrame : ∀ frame ∈ frames, IsFrame frame
  delivered : conn.delivered = frames.flatten ++ conn.client.parseStream.data
  said : said conn = encodeStartup (startupParams id config) ++ replied md5Hex config frames ++
    (toldAll false conn.replayed).flatMap Note.sent
  told : conn.replayed ≠ [] → (hearAll md5Hex config .connecting frames).1 = .normal
  sentTerminate : conn.client.sentTerminate = (toldAll false conn.replayed).any isTerminate

/-- A connection in a slot. -/
structure Talking (config : ReplayConfig) (id : ClientId) (awaiting : Bool) (conn : Connection) :
    Prop where
  alive : conn.client.state ≠ .dead
  rfq : conn.client.rfq = false
  connecting : conn.client.state = .connecting → awaiting = true
  settled : Settled conn.client
  unconnected : conn.connected = false → conn.client.state = .connecting
  outbox : conn.connected = true → conn.client.outbox.data = []
  spoken : ∃ frames, Spoken md5Hex config id frames conn ∧
    conn.client.state = (hearAll md5Hex config .connecting frames).1

theorem talking_openConn (id : ClientId) (config : ReplayConfig) :
    Talking md5Hex config id true (openConn id config) where
  alive hdead := by cases hdead
  rfq := rfl
  connecting _ := rfl
  settled := .inr rfl
  unconnected _ := rfl
  outbox hconnected := by cases hconnected
  spoken := by
    refine ⟨[], ⟨rfl, by simp, rfl, ?_, ?_, rfl⟩, rfl⟩
    · have hnew (threshold : ℕ) : (Utils.Stream.new threshold).data = [] := rfl
      simp [said, openConn, ReplayClient.connect, queueStartup, ReplayClient.sendFrame,
        Note.sent, replied, hearAll, toldAll, hnew]
    · intro hreplayed
      exact absurd rfl hreplayed

section Connection

variable {config : ReplayConfig} {id : ClientId} {awaiting : Bool} {conn conn' : Connection}

theorem settled_flush {client client' : ReplayClient} (hsettled : Settled client)
    (hstate : client'.state = client.state ∨ client'.state = .dead)
    (hparse : client'.parseStream = client.parseStream) : Settled client' := by
  rw [Settled, hparse]
  rcases hstate with hsame | hdead
  · rw [hsame]
    exact hsettled
  · exact .inl hdead

theorem settled_readConn {reads : List ReadAnswer} (hsettled : Settled conn.client)
    (hread : readConn md5Hex reads conn = some conn') : Settled conn'.client := by
  induction reads generalizing conn with
  | nil =>
      cases hread
      exact hsettled
  | cons answer reads ih =>
      rw [readConn.eq_def] at hread
      dsimp only at hread
      split_ifs at hread with hdead
      · cases hread
        exact hsettled
      · cases answer with
        | eof =>
            cases hread
            exact .inl rfl
        | failed =>
            cases hread
            exact .inl rfl
        | wouldBlock =>
            cases hread
            exact hsettled
        | interrupted => exact ih hsettled hread
        | data bytes =>
            obtain ⟨client, honRead, hrest⟩ := Option.bind_eq_some_iff.mp hread
            rw [onRead] at honRead
            have hclient : Settled client := settled_of_parseFrames md5Hex (le_refl _) honRead
            exact ih hclient hrest

/-- The frame of a command goes behind everything that has been said. -/
theorem Talking.given {kind : CmdKind} (htalking : Talking md5Hex config id false conn)
    (hgiven : Given kind conn conn') :
    (∃ frames, Spoken md5Hex config id frames conn') ∧
      (conn'.client.state ≠ .dead →
        Talking md5Hex config id (blocking kind) conn') := by
  have hnormal := normal_of_alive htalking.alive htalking.connecting
  obtain ⟨frames, hspoken, hstate⟩ := htalking.spoken
  obtain ⟨hstates, -, hsaid, hrfq, hterminate, -, houtbox⟩ := hgiven.advances
  have hready : (hearAll md5Hex config .connecting frames).1 = .normal := by rw [← hstate, hnormal]
  have htold : toldAll false conn'.replayed =
      toldAll false conn.replayed ++ toldNotes conn.client.sentTerminate kind := by
    rw [hgiven.replayed, toldAll_append, Bool.false_or, ← hspoken.sentTerminate]
    exact congrArg _ (List.append_nil _)
  have hspoken' : Spoken md5Hex config id frames conn' := by
    refine ⟨hgiven.config.trans hspoken.sameConfig, hspoken.isFrame, ?_, ?_, fun _ => hready, ?_⟩
    · rw [hgiven.delivered, hgiven.parseStream]
      exact hspoken.delivered
    · rw [hsaid, hspoken.said, htold, List.flatMap_append, ← List.append_assoc]
    · rw [hterminate, htold, List.any_append, ← hspoken.sentTerminate]
  refine ⟨⟨frames, hspoken'⟩, fun halive => ?_⟩
  have hstays : conn'.client.state = conn.client.state := hstates.resolve_right halive
  refine ⟨halive, ?_, ?_, ?_, ?_, houtbox, ⟨frames, hspoken', hstays.trans hstate⟩⟩
  · rw [hrfq, htalking.rfq, decide_eq_false (readyForQuery_not_mem_toldNotes _ kind)]
    rfl
  · intro hconnecting
    cases (hstays.trans hnormal).symm.trans hconnecting
  · exact settled_flush htalking.settled (.inl hstays) hgiven.parseStream
  · intro hunconnected
    rw [hgiven.connected] at hunconnected
    cases hnormal.symm.trans (htalking.unconnected hunconnected)

/-- An answer that is read behind the frames of commands is not replied to. -/
theorem Spoken.heard {frames more : List (List UInt8)}
    (hspoken : Spoken md5Hex config id frames conn)
    (hstate : conn.client.state = (hearAll md5Hex config .connecting frames).1)
    (hheard : Heard md5Hex more { conn with connected := true } conn') :
    Spoken md5Hex config id (frames ++ more) conn' := by
  obtain ⟨-, -, hsaid, -, hterminate, -, -⟩ := hheard.advances
  obtain ⟨bytes, hdelivered, hbytes⟩ := hheard.bytes
  have hreplayed : conn'.replayed = conn.replayed := hheard.replayed
  dsimp only at hsaid hterminate hdelivered hbytes
  rw [hspoken.sameConfig, hstate] at hsaid
  have hall := hearAll_append md5Hex config .connecting frames more
  have hreplied : replied md5Hex config (frames ++ more) = replied md5Hex config frames ++
      (hearAll md5Hex config (hearAll md5Hex config .connecting frames).1 more).2.flatMap
        Note.sent := by
    rw [replied, hall, List.flatMap_append]
    rfl
  refine ⟨hheard.config.trans hspoken.sameConfig, ?_, ?_, ?_, ?_, ?_⟩
  · intro frame hframe
    exact (List.mem_append.mp hframe).elim (hspoken.isFrame frame) (hheard.isFrame frame)
  · rw [hdelivered, hspoken.delivered, List.append_assoc, hbytes, List.flatten_append,
      List.append_assoc]
  · have hbefore : Conversation.said { conn with connected := true } = Conversation.said conn :=
      rfl
    rw [hsaid, hbefore, hspoken.said, hreplied, hreplayed]
    by_cases hnone : conn.replayed = []
    · rw [hnone]
      simp [toldAll]
    · rw [hspoken.told hnone, (hearAll_normal md5Hex config more).2]
      simp
  · intro htold
    rw [hreplayed] at htold
    rw [hall, hspoken.told htold]
    exact (hearAll_normal md5Hex config more).1
  · rw [hterminate, not_isTerminate_hearAll, Bool.or_false, hspoken.sentTerminate, hreplayed]

theorem Talking.served {now : ℕ} {reads : List ReadAnswer} {slot slot' : Slot}
    (htalking : Talking md5Hex config id slot.awaiting conn)
    (hserved : Served md5Hex now reads slot { conn with connected := true } conn' slot') :
    (∃ frames, Spoken md5Hex config id frames (answered conn')) ∧
      (conn'.client.state ≠ .dead →
        Talking md5Hex config id slot'.awaiting (answered conn')) := by
  obtain ⟨answers, middle, hread, hflush⟩ := hserved.read
  obtain ⟨frames, hspoken, hstate⟩ := htalking.spoken
  obtain ⟨more, hheard⟩ := heard_of_readConn md5Hex hread answers
  obtain ⟨hflushed, -⟩ := flushed_flushConn answers middle
  have hconnected : Settled ({ conn with connected := true } : Connection).client :=
    htalking.settled
  have hsettled := settled_readConn md5Hex hconnected hread
  rw [hflush] at hheard hflushed
  have hspoken' := hspoken.heard md5Hex hstate hheard
  have hlast : Spoken md5Hex config id (frames ++ more) (answered conn') :=
    ⟨hspoken'.sameConfig, hspoken'.isFrame, hspoken'.delivered, hspoken'.said, hspoken'.told,
      hspoken'.sentTerminate⟩
  obtain ⟨hstates, -, -, hrfq, -, -, houtbox⟩ := hheard.advances
  dsimp only at hstates hrfq
  rw [hspoken.sameConfig] at hstates hrfq
  rw [htalking.rfq, Bool.false_or] at hrfq
  refine ⟨⟨_, hlast⟩, fun halive => ?_⟩
  have hstays := hstates.resolve_right halive
  refine ⟨halive, rfl, ?_, ?_, ?_, houtbox, ⟨_, hlast, ?_⟩⟩
  · intro hconnecting
    obtain ⟨hfirst, hunheard⟩ := connecting_of_hearAll md5Hex (hstays.symm.trans hconnecting)
    rw [hserved.awaiting, htalking.connecting hfirst, hrfq, decide_eq_false hunheard]
    rfl
  · obtain ⟨outbox, hclient | hclient⟩ := hflushed.client
    · have hsame : Settled conn'.client := by
        rw [hclient]
        exact hsettled
      exact hsame
    · exact absurd (by rw [hclient]) halive
  · intro hunconnected
    have hup : conn'.connected = true := hheard.connected
    cases hup.symm.trans hunconnected
  · rw [hearAll_append, ← hstate]
    exact hstays

end Connection

theorem local_talking (config : ReplayConfig) :
    Local md5Hex config (fun _ _ => True)
      (fun id slot => ∀ conn, slot.conn = some conn → Talking md5Hex config id slot.awaiting conn)
      (fun id conn => ∃ frames, Spoken md5Hex config id frames conn) where
  new id conn hconn := by cases hconn
  queue id slot queue rebase hkeeps := hkeeps
  executed id cmd slot after gone hkeeps hblocked hexecuted := by
    refine executed_of_given (talking_openConn md5Hex id config) ?_ ?_ ?_ hkeeps hblocked hexecuted
    · intro awaiting conn htalking
      obtain ⟨frames, hspoken, -⟩ := htalking.spoken
      exact ⟨frames, hspoken⟩
    · exact fun _ htalking => normal_of_alive htalking.alive htalking.connecting
    · exact fun _ _ htalking hgiven => htalking.given md5Hex hgiven
  served id now reads slot conn conn' slot' hkeeps hconn _ hserved := by
    obtain ⟨hspoken, htalking⟩ := (hkeeps conn hconn).served md5Hex hserved
    refine ⟨fun halive found hfound => ?_, fun _ => hspoken⟩
    rw [hserved.conn] at hfound
    cases hfound
    exact htalking halive
  left id slot conn hkeeps hconn := by
    obtain ⟨frames, hspoken, -⟩ := (hkeeps conn hconn).spoken
    exact ⟨frames, hspoken⟩

/-! ## The events of a client -/

def commandsOf (events : List (CaptureMessage × ℕ)) : List ConnCommand :=
  events.flatMap fun event => emit event.1 event.2

def ownEvents (id : ClientId) (events : List (CaptureMessage × ℕ)) : List (CaptureMessage × ℕ) :=
  events.filter fun event => event.1.id = id

/-- The frames of the events of a client, with their tags. -/
def captured (id : ClientId) (events : List (CaptureMessage × ℕ)) : List (UInt8 × List UInt8) :=
  (ownEvents id events).flatMap fun event => eventFrames event.1 event.2

def isConnect : ClientEvent → Bool
  | .connect _ => true
  | _ => false

def isDisconnect : ClientEvent → Bool
  | .disconnect => true
  | _ => false

/-- What a client itself has done, and what is replayed. -/
def isReplayed : ClientEvent → Bool
  | .lsn _ | .txEnd .. => false
  | _ => true

/-- Every client has one `Connect` before its other events. -/
def ConnectFirst (events : List (CaptureMessage × ℕ)) : Prop :=
  ∀ id, let replayed := (ownEvents id events).filter fun event => isReplayed event.1.event
    replayed = [] ∨ ∃ first rest, replayed = first :: rest ∧ isConnect first.1.event = true ∧
      ∀ event ∈ rest, isConnect event.1.event = false

theorem own_commandsOf (id : ClientId) (events : List (CaptureMessage × ℕ)) :
    own id (commandsOf events) = commandsOf (ownEvents id events) := by
  induction events with
  | nil => rfl
  | cons event events ih =>
      rw [commandsOf, List.flatMap_cons, own, List.filter_append, ownEvents]
      change (emit event.1 event.2).filter _ ++ own id (commandsOf events) = _
      rw [ih]
      by_cases hid : event.1.id = id
      · rw [List.filter_cons_of_pos (by simpa using hid), List.filter_eq_self.mpr]
        · rfl
        · intro cmd hcmd
          simpa [id_of_mem_emit hcmd] using hid
      · rw [List.filter_cons_of_neg (by simpa using hid), List.filter_eq_nil_iff.mpr]
        · rfl
        · intro cmd hcmd
          simpa [id_of_mem_emit hcmd] using hid

theorem kinds_emit (msg : CaptureMessage) (ts : ℕ) : kinds (emit msg ts) =
    (if isConnect msg.event then [.connect] else []) ++ (eventFrames msg ts).map sendOf := by
  obtain ⟨id, stamp, event⟩ := msg
  cases event with
  | connect sessionId =>
      change _ = [CmdKind.connect] ++ _
      rw [eventFrames, emit]
      dsimp only
      split_ifs
      · rfl
      · rfl
  | _ => rfl

/-- Only a `Disconnect` is sent as a `Terminate` frame. -/
theorem any_terminate_eventFrames (msg : CaptureMessage) (ts : ℕ) :
    ((eventFrames msg ts).any fun frame => frame.1 = fTerminate) = isDisconnect msg.event := by
  obtain ⟨id, stamp, event⟩ := msg
  cases event with
  | connect sessionId =>
      rw [eventFrames, emit]
      dsimp only
      split_ifs
      · rfl
      · rfl
  | _ => rfl

theorem any_terminate_captured (id : ClientId) (events : List (CaptureMessage × ℕ)) :
    ((captured id events).any fun frame => frame.1 = fTerminate) =
      (ownEvents id events).any fun event => isDisconnect event.1.event := by
  rw [captured, List.any_flatMap]
  congr 1
  funext event
  exact any_terminate_eventFrames event.1 event.2

theorem map_snd_captured (id : ClientId) (events : List (CaptureMessage × ℕ)) :
    (captured id events).map Prod.snd = framesOf (ownEvents id events) := by
  rw [captured, List.map_flatMap]
  rfl

/-- Events that are not replayed have no commands. -/
theorem flatMap_replayed {A : Type*} {events : List (CaptureMessage × ℕ)}
    {f : CaptureMessage × ℕ → List A}
    (hsilent : ∀ event, isReplayed event.1.event = false → f event = []) :
    (events.filter fun event => isReplayed event.1.event).flatMap f = events.flatMap f := by
  induction events with
  | nil => rfl
  | cons event events ih =>
      cases hreplayed : isReplayed event.1.event with
      | true =>
          rw [List.filter_cons_of_pos (by simp [hreplayed]), List.flatMap_cons, List.flatMap_cons, ih]
      | false =>
          rw [List.filter_cons_of_neg (by simp [hreplayed]), List.flatMap_cons,
            hsilent event hreplayed, ih, List.nil_append]

theorem emit_of_not_replayed {event : CaptureMessage × ℕ}
    (hreplayed : isReplayed event.1.event = false) : emit event.1 event.2 = [] := by
  obtain ⟨⟨id, stamp, event⟩, ts⟩ := event
  cases event with
  | lsn => rfl
  | txEnd => rfl
  | _ => cases hreplayed

/-- The commands of a client: its `connect` and its frames. -/
theorem kinds_own_commandsOf {events : List (CaptureMessage × ℕ)} (hevents : ConnectFirst events)
    (id : ClientId) :
    kinds (own id (commandsOf events)) = [] ∧ captured id events = [] ∨
      kinds (own id (commandsOf events)) = .connect :: (captured id events).map sendOf := by
  have hcommands : own id (commandsOf events) = commandsOf ((ownEvents id events).filter fun event =>
      isReplayed event.1.event) := by
    rw [own_commandsOf, commandsOf, commandsOf, flatMap_replayed fun event => emit_of_not_replayed]
  have hcaptured : captured id events = ((ownEvents id events).filter fun event =>
      isReplayed event.1.event).flatMap fun event => eventFrames event.1 event.2 := by
    rw [captured, flatMap_replayed fun event hreplayed => ?_]
    rw [eventFrames, emit_of_not_replayed hreplayed]
    rfl
  have hrest : ∀ rest : List (CaptureMessage × ℕ),
      (∀ event ∈ rest, isConnect event.1.event = false) →
        kinds (commandsOf rest) =
          (rest.flatMap fun event => eventFrames event.1 event.2).map sendOf := by
    intro rest hother
    rw [kinds, commandsOf, List.map_flatMap, List.map_flatMap]
    apply List.flatMap_congr
    intro event hevent
    have hkinds := kinds_emit event.1 event.2
    rw [hother event hevent, if_neg Bool.false_ne_true, List.nil_append] at hkinds
    exact hkinds
  rw [hcommands, hcaptured]
  rcases hevents id with hnone | ⟨first, rest, hsome, hfirst, hother⟩
  · left
    rw [hnone]
    exact ⟨rfl, rfl⟩
  · right
    have hkinds := kinds_emit first.1 first.2
    rw [hfirst, if_pos rfl] at hkinds
    rw [hsome, commandsOf, List.flatMap_cons, List.flatMap_cons, List.map_append, ← hrest rest hother]
    change List.map _ _ = _
    rw [List.map_append]
    change kinds _ ++ kinds _ = _
    rw [hkinds]
    rfl

theorem connect_not_mem_sends (sends : List (UInt8 × List UInt8)) :
    CmdKind.connect ∉ sends.map sendOf := by
  intro hmem
  obtain ⟨frame, -, hframe⟩ := List.mem_map.mp hmem
  cases hframe

theorem startsOnce_commandsOf {events : List (CaptureMessage × ℕ)} (hevents : ConnectFirst events)
    (id : ClientId) : StartsOnce (kinds (own id (commandsOf events))) := by
  rcases kinds_own_commandsOf hevents id with ⟨hnone, -⟩ | hsome
  · exact .inl hnone
  · exact .inr ⟨_, hsome, connect_not_mem_sends _⟩

/-! ## Runs -/

/-- The connections of a client, in its slot or let go of. -/
def IsConnOf (id : ClientId) (loop : ReplayLoop) (conn : Connection) : Prop :=
  (∃ slot, loop.slots.lookup id = some slot ∧ slot.conn = some conn) ∨ (id, conn) ∈ loop.closed

/-- The messages that the server has sent as a whole. -/
def serverFrames (conn : Connection) : List (List UInt8) :=
  (splitFrames conn.delivered).1

/-- The end of the replay has come to the client of the connection. -/
def endRan (conn : Connection) : Bool :=
  .endReplay ∈ conn.replayed

/-- All that the socket of a client is sent: the startup packet, the answers to the
authentication requests, the captured frames, and a `Terminate` frame at the end unless
the client has been captured to disconnect. -/
def conversation (config : ReplayConfig) (id : ClientId) (events : List (CaptureMessage × ℕ))
    (conn : Connection) : List UInt8 :=
  encodeStartup (startupParams id config) ++ authReplies md5Hex config (serverFrames conn) ++
    (framesOf (ownEvents id events)).flatten ++
    farewell (endRan conn) ((ownEvents id events).any fun event => isDisconnect event.1.event)

section Runs

variable {config : ReplayConfig} {id : ClientId} {events : List (CaptureMessage × ℕ)}
  {conn : Connection}

theorem serverFrames_of_spoken {frames : List (List UInt8)}
    (hspoken : Spoken md5Hex config id frames conn) :
    serverFrames conn = frames ++ (splitFrames conn.client.parseStream.data).1 := by
  rw [serverFrames, hspoken.delivered, splitFrames_flatten hspoken.isFrame]

theorem accepted_isPrefix_said (conn : Connection) : conn.accepted <+: said conn := by
  rw [said, List.append_assoc]
  exact List.prefix_append _ _

/-- A client that has been given the first of its commands. -/
theorem accepted_isPrefix {frames : List (List UInt8)}
    (hspoken : Spoken md5Hex config id frames conn)
    (hreplayed : conn.replayed <+: (captured id events).map sendOf ++ [.endReplay]) :
    conn.accepted <+: conversation md5Hex config id events conn := by
  apply (accepted_isPrefix_said conn).trans
  rw [hspoken.said, conversation, serverFrames_of_spoken md5Hex hspoken, List.append_assoc _ _
    (farewell _ _)]
  by_cases hnone : conn.replayed = []
  · rw [hnone, toldAll, List.flatMap_nil, List.append_nil]
    apply List.IsPrefix.trans _ (List.prefix_append _ _)
    exact (List.prefix_append_right_inj _).mpr (replied_isPrefix md5Hex config _ _)
  · rw [replied_of_normal md5Hex (hspoken.told hnone)]
    apply (List.prefix_append_right_inj _).mpr
    have htold := sent_toldAll_isPrefix hreplayed
    rw [map_snd_captured, any_terminate_captured] at htold
    exact htold

/-- A connection that has been given all commands and has nothing left to write. -/
theorem accepted_eq {awaiting ended : Bool}
    (htalking : Talking md5Hex config id awaiting conn)
    (hreplayed : conn.replayed = (captured id events).map sendOf ++ closing ended)
    (hconnected : conn.connected = true) (hwritten : conn.writeStream.data = []) :
    conn.accepted = conversation md5Hex config id events conn := by
  obtain ⟨frames, hspoken, hstate⟩ := htalking.spoken
  have hsaid : said conn = conn.accepted := by
    rw [said, hwritten, htalking.outbox hconnected, List.append_nil, List.append_nil]
  have hunread : (splitFrames conn.client.parseStream.data).1 = [] := by
    rw [splitFrames_of_none (htalking.settled.resolve_left htalking.alive)]
  have halive : (hearAll md5Hex config .connecting frames).1 ≠ .dead := by
    rw [← hstate]
    exact htalking.alive
  have hended : endRan conn = ended := by
    rw [endRan, hreplayed]
    exact endReplay_mem_iff _ _
  rw [← hsaid, hspoken.said, conversation, serverFrames_of_spoken md5Hex hspoken, hunread,
    List.append_nil, replied_of_alive md5Hex halive, hended, hreplayed, sent_toldAll,
    map_snd_captured, any_terminate_captured, ← List.append_assoc]

/-- The commands behind the `connect`. -/
theorem replayed_of_total {replayed rest tail : List CmdKind}
    (hkinds : rest = [] ∧ captured id events = [] ∨
      rest = .connect :: (captured id events).map sendOf)
    (htail : .connect ∉ tail) (htotal : .connect :: replayed <+: rest ++ tail) :
    replayed <+: (captured id events).map sendOf ++ tail := by
  rcases hkinds with ⟨hnone, -⟩ | hsome
  · rw [hnone, List.nil_append] at htotal
    exact absurd (htotal.subset List.mem_cons_self) htail
  · rw [hsome, List.cons_append] at htotal
    exact (List.cons_prefix_cons.mp htotal).2

theorem mem_closed_view {loop : ReplayLoop} (hclosed : (id, conn) ∈ loop.closed) :
    conn ∈ (view id loop).closed :=
  List.mem_map.mpr ⟨(id, conn), List.mem_filter.mpr ⟨hclosed, by simp⟩, rfl⟩

theorem conn_unique {wanted : List CmdKind} {loop : ReplayLoop}
    (haccounted : Accounted wanted (view id loop)) {conn' : Connection}
    (hconn : IsConnOf id loop conn) (hconn' : IsConnOf id loop conn') : conn = conn' := by
  have hlive {slot : Slot} {found left : Connection} (hslot : loop.slots.lookup id = some slot)
      (hfound : slot.conn = some found) (hleft : (id, left) ∈ loop.closed) : False := by
    have hmem := mem_closed_view hleft
    rw [(haccounted.of_conn hslot hfound).1] at hmem
    cases hmem
  rcases hconn with ⟨slot, hslot, hsome⟩ | hclosed <;>
    rcases hconn' with ⟨slot', hslot', hsome'⟩ | hclosed'
  · cases hslot.symm.trans hslot'
    cases hsome.symm.trans hsome'
    rfl
  · exact (hlive hslot hsome hclosed').elim
  · exact (hlive hslot' hsome' hclosed).elim
  · have hmem := mem_closed_view hclosed
    have hmem' := mem_closed_view hclosed'
    have hone := haccounted.of_closed.1
    cases hall : (view id loop).closed with
    | nil =>
        rw [hall] at hmem
        cases hmem
    | cons first rest =>
        rw [hall] at hmem hmem' hone
        have hrest : rest = [] := List.eq_nil_of_length_eq_zero (by simpa using hone)
        rw [hrest] at hmem hmem'
        rw [List.mem_singleton.mp hmem, List.mem_singleton.mp hmem']

theorem replayed_isPrefix {wanted : List CmdKind} {loop : ReplayLoop}
    (haccounted : Accounted wanted (view id loop)) (hconn : IsConnOf id loop conn) :
    .connect :: conn.replayed <+: wanted ++ [.endReplay] := by
  rcases hconn with ⟨slot, hslot, hsome⟩ | hclosed
  · obtain ⟨-, htotal⟩ := haccounted.of_conn hslot hsome
    rw [List.append_assoc] at htotal
    exact isPrefix_of_total htotal
  · exact haccounted.of_closed.2 conn (mem_closed_view hclosed)

end Runs

/-- A client has one connection at most.  What its socket has taken is always a prefix of
its conversation, and all of it once its commands have come, its queue is empty and its
stream is written; a connection that is not up then has no frame to send. -/
theorem accepted_of_reachable {config : ReplayConfig} {events : List (CaptureMessage × ℕ)}
    (hevents : ConnectFirst events) {loop : ReplayLoop}
    (hreachable : Reachable (step md5Hex catchup) (ReplayLoop.new config (commandsOf events)) loop)
    (id : ClientId) :
    (∀ conn conn', IsConnOf id loop conn → IsConnOf id loop conn' → conn = conn') ∧
      (∀ conn, IsConnOf id loop conn →
        conn.accepted <+: conversation md5Hex config id events conn) ∧
      ∀ slot conn, loop.slots.lookup id = some slot → slot.conn = some conn → slot.queue = [] →
        own id (loop.lookahead.toList ++ loop.rx) = [] →
          endRan conn = loop.ended ∧
            (conn.connected = true → conn.writeStream.data = [] →
              conn.accepted = conversation md5Hex config id events conn) ∧
            (conn.connected = false → framesOf (ownEvents id events) = []) := by
  have hkinds := kinds_own_commandsOf hevents id
  have hcaptured := map_snd_captured id events
  have haccounted := accounted_of_reachable md5Hex catchup hreachable
    (startsOnce_commandsOf hevents id)
  have hanswers : Reaches (step md5Hex catchup) (Answers fun _ _ => True)
      (ReplayLoop.new config (commandsOf events)) loop := by
    apply hreachable.mono
    intro loop call _
    cases call with
    | handleEvent => exact fun _ _ _ _ _ _ => trivial
    | _ => trivial
  have hheld := held_of_reaches md5Hex catchup (local_talking md5Hex config) hanswers
  refine ⟨fun conn conn' hconn hconn' => conn_unique haccounted hconn hconn', ?_, ?_⟩
  · intro conn hconn
    obtain ⟨frames, hspoken⟩ : ∃ frames, Spoken md5Hex config id frames conn := by
      rcases hconn with ⟨slot, hslot, hconn⟩ | hclosed
      · obtain ⟨frames, hspoken, -⟩ := (hheld.slots id slot hslot conn hconn).spoken
        exact ⟨frames, hspoken⟩
      · exact hheld.closed id conn hclosed
    apply accepted_isPrefix md5Hex hspoken
    exact replayed_of_total hkinds (by simp) (replayed_isPrefix haccounted hconn)
  · intro slot conn hslot hconn hqueue hcoming
    have htalking := hheld.slots id slot hslot conn hconn
    obtain ⟨-, htotal⟩ := haccounted.of_conn hslot hconn
    have hnothing : (view id loop).coming = [] := hcoming
    rw [hqueue, hnothing] at htotal
    have hdone : CmdKind.connect :: (conn.replayed ++ [] ++ []) =
        kinds (own id (commandsOf events)) ++ closing loop.ended := htotal
    rw [List.append_nil, List.append_nil] at hdone
    have hreplayed : conn.replayed = (captured id events).map sendOf ++ closing loop.ended := by
      rcases hkinds with ⟨hnone, -⟩ | hsome
      · rw [hnone, List.nil_append] at hdone
        cases hended : loop.ended <;> rw [hended] at hdone <;> cases hdone
      · rw [hsome, List.cons_append] at hdone
        exact (List.cons.inj hdone).2
    refine ⟨?_, fun hconnected hwritten =>
      accepted_eq md5Hex htalking hreplayed hconnected hwritten, fun hunconnected => ?_⟩
    · rw [endRan, hreplayed]
      exact endReplay_mem_iff _ _
    · -- A client that is given a command has heard that the server is ready.
      by_contra hframes
      obtain ⟨frames, hspoken, hstate⟩ := htalking.spoken
      have hsome : conn.replayed ≠ [] := by
        intro hnone
        rw [hnone] at hreplayed
        have hempty := (List.append_eq_nil_iff.mp hreplayed.symm).1
        rw [List.map_eq_nil_iff.mp hempty] at hcaptured
        exact hframes hcaptured.symm
      have hnormal := hstate.trans (hspoken.told hsome)
      cases hnormal.symm.trans (htalking.unconnected hunconnected)

/-! ## An example -/

/-- A client that sends one query and is not captured to disconnect. -/
def oneQuery : List (CaptureMessage × ℕ) :=
  [(⟨7, 0, .connect ""⟩, 0), (⟨7, 0, .simpleQuery ""⟩, 0)]

theorem connectFirst_oneQuery : ConnectFirst oneQuery := by
  intro id
  by_cases hid : 7 = id
  · right
    rw [← hid]
    exact ⟨_, [(⟨7, 0, .simpleQuery ""⟩, 0)], rfl, rfl, by simp [isConnect]⟩
  · left
    simp [oneQuery, ownEvents, hid]

/-- The server is ready twice, and takes the startup packet and the query in pieces. -/
def oneQueryRun : List Call :=
  [.pull true 0 [0, 0, 0], .dispatchReady 0 ⟨[], []⟩, .finishClients,
    .handleEvent 0 ⟨some 7, true, false, .connected, [.data [bReadyForQuery, 0, 0, 0, 5, 0x49]]⟩
      ⟨[.wrote 60, .wrote 4, .wrote 2, .wrote 4], []⟩,
    .handleEvent 0 ⟨some 7, true, false, .connected, [.data [bReadyForQuery, 0, 0, 0, 5, 0x49]]⟩
      ⟨[.wrote 5], []⟩]

/-- The socket has taken the startup packet, the query and a `Terminate` frame. -/
theorem accepted_of_reachable_oneQuery : ∃ loop,
    Reachable (step (fun _ => "") fun ticks => ticks)
      (ReplayLoop.new ⟨"u", none, "d", "pgr"⟩ (commandsOf oneQuery)) loop ∧
    ∃ conn, IsConnOf 7 loop conn ∧ conn.accepted.length = 75 ∧
      conn.accepted =
        conversation (fun _ => "") ⟨"u", none, "d", "pgr"⟩ 7 oneQuery conn := by
  have hrun : ((run (step (fun _ => "") fun ticks => ticks)
      (ReplayLoop.new ⟨"u", none, "d", "pgr"⟩ (commandsOf oneQuery)) oneQueryRun).bind fun loop =>
        (loop.slots.lookup 7).bind fun slot => slot.conn.map fun conn =>
          (slot.queue, own 7 (loop.lookahead.toList ++ loop.rx), conn.connected,
            conn.writeStream.data, conn.accepted.length)) = some ([], [], true, [], 75) := by
    decide +kernel
  obtain ⟨loop, hloop, hrun⟩ := Option.bind_eq_some_iff.mp hrun
  obtain ⟨slot, hslot, hrun⟩ := Option.bind_eq_some_iff.mp hrun
  obtain ⟨conn, hconn, hvalues⟩ := Option.map_eq_some_iff.mp hrun
  simp only [Prod.mk.injEq] at hvalues
  obtain ⟨hqueue, hcoming, hconnected, hwritten, hlength⟩ := hvalues
  have hreachable := reachable_of_run hloop
  obtain ⟨-, -, hall⟩ := accepted_of_reachable _ _ connectFirst_oneQuery hreachable 7
  obtain ⟨-, haccepted, -⟩ := hall slot conn hslot hconn hqueue hcoming
  exact ⟨loop, hreachable, conn, .inl ⟨slot, hslot, hconn⟩, hlength, haccepted hconnected hwritten⟩

end Pgr.Fidelity
