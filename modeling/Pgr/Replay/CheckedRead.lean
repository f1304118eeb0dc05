import Pgr.Replay.Chunking

/-!
# Slices of the server's bytes

The functions behind `on_read` once more, with every index and every slice of the
source checked, and the loops with a bound on their rounds.  All of them stay in
range but one: `handle_frame` cuts the header off a frame that may be shorter than
a header.
-/

namespace Pgr.CheckedRead

open Pgr.FixedWidth Pgr.Utf8Lossy Pgr.Proto Pgr.Utils Pgr.Client Pgr.Client.ReplayClient
open Pgr.Framing Pgr.Chunking

inductive Crash where
  | outOfRange
  | outOfFuel
  deriving DecidableEq

abbrev Checked := Except Crash

/-- `data[i]`. -/
def index (i : ℕ) (data : List UInt8) : Checked UInt8 :=
  match data[i]? with
  | some byte => .ok byte
  | none => .error .outOfRange

/-- `&data[start..stop]`. -/
def slice (start stop : ℕ) (data : List UInt8) : Checked (List UInt8) :=
  if start ≤ stop ∧ stop ≤ data.length then .ok ((data.take stop).drop start)
  else .error .outOfRange

/-- `&data[start..]`. -/
def sliceFrom (start : ℕ) (data : List UInt8) : Checked (List UInt8) :=
  slice start data.length data

/-! ## The checked functions -/

def tryReadFrameChecked (buf : List UInt8) : Checked (Option (UInt8 × ℕ)) :=
  if buf.length < 5 then pure none
  else do
    let b1 ← index 1 buf
    let b2 ← index 2 buf
    let b3 ← index 3 buf
    let b4 ← index 4 buf
    let frameLen := 1 + ofBeBytes [b1, b2, b3, b4]
    if buf.length < frameLen then pure none
    else do
      let tag ← index 0 buf
      pure (some (tag, frameLen))

def readCstrChecked (buf : List UInt8) : Checked (String × List UInt8) := do
  let pos := (buf.takeWhile (· != 0)).length
  let text ← slice 0 pos buf
  let rest ← if pos < buf.length then sliceFrom (pos + 1) buf else sliceFrom pos buf
  pure (fromUtf8Lossy text, rest)

def parseErrorFieldsChecked : (fuel : ℕ) → ErrorFields → List UInt8 → Checked ErrorFields
  | 0, _, _ => .error .outOfFuel
  | fuel + 1, fields, data =>
      if data = [] then pure fields
      else do
        let first ← index 0 data
        if first = 0 then pure fields
        else do
          let fieldType ← index 0 data
          let tail ← sliceFrom 1 data
          let (val, rest) ← readCstrChecked tail
          parseErrorFieldsChecked fuel (fields.set fieldType val) rest

/-- `i32::from_be_bytes` of the four bytes from `i` on. -/
def readI32Checked (i : ℕ) (data : List UInt8) : Checked Int32 := do
  let b0 ← index i data
  let b1 ← index (i + 1) data
  let b2 ← index (i + 2) data
  let b3 ← index (i + 3) data
  pure (UInt32.ofNat (ofBeBytes [b0, b1, b2, b3])).toInt32

def parseMessageChecked (tag : UInt8) (data : List UInt8) : Checked (Option BackendMessage) :=
  if tag = bAuthRequest then
    if data.length < 4 then pure none
    else do
      let code ← readI32Checked 0 data
      let data ← sliceFrom 4 data
      if code = 0 then pure (some (.authentication .ok))
      else if code = 3 then pure (some (.authentication .cleartext))
      else if code = 5 then
        if data.length < 4 then pure none
        else do
          let salt ← slice 0 4 data
          pure (some (.authentication (.md5 salt)))
      else pure (some (.authentication (.unsupported code)))
  else if tag = bParameterStatus then do
    let (name, rest) ← readCstrChecked data
    let (value, _) ← readCstrChecked rest
    pure (some (.parameterStatus name value))
  else if tag = bBackendKeyData then
    if data.length < 8 then pure none
    else do
      let pid ← readI32Checked 0 data
      let secret ← readI32Checked 4 data
      pure (some (.backendKeyData pid secret))
  else if tag = bReadyForQuery then pure (some .readyForQuery)
  else if tag = bError then do
    let fields ← parseErrorFieldsChecked (data.length + 1) {} data
    pure (some (.errorResponse fields))
  else if tag = bNotice then pure (some .noticeResponse)
  else pure (some (.other tag data))

variable (md5Hex : List UInt8 → String)

/-- `handle_frame`, which takes its slice before it looks at the state. -/
def handleFrameChecked (tag : UInt8) (offset len : ℕ) (client : ReplayClient) :
    Checked ReplayClient := do
  let data ← slice offset len client.parseStream.data
  if client.state = .dead then pure client
  else do
    let _ ← parseMessageChecked tag data
    pure (handleFrame md5Hex tag data client)

def parseFramesChecked : (fuel : ℕ) → ReplayClient → Checked ReplayClient
  | 0, _ => .error .outOfFuel
  | fuel + 1, client => do
      match ← tryReadFrameChecked client.parseStream.data with
      | none => pure client
      | some (tag, frameLen) => do
          let client ← handleFrameChecked md5Hex tag 5 frameLen client
          let client := { client with parseStream := client.parseStream.markRead frameLen }
          if client.state = .dead then pure client else parseFramesChecked fuel client

def onReadChecked (data : List UInt8) (client : ReplayClient) : Checked ReplayClient :=
  let client := { client with parseStream := client.parseStream.write data }
  parseFramesChecked md5Hex (client.parseStream.data.length + 1) client

def feedChecked (chunks : List (List UInt8)) (client : ReplayClient) : Checked ReplayClient :=
  chunks.foldlM (fun client chunk => onReadChecked md5Hex chunk client) client

/-! ## The slices that stay in range -/

theorem index_eq_ok {i : ℕ} {data : List UInt8} {byte : UInt8} (hbyte : data[i]? = some byte) :
    index i data = .ok byte := by
  rw [index, hbyte]

theorem slice_eq_ok {start stop : ℕ} {data : List UInt8} (hstart : start ≤ stop)
    (hstop : stop ≤ data.length) : slice start stop data = .ok ((data.take stop).drop start) :=
  if_pos ⟨hstart, hstop⟩

theorem sliceFrom_eq_ok {start : ℕ} {data : List UInt8} (hstart : start ≤ data.length) :
    sliceFrom start data = .ok (data.drop start) := by
  rw [sliceFrom, slice_eq_ok hstart le_rfl, List.take_length]

theorem tryReadFrameChecked_eq (buf : List UInt8) :
    tryReadFrameChecked buf = .ok (tryReadFrame buf) := by
  match buf with
  | [] | [_] | [_, _] | [_, _, _] | [_, _, _, _] => rfl
  | tag :: b1 :: b2 :: b3 :: b4 :: rest =>
      have hlong : ¬(tag :: b1 :: b2 :: b3 :: b4 :: rest).length < 5 := by
        simp only [List.length_cons]
        omega
      rw [tryReadFrameChecked, if_neg hlong, tryReadFrame]
      by_cases hshort : (tag :: b1 :: b2 :: b3 :: b4 :: rest).length <
          1 + ofBeBytes [b1, b2, b3, b4]
      · rw [if_pos hshort]
        exact if_pos hshort
      · rw [if_neg hshort]
        exact if_neg hshort

theorem readCstrChecked_eq (buf : List UInt8) : readCstrChecked buf = .ok (readCstr buf) := by
  have hpos : (buf.takeWhile (· != 0)).length ≤ buf.length := (List.takeWhile_prefix _).length_le
  have htext : buf.take (buf.takeWhile (· != 0)).length = buf.takeWhile (· != 0) :=
    (List.prefix_iff_eq_take.mp (List.takeWhile_prefix _)).symm
  rw [readCstrChecked, slice_eq_ok (Nat.zero_le _) hpos, List.drop_zero, htext, readCstr]
  by_cases hnul : (buf.takeWhile (· != 0)).length < buf.length
  · simp only [hnul, if_true, sliceFrom_eq_ok (Nat.succ_le_of_lt hnul)]
    rfl
  · have hend : (buf.takeWhile (· != 0)).length = buf.length := le_antisymm hpos (not_lt.mp hnul)
    simp only [hnul, if_false, sliceFrom_eq_ok hpos]
    rw [hend, List.drop_length, List.drop_of_length_le (Nat.le_succ _)]
    rfl

theorem parseErrorFieldsChecked_eq {fuel : ℕ} {data : List UInt8} (hfuel : data.length < fuel)
    (fields : ErrorFields) :
    parseErrorFieldsChecked fuel fields data = .ok (parseErrorFieldsFrom fields data) := by
  induction fuel generalizing fields data with
  | zero => exact absurd hfuel (Nat.not_lt_zero _)
  | succ fuel ih =>
      cases data with
      | nil => rw [parseErrorFieldsChecked, if_pos rfl, parseErrorFieldsFrom]; rfl
      | cons fieldType rest =>
          have hindex : index 0 (fieldType :: rest) = .ok fieldType := rfl
          have htail : sliceFrom 1 (fieldType :: rest) = .ok rest :=
            sliceFrom_eq_ok (by simp only [List.length_cons]; omega)
          have hshorter : (readCstr rest).2.length < fuel := by
            simp only [readCstr, List.length_drop, List.length_cons] at hfuel ⊢
            omega
          rw [parseErrorFieldsChecked, if_neg (List.cons_ne_nil _ _), parseErrorFieldsFrom]
          simp only [hindex, htail, bind, Except.bind, readCstrChecked_eq]
          split_ifs with hzero
          · rfl
          · exact ih hshorter _

theorem readI32Checked_eq {i : ℕ} {data : List UInt8} (hlength : i + 4 ≤ data.length) :
    readI32Checked i data = .ok (readI32 (data.drop i)) := by
  have hdrop : data.drop i = data[i] :: data[i + 1] :: data[i + 2] :: data[i + 3] ::
      data.drop (i + 4) := by
    rw [List.drop_eq_getElem_cons, List.drop_eq_getElem_cons, List.drop_eq_getElem_cons,
      List.drop_eq_getElem_cons]
  have hindex : ∀ k, (hk : k < data.length) → index k data = .ok data[k] :=
    fun k hk => index_eq_ok (List.getElem?_eq_getElem hk)
  rw [readI32, hdrop, readI32Checked, hindex i (by omega), hindex (i + 1) (by omega),
    hindex (i + 2) (by omega), hindex (i + 3) (by omega)]
  rfl

/-- The body of an authentication request. -/
theorem parseMessageChecked_auth (data : List UInt8) :
    parseMessageChecked bAuthRequest data = .ok (parseMessage bAuthRequest data) := by
  rw [parseMessageChecked, parseMessage, if_pos rfl, if_pos rfl]
  by_cases hshort : data.length < 4
  · rw [if_pos hshort, if_pos hshort]
    rfl
  · have hcode : readI32Checked 0 data = .ok (readI32 data) :=
      readI32Checked_eq (by omega)
    have hrest : sliceFrom 4 data = .ok (data.drop 4) := sliceFrom_eq_ok (by omega)
    rw [if_neg hshort, if_neg hshort]
    simp only [hcode, hrest, bind, Except.bind]
    split_ifs with hok hcleartext hmd5 hsalt
    · rfl
    · rfl
    · rfl
    · have hslice : slice 0 4 (data.drop 4) = .ok ((data.drop 4).take 4) :=
        slice_eq_ok (Nat.zero_le _) (not_lt.mp hsalt)
      rw [hslice]
      rfl
    · rfl

theorem parseMessageChecked_eq (tag : UInt8) (data : List UInt8) :
    parseMessageChecked tag data = .ok (parseMessage tag data) := by
  by_cases hauth : tag = bAuthRequest
  · rw [hauth]
    exact parseMessageChecked_auth data
  rw [parseMessageChecked, parseMessage, if_neg hauth, if_neg hauth]
  by_cases hstatus : tag = bParameterStatus
  · rw [if_pos hstatus, if_pos hstatus]
    simp only [readCstrChecked_eq, bind, Except.bind]
    rfl
  rw [if_neg hstatus, if_neg hstatus]
  by_cases hkey : tag = bBackendKeyData
  · rw [if_pos hkey, if_pos hkey]
    by_cases hshort : data.length < 8
    · rw [if_pos hshort, if_pos hshort]
      rfl
    · have hpid : readI32Checked 0 data = .ok (readI32 data) := readI32Checked_eq (by omega)
      have hsecret : readI32Checked 4 data = .ok (readI32 (data.drop 4)) :=
        readI32Checked_eq (by omega)
      rw [if_neg hshort, if_neg hshort, hpid, hsecret]
      rfl
  rw [if_neg hkey, if_neg hkey]
  by_cases hready : tag = bReadyForQuery
  · rw [if_pos hready, if_pos hready]
    rfl
  rw [if_neg hready, if_neg hready]
  by_cases herror : tag = bError
  · rw [if_pos herror, if_pos herror, parseErrorFieldsChecked_eq (Nat.lt_succ_self _)]
    rfl
  rw [if_neg herror, if_neg herror]
  split_ifs with hnotice
  · rfl
  · rfl

/-! ## The slice that does not -/

/-- Whether the client is alive after a frame: it dies of an authentication request
that it cannot answer. -/
def stateAfter (config : ReplayConfig) (state : ClientState) (tag : UInt8) (data : List UInt8) :
    ClientState :=
  match state with
  | .dead => .dead
  | .normal => .normal
  | .connecting =>
      match parseMessage tag data with
      | some (.authentication auth) =>
          match auth with
          | .ok => .connecting
          | .cleartext | .md5 _ => if config.password.isSome then .connecting else .dead
          | .unsupported _ => .dead
      | some .readyForQuery => .normal
      | _ => .connecting

/-- The frames in front of `buf` have room for their headers, up to the first that
leaves the client dead. -/
def ReadsSafely (config : ReplayConfig) (state : ClientState) (buf : List UInt8) : Prop :=
  match _hframe : tryReadFrame buf with
  | none => True
  | some (tag, frameLen) =>
      5 ≤ frameLen ∧
        let state := stateAfter config state tag ((buf.take frameLen).drop 5)
        (state = .dead ∨ ReadsSafely config state (buf.drop frameLen))
  termination_by buf.length
  decreasing_by
    have hbounds := tryReadFrame_bounds _hframe
    rw [List.length_drop]
    omega

/-- The state and the unread bytes after a call of `on_read`. -/
def afterRead (config : ReplayConfig) (state : ClientState) (buf : List UInt8) :
    ClientState × List UInt8 :=
  match _hframe : tryReadFrame buf with
  | none => (state, buf)
  | some (tag, frameLen) =>
      let state := stateAfter config state tag ((buf.take frameLen).drop 5)
      if state = .dead then (.dead, buf.drop frameLen)
      else afterRead config state (buf.drop frameLen)
  termination_by buf.length
  decreasing_by
    have hbounds := tryReadFrame_bounds _hframe
    rw [List.length_drop]
    omega

/-- Every call of `on_read` comes to frames with room for their headers only. -/
def FeedsSafely (config : ReplayConfig) : ClientState → List UInt8 → List (List UInt8) → Prop
  | _, _, [] => True
  | state, buf, chunk :: chunks =>
      ReadsSafely config state (buf ++ chunk) ∧
        FeedsSafely config (afterRead config state (buf ++ chunk)).1
          (afterRead config state (buf ++ chunk)).2 chunks

section OneFrame

variable {config : ReplayConfig} {state : ClientState} {buf : List UInt8}

theorem readsSafely_of_none (hframe : tryReadFrame buf = none) :
    ReadsSafely config state buf := by
  rw [ReadsSafely]
  split
  · trivial
  · simp_all

theorem readsSafely_iff_of_some {tag : UInt8} {frameLen : ℕ}
    (hframe : tryReadFrame buf = some (tag, frameLen)) :
    ReadsSafely config state buf ↔ 5 ≤ frameLen ∧
      (stateAfter config state tag ((buf.take frameLen).drop 5) = .dead ∨
        ReadsSafely config (stateAfter config state tag ((buf.take frameLen).drop 5))
          (buf.drop frameLen)) := by
  rw [ReadsSafely]
  split
  · simp_all
  · simp_all

theorem afterRead_of_none (hframe : tryReadFrame buf = none) :
    afterRead config state buf = (state, buf) := by
  rw [afterRead]
  split
  · rfl
  · simp_all

theorem afterRead_of_some {tag : UInt8} {frameLen : ℕ}
    (hframe : tryReadFrame buf = some (tag, frameLen)) :
    afterRead config state buf =
      if stateAfter config state tag ((buf.take frameLen).drop 5) = .dead then
        (.dead, buf.drop frameLen)
      else afterRead config (stateAfter config state tag ((buf.take frameLen).drop 5))
        (buf.drop frameLen) := by
  conv_lhs => rw [afterRead]
  split
  · simp_all
  · simp_all

end OneFrame

theorem handleAuth_spec (auth : Authentication) {client : ReplayClient}
    (hstate : client.state = .connecting) :
    (handleAuth md5Hex auth client).config = client.config ∧
      (handleAuth md5Hex auth client).state =
        match auth with
        | .ok => .connecting
        | .cleartext | .md5 _ => if client.config.password.isSome then .connecting else .dead
        | .unsupported _ => .dead := by
  cases auth with
  | ok => exact ⟨rfl, hstate⟩
  | cleartext | md5 salt =>
      rw [handleAuth]
      cases hpassword : client.config.password with
      | none => exact ⟨rfl, rfl⟩
      | some pass => exact ⟨rfl, hstate⟩
  | unsupported code => exact ⟨rfl, rfl⟩

theorem handleFrame_spec (tag : UInt8) (data : List UInt8) (client : ReplayClient) :
    (handleFrame md5Hex tag data client).config = client.config ∧
      (handleFrame md5Hex tag data client).state =
        stateAfter client.config client.state tag data := by
  rw [handleFrame]
  cases hstate : client.state with
  | dead => exact ⟨rfl, hstate⟩
  | normal =>
      rw [if_neg (by decide), handleMessage, hstate]
      cases hmessage : parseMessage tag data with
      | none => exact ⟨rfl, hstate⟩
      | some message =>
          cases message with
          | readyForQuery => exact ⟨rfl, rfl⟩
          | _ => exact ⟨rfl, hstate⟩
  | connecting =>
      rw [if_neg (by decide), handleMessage, hstate, stateAfter]
      cases hmessage : parseMessage tag data with
      | none => exact ⟨rfl, hstate⟩
      | some message =>
          cases message with
          | authentication auth => exact handleAuth_spec md5Hex auth hstate
          | readyForQuery => exact ⟨rfl, rfl⟩
          | _ => exact ⟨rfl, hstate⟩

theorem handleFrameChecked_eq {tag : UInt8} {frameLen : ℕ} {client : ReplayClient}
    (hframe : tryReadFrame client.parseStream.data = some (tag, frameLen)) :
    handleFrameChecked md5Hex tag 5 frameLen client =
      if 5 ≤ frameLen then
        .ok (handleFrame md5Hex tag ((client.parseStream.data.take frameLen).drop 5) client)
      else .error .outOfRange := by
  have hbounds := tryReadFrame_bounds hframe
  by_cases hheader : 5 ≤ frameLen
  · rw [handleFrameChecked, slice_eq_ok hheader hbounds.2.1, if_pos hheader]
    simp only [bind, Except.bind, parseMessageChecked_eq]
    split_ifs with hdead
    · rw [handleFrame, if_pos hdead]
      rfl
    · rfl
  · rw [handleFrameChecked, slice, if_neg (fun hrange => hheader hrange.1), if_neg hheader]
    rfl

/-- The loop of `on_read` either comes to its end or crashes at a short frame. -/
theorem parseFramesChecked_spec {fuel : ℕ} {client : ReplayClient}
    (hfuel : client.parseStream.data.length < fuel) :
    (ReadsSafely client.config client.state client.parseStream.data →
      ∃ client', parseFramesChecked md5Hex fuel client = .ok client' ∧
        client'.config = client.config ∧
        (client'.state, client'.parseStream.data) =
          afterRead client.config client.state client.parseStream.data) ∧
      (¬ReadsSafely client.config client.state client.parseStream.data →
        parseFramesChecked md5Hex fuel client = .error .outOfRange) := by
  induction fuel generalizing client with
  | zero => exact absurd hfuel (Nat.not_lt_zero _)
  | succ fuel ih =>
      rw [parseFramesChecked, tryReadFrameChecked_eq]
      cases hframe : tryReadFrame client.parseStream.data with
      | none =>
          refine ⟨fun _ => ⟨client, rfl, rfl, ?_⟩, fun hdangerous => ?_⟩
          · rw [afterRead_of_none hframe]
          · exact absurd (readsSafely_of_none hframe) hdangerous
      | some found =>
          obtain ⟨tag, frameLen⟩ := found
          have hbounds := tryReadFrame_bounds hframe
          obtain ⟨body, hbody⟩ : ∃ body, (client.parseStream.data.take frameLen).drop 5 = body :=
            ⟨_, rfl⟩
          obtain ⟨hconfig, hstate⟩ := handleFrame_spec md5Hex tag body client
          have hstream := parseStream_handleFrame md5Hex tag body client
          obtain ⟨handled, hhandled⟩ : ∃ handled, handleFrame md5Hex tag body client = handled :=
            ⟨_, rfl⟩
          rw [hhandled] at hconfig hstate hstream
          rw [readsSafely_iff_of_some hframe, afterRead_of_some hframe, hbody, ← hstate, ← hconfig]
          simp only [bind, Except.bind, handleFrameChecked_eq md5Hex hframe, hbody, hhandled]
          by_cases hheader : 5 ≤ frameLen
          · have hunread : (handled.parseStream.markRead frameLen).data =
                client.parseStream.data.drop frameLen := by
              rw [hstream, Stream.data_markRead]
            obtain ⟨next, hnext⟩ : ∃ next,
                withUnread (handled.parseStream.markRead frameLen) handled = next := ⟨_, rfl⟩
            have hdata : next.parseStream.data = client.parseStream.data.drop frameLen := by
              rw [← hnext]
              exact hunread
            have hnextState : next.state = handled.state := by
              rw [← hnext]
              rfl
            have hnextConfig : next.config = handled.config := by
              rw [← hnext]
              rfl
            have hshorter : next.parseStream.data.length < fuel := by
              rw [hdata, List.length_drop]
              omega
            have hrest := ih hshorter
            rw [hnextConfig, hnextState, hdata] at hrest
            rw [if_pos hheader]
            subst hnext
            by_cases hdead : handled.state = .dead
            · rw [if_pos hdead]
              constructor
              · intro _
                exact ⟨_, if_pos hdead, hnextConfig, Prod.ext hdead hdata⟩
              · intro hdangerous
                exact absurd ⟨hheader, .inl hdead⟩ hdangerous
            · rw [if_neg hdead]
              constructor
              · intro hsafe
                obtain ⟨client', hparse, hlast⟩ := hrest.1 (hsafe.2.resolve_left hdead)
                exact ⟨client', (if_neg hdead).trans hparse, hlast⟩
              · intro hdangerous
                have hlater := hrest.2 fun hsafe => hdangerous ⟨hheader, .inr hsafe⟩
                exact (if_neg hdead).trans hlater
          · rw [if_neg hheader]
            exact ⟨fun hsafe => absurd hsafe.1 hheader, fun _ => rfl⟩

theorem onReadChecked_spec (chunk : List UInt8) (client : ReplayClient) :
    (ReadsSafely client.config client.state (client.parseStream.data ++ chunk) →
      ∃ client', onReadChecked md5Hex chunk client = .ok client' ∧
        client'.config = client.config ∧
        (client'.state, client'.parseStream.data) =
          afterRead client.config client.state (client.parseStream.data ++ chunk)) ∧
      (¬ReadsSafely client.config client.state (client.parseStream.data ++ chunk) →
        onReadChecked md5Hex chunk client = .error .outOfRange) := by
  have hdata : (withUnread (client.parseStream.write chunk) client).parseStream.data =
      client.parseStream.data ++ chunk := Stream.data_write _ _
  have hspec := parseFramesChecked_spec md5Hex
    (Nat.lt_succ_self (withUnread (client.parseStream.write chunk) client).parseStream.data.length)
  rw [hdata] at hspec
  rw [onReadChecked]
  change (_ → ∃ client', parseFramesChecked md5Hex
    ((withUnread (client.parseStream.write chunk) client).parseStream.data.length + 1) _ = _ ∧ _) ∧
      (_ → parseFramesChecked md5Hex
        ((withUnread (client.parseStream.write chunk) client).parseStream.data.length + 1) _ = _)
  rw [hdata]
  exact hspec

/-- Chunk by chunk, every slice stays in range and every loop ends exactly when each
call of `on_read` comes to frames with a length field of at least four only. -/
theorem feedChecked_ok_iff (chunks : List (List UInt8)) (client : ReplayClient) :
    (∃ client', feedChecked md5Hex chunks client = .ok client') ↔
      FeedsSafely client.config client.state client.parseStream.data chunks := by
  induction chunks generalizing client with
  | nil => exact ⟨fun _ => trivial, fun _ => ⟨client, rfl⟩⟩
  | cons chunk chunks ih =>
      obtain ⟨hsafe, hdangerous⟩ := onReadChecked_spec md5Hex chunk client
      rw [feedChecked, List.foldlM_cons, FeedsSafely]
      by_cases hreads : ReadsSafely client.config client.state (client.parseStream.data ++ chunk)
      · obtain ⟨next, hread, hconfig, hafter⟩ := hsafe hreads
        have hrest := ih next
        rw [hconfig] at hrest
        rw [hread, ← hafter, ← hrest]
        exact ⟨fun hfeed => ⟨hreads, hfeed⟩, fun hfeed => hfeed.2⟩
      · rw [hdangerous hreads]
        constructor
        · intro hfeed
          obtain ⟨client', hclient'⟩ := hfeed
          cases hclient'
        · intro hfeeds
          exact absurd hfeeds.1 hreads

/-- A frame of the length 3 crashes a client that waits for its first message. -/
theorem feedChecked_shortFrame :
    feedChecked (fun _ => "") [[0x5A, 0, 0, 0, 3]] (connect 7 ⟨"u", none, "d", "pgr"⟩) =
      .error .outOfRange := by
  rfl

end Pgr.CheckedRead
