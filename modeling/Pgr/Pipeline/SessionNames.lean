import Pgr.Extension.SessionName
import Pgr.Extension.System
import Pgr.Pipeline.CaptureFormat
import Pgr.Replay.Manager

/-!
# The session names of a capture

Every session id that a `Connect` message carries was printed by `capture_gate`, or is
empty.  The replay sends it back between the quotes of `pgr.srestore('…')` as it is,
and `session_path` accepts it.
-/

namespace Pgr.SessionNames

open Pgr.Decimal Pgr.Utf8Lossy Pgr.Transition Pgr.Shmem Pgr.Hooks Pgr.System Pgr.CaptureEncoder
open Pgr.Capture Pgr.Proto Pgr.Manager Pgr.CaptureFormat Pgr.SessionName

/-! ## Printed numbers -/

theorem utf8EncodeChar_digitChar {digit : ℕ} (hdigit : digit < 10) :
    String.utf8EncodeChar (Nat.digitChar digit) = [digitByte digit] := by
  interval_cases digit <;> decide

theorem decimal_eq_if (value : ℕ) : decimal value =
    if value < 10 then [digitByte value] else decimal (value / 10) ++ [digitByte (value % 10)] := by
  by_cases hzero : value = 0
  · rw [hzero]
    rfl
  · have hdigits := Nat.digits_def' (by decide : 1 < 10) (Nat.pos_of_ne_zero hzero)
    rw [decimal, if_neg hzero, hdigits, List.map_cons, List.reverse_cons]
    split_ifs with hsmall
    · rw [Nat.div_eq_of_lt hsmall, Nat.mod_eq_of_lt hsmall]
      rfl
    · have hmore : value / 10 ≠ 0 := by omega
      rw [decimal, if_neg hmore]

/-- Lean prints a number as C does. -/
theorem asBytes_repr (value : ℕ) : asBytes value.repr = decimal value := by
  rw [asBytes, Nat.toList_repr]
  induction value using Nat.strong_induction_on with
  | _ value ih =>
      rw [Nat.toDigits_eq_if (by decide), decimal_eq_if]
      split_ifs with hsmall
      · rw [List.flatMap_singleton]
        exact utf8EncodeChar_digitChar hsmall
      · rw [List.flatMap_append, ih (value / 10) (by omega), List.flatMap_singleton,
          utf8EncodeChar_digitChar (Nat.mod_lt _ (by decide))]

theorem asBytes_captureName (captureId clientId : UInt32) :
    asBytes (toString captureId ++ "/" ++ toString clientId) = captureName captureId clientId := by
  have hslash : asBytes "/" = [slashByte] := by decide +kernel
  have hprint (value : UInt32) : asBytes (toString value) = formatU32 value :=
    asBytes_repr value.toNat
  obtain ⟨-, hshort⟩ := isSegment_formatU32 captureId
  obtain ⟨-, hshort'⟩ := isSegment_formatU32 clientId
  rw [asBytes_append, asBytes_append, hprint, hprint, hslash, captureName, snprintf,
    List.take_of_length_le]
  · simp
  · simp only [List.length_append, List.length_cons]
    omega

/-! ## The names of the backends -/

/-- A name that has not been printed yet, or one that `capture_gate` has printed. -/
def IsPrinted (session : String) : Prop :=
  session = "" ∨ ∃ captureId clientId, asBytes session = captureName captureId clientId

def CarriesPrinted (entry : Entry) : Prop :=
  ∀ session, entry.msg = .connect session → IsPrinted session

structure Named (b : Backend) : Prop where
  sessionName : IsPrinted b.sessionName
  txBuf : ∀ entry ∈ b.txBuf, CarriesPrinted entry
  out : ∀ entry ∈ b.out, CarriesPrinted entry

variable {b : Backend} {c : SharedMemory}

theorem named_init (isPsql : Bool) : Named (Backend.init isPsql) :=
  ⟨.inl rfl, by simp [Backend.init], by simp [Backend.init]⟩

theorem Named.congr {b' : Backend} (hnamed : Named b) (hname : b'.sessionName = b.sessionName)
    (htxBuf : b'.txBuf = b.txBuf) (hout : b'.out = b.out) : Named b' :=
  ⟨hname ▸ hnamed.sessionName, htxBuf ▸ hnamed.txBuf, hout ▸ hnamed.out⟩

theorem Named.append (hnamed : Named b) {more : List Entry}
    (hmore : ∀ entry ∈ more, CarriesPrinted entry) : Named { b with out := b.out ++ more } where
  sessionName := hnamed.sessionName
  txBuf := hnamed.txBuf
  out entry hentry := (List.mem_append.mp hentry).elim (hnamed.out entry) (hmore entry)

theorem Named.resetTxBuf (hnamed : Named b) : Named b.resetTxBuf :=
  ⟨hnamed.sessionName, by simp [Backend.resetTxBuf], hnamed.out⟩

theorem Named.decideSync (hnamed : Named b) (decision : Bool × SharedMemory) :
    Named (b.decideSync decision) := by
  rw [Backend.decideSync]
  split_ifs
  · exact hnamed.congr rfl rfl rfl
  · exact hnamed

/-- The `Connect` message carries the name of the backend. -/
theorem Named.goLiveIfReady (hnamed : Named b) : Named (goLiveIfReady b c).1 := by
  rw [Hooks.goLiveIfReady]
  split_ifs
  · have hconnect : CarriesPrinted
        (b.entry (.connect (if b.sessionActive then b.sessionName else "")) none) := by
      intro session hsession
      cases hsession
      split_ifs
      · exact hnamed.sessionName
      · exact .inl rfl
    have hbuffered : ∀ entry ∈ (if b.txBufOverflow then [] else b.txBuf), CarriesPrinted entry := by
      split_ifs
      · simp
      · exact hnamed.txBuf
    have hout := hnamed.append (List.forall_mem_cons.mpr ⟨hconnect, hbuffered⟩)
    exact ⟨hnamed.sessionName, by simp [goLive], hout.out⟩
  · exact hnamed

theorem Named.noteGeneration (hnamed : Named b) : Named (noteGeneration b c).1 := by
  rw [Hooks.noteGeneration]
  split_ifs
  · exact hnamed
  · exact ⟨.inr ⟨c.id, _, asBytes_captureName _ _⟩, by simp [Backend.resetTxBuf], hnamed.out⟩

theorem Named.noteSession (hnamed : Named b) (sessionOk : Bool) :
    Named (noteSession sessionOk b) := by
  rw [Hooks.noteSession]
  split_ifs <;> exact hnamed.congr rfl rfl rfl

theorem Named.markCaptured (hnamed : Named b) : Named (markCaptured b) := by
  rw [Hooks.markCaptured]
  split_ifs
  · exact hnamed.congr rfl rfl rfl
  · exact hnamed

theorem Named.capEnd (hnamed : Named b) (kind : HookKind) (body : List UInt8) :
    Named (capEnd kind body b) := by
  have hentry : CarriesPrinted (b.entry (.hooked kind body) b.openXact) := by
    intro session hsession
    cases hsession
  rw [Hooks.capEnd]
  dsimp only
  split_ifs
  · have hout := hnamed.append (List.forall_mem_singleton.mpr hentry)
    exact hout.congr rfl rfl rfl
  · rw [txBufAdd]
    split_ifs
    · exact hnamed.congr rfl rfl rfl
    · exact hnamed.congr rfl rfl rfl
    · refine ⟨hnamed.sessionName, fun entry hmem => ?_, hnamed.out⟩
      rcases List.mem_append.mp hmem with hold | hnew
      · exact hnamed.txBuf entry hold
      · rw [List.mem_singleton.mp hnew]
        exact hentry

theorem Named.abandonedGate (hnamed : Named b) (sessionOk : Bool) :
    Named (abandonedGate sessionOk b c).1 := by
  rw [Hooks.abandonedGate, passGate]
  dsimp only
  split_ifs
  · exact hnamed
  · exact hnamed
  · exact hnamed.noteGeneration.congr rfl rfl rfl
  · have hcounted : Named { (Hooks.noteGeneration b c).1 with
        lastTxStatementCount := (Hooks.noteGeneration b c).1.lastTxStatementCount + 1 } :=
      hnamed.noteGeneration.congr rfl rfl rfl
    exact (hcounted.noteSession sessionOk).goLiveIfReady.markCaptured

theorem Named.captureGate (hnamed : Named b) (sessionOk : Bool) (kind : HookKind)
    (body : List UInt8) : Named (captureGate sessionOk kind body b c).1 := by
  rw [captureGate_fst]
  split_ifs
  · exact (hnamed.abandonedGate sessionOk).capEnd kind body
  · exact hnamed.abandonedGate sessionOk

theorem Named.txFinish (hnamed : Named b) : Named (txFinish b c).1 := by
  have hlive : Named (if b.txCaptured ∧ c.running ∧ b.myCaptureGen = c.generation then
      Hooks.goLiveIfReady b c else (b, c)).1 := by
    split_ifs
    · exact hnamed.goLiveIfReady
    · exact hnamed
  rw [Hooks.txFinish]
  dsimp only
  split_ifs at hlive ⊢
  · exact hlive.congr rfl rfl rfl
  · exact hlive.resetTxBuf.congr rfl rfl rfl
  · exact hlive.congr rfl rfl rfl
  · exact hlive.resetTxBuf.congr rfl rfl rfl

theorem Named.pgrExit (hnamed : Named b) : Named (pgrExit b c) := by
  have hgoodbye : CarriesPrinted (b.entry .disconnect none) := by
    intro session hsession
    cases hsession
  rw [Hooks.pgrExit]
  dsimp only
  split_ifs
  · exact (hnamed.append (List.forall_mem_singleton.mpr hgoodbye)).congr rfl rfl rfl
  · exact hnamed.congr rfl rfl rfl

theorem Named.hook {ι : Type} [DecidableEq ι] {s : State ι} (hnamed : ∀ j, Named (s.backends j))
    (i : ι) (kind : HookKind) (body : List UInt8) (inTransaction : Bool) (j : ι) :
    Named ((hook s i kind body inTransaction).backends j) := by
  have hnoted : Named (noteStatement kind (s.backends i) s.shmem).1 := by
    rw [noteStatement]
    dsimp only
    split_ifs
    · exact hnamed i
    · exact (hnamed i).congr rfl rfl rfl
  have hentered : Named (enterXact s.xacts (noteStatement kind (s.backends i) s.shmem).1
      (noteStatement kind (s.backends i) s.shmem).2).1 := by
    rw [enterXact]
    dsimp only
    split_ifs
    · exact hnoted.congr rfl rfl rfl
    · exact Named.resetTxBuf (hnoted.congr rfl rfl rfl)
  rw [System.hook]
  dsimp only
  split_ifs <;> rw [State.setBackend] <;> dsimp only <;> rw [Function.update_apply] <;>
    split_ifs
  · exact hentered.congr rfl rfl rfl
  · exact hnamed j
  · exact hnoted.congr rfl rfl rfl
  · exact hnamed j

/-! ## Runs -/

section

variable {ι : Type} [DecidableEq ι]

structure AllNamed (s : State ι) : Prop where
  backends : ∀ i, Named (s.backends i)
  pushed : ∀ entry ∈ s.pushed, CarriesPrinted entry

variable {s s' : State ι} {i : ι}

omit [DecidableEq ι] in
/-- A step that the backends and the pushed messages do not see. -/
theorem AllNamed.congr (hall : AllNamed s) (hbackends : s'.backends = s.backends)
    (hpushed : s'.pushed = s.pushed) : AllNamed s' :=
  ⟨hbackends ▸ hall.backends, hpushed ▸ hall.pushed⟩

/-- A step of one backend, which may push some messages. -/
theorem AllNamed.update (hall : AllNamed s) {b : Backend} (hb : Named b) {more : List Entry}
    (hmore : ∀ entry ∈ more, CarriesPrinted entry)
    (hbackends : s'.backends = Function.update s.backends i b)
    (hpushed : s'.pushed = s.pushed ++ more) : AllNamed s' where
  backends j := by
    rw [hbackends, Function.update_apply]
    split_ifs
    · exact hb
    · exact hall.backends j
  pushed entry hentry := by
    rw [hpushed] at hentry
    exact (List.mem_append.mp hentry).elim (hall.pushed entry) (hmore entry)

/-- A step of one backend that pushes nothing. -/
theorem AllNamed.set (hall : AllNamed s) {b : Backend} (hb : Named b)
    (hbackends : s'.backends = Function.update s.backends i b) (hpushed : s'.pushed = s.pushed) :
    AllNamed s' := by
  have hnothing : ∀ entry ∈ ([] : List Entry), CarriesPrinted entry := by simp
  apply hall.update hb hnothing hbackends
  rw [hpushed, List.append_nil]

theorem allNamed_step {l : Label ι} (hall : AllNamed s) (hstep : step s l = some s') :
    AllNamed s' := by
  cases stepped_of_step hstep with
  | @start i id hidle hid =>
      have hmarked : ∀ j, Named (s.backends j).markPre := fun j =>
        (hall.backends j).congr rfl rfl rfl
      refine ⟨fun j => ?_, hall.pushed⟩
      rw [start_backends, Function.update_apply]
      split_ifs
      · exact (hmarked i).decideSync _
      · exact hmarked j
  | stop => exact hall.congr rfl rfl
  | @hook i kind body inTransaction hidle hpsql hptr =>
      refine ⟨Named.hook hall.backends i kind body inTransaction, ?_⟩
      have hsame : (hook s i kind body inTransaction).pushed = s.pushed := by
        rw [hook]
        dsimp only
        split_ifs <;> rfl
      rw [hsame]
      exact hall.pushed
  | @gate i sessionOk kind body hgating =>
      have hb : Named { s.backends i with gating := none } :=
        (hall.backends i).congr rfl rfl rfl
      exact hall.set (hb.captureGate sessionOk kind body) rfl rfl
  | @abandon i sessionOk hbind hpasses =>
      have hb : Named { s.backends i with gating := none } :=
        (hall.backends i).congr rfl rfl rfl
      exact hall.set (hb.abandonedGate sessionOk) rfl rfl
  | @push i entry out hout =>
      have hall' := (hall.backends i).out
      rw [hout] at hall'
      obtain ⟨hentry, hrest⟩ := List.forall_mem_cons.mp hall'
      have hb : Named { s.backends i with out := out } :=
        ⟨(hall.backends i).sessionName, (hall.backends i).txBuf, hrest⟩
      exact hall.update hb (List.forall_mem_singleton.mpr hentry) rfl rfl
  | @insertCommit i size hidle hopen hptr =>
      have hb : Named { s.backends i with commitPtr := some s.insertPtr } :=
        (hall.backends i).congr rfl rfl rfl
      exact hall.set hb rfl rfl
  | insertRecord => exact hall.congr rfl rfl
  | @leave i hidle hopen =>
      have hb : Named { s.backends i with txOpen := false, finishing := true } :=
        (hall.backends i).congr rfl rfl rfl
      exact hall.set (hb.decideSync _) rfl rfl
  | @finish i hfinishing => exact hall.set (hall.backends i).txFinish rfl rfl
  | @readInsertPtr i hdecided hfinishing hout =>
      have hb : Named { s.backends i with sync := .read s.insertPtr } :=
        (hall.backends i).congr rfl rfl rfl
      exact hall.set hb rfl rfl
  | @pushLsn i insertPtr hread =>
      have hlsn : CarriesPrinted ((s.backends i).lsnEntry insertPtr) := by
        intro session hsession
        cases hsession
      have hb : Named { s.backends i with sync := .pushed } :=
        (hall.backends i).congr rfl rfl rfl
      exact hall.update hb (List.forall_mem_singleton.mpr hlsn) rfl rfl
  | @setWalReady i hpushed =>
      have hb : Named { s.backends i with sync := .none } :=
        (hall.backends i).congr rfl rfl rfl
      exact hall.set hb rfl rfl
  | @exit i hidle hclosed => exact hall.set (hall.backends i).pgrExit rfl rfl
  | @connect i isPsql hgone => exact hall.set (named_init isPsql) rfl rfl
  | workerTop | workerWrite | workerHold | workerDiscard | workerRunning | workerStopped
  | workerOpen | workerDone | workerTryExit | workerShutdown | workerSpawn =>
      exact hall.congr rfl rfl

/-! ## The replay -/

theorem quote_not_mem_name {name : List UInt8} (hname : IsSessionName name) : 0x27 ∉ name := by
  obtain ⟨-, first, second, hfirst, hsecond, hbytes⟩ := hname
  have hquote : isWord 0x27 = false := by decide
  rw [hbytes]
  intro hmem
  rcases List.mem_append.mp hmem with hleft | hright
  · cases hquote.symm.trans (hfirst.word _ hleft)
  · rcases List.mem_cons.mp hright with hslash | hrest
    · cases hslash
    · cases hquote.symm.trans (hsecond.word _ hrest)

/-- A text without quotes is its own literal. -/
theorem doubleQuotes_eq_self {text : String} (hquote : 0x27 ∉ asBytes text) :
    doubleQuotes text = text := by
  have hchars : ∀ c ∈ text.toList, (if c = Char.ofNat 39 then [c, c] else [c]) = [c] := by
    intro c hc
    apply if_neg
    intro hsame
    apply hquote
    have hencoded : String.utf8EncodeChar (Char.ofNat 39) = [0x27] := by decide
    rw [asBytes]
    apply List.mem_flatMap.mpr ⟨c, hc, _⟩
    rw [hsame, hencoded]
    exact List.mem_cons_self
  rw [doubleQuotes, List.flatMap_congr hchars, List.flatMap_singleton', String.ofList_toList]

/-- A session id that the replay sends back as the argument of `pgr.srestore`, where
`session_path` accepts it. -/
structure Restorable (session : String) : Prop where
  name : IsSessionName (asBytes session)
  query : asBytes (srestoreQuery session) =
    asBytes "SELECT pgr.srestore('" ++ asBytes session ++ asBytes "')"
  /-- What the replay makes of the record of the `Connect` message. -/
  replayed : ∀ (stamp : Stamp) (str : CString) (ts : ℕ), str.bytes = asBytes session →
    emit (decodedMessage stamp (.connect str)) ts =
      [.connect stamp.clientId ts,
        .send stamp.clientId ts fQuery (queryFrame (srestoreQuery session))]

theorem restorable_of_isSessionName {session : String} (hname : IsSessionName (asBytes session)) :
    Restorable session where
  name := hname
  query := by
    have hself := doubleQuotes_eq_self (quote_not_mem_name hname)
    have hparts : asBytes (srestoreQuery session) =
        asBytes ("SELECT pgr.srestore('" ++ doubleQuotes session) ++ asBytes "')" :=
      asBytes_append _ _
    have hparts' : asBytes ("SELECT pgr.srestore('" ++ doubleQuotes session) =
        asBytes "SELECT pgr.srestore('" ++ asBytes (doubleQuotes session) := asBytes_append _ _
    rw [hparts, hparts', hself]
  replayed stamp str ts hstr := by
    have hdecoded : decodedText str = session := by
      rw [decodedText, hstr, fromUtf8Lossy_asBytes]
    have hnonempty : session ≠ "" := by
      intro hempty
      obtain ⟨-, first, second, -, -, hbytes⟩ := hname
      rw [hempty] at hbytes
      exact List.append_ne_nil_of_right_ne_nil first (List.cons_ne_nil _ _) hbytes.symm
    rw [decodedMessage, decodedEvent, hdecoded, emit]
    dsimp only
    rw [if_neg hnonempty]

theorem restorable_of_isPrinted {session : String} (hprinted : IsPrinted session)
    (hnonempty : session ≠ "") : Restorable session := by
  obtain ⟨captureId, clientId, hbytes⟩ := hprinted.resolve_left hnonempty
  apply restorable_of_isSessionName
  rw [hbytes]
  exact isSessionName_captureName captureId clientId

/-- `session_path` accepts two short segments with a slash between them and makes a path
of them that stays below the session directory; the names of `capture_gate` and
`pgr_exit` are such names, and so is every session id that a `Connect` message carries
to the replay. -/
theorem sessionNames_confined {isPsql : ι → Bool}
    (hreachable : Reachable step (State.init isPsql) s) :
    (∀ name path, sessionPath name = .ok path ↔
        IsSessionName name ∧ path = asBytes "sessions/" ++ name ++ asBytes ".pgs") ∧
      (∀ name path, sessionPath name = .ok path →
        ∃ first second, name = first ++ slashByte :: second ∧ IsSessionPath path first second) ∧
      ((∀ captureId clientId, IsSessionName (captureName captureId clientId)) ∧
        (∀ myClientId, IsSessionName (capturedExitName myClientId)) ∧
        ∀ myReplayId, IsSessionName (replayExitName myReplayId)) ∧
      ∀ entry ∈ s.pushed, ∀ session, entry.msg = .connect session → session ≠ "" →
        Restorable session := by
  have hall : AllNamed s := by
    apply hreachable.invariant
    · exact ⟨fun i => named_init (isPsql i), by simp [State.init]⟩
    · intro s l s' hall hstep
      exact allNamed_step hall hstep
  refine ⟨sessionPath_eq_ok_iff, fun name path => isSessionPath_of_ok,
    ⟨isSessionName_captureName, isSessionName_capturedExitName, isSessionName_replayExitName⟩, ?_⟩
  intro entry hentry session hsession hnonempty
  exact restorable_of_isPrinted (hall.pushed entry hentry session hsession) hnonempty

/-- The second backend dumps its session and goes live with it. -/
theorem sessionNames_confined_dumpedSession : ∃ s : State (Fin 2),
    Reachable step (State.init fun _ => false) s ∧
      s.pushed.map Entry.msg = [.lsn 0, .connect "5/0"] ∧ Restorable "5/0" := by
  have hrun : (run step (State.init fun _ : Fin 2 => false)
      [.hook 1 .simpleQuery [65, 0] true, .gate 1 true, .leave 1, .finish 1, .start 0 5,
        .readInsertPtr 0, .pushLsn 0, .setWalReady 0, .hook 1 .simpleQuery [66, 0] true,
        .gate 1 true, .push 1]).map (fun s => s.pushed.map Entry.msg) =
      some [.lsn 0, .connect "5/0"] := by
    decide +kernel
  obtain ⟨s, hs, hpushed⟩ := Option.map_eq_some_iff.mp hrun
  have hreachable := reachable_of_run hs
  have hmem : Message.connect "5/0" ∈ s.pushed.map Entry.msg := by
    rw [hpushed]
    simp
  obtain ⟨entry, hentry, hmsg⟩ := List.mem_map.mp hmem
  have hrestorable : Restorable "5/0" :=
    (sessionNames_confined hreachable).2.2.2 entry hentry "5/0" hmsg (by decide)
  exact ⟨s, hreachable, hpushed, hrestorable⟩

end

end Pgr.SessionNames
