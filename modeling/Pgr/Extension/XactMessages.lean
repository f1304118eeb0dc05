import Pgr.Core.AroundCut
import Pgr.Extension.SyncPoint

/-!
# The messages of a transaction

What a backend does with the messages of a transaction that was entered while the one
capture runs.  As long as nothing overflows they are all in its buffer or have all been
given to `channel_push`, and `tx_finish` settles which of the two by reading `wal_ready`.
-/

namespace Pgr.XactMessages

open Pgr.Shmem Pgr.Hooks Pgr.SyncPoint Pgr.AroundCut

/-! ## One backend -/

/-- The backend is in a transaction that was entered after the publication, at the latest
in `tx_finish`. -/
def InXact (b : Backend) : Prop :=
  (b.txOpen = true ∨ b.finishing = true) ∧ b.txGen = 1

instance (b : Backend) : Decidable (InXact b) :=
  inferInstanceAs (Decidable (_ ∧ _))

/-- The messages of the transaction that have been given to `channel_push`. -/
def sentPart (b : Backend) : List Entry :=
  if b.captureLive then b.xactMessages else []

def currentOf (b : Backend) : Option (Current Entry) :=
  if InXact b then some ⟨b.xact, sentPart b, b.commitPtr⟩ else none

/-- What the variables of a backend say about its transaction. -/
structure Coherent (running walReady : Bool) (b : Backend) : Prop where
  entered : b.txGen = 1 → running = true
  live : b.captureLive = true → walReady = true ∧ b.myCaptureGen = 1
  noOverflow : b.txBufOverflow = false
  buffered : InXact b → b.captureLive = false → b.txBuf = b.xactMessages
  unbuffered : ¬InXact b ∨ b.captureLive = true → b.txBuf = []
  unknown : InXact b → b.myCaptureGen ≠ 1 → b.xactMessages = []
  uncaptured : ¬InXact b → b.txCaptured = false
  marks : InXact b → ∀ entry ∈ b.xactMessages, entry.xact = some b.xact
  finishing : b.finishing = true → b.gating = none ∧ b.txOpen = false

/-- Behind its first message the transaction is captured. -/
def Captured (b : Backend) : Prop :=
  InXact b → b.gating = none → b.txCaptured = true ∧ b.myCaptureGen = 1

/-- From `b` to `b'` some messages are given to `channel_push`. -/
structure Emits (more : List Entry) (b b' : Backend) : Prop where
  out : b'.out = b.out ++ more
  current : currentOf b' = (currentOf b).map fun xact =>
    { xact with sent := xact.sent ++ markedBy Entry.xact xact.xact more }
  marks : ∀ entry ∈ more, ∀ number, entry.xact = some number →
    ∃ xact, currentOf b = some xact ∧ xact.xact = number

variable {running walReady : Bool} {b b' b'' : Backend} {c : SharedMemory}

theorem not_inXact_of_closed (hclosed : b.txOpen = false) (hfinishing : b.finishing = false) :
    ¬InXact b := by
  rintro ⟨hopen | hfinishes, -⟩
  · cases hclosed.symm.trans hopen
  · cases hfinishing.symm.trans hfinishes

/-- Outside a transaction there is nothing to buffer. -/
theorem coherent_of_closed (hclosed : b.txOpen = false) (hfinishing : b.finishing = false)
    (hentered : b.txGen = 1 → running = true)
    (hlive : b.captureLive = true → walReady = true ∧ b.myCaptureGen = 1)
    (hoverflow : b.txBufOverflow = false) (hbuf : b.txBuf = []) (hcaptured : b.txCaptured = false) :
    Coherent running walReady b := by
  have houtside := not_inXact_of_closed hclosed hfinishing
  exact
    { entered := hentered
      live := hlive
      noOverflow := hoverflow
      buffered := fun hinside => absurd hinside houtside
      unbuffered := fun _ => hbuf
      unknown := fun hinside => absurd hinside houtside
      uncaptured := fun _ => hcaptured
      marks := fun hinside => absurd hinside houtside
      finishing := fun hfinishes => absurd hfinishes (Bool.eq_false_iff.mp hfinishing) }

theorem currentOf_of_inXact (hb : InXact b) :
    currentOf b = some ⟨b.xact, sentPart b, b.commitPtr⟩ :=
  if_pos hb

theorem currentOf_of_not_inXact (hb : ¬InXact b) : currentOf b = none :=
  if_neg hb

/-- Nothing is said, and the transaction is the same. -/
theorem emits_nil (hout : b'.out = b.out) (hcurrent : currentOf b' = currentOf b) :
    Emits [] b b' where
  out := by rw [hout, List.append_nil]
  current := by
    rw [hcurrent]
    cases currentOf b with
    | none => rfl
    | some xact => simp [markedBy]
  marks := by simp

theorem Emits.trans {more next : List Entry} (hfirst : Emits more b b')
    (hnext : Emits next b' b'') : Emits (more ++ next) b b'' where
  out := by rw [hnext.out, hfirst.out, List.append_assoc]
  current := by
    rw [hnext.current, hfirst.current]
    cases currentOf b with
    | none => rfl
    | some xact => simp [markedBy_append]
  marks entry hentry number hnumber := by
    rcases List.mem_append.mp hentry with hearlier | hlater
    · exact hfirst.marks entry hearlier number hnumber
    · obtain ⟨xact', hxact', hsame⟩ := hnext.marks entry hlater number hnumber
      rw [hfirst.current] at hxact'
      obtain ⟨xact, hxact, hsent⟩ := Option.map_eq_some_iff.mp hxact'
      refine ⟨xact, hxact, ?_⟩
      rw [← hsame, ← hsent]

/-- The variables that the transaction of a backend is about. -/
structure SameXact (b b' : Backend) : Prop where
  txOpen : b'.txOpen = b.txOpen
  finishing : b'.finishing = b.finishing
  txGen : b'.txGen = b.txGen
  xact : b'.xact = b.xact
  commitPtr : b'.commitPtr = b.commitPtr

theorem SameXact.inXact_iff (hsame : SameXact b b') : InXact b' ↔ InXact b := by
  rw [InXact, InXact, hsame.txOpen, hsame.finishing, hsame.txGen]

theorem SameXact.currentOf_eq (hsame : SameXact b b')
    (hsent : InXact b → sentPart b' = sentPart b) : currentOf b' = currentOf b := by
  by_cases hb : InXact b
  · rw [currentOf_of_inXact hb, currentOf_of_inXact (hsame.inXact_iff.mpr hb), hsame.xact,
      hsame.commitPtr, hsent hb]
  · rw [currentOf_of_not_inXact hb, currentOf_of_not_inXact (mt hsame.inXact_iff.mp hb)]

/-! ## What the hooks say -/

/-- The variables that say what has become of the messages of a transaction. -/
structure SameMessages (b b' : Backend) : Prop extends SameXact b b' where
  captureLive : b'.captureLive = b.captureLive
  xactMessages : b'.xactMessages = b.xactMessages
  out : b'.out = b.out
  gating : b'.gating = b.gating

theorem SameMessages.currentOf_eq (hsame : SameMessages b b') : currentOf b' = currentOf b := by
  apply hsame.toSameXact.currentOf_eq
  intro _
  rw [sentPart, sentPart, hsame.captureLive, hsame.xactMessages]

theorem SameMessages.emits (hsame : SameMessages b b') : Emits [] b b' :=
  emits_nil hsame.out hsame.currentOf_eq

theorem coherent_noteStatement (hb : Coherent running walReady b) (kind : HookKind)
    (c : SharedMemory) : Coherent running walReady (noteStatement kind b c).1 ∧
      SameMessages b (noteStatement kind b c).1 := by
  rw [noteStatement]
  dsimp only
  split_ifs
  · exact ⟨hb, ⟨⟨rfl, rfl, rfl, rfl, rfl⟩, rfl, rfl, rfl, rfl⟩⟩
  · exact ⟨{ hb with }, ⟨⟨rfl, rfl, rfl, rfl, rfl⟩, rfl, rfl, rfl, rfl⟩⟩

/-- A backend notes the generation when it has nothing of it yet. -/
theorem coherent_noteGeneration (hb : Coherent running walReady b)
    (hgeneration : c.generation = 1) :
    Coherent running walReady (noteGeneration b c).1 ∧ SameMessages b (noteGeneration b c).1 ∧
      (noteGeneration b c).1.myCaptureGen = 1 := by
  rw [noteGeneration]
  split_ifs with hknown
  · exact ⟨hb, ⟨⟨rfl, rfl, rfl, rfl, rfl⟩, rfl, rfl, rfl, rfl⟩, hknown.trans hgeneration⟩
  · have hunknown : b.myCaptureGen ≠ 1 := fun hsame => hknown (hsame.trans hgeneration.symm)
    have hdead : b.captureLive = false := by
      by_contra hlive
      exact hunknown (hb.live (Bool.eq_true_of_not_eq_false hlive)).2
    refine ⟨?_, ⟨⟨rfl, rfl, rfl, rfl, rfl⟩, hdead.symm, rfl, rfl, rfl⟩, hgeneration⟩
    exact
      { entered := hb.entered
        live := by rintro ⟨⟩
        noOverflow := rfl
        buffered := fun hxact _ => (hb.unknown hxact hunknown).symm
        unbuffered := fun _ => rfl
        unknown := fun hxact _ => hb.unknown hxact hunknown
        uncaptured := hb.uncaptured
        marks := hb.marks
        finishing := hb.finishing }

theorem coherent_noteSession (hb : Coherent running walReady b) (sessionOk : Bool) :
    Coherent running walReady (noteSession sessionOk b) ∧
      SameMessages b (noteSession sessionOk b) ∧
      (noteSession sessionOk b).myCaptureGen = b.myCaptureGen := by
  rw [noteSession]
  split_ifs
  · exact ⟨{ hb with }, ⟨⟨rfl, rfl, rfl, rfl, rfl⟩, rfl, rfl, rfl, rfl⟩, rfl⟩
  · exact ⟨{ hb with }, ⟨⟨rfl, rfl, rfl, rfl, rfl⟩, rfl, rfl, rfl, rfl⟩, rfl⟩
  · exact ⟨hb, ⟨⟨rfl, rfl, rfl, rfl, rfl⟩, rfl, rfl, rfl, rfl⟩, rfl⟩

/-- Going live gives what is buffered to the channel. -/
theorem coherent_goLiveIfReady (hb : Coherent running c.walReady b) (hknown : b.myCaptureGen = 1) :
    ∃ more, Emits more b (goLiveIfReady b c).1 ∧
      Coherent running c.walReady (goLiveIfReady b c).1 ∧ SameXact b (goLiveIfReady b c).1 ∧
      (goLiveIfReady b c).1.captureLive = c.walReady ∧
      (goLiveIfReady b c).1.myCaptureGen = 1 ∧
      (goLiveIfReady b c).1.gating = b.gating ∧
      (goLiveIfReady b c).1.xactMessages = b.xactMessages ∧
      (goLiveIfReady b c).1.txCaptured = b.txCaptured := by
  rw [goLiveIfReady]
  split_ifs with hready
  · obtain ⟨hdead, hwal⟩ := hready
    obtain ⟨connect, hconnect⟩ : ∃ connect,
        b.entry (.connect (if b.sessionActive then b.sessionName else "")) none = connect :=
      ⟨_, rfl⟩
    have hnone : connect.xact = none := by
      rw [← hconnect]
      rfl
    have hout : (goLive b c).1.out = b.out ++ connect :: b.txBuf := by
      rw [goLive, hconnect, hb.noOverflow]
      rfl
    have hsame : SameXact b (goLive b c).1 := ⟨rfl, rfl, rfl, rfl, rfl⟩
    refine ⟨connect :: b.txBuf, ⟨hout, ?_, ?_⟩, ?_, hsame, hwal.symm, hknown, rfl, rfl, rfl⟩
    · by_cases hxact : InXact b
      · have hbuffered := hb.buffered hxact hdead
        have hmarked : markedBy Entry.xact b.xact (connect :: b.txBuf) = b.xactMessages := by
          have hself : markedBy Entry.xact b.xact b.xactMessages = b.xactMessages :=
            markedBy_eq_self (hb.marks hxact)
          rw [hbuffered, markedBy, List.filter_cons_of_neg (by simp [hnone])]
          exact hself
        rw [currentOf_of_inXact hxact, currentOf_of_inXact (hsame.inXact_iff.mpr hxact),
          Option.map_some]
        dsimp only
        rw [hmarked, sentPart, sentPart, hdead]
        rfl
      · rw [currentOf_of_not_inXact hxact, currentOf_of_not_inXact (mt hsame.inXact_iff.mp hxact)]
        rfl
    · intro entry hentry number hnumber
      rcases List.mem_cons.mp hentry with hfirst | hbuffered
      · rw [hfirst, hnone] at hnumber
        cases hnumber
      · by_cases hxact : InXact b
        · rw [hb.buffered hxact hdead] at hbuffered
          have hmark := (hb.marks hxact entry hbuffered).symm.trans hnumber
          exact ⟨_, currentOf_of_inXact hxact, Option.some.inj hmark⟩
        · rw [hb.unbuffered (.inl hxact)] at hbuffered
          cases hbuffered
    · exact
        { entered := hb.entered
          live := fun _ => ⟨hwal, hknown⟩
          noOverflow := rfl
          buffered := by rintro - ⟨⟩
          unbuffered := fun _ => rfl
          unknown := fun _ hunknown => absurd hknown hunknown
          uncaptured := hb.uncaptured
          marks := hb.marks
          finishing := hb.finishing }
  · have hlive : b.captureLive = c.walReady := by
      cases hwal : c.walReady with
      | true =>
          by_contra hdead
          exact hready ⟨Bool.eq_false_of_not_eq_true hdead, hwal⟩
      | false =>
          by_contra hlive
          cases hwal.symm.trans (hb.live (Bool.eq_true_of_not_eq_false hlive)).1
    exact ⟨[], emits_nil rfl rfl, hb, ⟨rfl, rfl, rfl, rfl, rfl⟩, hlive, hknown, rfl, rfl, rfl⟩

theorem coherent_markCaptured (hb : Coherent running walReady b)
    (hxact : b.txOpen = true → b.txGen = 1) :
    Coherent running walReady (markCaptured b) ∧ SameMessages b (markCaptured b) ∧
      (markCaptured b).myCaptureGen = b.myCaptureGen ∧
      (b.txOpen = true → (markCaptured b).txCaptured = true) := by
  rw [markCaptured]
  split_ifs with hopen
  · refine ⟨?_, ⟨⟨rfl, rfl, rfl, rfl, rfl⟩, rfl, rfl, rfl, rfl⟩, rfl, fun _ => rfl⟩
    exact { hb with uncaptured := fun houtside => absurd ⟨.inl hopen, hxact hopen⟩ houtside }
  · exact ⟨hb, ⟨⟨rfl, rfl, rfl, rfl, rfl⟩, rfl, rfl, rfl, rfl⟩, rfl,
      fun hopen' => absurd hopen' hopen⟩

/-- A message that fits is buffered. -/
theorem txBufAdd_eq {entry : Entry} (hbefore : b.txBufOverflow = false)
    (hafter : (txBufAdd entry b).txBufOverflow = false) :
    txBufAdd entry b = { b with txBuf := b.txBuf ++ [entry] } := by
  rw [txBufAdd, hbefore, if_neg Bool.false_ne_true] at hafter ⊢
  split_ifs at hafter ⊢
  rfl

/-- What has been captured goes where the messages before it went. -/
theorem coherent_capEnd (hb : Coherent running walReady b) (hxact : b.txOpen = true → b.txGen = 1)
    (hfinishing : b.finishing = false) (hknown : b.myCaptureGen = 1)
    (hcaptured : b.captureLive = false → b.txOpen = true) {kind : HookKind} {body : List UInt8}
    (hroom : (capEnd kind body b).txBufOverflow = false) :
    Coherent running walReady (capEnd kind body b) ∧ SameXact b (capEnd kind body b) ∧
      (∃ more, Emits more b (capEnd kind body b)) ∧
      (capEnd kind body b).txCaptured = b.txCaptured ∧
      (capEnd kind body b).myCaptureGen = 1 := by
  obtain ⟨entry, hentry⟩ : ∃ entry, b.entry (.hooked kind body) b.openXact = entry := ⟨_, rfl⟩
  have hopenXact : entry.xact = b.openXact := by
    rw [← hentry]
    rfl
  have hmark : InXact b → entry.xact = some b.xact := by
    rintro ⟨hopen | hfinishes, -⟩
    · rw [hopenXact, Backend.openXact, if_pos hopen]
    · cases hfinishing.symm.trans hfinishes
  have houtside : ¬InXact b → entry.xact = none := by
    intro hnot
    rw [hopenXact, Backend.openXact]
    exact if_neg fun hopen => hnot ⟨.inl hopen, hxact hopen⟩
  have hmarks : InXact b → ∀ message ∈ b.xactMessages ++ [entry], message.xact = some b.xact := by
    intro hinside message hmessage
    rcases List.mem_append.mp hmessage with hearlier | hlast
    · exact hb.marks hinside message hearlier
    · rw [List.mem_singleton.mp hlast]
      exact hmark hinside
  rw [capEnd, hentry] at hroom ⊢
  dsimp only at hroom ⊢
  by_cases hlive : b.captureLive = true
  · rw [if_pos hlive]
    have hsame : SameXact b { b with
        xactMessages := b.xactMessages ++ [entry], out := b.out ++ [entry] } :=
      ⟨rfl, rfl, rfl, rfl, rfl⟩
    refine ⟨?_, hsame, ⟨[entry], rfl, ?_, ?_⟩, rfl, hknown⟩
    · exact
        { hb with
          buffered := fun _ hdead => absurd hlive (Bool.eq_false_iff.mp hdead)
          unknown := fun _ hunknown => absurd hknown hunknown
          marks := hmarks }
    · by_cases hinside : InXact b
      · rw [currentOf_of_inXact hinside, currentOf_of_inXact (hsame.inXact_iff.mpr hinside),
          Option.map_some]
        have hself : markedBy Entry.xact b.xact [entry] = [entry] :=
          markedBy_eq_self (List.forall_mem_singleton.mpr (hmark hinside))
        dsimp only
        rw [hself]
        simp [sentPart, hlive]
      · rw [currentOf_of_not_inXact hinside,
          currentOf_of_not_inXact (mt hsame.inXact_iff.mp hinside)]
        rfl
    · intro message hmessage number hnumber
      rw [List.mem_singleton.mp hmessage] at hnumber
      by_cases hinside : InXact b
      · exact ⟨_, currentOf_of_inXact hinside,
          Option.some.inj ((hmark hinside).symm.trans hnumber)⟩
      · cases (houtside hinside).symm.trans hnumber
  · have hdead : b.captureLive = false := Bool.eq_false_of_not_eq_true hlive
    have hinside : InXact b := ⟨.inl (hcaptured hdead), hxact (hcaptured hdead)⟩
    rw [if_neg hlive] at hroom ⊢
    have hbefore : { b with xactMessages := b.xactMessages ++ [entry] }.txBufOverflow = false :=
      hb.noOverflow
    rw [txBufAdd_eq hbefore hroom]
    have hsame : SameXact b { b with
        xactMessages := b.xactMessages ++ [entry], txBuf := b.txBuf ++ [entry] } :=
      ⟨rfl, rfl, rfl, rfl, rfl⟩
    refine ⟨?_, hsame, ⟨[], ?_⟩, rfl, hknown⟩
    · exact
        { hb with
          buffered := fun _ _ => congrArg (· ++ [entry]) (hb.buffered hinside hdead)
          unbuffered := fun hno => absurd hinside (hno.resolve_right hlive)
          unknown := fun _ hunknown => absurd hknown hunknown
          marks := hmarks }
    · have hunsent : InXact b → sentPart { b with
          xactMessages := b.xactMessages ++ [entry], txBuf := b.txBuf ++ [entry] } =
          sentPart b := by
        intro _
        rw [sentPart, sentPart, if_neg hlive]
        exact (if_neg hlive).symm
      exact emits_nil rfl (hsame.currentOf_eq hunsent)

theorem SameXact.trans (hfirst : SameXact b b') (hnext : SameXact b' b'') : SameXact b b'' :=
  ⟨hnext.txOpen.trans hfirst.txOpen, hnext.finishing.trans hfirst.finishing,
    hnext.txGen.trans hfirst.txGen, hnext.xact.trans hfirst.xact,
    hnext.commitPtr.trans hfirst.commitPtr⟩

/-- The gate behind the generation check. -/
def gateNoted (sessionOk : Bool) (b : Backend) (c : SharedMemory) : Bool × Backend :=
  if b.captureLive = false ∧ b.txOpen = false then (false, b)
  else (true, markCaptured (goLiveIfReady (noteSession sessionOk b) c).1)

theorem passGate_ignored (sessionOk : Bool)
    (hignored : c.running = false ∨ b.txOpen = true ∧ xactIsPre b.txGen c = true) :
    passGate sessionOk b c = (false, b, c) := by
  rw [passGate]
  rcases hignored with hstopped | hpre
  · rw [if_pos hstopped]
  · split_ifs <;> rfl

theorem passGate_counted (sessionOk : Bool)
    (hcounted : ¬(c.running = false ∨ b.txOpen = true ∧ xactIsPre b.txGen c = true))
    {counted : Backend} (hb : { (noteGeneration b c).1 with
      lastTxStatementCount := (noteGeneration b c).1.lastTxStatementCount + 1 } = counted) :
    (passGate sessionOk b c).1 = (gateNoted sessionOk counted (noteGeneration b c).2).1 ∧
      (abandonedGate sessionOk b c).1 =
        (gateNoted sessionOk counted (noteGeneration b c).2).2 := by
  obtain ⟨hstarted, hcurrent⟩ := not_or.mp hcounted
  subst hb
  rw [abandonedGate, passGate, if_neg hstarted, if_neg hcurrent, gateNoted]
  dsimp only
  split_ifs <;> exact ⟨rfl, rfl⟩

/-- What the gate says about the transaction of a backend it takes from `b` to `b'`. -/
structure Gated (c : SharedMemory) (b b' : Backend) (passes : Bool) : Prop where
  coherent : Coherent c.running c.walReady b'
  same : SameXact b b'
  captured : Captured b'
  emits : ∃ more, Emits more b b'
  /-- A message that passes is one of the capture, and of the transaction if it is buffered. -/
  passed : passes = true → b'.myCaptureGen = 1 ∧ (b.txOpen = true → b.txGen = 1) ∧
    (b'.captureLive = false → b'.txOpen = true)

theorem gated_gateNoted (hb : Coherent c.running c.walReady b) (hknown : b.myCaptureGen = 1)
    (hxact : b.txOpen = true → b.txGen = 1) (hfinishing : b.finishing = false)
    (sessionOk : Bool) :
    Gated c b (gateNoted sessionOk b c).2 (gateNoted sessionOk b c).1 := by
  rw [gateNoted]
  by_cases houtside : b.captureLive = false ∧ b.txOpen = false
  · rw [if_pos houtside]
    refine ⟨hb, ⟨rfl, rfl, rfl, rfl, rfl⟩, ?_, ⟨[], emits_nil rfl rfl⟩, by rintro ⟨⟩⟩
    exact fun hinside => absurd hinside (not_inXact_of_closed houtside.2 hfinishing)
  · rw [if_neg houtside]
    obtain ⟨hsession, hsameSession, hknownSession⟩ := coherent_noteSession hb sessionOk
    obtain ⟨connect, hconnect, hlive, hsameLive, -, hknownLive, -, -, -⟩ :=
      coherent_goLiveIfReady hsession (hknownSession.trans hknown)
    have hdead : (goLiveIfReady (noteSession sessionOk b) c).1.captureLive = false →
        b.captureLive = false := by
      intro hstill
      rw [goLiveIfReady] at hstill
      split_ifs at hstill
      · cases hstill
      · exact hsameSession.captureLive.symm.trans hstill
    generalize (goLiveIfReady (noteSession sessionOk b) c).1 = live at *
    have hsame : SameXact b live := hsameSession.toSameXact.trans hsameLive
    have hxact' : live.txOpen = true → live.txGen = 1 := by
      rw [hsame.txOpen, hsame.txGen]
      exact hxact
    obtain ⟨hmarked, hsameMarked, hknownMarked, hcaptured⟩ := coherent_markCaptured hlive hxact'
    have hall : SameXact b (markCaptured live) := hsame.trans hsameMarked.toSameXact
    refine ⟨hmarked, hall, ?_, ⟨_, (hsameSession.emits.trans hconnect).trans hsameMarked.emits⟩,
      fun _ => ⟨hknownMarked.trans hknownLive, hxact, ?_⟩⟩
    · intro hinside _
      rcases (hall.inXact_iff.mp hinside).1 with hopen' | hfinishes
      · exact ⟨hcaptured (hsame.txOpen.trans hopen'), hknownMarked.trans hknownLive⟩
      · cases hfinishing.symm.trans hfinishes
    · rw [hsameMarked.captureLive, hall.txOpen]
      intro hstill
      by_contra hclosed
      exact houtside ⟨hdead hstill, Bool.eq_false_of_not_eq_true hclosed⟩

/-- A message that does not pass the gate is of no transaction that was entered after the
publication. -/
theorem gated_abandonedGate (hb : Coherent c.running c.walReady b)
    (hgeneration : c.running = true → c.generation = 1) (hfinishing : b.finishing = false)
    (sessionOk : Bool) :
    Gated c b (abandonedGate sessionOk b c).1 (passGate sessionOk b c).1 := by
  by_cases hignored : c.running = false ∨ b.txOpen = true ∧ xactIsPre b.txGen c = true
  · rw [abandonedGate, passGate_ignored sessionOk hignored]
    refine ⟨hb, ⟨rfl, rfl, rfl, rfl, rfl⟩, ?_, ⟨[], emits_nil rfl rfl⟩, by rintro ⟨⟩⟩
    intro hinside
    have hrunning := hb.entered hinside.2
    rcases hignored with hstopped | ⟨-, hpre⟩
    · cases hstopped.symm.trans hrunning
    · rw [xactIsPre, hinside.2, hgeneration hrunning] at hpre
      simp at hpre
  · obtain ⟨hstarted, hcurrent⟩ := not_or.mp hignored
    have hrunning : c.running = true := Bool.eq_true_of_not_eq_false hstarted
    have hxact : b.txOpen = true → b.txGen = 1 := by
      intro hopen
      by_contra hother
      apply hcurrent
      rw [xactIsPre, hgeneration hrunning]
      exact ⟨hopen, decide_eq_true ⟨hrunning, hother⟩⟩
    obtain ⟨hnoted, hsame, hknown⟩ := coherent_noteGeneration hb (hgeneration hrunning)
    obtain ⟨nextClientId, statements, hsameCapture⟩ := sameCapture_noteGeneration b c
    obtain ⟨counted, hcounted⟩ : ∃ counted, { (noteGeneration b c).1 with
        lastTxStatementCount := (noteGeneration b c).1.lastTxStatementCount + 1 } = counted :=
      ⟨_, rfl⟩
    have hcoherent : Coherent (noteGeneration b c).2.running (noteGeneration b c).2.walReady
        counted := by
      rw [← hcounted, hsameCapture]
      exact { hnoted with }
    have hsameCounted : SameMessages b counted := by
      rw [← hcounted]
      exact { hsame with }
    have hknownCounted : counted.myCaptureGen = 1 := by
      rw [← hcounted]
      exact hknown
    have hxactCounted : counted.txOpen = true → counted.txGen = 1 := by
      rw [hsameCounted.txOpen, hsameCounted.txGen]
      exact hxact
    obtain ⟨hpasses, hpassed⟩ := passGate_counted sessionOk hignored hcounted
    rw [hpasses, hpassed]
    obtain ⟨hgated, hsameGated, hcaptured, ⟨more, hmore⟩, hpassed⟩ := gated_gateNoted hcoherent
      hknownCounted hxactCounted (hsameCounted.finishing.trans hfinishing) sessionOk
    refine ⟨?_, hsameCounted.toSameXact.trans hsameGated, hcaptured,
      ⟨_, hsameCounted.emits.trans hmore⟩, fun hpass => ?_⟩
    · have hrunningNoted : (noteGeneration b c).2.running = c.running := by rw [hsameCapture]
      have hready : (noteGeneration b c).2.walReady = c.walReady := by rw [hsameCapture]
      rw [hrunningNoted, hready] at hgated
      exact hgated
    · obtain ⟨hknownGated, -, hopen⟩ := hpassed hpass
      exact ⟨hknownGated, hxact, hopen⟩

theorem gating_capEnd (kind : HookKind) (body : List UInt8) (b : Backend) :
    (capEnd kind body b).gating = b.gating := by
  rw [capEnd]
  dsimp only
  rw [txBufAdd]
  split_ifs <;> rfl

/-- A message that passes the gate joins its transaction. -/
theorem coherent_captureGate (hb : Coherent c.running c.walReady b)
    (hgeneration : c.running = true → c.generation = 1) (hfinishing : b.finishing = false)
    {sessionOk : Bool} {kind : HookKind} {body : List UInt8}
    (hroom : (captureGate sessionOk kind body b c).1.txBufOverflow = false) :
    Coherent c.running c.walReady (captureGate sessionOk kind body b c).1 ∧
      Captured (captureGate sessionOk kind body b c).1 ∧
      ∃ more, Emits more b (captureGate sessionOk kind body b c).1 := by
  have hgated := gated_abandonedGate hb hgeneration hfinishing sessionOk
  rw [captureGate_fst] at hroom ⊢
  generalize (abandonedGate sessionOk b c).1 = passed at *
  by_cases hpasses : (passGate sessionOk b c).1 = true
  · rw [if_pos hpasses] at hroom ⊢
    obtain ⟨more, hmore⟩ := hgated.emits
    obtain ⟨hknown, hxact, hopen⟩ := hgated.passed hpasses
    have hxactPassed : passed.txOpen = true → passed.txGen = 1 := by
      rw [hgated.same.txOpen, hgated.same.txGen]
      exact hxact
    obtain ⟨hended, hsame, ⟨next, hnext⟩, hcaptured, hknownEnd⟩ :=
      coherent_capEnd hgated.coherent hxactPassed (hgated.same.finishing.trans hfinishing) hknown
        hopen hroom
    refine ⟨hended, fun hinside hgating => ?_, _, hmore.trans hnext⟩
    rw [gating_capEnd] at hgating
    obtain ⟨htxCaptured, -⟩ := hgated.captured (hsame.inXact_iff.mp hinside) hgating
    exact ⟨hcaptured.trans htxCaptured, hknownEnd⟩
  · rw [if_neg hpasses]
    exact ⟨hgated.coherent, hgated.captured, hgated.emits⟩

theorem xactMessages_capEnd (kind : HookKind) (body : List UInt8) (b : Backend) :
    (capEnd kind body b).xactMessages =
      b.xactMessages ++ [b.entry (.hooked kind body) b.openXact] := by
  rw [capEnd]
  dsimp only
  rw [txBufAdd]
  split_ifs <;> rfl

/-- What is hooked in a transaction of the capture is noted as its message. -/
theorem xactMessages_captureGate (hrunning : c.running = true) (hopen : b.txOpen = true)
    (hgen : b.txGen = c.generation) (sessionOk : Bool) (kind : HookKind) (body : List UInt8) :
    ∃ entry, entry.msg = .hooked kind body ∧
      (captureGate sessionOk kind body b c).1.xactMessages = b.xactMessages ++ [entry] := by
  have hpass : ¬(c.running = false ∨ b.txOpen = true ∧ xactIsPre b.txGen c = true) := by
    rw [xactIsPre, hrunning, hgen]
    simp
  have hnoted : (noteGeneration b c).1.xactMessages = b.xactMessages ∧
      (noteGeneration b c).1.txOpen = b.txOpen := by
    rw [noteGeneration]
    split_ifs <;> exact ⟨rfl, rfl⟩
  obtain ⟨hpasses, hpassed⟩ := passGate_counted sessionOk hpass rfl
  have hkept : ∀ (noted : Backend) (c : SharedMemory),
      (markCaptured (goLiveIfReady (noteSession sessionOk noted) c).1).xactMessages =
        noted.xactMessages := by
    intro noted c
    rw [markCaptured, goLiveIfReady, noteSession]
    split_ifs <;> rfl
  have hinside : ¬((noteGeneration b c).1.captureLive = false ∧
      (noteGeneration b c).1.txOpen = false) := by
    rintro ⟨-, hclosed⟩
    cases hopen.symm.trans (hnoted.2.symm.trans hclosed)
  rw [gateNoted, if_neg hinside] at hpasses hpassed
  rw [captureGate_fst, if_pos hpasses, hpassed, xactMessages_capEnd, hkept]
  exact ⟨_, rfl, congrArg (· ++ _) hnoted.1⟩

/-- The end of `tx_finish`: what is still buffered is dropped. -/
theorem coherent_ended (hb : Coherent running walReady b) (hclosed : b.txOpen = false) :
    Coherent running walReady { (if b.captureLive then b else b.resetTxBuf) with
      txCaptured := false, finishing := false } := by
  split_ifs with hlive
  · exact coherent_of_closed hclosed rfl hb.entered hb.live hb.noOverflow
      (hb.unbuffered (.inr hlive)) rfl
  · exact coherent_of_closed hclosed rfl hb.entered hb.live rfl rfl rfl

/-- In `tx_finish` the messages of the transaction are all given to `channel_push` if
`wal_ready` is set, and otherwise none is. -/
theorem coherent_txFinish (hb : Coherent c.running c.walReady b) (hcaptured : Captured b)
    (hgeneration : c.running = true → c.generation = 1) (hfinishing : b.finishing = true) :
    Coherent c.running c.walReady (txFinish b c).1 ∧ currentOf (txFinish b c).1 = none ∧
      Captured (txFinish b c).1 ∧
      ((¬InXact b ∧ (txFinish b c).1.out = b.out) ∨
        InXact b ∧ ∃ more live, Emits more b live ∧ (txFinish b c).1.out = live.out ∧
          currentOf live =
            some ⟨b.xact, if c.walReady then b.xactMessages else [], b.commitPtr⟩) := by
  obtain ⟨hgating, hclosed⟩ := hb.finishing hfinishing
  obtain ⟨done, hdone⟩ : ∃ done, (if b.txCaptured ∧ c.running ∧ b.myCaptureGen = c.generation then
      goLiveIfReady b c else (b, c)) = done := ⟨_, rfl⟩
  have hfinished : (txFinish b c).1 = { (if done.1.captureLive then done.1
      else done.1.resetTxBuf) with txCaptured := false, finishing := false } := by
    rw [txFinish, hdone]
  have hout : (txFinish b c).1.out = done.1.out := by
    rw [hfinished]
    dsimp only
    split_ifs <;> rfl
  have hopened : (txFinish b c).1.txOpen = done.1.txOpen := by
    rw [hfinished]
    dsimp only
    split_ifs <;> rfl
  have hended : (txFinish b c).1.finishing = false := by rw [hfinished]
  by_cases hinside : InXact b
  · obtain ⟨htxCaptured, hknown⟩ := hcaptured hinside hgating
    have hrunning := hb.entered hinside.2
    rw [if_pos ⟨htxCaptured, hrunning, hknown.trans (hgeneration hrunning).symm⟩] at hdone
    obtain ⟨more, hmore, hlive, hsame, hisLive, -, -, hmessages, -⟩ :=
      coherent_goLiveIfReady hb hknown
    rw [hdone] at hmore hlive hsame hisLive hmessages
    have hclosed' : done.1.txOpen = false := hsame.txOpen.trans hclosed
    have houtside := not_inXact_of_closed (hopened.trans hclosed') hended
    refine ⟨?_, currentOf_of_not_inXact houtside, fun hinside => absurd hinside houtside,
      .inr ⟨hinside, more, done.1, hmore, hout, ?_⟩⟩
    · rw [hfinished]
      exact coherent_ended hlive hclosed'
    · rw [currentOf_of_inXact (hsame.inXact_iff.mpr hinside), sentPart, hisLive, hmessages,
        hsame.xact, hsame.commitPtr]
  · have hskipped : ¬(b.txCaptured = true ∧ c.running = true ∧ b.myCaptureGen = c.generation) := by
      rintro ⟨htxCaptured, -⟩
      cases (hb.uncaptured hinside).symm.trans htxCaptured
    rw [if_neg hskipped] at hdone
    have hclosed' : done.1.txOpen = false := by
      rw [← hdone]
      exact hclosed
    have houtside := not_inXact_of_closed (hopened.trans hclosed') hended
    refine ⟨?_, currentOf_of_not_inXact houtside, fun hinside => absurd hinside houtside,
      .inl ⟨hinside, ?_⟩⟩
    · rw [hfinished, ← hdone]
      exact coherent_ended hb hclosed
    · rw [hout, ← hdone]

theorem coherent_pgrExit (hb : Coherent running walReady b) (hclosed : b.txOpen = false)
    (hfinishing : b.finishing = false) (c : SharedMemory) :
    Coherent running walReady (pgrExit b c) ∧ Captured (pgrExit b c) ∧
      ∃ more, Emits more b (pgrExit b c) := by
  have houtside : ∀ b' : Backend, b'.txOpen = b.txOpen → b'.finishing = b.finishing →
      ¬InXact b' := fun b' hopen hfinishes =>
    not_inXact_of_closed (hopen.trans hclosed) (hfinishes.trans hfinishing)
  have hbefore := currentOf_of_not_inXact (houtside b rfl rfl)
  rw [pgrExit]
  dsimp only
  split_ifs
  · refine ⟨{ hb with }, fun hinside => absurd hinside (houtside _ rfl rfl),
      [b.entry .disconnect none], rfl, ?_, ?_⟩
    · apply (currentOf_of_not_inXact (houtside _ rfl rfl)).trans
      rw [hbefore]
      rfl
    · intro entry hentry number hnumber
      rw [List.mem_singleton.mp hentry] at hnumber
      cases hnumber
  · refine ⟨{ hb with }, fun hinside => absurd hinside (houtside _ rfl rfl), [], emits_nil rfl ?_⟩
    exact (currentOf_of_not_inXact (houtside _ rfl rfl)).trans hbefore.symm

/-- A transaction that is entered while the capture runs is one of the capture. -/
theorem coherent_enterXact (hb : Coherent c.running walReady b)
    (hgeneration : c.running = true → c.generation = 1) (hfinishing : b.finishing = false)
    (hclosed : b.txOpen = false) (xact : ℕ) :
    Coherent c.running walReady (enterXact xact b c).1 ∧ (enterXact xact b c).1.out = b.out ∧
      currentOf (enterXact xact b c).1 = if c.running then some ⟨xact, [], none⟩ else none := by
  have houtside := not_inXact_of_closed hclosed hfinishing
  have hinside_iff : ∀ b' : Backend, b'.txOpen = true →
      b'.txGen = (if c.running then c.generation else 0) → (InXact b' ↔ c.running = true) := by
    intro b' hopen hgen
    rw [InXact, hgen]
    cases hrunning : c.running with
    | true => simp [hopen, hgeneration hrunning]
    | false => simp
  have hcurrent : ∀ b' : Backend, b'.txOpen = true →
      b'.txGen = (if c.running then c.generation else 0) → b'.xact = xact →
      b'.commitPtr = none → b'.xactMessages = [] →
      currentOf b' = if c.running then some ⟨xact, [], none⟩ else none := by
    intro b' hopen hgen hxact hptr hmessages
    have hunsent : sentPart b' = [] := by
      rw [sentPart, hmessages, ite_self]
    by_cases hrunning : c.running = true
    · rw [currentOf_of_inXact ((hinside_iff b' hopen hgen).mpr hrunning), if_pos hrunning, hxact,
        hptr, hunsent]
    · rw [currentOf_of_not_inXact (mt (hinside_iff b' hopen hgen).mp hrunning), if_neg hrunning]
  have hentered : (if c.running then c.generation else 0) = 1 → c.running = true := by
    intro hone
    by_contra hstopped
    rw [if_neg hstopped] at hone
    cases hone
  rw [enterXact]
  dsimp only
  by_cases hlive : b.captureLive = true
  · rw [if_pos hlive]
    refine ⟨?_, rfl, hcurrent _ rfl rfl rfl rfl rfl⟩
    exact
      { entered := hentered
        live := hb.live
        noOverflow := hb.noOverflow
        buffered := fun _ hdead => absurd hlive (Bool.eq_false_iff.mp hdead)
        unbuffered := fun _ => hb.unbuffered (.inl houtside)
        unknown := fun _ _ => rfl
        uncaptured := fun _ => rfl
        marks := fun _ => List.forall_mem_nil _
        finishing := fun hfinishes => absurd hfinishes (Bool.eq_false_iff.mp hfinishing) }
  · rw [if_neg hlive]
    refine ⟨?_, rfl, hcurrent _ rfl rfl rfl rfl rfl⟩
    exact
      { entered := hentered
        live := hb.live
        noOverflow := rfl
        buffered := fun _ _ => rfl
        unbuffered := fun _ => rfl
        unknown := fun _ _ => rfl
        uncaptured := fun _ => rfl
        marks := fun _ => List.forall_mem_nil _
        finishing := fun hfinishes => absurd hfinishes (Bool.eq_false_iff.mp hfinishing) }

theorem sync_enterXact (xact : ℕ) (b : Backend) (c : SharedMemory) :
    (enterXact xact b c).1.sync = b.sync ∧ (enterXact xact b c).1.syncGen = b.syncGen ∧
      (enterXact xact b c).1.finishing = b.finishing := by
  rw [enterXact]
  dsimp only
  split_ifs <;> exact ⟨rfl, rfl, rfl⟩

theorem Coherent.setGating (hb : Coherent running walReady b) (hfinishing : b.finishing = false)
    (gating : Option (HookKind × List UInt8)) :
    Coherent running walReady { b with gating := gating } :=
  { hb with finishing := fun hfinishes => absurd hfinishes (Bool.eq_false_iff.mp hfinishing) }

theorem Coherent.mono {running' walReady' : Bool} (hb : Coherent running walReady b)
    (hrunning : running = true → running' = true) (hready : walReady = true → walReady' = true) :
    Coherent running' walReady' b :=
  { hb with
    entered := fun hgen => hrunning (hb.entered hgen)
    live := fun hlive => (hb.live hlive).imp_left hready }

theorem coherent_markPre (hb : Coherent running walReady b) : Coherent running walReady b.markPre :=
  { hb with }

theorem coherent_decideSync (hb : Coherent running walReady b) (decision : Bool × SharedMemory) :
    Coherent running walReady (b.decideSync decision) ∧ SameMessages b (b.decideSync decision) ∧
      (Captured b → Captured (b.decideSync decision)) := by
  rw [Backend.decideSync]
  split_ifs
  · exact ⟨{ hb with }, ⟨⟨rfl, rfl, rfl, rfl, rfl⟩, rfl, rfl, rfl, rfl⟩, id⟩
  · exact ⟨hb, ⟨⟨rfl, rfl, rfl, rfl, rfl⟩, rfl, rfl, rfl, rfl⟩, id⟩

/-- A transaction that has left the counters has still to decide. -/
theorem coherent_leaving (hb : Coherent running walReady b) (hcaptured : Captured b)
    (hopen : b.txOpen = true) (hgating : b.gating = none) :
    Coherent running walReady { b with txOpen := false, finishing := true } ∧
      Captured { b with txOpen := false, finishing := true } ∧
      currentOf { b with txOpen := false, finishing := true } = currentOf b := by
  have hiff : InXact { b with txOpen := false, finishing := true } ↔ InXact b :=
    ⟨fun hleaving => ⟨.inl hopen, hleaving.2⟩, fun hinside => ⟨.inr rfl, hinside.2⟩⟩
  refine ⟨?_, fun hleaving => hcaptured (hiff.mp hleaving), ?_⟩
  · exact
      { entered := hb.entered
        live := hb.live
        noOverflow := hb.noOverflow
        buffered := fun hleaving => hb.buffered (hiff.mp hleaving)
        unbuffered := fun hout => hb.unbuffered (hout.imp_left (mt hiff.mpr))
        unknown := fun hleaving => hb.unknown (hiff.mp hleaving)
        uncaptured := fun houtside => hb.uncaptured (mt hiff.mpr houtside)
        marks := fun hleaving => hb.marks (hiff.mp hleaving)
        finishing := fun _ => ⟨hgating, rfl⟩ }
  · by_cases hinside : InXact b
    · rw [currentOf_of_inXact hinside]
      exact currentOf_of_inXact (hiff.mpr hinside)
    · rw [currentOf_of_not_inXact hinside]
      exact currentOf_of_not_inXact (mt hiff.mp hinside)

theorem xactLeaveShared_same (gen : UInt32) (c : SharedMemory) :
    (xactLeaveShared gen c).2.walReady = c.walReady ∧
      (xactLeaveShared gen c).2.running = c.running ∧
      (xactLeaveShared gen c).2.generation = c.generation ∧
      ((xactLeaveShared gen c).1 = true → c.running = true) := by
  rw [xactLeaveShared]
  dsimp only
  split_ifs with hcounted
  · exact ⟨rfl, rfl, rfl, fun _ => hcounted.1⟩
  · exact ⟨rfl, rfl, rfl, by rintro ⟨⟩⟩

theorem not_inXact_init (isPsql : Bool) : ¬InXact (Backend.init isPsql) :=
  not_inXact_of_closed rfl rfl

theorem coherent_init (isPsql : Bool) : Coherent running walReady (Backend.init isPsql) :=
  coherent_of_closed rfl rfl (by rintro ⟨⟩) (by rintro ⟨⟩) rfl rfl rfl

end Pgr.XactMessages
