import Pgr.Pipeline.CaptureFormat
import Pgr.Pipeline.EventFiles

/-!
# Capture files, from the backends to their reader

Backends encode their calls, hold back those of a pending transaction and push them one by
one; the worker of the capture channel opens a file at an LSN message and writes what it
pops.  A file is read back as calls that were made, each no more often than it was made,
from its LSN message up to wherever the file is cut.
-/

namespace Pgr.CaptureFiles

open Pgr.Decoding Pgr.Capture Pgr.CaptureEncoder Pgr.CaptureFormat Pgr.Ring Pgr.WholeMessages
  Pgr.ChannelFiles Pgr.Transition

/-- A call of a backend into `capture.c`. -/
abbrev Call (ι : Type) := ι × Stamp × CaptureCall

variable {ι : Type}

def layout (call : Call ι) : List UInt8 :=
  messageLayout call.2.1 call.2.2

def message (call : Call ι) : CaptureMessage :=
  decodedMessage call.2.1 call.2.2

def call? : ServerMove ι → Option (Call ι)
  | .backend (.capture i (.call stamp call _)) => some (i, stamp, call)
  | _ => none

/-! ## One call -/

theorem kept_txbufReset (large : Bool) (e : Encoder) : (captureTxbufReset large e).kept = [] := by
  rw [captureTxbufReset]
  dsimp only
  split_ifs <;> rfl

theorem kept_txbufAdd (bytes : List UInt8) (e : Encoder) :
    (txbufAdd bytes e).kept = e.kept ∨ (txbufAdd bytes e).kept = e.kept ++ [bytes] := by
  have hinit : (initTxBuf e).kept = e.kept := by
    rw [initTxBuf]
    split_ifs <;> rfl
  rw [txbufAdd]
  split_ifs
  · exact .inl hinit
  · exact .inl hinit
  · exact .inr (congrArg (· ++ [bytes]) hinit)

/-- The calls that a message handed over goes to the channel for, and those that the pending
transaction holds. -/
abbrev Splits (pushed kept : List (List UInt8)) (calls : List (Call ι)) : Prop :=
  ∃ front back : List (Call ι), pushed = front.map layout ∧ kept = back.map layout ∧
    (front : Multiset (Call ι)) + back ≤ calls

theorem ownMessage_calls (call : Call ι) :
    ownMessage call.2.1 call.2.2 = none ∨ ownMessage call.2.1 call.2.2 = some (layout call) := by
  rw [ownMessage]
  split_ifs
  · exact .inr rfl
  · exact .inl rfl

/-- A message of one's own is pushed, added to the pending ones, or lost. -/
theorem splits_hand (call : Call ι) {op : Op} {e : Encoder} {kept : List (Call ι)}
    {buffer : CaptureBuffer} (hkept : e.kept = kept.map layout)
    (hperform : perform op e =
      hand (ownMessage call.2.1 call.2.2) { e with buffer := buffer }) :
    Splits (perform op e).1.pushed (perform op e).2.kept (call :: kept) := by
  have hlost : (kept : Multiset (Call ι)) ≤ (call :: kept : List (Call ι)) :=
    Multiset.coe_le.mpr (List.sublist_cons_self call kept).subperm
  rw [hperform]
  rcases ownMessage_calls call with hnone | hsome
  · rw [hnone]
    exact ⟨[], kept, rfl, hkept, by simpa using hlost⟩
  · rw [hsome, hand]
    split_ifs
    · exact ⟨[call], kept, rfl, hkept, le_of_eq rfl⟩
    · rcases kept_txbufAdd (layout call) { e with buffer := buffer } with hsame | hadded
      · exact ⟨[], kept, rfl, hsame.trans hkept, by simpa using hlost⟩
      · refine ⟨[], kept ++ [call], rfl, ?_, ?_⟩
        · rw [List.map_append, List.map_singleton, ← hkept]
          exact hadded
        · rw [Multiset.coe_nil, zero_add]
          exact Multiset.coe_le.mpr List.perm_append_comm.subperm

theorem splits_goLive (i : ι) (stamp : Stamp) (session : CString) (large : Bool) {e : Encoder}
    {kept : List (Call ι)} (hinv : WholeMessages.Inv e) (hkept : e.kept = kept.map layout) :
    Splits (perform (.call stamp (.connect session) large) e).1.pushed
      (perform (.call stamp (.connect session) large) e).2.kept
      ((i, stamp, .connect session) :: kept) := by
  have hnone : (perform (.call stamp (.connect session) large) e).2.kept = [] :=
    kept_txbufReset large _
  have hpending : ∃ back : List (Call ι), List.Sublist back kept ∧
      (if e.txBufOverflow then [] else e.kept) = back.map layout := by
    split_ifs
    · exact ⟨[], List.nil_sublist _, rfl⟩
    · exact ⟨kept, List.Sublist.refl _, hkept⟩
  obtain ⟨back, hback, heq⟩ := hpending
  rw [hnone, (spec_goLive hinv stamp session large).handed, expected, heq]
  rcases ownMessage_calls (i, stamp, CaptureCall.connect session) with hlost | hown
  · refine ⟨back, [], by rw [hlost]; rfl, rfl, ?_⟩
    rw [Multiset.coe_nil, add_zero]
    exact Multiset.coe_le.mpr (hback.cons _).subperm
  · refine ⟨(i, stamp, .connect session) :: back, [], by rw [hown]; rfl, rfl, ?_⟩
    rw [Multiset.coe_nil, add_zero]
    exact Multiset.coe_le.mpr (hback.cons_cons _).subperm

/-- The call that is counted for a backend. -/
def own (i : ι) : Op → List (Call ι)
  | .call stamp call _ => [(i, stamp, call)]
  | .abandonedBind .. | .txEnd _ | .txbufReset _ | .newGeneration _ => []

/-- What a call pushes and what it leaves in the pending transaction stands for this call
and those that were pending, each of them once. -/
theorem splits_perform (i : ι) (op : Op) {e : Encoder} {kept : List (Call ι)}
    (hinv : WholeMessages.Inv e) (hkept : e.kept = kept.map layout) :
    Splits (perform op e).1.pushed (perform op e).2.kept (own i op ++ kept) := by
  have hidle : Splits ([] : List (List UInt8)) e.kept kept :=
    ⟨[], kept, rfl, hkept, by simp⟩
  cases op with
  | call stamp call large =>
      have hencode := encodeCall_ownMessage stamp call e.buffer
      cases call with
      | lsn insertPtr =>
          rw [perform, captureSyncLsn_eq]
          exact ⟨[(i, stamp, .lsn insertPtr)], kept, rfl, hkept, le_of_eq rfl⟩
      | connect session => exact splits_goLive i stamp session large hinv hkept
      | _ =>
          apply splits_hand (i, stamp, _) hkept
          exact congrArg (fun message => hand message.1 { e with buffer := message.2 }) hencode
  | abandonedBind | txEnd => exact hidle
  | txbufReset large | newGeneration large =>
      exact ⟨[], [], rfl, kept_txbufReset large e, by simp⟩

/-! ## What the ring has accepted -/

section Runs

variable [DecidableEq ι] {data : Kind → ℕ → UInt8} {s s' : Server ι}

/-- The calls that a backend has made, against those that its messages in the ring, its
messages left to push and its pending transaction stand for. -/
abbrev Accounts (i : ι) (calls sent : List (Call ι)) (unpushed : List (List UInt8))
    (e : Encoder) : Prop :=
  ∃ front back : List (Call ι), unpushed = front.map layout ∧ e.kept = back.map layout ∧
    (sent.filter (·.1 = i) : Multiset (Call ι)) + front + back ≤ calls.filter (·.1 = i)

section Accounts

variable {i j : ι} {calls sent : List (Call ι)} {unpushed : List (List UInt8)} {e : Encoder}

theorem filter_own (i : ι) (op : Op) : (own i op).filter (·.1 = i) = own i op := by
  cases op <;> simp [own]

theorem filter_own_of_ne (hij : i ≠ j) (op : Op) : (own j op).filter (·.1 = i) = [] := by
  cases op <;> simp [own, hij.symm]

/-- A call of another backend. -/
theorem Accounts.other (haccounts : Accounts i calls sent unpushed e) (hij : i ≠ j) (op : Op) :
    Accounts i (calls ++ own j op) sent unpushed e := by
  obtain ⟨front, back, hunpushed, hkept, hle⟩ := haccounts
  refine ⟨front, back, hunpushed, hkept, ?_⟩
  rwa [List.filter_append, filter_own_of_ne hij, List.append_nil]

theorem Accounts.call (haccounts : Accounts i calls sent [] e) (hinv : WholeMessages.Inv e)
    (op : Op) :
    Accounts i (calls ++ own i op) sent (perform op e).1.pushed (perform op e).2 := by
  obtain ⟨before, kept, hidle, hkept, hle⟩ := haccounts
  obtain ⟨front, back, hpushed, hback, hsplit⟩ := splits_perform i op hinv hkept
  have hnil : before = [] := List.map_eq_nil_iff.mp hidle.symm
  rw [hnil, Multiset.coe_nil, add_zero] at hle
  refine ⟨front, back, hpushed, hback, ?_⟩
  rw [List.filter_append, filter_own, add_assoc, ← Multiset.coe_add]
  calc (sent.filter (·.1 = i) : Multiset (Call ι)) + (front + back)
      ≤ (sent.filter (·.1 = i) : Multiset (Call ι)) + (own i op ++ kept : List (Call ι)) :=
        add_le_add_right hsplit _
    _ = (sent.filter (·.1 = i) + kept : Multiset (Call ι)) + own i op := by
        rw [← Multiset.coe_add, add_assoc, add_comm (own i op : Multiset (Call ι))]
    _ ≤ calls.filter (·.1 = i) + own i op := add_le_add_left hle _

/-- The next message goes to the ring, or is lost with its call. -/
theorem Accounts.push {bytes : List UInt8} {rest : List (List UInt8)}
    (haccounts : Accounts i calls sent (bytes :: rest) e) :
    Accounts i calls sent rest e ∧ ∃ call : Call ι, call.1 = i ∧ layout call = bytes ∧
      Accounts i calls (sent ++ [call]) rest e := by
  obtain ⟨front, back, hunpushed, hkept, hle⟩ := haccounts
  cases front with
  | nil => cases hunpushed
  | cons call front =>
      obtain ⟨rfl, rfl⟩ := List.cons.inj hunpushed
      have hcall : call ∈ calls.filter (·.1 = i) :=
        Multiset.mem_of_le hle (by simp)
      have hi : call.1 = i := by simpa using (List.mem_filter.mp hcall).2
      have hmoved : (sent.filter (·.1 = i) : Multiset (Call ι)) + (call :: front : List (Call ι)) =
          (sent ++ [call]).filter (·.1 = i) + front := by
        rw [List.filter_append, List.filter_singleton, hi, ← Multiset.coe_add, add_assoc]
        simp
      refine ⟨⟨front, back, rfl, hkept, le_trans ?_ hle⟩, call, hi, rfl,
        ⟨front, back, rfl, hkept, ?_⟩⟩
      · apply add_le_add_left
        apply add_le_add_right
        exact Multiset.coe_le.mpr (List.sublist_cons_self call front).subperm
      · rwa [hmoved] at hle

theorem Accounts.otherPush (haccounts : Accounts i calls sent unpushed e) {call : Call ι}
    (hcall : call.1 ≠ i) : Accounts i calls (sent ++ [call]) unpushed e := by
  obtain ⟨front, back, hunpushed, hkept, hle⟩ := haccounts
  refine ⟨front, back, hunpushed, hkept, ?_⟩
  rwa [List.filter_append, List.filter_singleton, decide_eq_false hcall, Bool.cond_false,
    List.append_nil]

end Accounts

/-- The messages that the ring has accepted stand for calls that were made. -/
abbrev Sent (calls : List (Call ι)) (base : WholeMessages.System ι) : Prop :=
  ∃ sent : List (Call ι),
    (base.rings .capture).accepted.map Message.bytes = sent.map layout ∧
    ∀ i, Accounts i calls sent (base.unpushed i) (base.encoders i)

section Sent

variable {calls : List (Call ι)} {base base' : WholeMessages.System ι}

/-- A step that neither calls nor begins a push to the capture channel. -/
theorem Sent.frame (hsent : Sent calls base)
    (haccepted : (base'.rings .capture).accepted.map Message.bytes =
      (base.rings .capture).accepted.map Message.bytes)
    (hunpushed : base'.unpushed = base.unpushed) (hencoders : base'.encoders = base.encoders) :
    Sent calls base' := by
  obtain ⟨sent, hsame, haccounts⟩ := hsent
  refine ⟨sent, haccepted.trans hsame, fun i => ?_⟩
  rw [hunpushed, hencoders]
  exact haccounts i

omit [DecidableEq ι] in
theorem frame_map {kind : Kind} {ring : Option (Ring.State ι)}
    (hmap : ring.map (base.setRing kind) = some base') :
    base'.unpushed = base.unpushed ∧ base'.encoders = base.encoders := by
  obtain ⟨ring, -, rfl⟩ := Option.map_eq_some_iff.mp hmap
  exact ⟨rfl, rfl⟩

theorem Sent.noCall (hsent : Sent calls base) {move : ServerMove ι} (hnone : call? move = none) :
    Sent (calls ++ (call? move).toList) base := by
  rwa [hnone, Option.toList_none, List.append_nil]

/-- A record of another channel. -/
theorem Sent.record (hsent : Sent calls base) {kind : Kind} (hkind : Kind.capture ≠ kind) {i : ι}
    {bytes : List UInt8} (hfits : Fits kind bytes) (hpush : base.pushTo kind i bytes = some base') :
    Sent calls base' := by
  rcases EventFiles.accepted_pushTo hfits hpush .capture with hsame | ⟨hcapture, -⟩
  · exact hsent.frame hsame (frame_map hpush).1 (frame_map hpush).2
  · exact absurd hcapture hkind

theorem Sent.call (hsent : Sent calls base) {i : ι} (hinv : WholeMessages.Inv (base.encoders i))
    (hidle : base.unpushed i = []) (op : Op) :
    Sent (calls ++ own i op) { base with
      encoders := Function.update base.encoders i (perform op (base.encoders i)).2
      unpushed := Function.update base.unpushed i (perform op (base.encoders i)).1.pushed } := by
  obtain ⟨sent, haccepted, haccounts⟩ := hsent
  refine ⟨sent, haccepted, fun j => ?_⟩
  by_cases hj : j = i
  · subst hj
    have haccount := haccounts j
    rw [hidle] at haccount
    simpa using haccount.call hinv op
  · simpa [hj] using (haccounts j).other hj op

theorem Sent.push (hsent : Sent calls base) {i : ι} {bytes : List UInt8}
    {rest : List (List UInt8)} (hunpushed : base.unpushed i = bytes :: rest)
    (hfits : Fits .capture bytes)
    (hpush : { base with unpushed := Function.update base.unpushed i rest }.pushTo .capture i
      bytes = some base') : Sent calls base' := by
  obtain ⟨sent, haccepted, haccounts⟩ := hsent
  have haccount := haccounts i
  rw [hunpushed] at haccount
  obtain ⟨hlost, call, hi, rfl, hadded⟩ := haccount.push
  obtain ⟨hframe, hencoders⟩ := frame_map hpush
  rcases EventFiles.accepted_pushTo hfits hpush .capture with hsame | ⟨-, hnext⟩
  · refine ⟨sent, hsame.trans haccepted, fun j => ?_⟩
    rw [hframe, hencoders]
    by_cases hj : j = i
    · subst hj
      simpa using hlost
    · simpa [hj] using haccounts j
  · refine ⟨sent ++ [call], ?_, fun j => ?_⟩
    · rw [hnext, List.map_append, List.map_singleton]
      exact congrArg (· ++ [layout call]) haccepted
    · rw [hframe, hencoders]
      by_cases hj : j = i
      · subst hj
        simpa using hadded
      · have hother : call.1 ≠ j := by
          rw [hi]
          exact Ne.symm hj
        simpa [hj] using (haccounts j).otherPush hother

end Sent

omit [DecidableEq ι] in
theorem toList_call? (i : ι) (op : Op) :
    (call? (.backend (.capture i op))).toList = own i op := by
  cases op <;> rfl

theorem sent_step {calls : List (Call ι)} (hreached : Reached data s) (hsent : Sent calls s.base)
    {move : ServerMove ι} (hstep : s.step move = some s') :
    Sent (calls ++ (call? move).toList) s'.base := by
  cases move with
  | backend move =>
      rw [Server.step] at hstep
      split_ifs at hstep with hbackend
      obtain ⟨base, hbase, rfl⟩ := Option.map_eq_some_iff.mp hstep
      cases move with
      | capture i op =>
          rw [WholeMessages.System.step] at hbase
          split_ifs at hbase with hidle
          cases hbase
          rw [toList_call?]
          exact hsent.call (hreached.base.encoders i) hidle op
      | push i =>
          rw [WholeMessages.System.step] at hbase
          refine Sent.noCall ?_ rfl
          cases hunpushed : s.base.unpushed i with
          | nil =>
              rw [hunpushed] at hbase
              cases hbase
          | cons bytes rest =>
              rw [hunpushed] at hbase
              have hfits : Fits .capture bytes :=
                hreached.base.unpushed i bytes (by rw [hunpushed]; exact List.mem_cons_self)
              exact hsent.push hunpushed hfits hbase
      | trace i backend durationUs eventType =>
          refine Sent.noCall ?_ rfl
          have hfits : Fits .trace (Trace.traceRecord backend durationUs eventType) :=
            length_traceRecord backend durationUs eventType
          exact hsent.record (by rintro ⟨⟩) hfits hbase
      | timing i backend type ts =>
          refine Sent.noCall ?_ rfl
          have hfits : Fits .timing (Trace.timingRecord backend type ts) :=
            length_timingRecord backend type ts
          exact hsent.record (by rintro ⟨⟩) hfits hbase
      | ring kind label =>
          refine Sent.noCall ?_ rfl
          have haccepted := EventFiles.accepted_ring hbackend hbase .capture
          cases label with
          | pushFirst | pushRest | setReady =>
              exact hsent.frame (congrArg _ haccepted) (frame_map hbase).1 (frame_map hbase).2
          | _ => cases hbackend
  | setId | nextGeneration | setRunning =>
      cases hstep
      refine Sent.noCall ?_ rfl
      exact hsent
  | worker kind signal =>
      obtain ⟨result, hworker, rfl⟩ := Option.map_eq_some_iff.mp hstep
      refine Sent.noCall ?_ rfl
      exact hsent.frame (congrArg _ (EventFiles.accepted_worker hworker .capture)) rfl rfl

end Runs

/-! ## The beginning of a file -/

section Opened

variable [DecidableEq ι] {ring ring' : Ring.State ι} {w w' : ChannelWorker}
  {files files' : FilesById} {signal : Bool} {ch : Channel}

/-- The worker of the capture channel opens a file for an LSN message only, and writes it
before all others. -/
structure Opened (w : ChannelWorker) (files : FilesById) : Prop where
  opening : w.pc ≠ .opening
  popped : ∀ bytes caller, w.pc = .openPopped bytes caller → bytes.head? = some msgTypeLsn
  begun : ∀ id, files id = [] ∨ (files id).head? = some msgTypeLsn
  written : ∀ id, w.file = some id → files id ≠ []

omit [DecidableEq ι] in
/-- The worker stays away from `open_file`. -/
theorem Opened.goOn (hopened : Opened w files) (hfile : w'.file = w.file ∨ w'.file = none)
    (hopening : w'.pc ≠ .opening) (hpopped : ∀ bytes caller, w'.pc ≠ .openPopped bytes caller) :
    Opened w' files where
  opening := hopening
  popped bytes caller hpc := absurd hpc (hpopped bytes caller)
  begun := hopened.begun
  written id hid := by
    rcases hfile with hsame | hnone
    · exact hopened.written id (hsame ▸ hid)
    · rw [hnone] at hid
      cases hid

theorem pc_eventsDone (signal : Bool) (caller : Caller) (w : ChannelWorker) :
    (eventsDone signal caller w).pc ≠ .opening ∧
      ∀ bytes caller', (eventsDone signal caller w).pc ≠ .openPopped bytes caller' := by
  cases caller with
  | stopped | shutdown => exact ⟨by rintro ⟨⟩, by rintro _ _ ⟨⟩⟩
  | loop | afterReset =>
      rw [eventsDone]
      split_ifs <;> exact ⟨by rintro ⟨⟩, by rintro _ _ ⟨⟩⟩

theorem pc_afterPop {caller : Caller} (hpc : w.pc = .writeEvents caller) (signal : Bool)
    (before after : Consumer) :
    (afterPop signal caller before after w).pc ≠ .opening ∧
      ∀ bytes caller', (afterPop signal caller before after w).pc ≠ .openPopped bytes caller' := by
  have hsame : w.pc ≠ .opening ∧ ∀ bytes caller', w.pc ≠ .openPopped bytes caller' := by
    rw [hpc]
    exact ⟨by rintro ⟨⟩, by rintro _ _ ⟨⟩⟩
  cases before with
  | idle =>
      cases after with
      | idle => exact pc_eventsDone signal caller w
      | _ => exact hsame
  | freed pop => exact ⟨by rintro ⟨⟩, by rintro _ _ ⟨⟩⟩
  | _ => exact hsame

theorem opened_workerStep (hopened : Opened w files)
    (hstep : workerStep .capture signal ch ring w files = some (ring', w', files')) :
    Opened w' files' := by
  cases hpc : w.pc with
  | writeEvents caller =>
      simp only [workerStep, hpc] at hstep
      obtain ⟨ring₁, hring, heq⟩ := Option.map_eq_some_iff.mp hstep
      cases heq
      obtain ⟨hopening, hpopped⟩ := pc_afterPop hpc signal ring.consumer ring'.consumer
      exact hopened.goOn (file_afterPop signal caller _ _ w) hopening hpopped
  | popped bytes caller =>
      simp only [workerStep, hpc] at hstep
      cases hfile : w.file with
      | some id =>
          simp only [hfile] at hstep
          cases hstep
          have hne := hopened.written id hfile
          refine ⟨by rintro ⟨⟩, by rintro _ _ ⟨⟩, fun other => ?_, fun other hother => ?_⟩
          · by_cases hid : other = id
            · subst hid
              rw [Function.update_self, List.head?_append_of_ne_nil _ hne]
              exact .inr ((hopened.begun other).resolve_left hne)
            · rw [Function.update_of_ne hid]
              exact hopened.begun other
          · obtain rfl : id = other := Option.some.inj (hfile.symm.trans hother)
            rw [Function.update_self]
            exact List.append_ne_nil_of_left_ne_nil hne bytes
      | none =>
          simp only [hfile] at hstep
          split_ifs at hstep with hskip <;> cases hstep
          · exact hopened.goOn (.inl rfl) (by rintro ⟨⟩) (by rintro _ _ ⟨⟩)
          · have hhead : bytes.head? = some msgTypeLsn := by
              by_contra hother
              exact hskip (.inr (.inl hother))
            refine ⟨by rintro ⟨⟩, ?_, hopened.begun, hopened.written⟩
            rintro _ _ ⟨⟩
            exact hhead
  | openPopped bytes caller =>
      simp only [workerStep, hpc] at hstep
      have hhead := hopened.popped bytes caller hpc
      split_ifs at hstep <;> cases hstep
      · exact hopened.goOn (.inr rfl) (by rintro ⟨⟩) (by rintro _ _ ⟨⟩)
      · refine ⟨by rintro ⟨⟩, by rintro _ _ ⟨⟩, fun other => ?_, fun other hother => ?_⟩
        · by_cases hid : other = ch.id
          · subst hid
            rw [Function.update_self]
            exact .inr hhead
          · rw [Function.update_of_ne hid]
            exact hopened.begun other
        · obtain rfl : ch.id = other := Option.some.inj hother
          rw [Function.update_self]
          intro hnil
          rw [hnil] at hhead
          cases hhead
  | opening => exact absurd hpc hopened.opening
  | exited =>
      simp only [workerStep, hpc] at hstep
      cases hstep
      exact hopened.goOn (.inr rfl) (by rintro ⟨⟩) (by rintro _ _ ⟨⟩)
  | openTest =>
      simp only [workerStep, hpc] at hstep
      split_ifs at hstep with hopens <;> cases hstep
      · exact absurd hopens.1 (by decide)
      · exact hopened.goOn (.inl rfl) (by rintro ⟨⟩) (by rintro _ _ ⟨⟩)
  | top | stopTest | tryExit =>
      simp only [workerStep, hpc] at hstep
      split_ifs at hstep <;> cases hstep
      all_goals first
        | exact hopened.goOn (.inl rfl) (by rintro ⟨⟩) (by rintro _ _ ⟨⟩)
        | exact hopened.goOn (.inr rfl) (by rintro ⟨⟩) (by rintro _ _ ⟨⟩)

end Opened

/-! ## Reading a file -/

/-- `CaptureReader` finds the sync point and then the messages of the calls. -/
def ReadsAs (part : List UInt8) (stamp : Stamp) (insertPtr : UInt64) (calls : List (Call ι)) :
    Prop :=
  ∃ reader, CaptureReader.new part = .ok reader ∧ reader.lsn = insertPtr ∧
    reader.startTs = stamp.timestamp ∧
    readLog readEvent reader.buf.length reader.buf = calls.map message

def Fit (call : Call ι) : Prop :=
  CountsFit call.2.2 ∧ (layout call).length ≤ captureBufferSize

theorem readsRecord_layout {call : Call ι} (hfit : Fit call) :
    ReadsRecord readEvent (layout call) (message call) :=
  readsRecord_messageLayout call.2.1 hfit.1 hfit.2

theorem length_layout_pos (call : Call ι) : 0 < (layout call).length := by
  simp [layout, messageLayout, headLayout]

theorem length_le_flatMap_layout (calls : List (Call ι)) :
    calls.length ≤ (calls.flatMap layout).length := by
  induction calls with
  | nil => exact le_rfl
  | cons call calls ih =>
      have hcall := length_layout_pos call
      rw [List.flatMap_cons, List.length_append, List.length_cons]
      omega

/-- The messages that lie wholly in front of the cut. -/
theorem readLog_calls {calls : List (Call ι)} (hfit : ∀ call ∈ calls, Fit call)
    {part : List UInt8} (hpart : part <+: calls.flatMap layout) :
    ∃ count ≤ calls.length, (calls.take count).flatMap layout <+: part ∧
      (count < calls.length → ¬(calls.take (count + 1)).flatMap layout <+: part) ∧
      readLog readEvent part.length part = (calls.take count).map message := by
  have hrecords : ∀ record ∈ calls.map fun call => (layout call, message call),
      ReadsRecord readEvent record.1 record.2 := by
    intro record hrecord
    obtain ⟨call, hcall, rfl⟩ := List.mem_map.mp hrecord
    exact readsRecord_layout (hfit call hcall)
  have hflat : ∀ calls : List (Call ι),
      ((calls.map fun call => (layout call, message call)).map Prod.fst).flatten =
        calls.flatMap layout := by
    intro calls
    rw [List.map_map, List.flatMap_def]
    rfl
  rw [← hflat] at hpart
  obtain ⟨count, hcount, hwhole, hnext, hread⟩ := readMany_truncated readEvent_nil hrecords hpart
  rw [List.length_map] at hcount hnext
  rw [← List.map_take, hflat] at hwhole
  refine ⟨count, hcount, hwhole, fun hlt => ?_, ?_⟩
  · have hcut := hnext hlt
    rwa [← List.map_take, hflat] at hcut
  · have hlength : ((calls.take count).map message).length = count := by
      simp [hcount]
    obtain ⟨rest, hrest⟩ := hread 1
    apply readLog_of_readMany
    · rw [hlength, hrest, ← List.map_take, List.map_map, List.map_map]
      rfl
    · have hshort := (length_le_flatMap_layout (calls.take count)).trans hwhole.length_le
      rwa [List.length_take_of_le hcount, ← hlength] at hshort

theorem readsAs_part {i : ι} {stamp : Stamp} {insertPtr : UInt64} {calls : List (Call ι)}
    (hfit : ∀ call ∈ (i, stamp, CaptureCall.lsn insertPtr) :: calls, Fit call)
    {part : List UInt8}
    (hpart : part <+: ((i, stamp, CaptureCall.lsn insertPtr) :: calls).flatMap layout)
    (hbegun : messageLayout stamp (.lsn insertPtr) <+: part) :
    ∃ count ≤ calls.length, ReadsAs part stamp insertPtr (calls.take count) ∧
      messageLayout stamp (.lsn insertPtr) ++ (calls.take count).flatMap layout <+: part ∧
      (count < calls.length →
        ¬messageLayout stamp (.lsn insertPtr) ++ (calls.take (count + 1)).flatMap layout <+:
          part) := by
  obtain ⟨rest, rfl⟩ := hbegun
  rw [List.flatMap_cons, layout, List.prefix_append_right_inj] at hpart
  obtain ⟨count, hcount, hwhole, hnext, hread⟩ :=
    readLog_calls (fun call hcall => hfit call (List.mem_cons_of_mem _ hcall)) hpart
  have hlsn := readsRecord_layout (hfit _ List.mem_cons_self)
  refine ⟨count, hcount, ⟨⟨rest, insertPtr, stamp.timestamp⟩, ?_, rfl, rfl, hread⟩, ?_, ?_⟩
  · have hnew := hlsn.run_append rest
    rw [layout] at hnew
    rw [CaptureReader.new, hnew]
    rfl
  · exact (List.prefix_append_right_inj _).mpr hwhole
  · intro hlt
    rw [List.prefix_append_right_inj]
    exact hnext hlt

theorem begins_with_lsn {file : List UInt8} {messages : List (Call ι)}
    (hfile : file = messages.flatMap layout) (hhead : file.head? = some msgTypeLsn) :
    ∃ i stamp insertPtr calls, messages = (i, stamp, CaptureCall.lsn insertPtr) :: calls := by
  cases messages with
  | nil =>
      rw [hfile] at hhead
      cases hhead
  | cons first calls =>
      obtain ⟨i, stamp, call⟩ := first
      have htype : call.type = msgTypeLsn := by
        rw [hfile] at hhead
        simpa [layout, messageLayout, headLayout, FixedWidth.leBytes] using hhead
      cases call with
      | lsn insertPtr => exact ⟨i, stamp, insertPtr, calls, rfl⟩
      | _ =>
          rw [CaptureCall.type] at htype
          exact absurd htype (by decide)

/-! ## Files of a run -/

section Files

variable [DecidableEq ι] {data : Kind → ℕ → UInt8} {s s' : Server ι}

structure Written (data : Kind → ℕ → UInt8) (s : Server ι) (moves : List (ServerMove ι)) :
    Prop where
  reached : Reached data s
  sent : Sent (moves.filterMap call?) s.base
  opened : Opened (s.workers .capture) (s.files .capture)

theorem opened_step (hopened : Opened (s.workers .capture) (s.files .capture))
    {move : ServerMove ι} (hstep : s.step move = some s') :
    Opened (s'.workers .capture) (s'.files .capture) := by
  cases move with
  | backend move =>
      rw [Server.step] at hstep
      split_ifs at hstep with hbackend
      obtain ⟨base, hbase, rfl⟩ := Option.map_eq_some_iff.mp hstep
      exact hopened
  | setId | nextGeneration | setRunning =>
      cases hstep
      exact hopened
  | worker kind signal =>
      obtain ⟨⟨ring, w, files⟩, hworker, rfl⟩ := Option.map_eq_some_iff.mp hstep
      by_cases hkind : Kind.capture = kind
      · subst hkind
        simpa [Server.setWorker] using opened_workerStep hopened hworker
      · simpa [Server.setWorker, hkind] using hopened

theorem written_start : Written data (Server.start ι data) [] where
  reached := reached_start
  sent := ⟨[], rfl, fun _ => ⟨[], [], rfl, rfl, le_rfl⟩⟩
  opened := ⟨by rintro ⟨⟩, by rintro _ _ ⟨⟩, fun _ => .inl rfl, by rintro _ ⟨⟩⟩

theorem written_of_run {moves : List (ServerMove ι)}
    (hrun : run Server.step (Server.start ι data) moves = some s) : Written data s moves := by
  refine run_invariant hrun written_start ?_
  rintro s moves move s' ⟨hreached, hsent, hopened⟩ hstep
  refine ⟨reached_step hreached hstep, ?_, opened_step hopened hstep⟩
  have hlast : List.filterMap call? [move] = (call? move).toList := by
    cases hcall : call? move <;> simp [hcall]
  rw [List.filterMap_append, hlast]
  exact sent_step hreached hsent hstep

/-- No call stands behind more messages than it was made. -/
theorem sent_le {calls sent : List (Call ι)} {base : WholeMessages.System ι}
    (haccounts : ∀ i, Accounts i calls sent (base.unpushed i) (base.encoders i)) :
    (sent : Multiset (Call ι)) ≤ calls := by
  classical
  rw [Multiset.le_iff_count]
  intro call
  obtain ⟨front, back, -, -, hle⟩ := haccounts call.1
  have hfilter : ∀ calls : Multiset (Call ι),
      (calls.filter (·.1 = call.1)).count call = calls.count call :=
    fun _ => Multiset.count_filter_of_pos rfl
  have hcount := Multiset.count_le_of_le call
    (le_trans (le_add_right (le_add_right le_rfl)) hle)
  rwa [← Multiset.filter_coe, ← Multiset.filter_coe, hfilter, hfilter] at hcount

/-- However backends, workers and whoever starts and stops a capture take turns: the
messages that the ring has accepted stand for calls that were made, each for a call of its
own; a file is empty or holds an LSN message and a gapless piece of what the ring accepted
behind it, and wherever it is cut behind that message `CaptureReader` returns the sync
point and exactly the messages in front of the cut. -/
theorem captureFiles_read_back {moves : List (ServerMove ι)}
    (hrun : run Server.step (Server.start ι data) moves = some s)
    (hcounts : ∀ call ∈ moves.filterMap call?, CountsFit call.2.2) :
    ∃ sent : List (Call ι), (sent : Multiset (Call ι)) ≤ moves.filterMap call? ∧
      (s.base.rings .capture).accepted.map Message.bytes = sent.map layout ∧
      ∀ id, s.files .capture id = [] ∨ ∃ i stamp insertPtr, ∃ calls : List (Call ι),
        (i, stamp, CaptureCall.lsn insertPtr) :: calls <:+: sent ∧
        s.files .capture id = ((i, stamp, CaptureCall.lsn insertPtr) :: calls).flatMap layout ∧
        ∀ part, part <+: s.files .capture id → messageLayout stamp (.lsn insertPtr) <+: part →
          ∃ count ≤ calls.length, ReadsAs part stamp insertPtr (calls.take count) ∧
            messageLayout stamp (.lsn insertPtr) ++ (calls.take count).flatMap layout <+:
              part ∧
            (count < calls.length →
              ¬messageLayout stamp (.lsn insertPtr) ++ (calls.take (count + 1)).flatMap layout <+:
                part) := by
  obtain ⟨hreached, ⟨sent, haccepted, haccounts⟩, hopened⟩ := written_of_run hrun
  have hle := sent_le haccounts
  have hfit : ∀ call ∈ sent, Fit call := by
    intro call hcall
    have hbytes : layout call ∈ (s.base.rings .capture).accepted.map Message.bytes := by
      rw [haccepted]
      exact List.mem_map_of_mem hcall
    obtain ⟨msg, hmsg, heq⟩ := List.mem_map.mp hbytes
    have hcomplete := hreached.base.accepted .capture msg hmsg
    exact ⟨hcounts call (Multiset.mem_of_le hle hcall), heq ▸ hcomplete.2⟩
  refine ⟨sent, hle, haccepted, fun id => ?_⟩
  rcases hopened.begun id with hempty | hhead
  · exact .inl hempty
  · right
    obtain ⟨messages, hslice, hfile⟩ := slice_of_reached hreached .capture id
    rw [haccepted] at hslice
    obtain ⟨written, hwritten, rfl⟩ := List.infix_map_iff.mp hslice
    rw [← List.flatMap_def] at hfile
    obtain ⟨i, stamp, insertPtr, calls, rfl⟩ := begins_with_lsn hfile hhead
    refine ⟨i, stamp, insertPtr, calls, hwritten, hfile, fun part hpart hbegun => ?_⟩
    rw [hfile] at hpart
    exact readsAs_part (fun call hcall => hfit call (hwritten.subset hcall)) hpart hbegun

/-- A capture is started, its LSN message is pushed, and the worker writes it to a file. -/
def oneLsn : List (ServerMove Unit) :=
  [.setId .capture 7, .nextGeneration .capture, .setRunning .capture true,
      .backend (.capture () (.call ⟨0, 5⟩ (.lsn 42) false)), .backend (.push ()),
      .backend (.ring .capture (.pushFirst ())), .backend (.ring .capture (.pushRest ())),
      .backend (.ring .capture (.setReady ()))] ++
    List.replicate 11 (.worker .capture false)

theorem captureFiles_read_back_oneLsn : ∃ s : Server Unit,
    run Server.step (Server.start Unit fun _ _ => 0) oneLsn = some s ∧
      (s.files .capture 7).length = 21 ∧
      ∃ stamp insertPtr, ∃ calls : List (Call Unit),
        ReadsAs (s.files .capture 7) stamp insertPtr calls := by
  have hwritten : ((run Server.step (Server.start Unit fun _ _ => 0) oneLsn).map
      fun s => (s.files .capture 7).length) = some 21 := by decide +kernel
  obtain ⟨s, hrun, hlength⟩ := Option.map_eq_some_iff.mp hwritten
  obtain ⟨sent, -, -, hfiles⟩ := captureFiles_read_back hrun (by
    simp [oneLsn, call?, CountsFit])
  refine ⟨s, hrun, hlength, ?_⟩
  rcases hfiles 7 with hempty | ⟨i, stamp, insertPtr, calls, -, hfile, hparts⟩
  · rw [hempty] at hlength
    cases hlength
  · have hbegun : messageLayout stamp (.lsn insertPtr) <+: s.files .capture 7 := by
      rw [hfile]
      exact List.prefix_append _ _
    obtain ⟨count, -, hreads, -⟩ := hparts _ List.prefix_rfl hbegun
    exact ⟨stamp, insertPtr, _, hreads⟩

end Files

end Pgr.CaptureFiles
