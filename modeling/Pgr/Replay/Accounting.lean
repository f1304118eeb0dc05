import Pgr.Replay.Conversation
import Pgr.Replay.OneClient

/-!
# Where the commands of a client are

The commands of a client, its first one a `connect`, are in three places: those it has
been given, those in its queue, and those still to come.  In this order they are always
all its commands, and the end of the replay behind them.  A client that is let go of has
been given the first of them.
-/

namespace Pgr.Accounting

open Pgr.Capture Pgr.Manager Pgr.Client Pgr.Loop Pgr.Loop.ReplayLoop Pgr.Transition Pgr.Dispatch
open Pgr.Conversation Pgr.OneClient

variable (md5Hex : List UInt8 → String) (catchup : ℕ → ℕ)

def kinds (cmds : List ConnCommand) : List CmdKind :=
  cmds.map ConnCommand.kind

/-- What the end of the replay adds to the commands of a client. -/
def closing (ended : Bool) : List CmdKind :=
  if ended then [.endReplay] else []

/-- The commands of one client begin with its only `connect`. -/
def StartsOnce (wanted : List CmdKind) : Prop :=
  wanted = [] ∨ ∃ rest, wanted = .connect :: rest ∧ .connect ∉ rest

/-- The commands `wanted` of a client and where they are. -/
inductive Accounted (wanted : List CmdKind) : View → Prop
  | unknown {coming : List ConnCommand} {ended : Bool} (hcoming : kinds coming = wanted)
      (hended : ended = true → coming = []) : Accounted wanted ⟨coming, none, ended, []⟩
  | waiting {coming : List ConnCommand} {slot : Slot} {ended : Bool} {rest : List CmdKind}
      (hconn : slot.conn = none) (hqueue : kinds slot.queue = .connect :: rest)
      (htotal : .connect :: (rest ++ kinds coming) = wanted ++ closing ended) :
      Accounted wanted ⟨coming, some slot, ended, []⟩
  | running {coming : List ConnCommand} {slot : Slot} {ended : Bool} {conn : Connection}
      (hconn : slot.conn = some conn)
      (htotal : .connect :: (conn.replayed ++ kinds slot.queue ++ kinds coming) =
        wanted ++ closing ended) : Accounted wanted ⟨coming, some slot, ended, []⟩
  | gone {coming : List ConnCommand} {ended : Bool} {closed : List Connection}
      (hcoming : .connect ∉ kinds coming) (hone : closed.length ≤ 1)
      (hclosed : ∀ conn ∈ closed, .connect :: conn.replayed <+: wanted ++ [.endReplay]) :
      Accounted wanted ⟨coming, none, ended, closed⟩

variable {wanted : List CmdKind}

theorem connect_not_mem_closing (ended : Bool) : .connect ∉ closing ended := by
  cases ended <;> simp [closing]

theorem closing_isPrefix (ended : Bool) : closing ended <+: [.endReplay] := by
  cases ended
  · exact List.nil_prefix
  · exact List.prefix_refl _

/-- Behind its `connect` a client has no other. -/
theorem StartsOnce.connect_not_mem (hwanted : StartsOnce wanted) {rest : List CmdKind}
    {ended : Bool} (htotal : .connect :: rest = wanted ++ closing ended) : .connect ∉ rest := by
  rcases hwanted with hnone | ⟨others, hsome, hothers⟩
  · rw [hnone, List.nil_append] at htotal
    have hmem : CmdKind.connect ∈ closing ended := by
      rw [← htotal]
      exact List.mem_cons_self
    exact absurd hmem (connect_not_mem_closing ended)
  · rw [hsome, List.cons_append] at htotal
    rw [(List.cons.inj htotal).2]
    intro hmem
    exact (List.mem_append.mp hmem).elim hothers (connect_not_mem_closing ended)

theorem isPrefix_of_total {replayed rest : List CmdKind} {ended : Bool}
    (htotal : .connect :: (replayed ++ rest) = wanted ++ closing ended) :
    .connect :: replayed <+: wanted ++ [.endReplay] := by
  have hfirst : .connect :: replayed <+: wanted ++ closing ended := by
    rw [← htotal, ← List.cons_append]
    exact List.prefix_append _ _
  exact hfirst.trans ((List.prefix_append_right_inj wanted).mpr (closing_isPrefix ended))

/-- A connection that is let go of leaves a client that is gone. -/
theorem accounted_of_gone (hwanted : StartsOnce wanted) {coming : List ConnCommand} {ended : Bool}
    {conn : Connection} {queued : List CmdKind}
    (htotal : .connect :: (conn.replayed ++ queued ++ kinds coming) = wanted ++ closing ended) :
    Accounted wanted ⟨coming, none, ended, [conn]⟩ := by
  have hcoming := hwanted.connect_not_mem htotal
  refine .gone ?_ (le_refl 1) ?_
  · intro hmem
    exact hcoming (List.mem_append_right _ hmem)
  · intro other hother
    rw [List.mem_singleton.mp hother]
    rw [List.append_assoc] at htotal
    exact isPrefix_of_total htotal

/-! ## One lemma for each move -/

theorem kinds_appended (cmd : ConnCommand) (slot : Slot) :
    kinds (appended cmd slot).queue = kinds slot.queue ++ [cmd.kind] :=
  List.map_append

theorem accounted_enqueued (hwanted : StartsOnce wanted) {cmd : ConnCommand}
    {coming : List ConnCommand} {slot : Option Slot} {ended : Bool} {closed : List Connection}
    (hbefore : Accounted wanted ⟨cmd :: coming, slot, ended, closed⟩) :
    Accounted wanted ⟨coming, enqueued cmd slot, ended, closed⟩ := by
  cases hbefore with
  | unknown hcoming hended =>
      have hopen : ended = false := by
        cases ended with
        | false => rfl
        | true => cases hended rfl
      rcases hwanted with hnone | ⟨rest, hsome, -⟩
      · cases hcoming.trans hnone
      · obtain ⟨hkind, hrest⟩ := List.cons.inj (hcoming.trans hsome)
        rw [enqueued, if_pos hkind]
        have hqueue : kinds (appended cmd Slot.new).queue = [.connect] := by
          rw [kinds_appended, hkind]
          rfl
        apply Accounted.waiting rfl hqueue
        rw [hopen, hsome, closing, if_neg Bool.false_ne_true, List.append_nil, List.nil_append,
          ← hrest]
        rfl
  | @waiting _ slot _ rest hconn hqueue htotal =>
      have hlonger : kinds (appended cmd slot).queue = .connect :: (rest ++ [cmd.kind]) := by
        rw [kinds_appended, hqueue, List.cons_append]
      have hnone : (appended cmd slot).conn = none := hconn
      apply Accounted.waiting hnone hlonger
      rw [← htotal, List.append_assoc]
      rfl
  | @running _ slot _ conn hconn htotal =>
      refine .running hconn ?_
      rw [← htotal, kinds_appended]
      simp [kinds]
  | gone hcoming hone hclosed =>
      obtain ⟨hkind, hrest⟩ := not_or.mp (mt List.mem_cons.mpr hcoming)
      rw [enqueued, if_neg (Ne.symm hkind)]
      exact .gone hrest hone hclosed

theorem accounted_finished {id : ClientId} {ts : ℕ} {slot : Option Slot}
    {closed : List Connection} (hbefore : Accounted wanted ⟨[], slot, false, closed⟩) :
    Accounted wanted ⟨[], finished id ts slot, true, closed⟩ := by
  cases hbefore with
  | unknown hcoming hended => exact .unknown hcoming fun _ => rfl
  | @waiting _ slot _ rest hconn hqueue htotal =>
      have hlonger : kinds (appended ⟨id, ts, .endReplay⟩ slot).queue =
          .connect :: (rest ++ [.endReplay]) := by
        rw [kinds_appended, hqueue, List.cons_append]
      have hnone : (appended ⟨id, ts, .endReplay⟩ slot).conn = none := hconn
      apply Accounted.waiting hnone hlonger
      have hdone : .connect :: rest = wanted := by simpa [closing, kinds] using htotal
      rw [← hdone]
      simp [closing, kinds]
  | @running _ slot _ conn hconn htotal =>
      refine .running hconn ?_
      have hdone : .connect :: (conn.replayed ++ kinds slot.queue) = wanted := by
        simpa [closing, kinds] using htotal
      rw [kinds_appended, ← hdone]
      simp [closing, kinds]
  | gone hcoming hone hclosed => exact .gone hcoming hone hclosed

theorem accounted_looked {coming : List ConnCommand} {slot : Slot} {ended : Bool}
    {closed : List Connection} (hbefore : Accounted wanted ⟨coming, some slot, ended, closed⟩) :
    Accounted wanted ⟨coming, some (lookedAt slot), ended, closed⟩ := by
  cases hbefore with
  | waiting hconn hqueue htotal => exact .waiting hconn hqueue htotal
  | running hconn htotal => exact .running hconn htotal

theorem replayed_of_giveConn {kind : CmdKind} {deliver : ReplayClient → ReplayClient}
    {answers : List WriteAnswer} {conn conn' : Connection}
    (hgiven : (giveConn kind deliver answers conn).1 = conn') :
    conn'.replayed = conn.replayed ++ [kind] := by
  rw [← hgiven, giveConn]
  exact (flushed_flushConn answers _).1.replayed

theorem replayed_of_served {now : ℕ} {reads : List ReadAnswer} {slot slot' : Slot}
    {conn conn' : Connection}
    (hserved : Served md5Hex now reads slot { conn with connected := true } conn' slot') :
    (answered conn').replayed = conn.replayed := by
  obtain ⟨answers, middle, hread, hflush⟩ := hserved.read
  obtain ⟨frames, hheard⟩ := heard_of_readConn md5Hex hread answers
  rw [← hflush]
  exact hheard.replayed

/-- A command is executed: of a client that waits it is the `connect`, of one that runs
it is another. -/
theorem accounted_executed (hwanted : StartsOnce wanted) {config : ReplayConfig} {id : ClientId}
    {coming : List ConnCommand} {slot : Slot} {ended : Bool} {closed : List Connection}
    {head : ConnCommand} {queue : List ConnCommand} {after : Option Slot} {gone : List Connection}
    (hbefore : Accounted wanted ⟨coming, some slot, ended, closed⟩)
    (hqueue : slot.queue = head :: queue)
    (hexecuted : Executed config id head { lookedAt slot with queue := queue } after gone) :
    Accounted wanted ⟨coming, after, ended, closed ++ gone⟩ := by
  cases hbefore with
  | @waiting _ _ _ rest hconn hkinds htotal =>
      rw [hqueue] at hkinds
      obtain ⟨hkind, hrest⟩ := List.cons.inj hkinds
      have hnone : Option.toList slot.conn = [] := by rw [hconn]; rfl
      cases hexecuted with
      | connected _ =>
          change Accounted wanted ⟨coming, _, ended, [] ++ Option.toList slot.conn⟩
          rw [hnone]
          refine .running rfl ?_
          rw [← htotal, ← hrest]
          rfl
      | refused _ =>
          change Accounted wanted ⟨coming, none, ended, [] ++ Option.toList slot.conn⟩
          rw [hnone]
          refine .gone ?_ (Nat.zero_le 1) (by simp)
          intro hmem
          exact hwanted.connect_not_mem htotal (List.mem_append_right _ hmem)
      | unconnected hother _ => exact absurd hkind hother
      | given hother _ _ _ _ => exact absurd hkind hother
      | lost hother _ _ _ _ => exact absurd hkind hother
  | @running _ _ _ conn hconn htotal =>
      rw [hqueue] at htotal
      have hother : head.kind ≠ .connect := by
        intro hkind
        apply hwanted.connect_not_mem htotal
        rw [← hkind]
        exact List.mem_append_left _ (List.mem_append_right _ List.mem_cons_self)
      have hstep {conn' : Connection} (hreplayed : conn'.replayed = conn.replayed ++ [head.kind]) :
          .connect :: (conn'.replayed ++ kinds queue ++ kinds coming) =
            wanted ++ closing ended := by
        rw [← htotal, hreplayed]
        simp [kinds]
      cases hexecuted with
      | connected hkind => exact absurd hkind hother
      | refused hkind => exact absurd hkind hother
      | unconnected _ hnone => cases hconn.symm.trans hnone
      | given _ hsome answers hgiven _ =>
          cases hconn.symm.trans hsome
          exact .running rfl (hstep (replayed_of_giveConn hgiven))
      | lost _ hsome answers hgiven _ =>
          cases hconn.symm.trans hsome
          exact accounted_of_gone hwanted (hstep (replayed_of_giveConn hgiven))

/-- No move loses a command of the client or gives it one twice. -/
theorem accounted_move (hwanted : StartsOnce wanted) {config : ReplayConfig} {id : ClientId}
    {before after : View} (hbefore : Accounted wanted before)
    (hmove : Move md5Hex config id before after) : Accounted wanted after := by
  cases hmove with
  | enqueued hid => exact accounted_enqueued hwanted hbefore
  | finished ts => exact accounted_finished hbefore
  | looked => exact accounted_looked hbefore
  | executed hblocked hqueue hexecuted =>
      exact accounted_executed hwanted hbefore hqueue hexecuted
  | @failed coming slot ended closed =>
      cases hbefore with
      | waiting hconn hqueue htotal =>
          rw [hconn]
          refine .gone ?_ (Nat.zero_le 1) (by simp)
          intro hmem
          exact hwanted.connect_not_mem htotal (List.mem_append_right _ hmem)
      | running hconn htotal =>
          rw [hconn]
          exact accounted_of_gone hwanted htotal
  | served hsome hserved halive =>
      cases hbefore with
      | waiting hconn _ _ => cases hconn.symm.trans hsome
      | running hconn htotal =>
          cases hconn.symm.trans hsome
          have hreplayed := replayed_of_served md5Hex hserved
          refine .running hserved.conn ?_
          rw [← htotal, hserved.queue, hreplayed]
  | @died _ _ _ _ _ conn' _ _ _ hsome hserved hdead =>
      cases hbefore with
      | waiting hconn _ _ => cases hconn.symm.trans hsome
      | running hconn htotal =>
          cases hconn.symm.trans hsome
          rw [← replayed_of_served md5Hex hserved] at htotal
          exact accounted_of_gone hwanted htotal

/-! ## What the places tell -/

theorem Accounted.of_conn {view : View} (haccounted : Accounted wanted view) {slot : Slot}
    {conn : Connection} (hslot : view.slot = some slot) (hconn : slot.conn = some conn) :
    view.closed = [] ∧ .connect :: (conn.replayed ++ kinds slot.queue ++ kinds view.coming) =
      wanted ++ closing view.ended := by
  cases haccounted with
  | unknown => cases hslot
  | waiting hnone =>
      cases hslot
      cases hnone.symm.trans hconn
  | running hsome htotal =>
      cases hslot
      cases hsome.symm.trans hconn
      exact ⟨rfl, htotal⟩
  | gone => cases hslot

theorem Accounted.of_closed {view : View} (haccounted : Accounted wanted view) :
    view.closed.length ≤ 1 ∧
      ∀ conn ∈ view.closed, .connect :: conn.replayed <+: wanted ++ [.endReplay] := by
  cases haccounted with
  | unknown => simp
  | waiting => simp
  | running => simp
  | gone _ hone hclosed => exact ⟨hone, hclosed⟩

/-! ## Runs -/

theorem accounted_of_reachable {config : ReplayConfig} {rx : List ConnCommand} {loop : ReplayLoop}
    (hreachable : Reachable (step md5Hex catchup) (ReplayLoop.new config rx) loop)
    {id : ClientId} (hwanted : StartsOnce (kinds (own id rx))) :
    Accounted (kinds (own id rx)) (view id loop) := by
  apply view_of_reachable md5Hex catchup hreachable
  · exact .unknown rfl (by simp)
  · intro before after hbefore hmove
    exact accounted_move md5Hex hwanted hbefore hmove

end Pgr.Accounting
