import Mathlib

/-!
# Transactions around a cut

Many parties run transactions one after another.  A transaction that commits gets a
position in one log, and what it has said goes, through an outbox of its party, to a
channel.  The log up to a position, the cut, is to be restored and the channel behind it
replayed, so a transaction in front of the cut must not be in the channel and one behind
it must be there in full.  The cut is taken before the parties are told, and each
transaction decides when it closes.
-/

namespace Pgr.AroundCut

variable {ι M : Type*} (mark : M → Option ℕ)

/-! ## A channel with outboxes -/

structure Boxes (ι M : Type*) where
  channel : List M
  outs : ι → List M

/-- The messages that are marked with a transaction. -/
def markedBy (xact : ℕ) (messages : List M) : List M :=
  messages.filter fun message => mark message = some xact

/-- What there is of a transaction in the channel and in the outbox of `i`, in their order;
nothing of it is in the other outboxes. -/
structure Carries (boxes : Boxes ι M) (i : ι) (xact : ℕ) (messages : List M) : Prop where
  own : markedBy mark xact (boxes.channel ++ boxes.outs i) = messages
  other : ∀ j, j ≠ i → markedBy mark xact (boxes.outs j) = []

section Boxes

variable {mark} {boxes : Boxes ι M} {i j : ι} {xact : ℕ} {messages more rest : List M}
  {message : M}

theorem markedBy_append : markedBy mark xact (messages ++ more) =
    markedBy mark xact messages ++ markedBy mark xact more :=
  List.filter_append ..

theorem markedBy_eq_nil : markedBy mark xact messages = [] ↔
    ∀ message ∈ messages, mark message ≠ some xact := by
  rw [markedBy, List.filter_eq_nil_iff]
  simp

theorem markedBy_eq_self (hall : ∀ message ∈ messages, mark message = some xact) :
    markedBy mark xact messages = messages := by
  apply List.filter_eq_self.mpr
  intro message hmessage
  exact decide_eq_true (hall message hmessage)

theorem markedBy_append_other (hmessage : mark message ≠ some xact) :
    markedBy mark xact (messages ++ [message] ++ more) = markedBy mark xact (messages ++ more) := by
  have hsingle : markedBy mark xact [message] = [] :=
    markedBy_eq_nil.mpr (List.forall_mem_singleton.mpr hmessage)
  rw [markedBy_append, markedBy_append, hsingle, List.append_nil, ← markedBy_append]

variable [DecidableEq ι]

/-- A party puts messages into its outbox. -/
def Boxes.emit (i : ι) (more : List M) (boxes : Boxes ι M) : Boxes ι M :=
  { boxes with outs := Function.update boxes.outs i (boxes.outs i ++ more) }

/-- The first message of an outbox goes to the channel. -/
def Boxes.push (i : ι) (message : M) (rest : List M) (boxes : Boxes ι M) : Boxes ι M :=
  ⟨boxes.channel ++ [message], Function.update boxes.outs i rest⟩

@[simp]
theorem outs_emit : (boxes.emit i more).outs i = boxes.outs i ++ more :=
  Function.update_self ..

@[simp]
theorem outs_emit_ne (hne : j ≠ i) : (boxes.emit i more).outs j = boxes.outs j :=
  Function.update_of_ne hne ..

@[simp]
theorem outs_push : (boxes.push i message rest).outs i = rest :=
  Function.update_self ..

@[simp]
theorem outs_push_ne (hne : j ≠ i) : (boxes.push i message rest).outs j = boxes.outs j :=
  Function.update_of_ne hne ..

theorem Carries.emit (hcarries : Carries mark boxes i xact messages) :
    Carries mark (boxes.emit i more) i xact (messages ++ markedBy mark xact more) where
  own := by
    rw [outs_emit, ← List.append_assoc, markedBy_append]
    exact congrArg (· ++ markedBy mark xact more) hcarries.own
  other k hk := by
    rw [outs_emit_ne hk]
    exact hcarries.other k hk

/-- What others say is not marked with the transaction. -/
theorem Carries.emitOther (hcarries : Carries mark boxes i xact messages)
    (hmore : markedBy mark xact more = []) : Carries mark (boxes.emit j more) i xact messages := by
  by_cases hsame : j = i
  · rw [hsame]
    have hemitted : Carries mark (boxes.emit i more) i xact _ := hcarries.emit
    rwa [hmore, List.append_nil] at hemitted
  · constructor
    · rw [outs_emit_ne (Ne.symm hsame)]
      exact hcarries.own
    · intro k hk
      by_cases hparty : k = j
      · rw [hparty, outs_emit, markedBy_append, hmore, hcarries.other j hsame]
        rfl
      · rw [outs_emit_ne hparty]
        exact hcarries.other k hk

/-- Pushing does not change what there is of a transaction. -/
theorem Carries.push (hcarries : Carries mark boxes i xact messages)
    (hout : boxes.outs j = message :: rest) :
    Carries mark (boxes.push j message rest) i xact messages := by
  by_cases hsame : j = i
  · rw [hsame] at hout ⊢
    have hown := hcarries.own
    rw [hout] at hown
    constructor
    · rw [outs_push, Boxes.push, List.append_assoc, List.singleton_append]
      exact hown
    · intro k hk
      rw [outs_push_ne hk]
      exact hcarries.other k hk
  · have hforeign := markedBy_eq_nil.mp (hcarries.other j hsame)
    rw [hout] at hforeign
    obtain ⟨hmessage, hrest⟩ := List.forall_mem_cons.mp hforeign
    constructor
    · rw [outs_push_ne (Ne.symm hsame), Boxes.push, markedBy_append_other hmessage]
      exact hcarries.own
    · intro k hk
      by_cases hparty : k = j
      · rw [hparty, outs_push]
        exact markedBy_eq_nil.mpr hrest
      · rw [outs_push_ne hparty]
        exact hcarries.other k hk

omit [DecidableEq ι] in
/-- A message of no transaction enters the channel. -/
theorem Carries.append (hcarries : Carries mark boxes i xact messages)
    (hmessage : mark message = none) :
    Carries mark ⟨boxes.channel ++ [message], boxes.outs⟩ i xact messages where
  own := by
    have hforeign : mark message ≠ some xact := by
      rw [hmessage]
      exact nofun
    rw [markedBy_append_other hforeign]
    exact hcarries.own
  other := hcarries.other

end Boxes

/-! ## The ledger -/

/-- A transaction that is still running: what it has said so far, and the position of its
commit record. -/
structure Current (M : Type*) where
  xact : ℕ
  sent : List M
  ptr : Option ℕ

/-- A transaction that has decided what becomes of its messages. -/
structure Closed (M : Type*) where
  xact : ℕ
  messages : List M
  ptr : Option ℕ

structure Ledger (ι M : Type*) where
  boxes : Boxes ι M
  /-- The transactions so far. -/
  xacts : ℕ
  current : ι → Option (Current M)
  insertPtr : ℕ
  cut : Option ℕ
  /-- The parties have been told of the cut. -/
  ready : Bool
  closed : List (Closed M)

/-- A transaction that is all in the channel, with its record behind the cut, or not at
all, with its record in front of every cut there is or will be. -/
def Settled (l : Ledger ι M) (xact : Closed M) : Prop :=
  (∃ i, Carries mark l.boxes i xact.xact xact.messages) ∧
      (∀ ptr, xact.ptr = some ptr → ∃ cut, l.cut = some cut ∧ cut ≤ ptr) ∨
    (∃ i, Carries mark l.boxes i xact.xact []) ∧
      ∀ ptr, xact.ptr = some ptr → ptr < l.insertPtr ∧ ∀ cut, l.cut = some cut → ptr < cut

/-- No two transactions share a number. -/
structure Numbered (l : Ledger ι M) : Prop where
  lt : ∀ i xact, l.current i = some xact → xact.xact < l.xacts
  distinct : ∀ i j xact xact', i ≠ j → l.current i = some xact → l.current j = some xact' →
    xact.xact ≠ xact'.xact
  closed : ∀ closed ∈ l.closed, closed.xact < l.xacts ∧
    ∀ i xact, l.current i = some xact → xact.xact ≠ closed.xact

/-- The commit records and the cut. -/
structure Placed (l : Ledger ι M) : Prop where
  ptr_lt : ∀ i xact ptr, l.current i = some xact → xact.ptr = some ptr → ptr < l.insertPtr
  /-- Once the parties know the cut, who has still to decide is behind it. -/
  behind : ∀ i xact ptr, l.current i = some xact → xact.ptr = some ptr → l.ready = true →
    ∀ cut, l.cut = some cut → cut ≤ ptr
  cut_le : ∀ cut, l.cut = some cut → cut ≤ l.insertPtr
  ready : l.ready = true → l.cut ≠ none

structure Inv (l : Ledger ι M) : Prop where
  numbered : Numbered l
  placed : Placed l
  current : ∀ i xact, l.current i = some xact → Carries mark l.boxes i xact.xact xact.sent
  fresh : ∀ xact, l.xacts ≤ xact → ∀ i, Carries mark l.boxes i xact []
  settled : ∀ closed ∈ l.closed, Settled mark l closed

variable {mark} {l l' : Ledger ι M} {i : ι}

/-! ## What parties do -/

/-- The transactions that are running were running before. -/
theorem Numbered.mono (hnumbered : Numbered l)
    (hcurrent : ∀ j xact', l'.current j = some xact' →
      ∃ xact, l.current j = some xact ∧ xact.xact = xact'.xact)
    (hxacts : l.xacts ≤ l'.xacts) (hclosed : l'.closed = l.closed) : Numbered l' where
  lt j xact' hxact' := by
    obtain ⟨xact, hxact, hsame⟩ := hcurrent j xact' hxact'
    rw [← hsame]
    exact (hnumbered.lt j xact hxact).trans_le hxacts
  distinct j k first second hne hfirst hsecond := by
    obtain ⟨xact, hxact, hsame⟩ := hcurrent j first hfirst
    obtain ⟨xact', hxact', hsame'⟩ := hcurrent k second hsecond
    rw [← hsame, ← hsame']
    exact hnumbered.distinct j k xact xact' hne hxact hxact'
  closed closed hmem := by
    rw [hclosed] at hmem
    obtain ⟨hlt, hne⟩ := hnumbered.closed closed hmem
    refine ⟨hlt.trans_le hxacts, ?_⟩
    intro j xact' hxact'
    obtain ⟨xact, hxact, hsame⟩ := hcurrent j xact' hxact'
    rw [← hsame]
    exact hne j xact hxact

/-- The channel and the outboxes change so that every transaction of interest keeps what
it has. -/
theorem Settled.mono {closed : Closed M} (hsettled : Settled mark l closed)
    (hboxes : ∀ i messages, Carries mark l.boxes i closed.xact messages →
      ∃ i, Carries mark l'.boxes i closed.xact messages)
    (hinsertPtr : l.insertPtr ≤ l'.insertPtr) (hcut : l'.cut = l.cut) : Settled mark l' closed := by
  rw [Settled, hcut]
  rcases hsettled with ⟨⟨i, hkept⟩, hptr⟩ | ⟨⟨i, hdropped⟩, hptr⟩
  · exact .inl ⟨hboxes i _ hkept, hptr⟩
  · right
    refine ⟨hboxes i _ hdropped, ?_⟩
    intro ptr hsome
    exact ⟨(hptr ptr hsome).1.trans_le hinsertPtr, (hptr ptr hsome).2⟩

section Steps

variable [DecidableEq ι]

def Ledger.push (i : ι) (message : M) (rest : List M) (l : Ledger ι M) : Ledger ι M :=
  { l with boxes := l.boxes.push i message rest }

theorem Inv.push (hinv : Inv mark l) {message : M} {rest : List M}
    (hout : l.boxes.outs i = message :: rest) : Inv mark (l.push i message rest) where
  numbered := hinv.numbered.mono (fun _ xact' hxact' => ⟨xact', hxact', rfl⟩) (le_refl _) rfl
  placed := { hinv.placed with }
  current j xact hxact := (hinv.current j xact hxact).push hout
  fresh xact hfresh j := (hinv.fresh xact hfresh j).push hout
  settled closed hmem := (hinv.settled closed hmem).mono
    (fun j _ hcarries => ⟨j, hcarries.push hout⟩) (le_refl _) rfl

omit [DecidableEq ι] in
/-- A message that belongs to no transaction, such as the one that tells the cut. -/
theorem Inv.append (hinv : Inv mark l) {message : M} (hmessage : mark message = none) :
    Inv mark { l with boxes := ⟨l.boxes.channel ++ [message], l.boxes.outs⟩ } where
  numbered := hinv.numbered.mono (fun _ xact' hxact' => ⟨xact', hxact', rfl⟩) (le_refl _) rfl
  placed := { hinv.placed with }
  current j xact hxact := (hinv.current j xact hxact).append hmessage
  fresh xact hfresh j := (hinv.fresh xact hfresh j).append hmessage
  settled closed hmem := (hinv.settled closed hmem).mono
    (fun j _ hcarries => ⟨j, hcarries.append hmessage⟩) (le_refl _) rfl

variable (mark) in
/-- A party says something, in its transaction or outside. -/
def Ledger.emit (i : ι) (more : List M) (l : Ledger ι M) : Ledger ι M :=
  { l with
    boxes := l.boxes.emit i more
    current := Function.update l.current i ((l.current i).map fun xact =>
      { xact with sent := xact.sent ++ markedBy mark xact.xact more }) }

theorem current_emit {more : List M} {j : ι} {xact' : Current M}
    (hxact' : (l.emit mark i more).current j = some xact') :
    ∃ xact, l.current j = some xact ∧ xact.xact = xact'.xact ∧ xact.ptr = xact'.ptr := by
  rw [Ledger.emit] at hxact'
  by_cases hsame : j = i
  · rw [hsame]
    rw [hsame] at hxact'
    obtain ⟨xact, hxact, hsent⟩ := Option.map_eq_some_iff.mp
      ((Function.update_self i _ l.current).symm.trans hxact')
    rw [← hsent]
    exact ⟨xact, hxact, rfl, rfl⟩
  · exact ⟨xact', (Function.update_of_ne hsame _ l.current).symm.trans hxact', rfl, rfl⟩

theorem Inv.emit (hinv : Inv mark l) {more : List M}
    (hmore : ∀ message ∈ more, ∀ number, mark message = some number →
      ∃ xact, l.current i = some xact ∧ xact.xact = number) : Inv mark (l.emit mark i more) := by
  have hforeign : ∀ number, (∀ xact, l.current i = some xact → xact.xact ≠ number) →
      markedBy mark number more = [] := by
    intro number hne
    apply markedBy_eq_nil.mpr
    intro message hmessage hmark
    obtain ⟨xact, hxact, hnumber⟩ := hmore message hmessage number hmark
    exact hne xact hxact hnumber
  constructor
  · refine hinv.numbered.mono ?_ (le_refl _) rfl
    intro j xact' hxact'
    obtain ⟨xact, hxact, hsame, -⟩ := current_emit hxact'
    exact ⟨xact, hxact, hsame⟩
  · constructor
    · intro j xact' ptr hxact' hptr
      obtain ⟨xact, hxact, -, hsame⟩ := current_emit hxact'
      exact hinv.placed.ptr_lt j xact ptr hxact (hsame.trans hptr)
    · intro j xact' ptr hxact' hptr
      obtain ⟨xact, hxact, -, hsame⟩ := current_emit hxact'
      exact hinv.placed.behind j xact ptr hxact (hsame.trans hptr)
    · exact hinv.placed.cut_le
    · exact hinv.placed.ready
  · intro j xact' hxact'
    by_cases hsame : j = i
    · rw [hsame] at hxact' ⊢
      obtain ⟨xact, hxact, hsent⟩ := Option.map_eq_some_iff.mp
        ((Function.update_self i _ l.current).symm.trans hxact')
      rw [← hsent]
      exact (hinv.current i xact hxact).emit
    · have hxact : l.current j = some xact' :=
        (Function.update_of_ne hsame _ l.current).symm.trans hxact'
      apply (hinv.current j xact' hxact).emitOther
      apply hforeign
      intro xact hother
      exact hinv.numbered.distinct i j xact xact' (Ne.symm hsame) hother hxact
  · intro number hfresh j
    apply (hinv.fresh number hfresh j).emitOther
    apply hforeign
    intro xact hxact
    exact (hinv.numbered.lt i xact hxact).trans_le hfresh |>.ne
  · intro closed hmem
    refine (hinv.settled closed hmem).mono ?_ (le_refl _) rfl
    intro j messages hcarries
    refine ⟨j, hcarries.emitOther ?_⟩
    apply hforeign
    exact (hinv.numbered.closed closed hmem).2 i

/-- A party begins a transaction. -/
def Ledger.enter (i : ι) (l : Ledger ι M) : Ledger ι M :=
  { l with xacts := l.xacts + 1, current := Function.update l.current i (some ⟨l.xacts, [], none⟩) }

theorem current_enter {j : ι} {xact : Current M} (hxact : (l.enter i).current j = some xact) :
    j = i ∧ xact = ⟨l.xacts, [], none⟩ ∨ j ≠ i ∧ l.current j = some xact := by
  by_cases hsame : j = i
  · rw [hsame] at hxact ⊢
    left
    exact ⟨rfl, (Option.some.inj ((Function.update_self i _ l.current).symm.trans hxact)).symm⟩
  · exact .inr ⟨hsame, (Function.update_of_ne hsame _ l.current).symm.trans hxact⟩

theorem Inv.enter (hinv : Inv mark l) (i : ι) : Inv mark (l.enter i) := by
  have hnumbered := hinv.numbered
  constructor
  · constructor
    · intro j xact hxact
      rcases current_enter hxact with ⟨-, hnew⟩ | ⟨-, hold⟩
      · rw [hnew]
        exact Nat.lt_succ_self _
      · exact (hnumbered.lt j xact hold).trans (Nat.lt_succ_self _)
    · intro j k xact xact' hne hxact hxact'
      rcases current_enter hxact with ⟨hj, hnew⟩ | ⟨-, hold⟩
      · rcases current_enter hxact' with ⟨hk, -⟩ | ⟨-, hold'⟩
        · exact absurd (hj.trans hk.symm) hne
        · rw [hnew]
          exact (hnumbered.lt k xact' hold').ne'
      · rcases current_enter hxact' with ⟨-, hnew'⟩ | ⟨-, hold'⟩
        · rw [hnew']
          exact (hnumbered.lt j xact hold).ne
        · exact hnumbered.distinct j k xact xact' hne hold hold'
    · intro closed hmem
      obtain ⟨hlt, hne⟩ := hnumbered.closed closed hmem
      refine ⟨hlt.trans (Nat.lt_succ_self _), ?_⟩
      intro j xact hxact
      rcases current_enter hxact with ⟨-, hnew⟩ | ⟨-, hold⟩
      · rw [hnew]
        exact hlt.ne'
      · exact hne j xact hold
  · constructor
    · intro j xact ptr hxact hptr
      rcases current_enter hxact with ⟨-, hnew⟩ | ⟨-, hold⟩
      · rw [hnew] at hptr
        cases hptr
      · exact hinv.placed.ptr_lt j xact ptr hold hptr
    · intro j xact ptr hxact hptr
      rcases current_enter hxact with ⟨-, hnew⟩ | ⟨-, hold⟩
      · rw [hnew] at hptr
        cases hptr
      · exact hinv.placed.behind j xact ptr hold hptr
    · exact hinv.placed.cut_le
    · exact hinv.placed.ready
  · intro j xact hxact
    rcases current_enter hxact with ⟨-, hnew⟩ | ⟨-, hold⟩
    · rw [hnew]
      exact hinv.fresh l.xacts (le_refl _) j
    · exact hinv.current j xact hold
  · intro number hfresh j
    exact hinv.fresh number ((Nat.le_succ _).trans hfresh) j
  · intro closed hmem
    exact (hinv.settled closed hmem).mono (fun j _ hcarries => ⟨j, hcarries⟩) (le_refl _) rfl

omit [DecidableEq ι] in
/-- A transaction that is none of the ledger's takes a number. -/
theorem Inv.skip (hinv : Inv mark l) : Inv mark { l with xacts := l.xacts + 1 } where
  numbered := hinv.numbered.mono (fun _ xact' hxact' => ⟨xact', hxact', rfl⟩) (Nat.le_succ _) rfl
  placed := { hinv.placed with }
  current := hinv.current
  fresh number hfresh := hinv.fresh number ((Nat.le_succ _).trans hfresh)
  settled closed hmem := (hinv.settled closed hmem).mono
    (fun j _ hcarries => ⟨j, hcarries⟩) (le_refl _) rfl

omit [DecidableEq ι] in
/-- The log grows. -/
theorem Inv.advance (hinv : Inv mark l) (size : ℕ) :
    Inv mark { l with insertPtr := l.insertPtr + size } where
  numbered := hinv.numbered.mono (fun _ xact' hxact' => ⟨xact', hxact', rfl⟩) (le_refl _) rfl
  placed :=
    { ptr_lt := fun j xact ptr hxact hptr =>
        (hinv.placed.ptr_lt j xact ptr hxact hptr).trans_le (Nat.le_add_right _ _)
      behind := hinv.placed.behind
      cut_le := fun cut hcut => (hinv.placed.cut_le cut hcut).trans (Nat.le_add_right _ _)
      ready := hinv.placed.ready }
  current := hinv.current
  fresh := hinv.fresh
  settled closed hmem := (hinv.settled closed hmem).mono
    (fun j _ hcarries => ⟨j, hcarries⟩) (Nat.le_add_right _ _) rfl

/-- A transaction inserts its commit record. -/
def Ledger.commit (i : ι) (size : ℕ) (l : Ledger ι M) : Ledger ι M :=
  { l with
    insertPtr := l.insertPtr + (size + 1)
    current := Function.update l.current i ((l.current i).map fun xact =>
      { xact with ptr := some l.insertPtr }) }

theorem current_commit {size : ℕ} {j : ι} {xact' : Current M}
    (hxact' : (l.commit i size).current j = some xact') :
    ∃ xact, l.current j = some xact ∧ xact.xact = xact'.xact ∧ xact.sent = xact'.sent ∧
      (xact'.ptr = some l.insertPtr ∨ xact'.ptr = xact.ptr) := by
  rw [Ledger.commit] at hxact'
  by_cases hsame : j = i
  · rw [hsame]
    rw [hsame] at hxact'
    obtain ⟨xact, hxact, hptr⟩ := Option.map_eq_some_iff.mp
      ((Function.update_self i _ l.current).symm.trans hxact')
    rw [← hptr]
    exact ⟨xact, hxact, rfl, rfl, .inl rfl⟩
  · exact ⟨xact', (Function.update_of_ne hsame _ l.current).symm.trans hxact', rfl, rfl, .inr rfl⟩

theorem Inv.commit (hinv : Inv mark l) (i : ι) (size : ℕ) : Inv mark (l.commit i size) := by
  have hgrown := hinv.advance (size + 1)
  constructor
  · refine hinv.numbered.mono ?_ (le_refl _) rfl
    intro j xact' hxact'
    obtain ⟨xact, hxact, hsame, -⟩ := current_commit hxact'
    exact ⟨xact, hxact, hsame⟩
  · constructor
    · intro j xact' ptr hxact' hptr
      obtain ⟨xact, hxact, -, -, hnew | hold⟩ := current_commit hxact'
      · rw [hnew] at hptr
        rw [← Option.some.inj hptr]
        exact Nat.lt_add_of_pos_right (Nat.succ_pos _)
      · exact hgrown.placed.ptr_lt j xact ptr hxact (hold.symm.trans hptr)
    · intro j xact' ptr hxact' hptr hready cut hcut
      obtain ⟨xact, hxact, -, -, hnew | hold⟩ := current_commit hxact'
      · rw [hnew] at hptr
        rw [← Option.some.inj hptr]
        exact hinv.placed.cut_le cut hcut
      · exact hinv.placed.behind j xact ptr hxact (hold.symm.trans hptr) hready cut hcut
    · exact hgrown.placed.cut_le
    · exact hinv.placed.ready
  · intro j xact' hxact'
    obtain ⟨xact, hxact, hsame, hsent, -⟩ := current_commit hxact'
    rw [← hsame, ← hsent]
    exact hinv.current j xact hxact
  · exact hinv.fresh
  · exact hgrown.settled

omit [DecidableEq ι] in
/-- The cut is taken where the log ends. -/
theorem Inv.takeCut (hinv : Inv mark l) (hcut : l.cut = none) :
    Inv mark { l with cut := some l.insertPtr } where
  numbered := hinv.numbered.mono (fun _ xact' hxact' => ⟨xact', hxact', rfl⟩) (le_refl _) rfl
  placed :=
    { ptr_lt := hinv.placed.ptr_lt
      behind := fun _ _ _ _ _ hready => absurd hcut (hinv.placed.ready hready)
      cut_le := fun cut htaken => (Option.some.inj htaken).ge
      ready := fun _ => Option.some_ne_none _ }
  current := hinv.current
  fresh := hinv.fresh
  settled closed hmem := by
    rcases hinv.settled closed hmem with ⟨hkept, hptr⟩ | ⟨hdropped, hptr⟩
    · left
      refine ⟨hkept, ?_⟩
      intro ptr hsome
      obtain ⟨cut, hsomeCut, -⟩ := hptr ptr hsome
      cases hcut.symm.trans hsomeCut
    · right
      refine ⟨hdropped, ?_⟩
      intro ptr hsome
      obtain ⟨hlt, -⟩ := hptr ptr hsome
      refine ⟨hlt, ?_⟩
      intro cut htaken
      rw [← Option.some.inj htaken]
      exact hlt

omit [DecidableEq ι] in
/-- The parties are told, when whose record is in front of the cut has closed. -/
theorem Inv.tell (hinv : Inv mark l) (hcut : l.cut ≠ none)
    (hbehind : ∀ i xact ptr, l.current i = some xact → xact.ptr = some ptr →
      ∀ cut, l.cut = some cut → cut ≤ ptr) : Inv mark { l with ready := true } where
  numbered := hinv.numbered.mono (fun _ xact' hxact' => ⟨xact', hxact', rfl⟩) (le_refl _) rfl
  placed :=
    { ptr_lt := hinv.placed.ptr_lt
      behind := fun j xact ptr hxact hptr _ => hbehind j xact ptr hxact hptr
      cut_le := hinv.placed.cut_le
      ready := fun _ => hcut }
  current := hinv.current
  fresh := hinv.fresh
  settled closed hmem := (hinv.settled closed hmem).mono
    (fun j _ hcarries => ⟨j, hcarries⟩) (le_refl _) rfl

/-- A transaction closes. -/
def Ledger.close (i : ι) (closed : Closed M) (l : Ledger ι M) : Ledger ι M :=
  { l with current := Function.update l.current i none, closed := closed :: l.closed }

theorem current_close {closed : Closed M} {j : ι} {xact : Current M}
    (hxact : (l.close i closed).current j = some xact) : j ≠ i ∧ l.current j = some xact := by
  by_cases hsame : j = i
  · rw [hsame] at hxact
    cases (Function.update_self i _ l.current).symm.trans hxact
  · exact ⟨hsame, (Function.update_of_ne hsame _ l.current).symm.trans hxact⟩

/-- It has to have sent all of its messages if it knows the cut, and nothing, with its
record in front of a cut, if it does not. -/
theorem Inv.close (hinv : Inv mark l) {xact : Current M} {closed : Closed M}
    (hxact : l.current i = some xact) (hnumber : closed.xact = xact.xact)
    (hptr : closed.ptr = xact.ptr)
    (hdecided : xact.sent = closed.messages ∧ l.ready = true ∨
      xact.sent = [] ∧ ∀ ptr, xact.ptr = some ptr → ∀ cut, l.cut = some cut → ptr < cut) :
    Inv mark (l.close i closed) := by
  have hsettled : Settled mark l closed := by
    have hcarries := hinv.current i xact hxact
    rw [← hnumber] at hcarries
    rw [Settled, hptr]
    rcases hdecided with ⟨hsent, hready⟩ | ⟨hsent, hfront⟩
    · rw [hsent] at hcarries
      left
      refine ⟨⟨i, hcarries⟩, ?_⟩
      intro ptr hsome
      obtain ⟨cut, hcut⟩ := Option.ne_none_iff_exists'.mp (hinv.placed.ready hready)
      exact ⟨cut, hcut, hinv.placed.behind i xact ptr hxact hsome hready cut hcut⟩
    · rw [hsent] at hcarries
      right
      refine ⟨⟨i, hcarries⟩, ?_⟩
      intro ptr hsome
      exact ⟨hinv.placed.ptr_lt i xact ptr hxact hsome, hfront ptr hsome⟩
  constructor
  · constructor
    · intro j other hother
      exact hinv.numbered.lt j other (current_close hother).2
    · intro j k first second hne hfirst hsecond
      exact hinv.numbered.distinct j k first second hne (current_close hfirst).2
        (current_close hsecond).2
    · intro other hmem
      rcases List.mem_cons.mp hmem with hnew | hold
      · rw [hnew, hnumber]
        refine ⟨hinv.numbered.lt i xact hxact, ?_⟩
        intro j running hrunning
        obtain ⟨hne, hrunning'⟩ := current_close hrunning
        exact hinv.numbered.distinct j i running xact hne hrunning' hxact
      · obtain ⟨hlt, hne⟩ := hinv.numbered.closed other hold
        exact ⟨hlt, fun j running hrunning => hne j running (current_close hrunning).2⟩
  · constructor
    · intro j running ptr hrunning
      exact hinv.placed.ptr_lt j running ptr (current_close hrunning).2
    · intro j running ptr hrunning
      exact hinv.placed.behind j running ptr (current_close hrunning).2
    · exact hinv.placed.cut_le
    · exact hinv.placed.ready
  · intro j running hrunning
    exact hinv.current j running (current_close hrunning).2
  · exact hinv.fresh
  · intro other hmem
    have hother : Settled mark l other := by
      rcases List.mem_cons.mp hmem with hnew | hold
      · rw [hnew]
        exact hsettled
      · exact hinv.settled other hold
    exact hother.mono (fun j _ hcarries => ⟨j, hcarries⟩) (le_refl _) rfl

end Steps

/-- What became of a transaction whose record is in the log, once there is a cut. -/
theorem Settled.aroundCut {closed : Closed M} (hsettled : Settled mark l closed) {ptr cut : ℕ}
    (hptr : closed.ptr = some ptr) (hcut : l.cut = some cut) :
    ptr < cut ∧ (∃ i, Carries mark l.boxes i closed.xact []) ∨
      cut ≤ ptr ∧ ∃ i, Carries mark l.boxes i closed.xact closed.messages := by
  rcases hsettled with ⟨hkept, hbehind⟩ | ⟨hdropped, hfront⟩
  · obtain ⟨cut', hcut', hle⟩ := hbehind ptr hptr
    cases hcut.symm.trans hcut'
    exact .inr ⟨hle, hkept⟩
  · exact .inl ⟨(hfront ptr hptr).2 cut hcut, hdropped⟩

end Pgr.AroundCut
