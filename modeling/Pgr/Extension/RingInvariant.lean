import Pgr.Extension.Ring

/-!
# What the ring keeps

The accepted messages are numbered in lock order.  Message `k` owns header slot
`k % ringHeaderSize` and the bytes from the sum of the earlier lengths on, from
its reservation until the consumer gives them back; a header is raised only
when all bytes of its message are there.  The consumer therefore pops the
accepted messages one after the other, unchanged.
-/

namespace Pgr.RingInvariant

open Pgr.CircularMemory Pgr.Transition Pgr.Ring

/-! ## Counters modulo `2 ^ 64` -/

theorem toNat_ofNat_sub {a b : ℕ} (hle : b ≤ a) (hlt : a - b < 2 ^ 64) :
    (UInt64.ofNat a - UInt64.ofNat b).toNat = a - b := by
  rw [UInt64.toNat_sub, UInt64.toNat_ofNat', UInt64.toNat_ofNat']
  omega

theorem toNat_ofNat_mod {size : ℕ} (hsize : size ∣ 2 ^ 64) (n : ℕ) :
    (UInt64.ofNat n).toNat % size = n % size := by
  rw [UInt64.toNat_ofNat', Nat.mod_mod_of_dvd n hsize]

theorem slotOf_ofNat (n : ℕ) : slotOf (UInt64.ofNat n) = n % ringHeaderSize :=
  toNat_ofNat_mod (by decide) n

theorem firstPart_ofNat (n length : ℕ) :
    firstPart ringBufferSize (UInt64.ofNat n).toNat length =
      firstPart ringBufferSize n length := by
  rw [firstPart, firstPart, toNat_ofNat_mod (by decide)]

theorem toNat_len (msg : Message) : msg.len.toNat = msg.bytes.length := by
  rw [Message.len, UInt32.toNat_ofNat', Nat.mod_eq_of_lt msg.length_lt]

theorem toUInt64_len (msg : Message) : msg.len.toUInt64 = UInt64.ofNat msg.bytes.length := by
  rw [← UInt64.toNat_inj, UInt32.toNat_toUInt64, toNat_len, UInt64.toNat_ofNat',
    Nat.mod_eq_of_lt (msg.length_lt.trans (by decide))]

/-! ## Where a message lies -/

/-- The offset at which the `k`-th accepted message begins. -/
def start (accepted : List Message) (k : ℕ) : ℕ :=
  ((accepted.take k).map fun msg => msg.bytes.length).sum

variable {accepted : List Message} {msg : Message} {k : ℕ}

theorem start_succ (hk : accepted[k]? = some msg) :
    start accepted (k + 1) = start accepted k + msg.bytes.length := by
  rw [start, start, List.take_add_one, hk]
  simp

variable (accepted) in
theorem start_mono {j : ℕ} (hjk : j ≤ k) : start accepted j ≤ start accepted k := by
  have hinitial : (accepted.take j).map (fun msg => msg.bytes.length) <+:
      (accepted.take k).map fun msg => msg.bytes.length :=
    (List.take_prefix_take_left hjk).map _
  exact hinitial.sublist.sum_le_sum (by simp)

theorem start_append (hk : k ≤ accepted.length) :
    start (accepted ++ [msg]) k = start accepted k := by
  rw [start, start, List.take_append_of_le_length hk]

theorem start_append_length :
    start (accepted ++ [msg]) (accepted.length + 1) =
      start accepted accepted.length + msg.bytes.length := by
  rw [start_succ (List.getElem?_concat_length ..), start_append le_rfl]

theorem getElem?_concat_cases {last : Message} (hk : (accepted ++ [last])[k]? = some msg) :
    (k < accepted.length ∧ accepted[k]? = some msg) ∨ (k = accepted.length ∧ msg = last) := by
  rw [List.getElem?_append] at hk
  split_ifs at hk with hlt
  · exact Or.inl ⟨hlt, hk⟩
  · rw [List.getElem?_singleton, Option.ite_none_right_eq_some, Option.some.injEq] at hk
    exact Or.inr ⟨by omega, hk.2.symm⟩

/-- The bytes of a later message lie behind those of an earlier one. -/
theorem start_add_le {j : ℕ} (hjk : j < k) (hj : accepted[j]? = some msg) :
    start accepted j + msg.bytes.length ≤ start accepted k := by
  rw [← start_succ hj]
  exact start_mono _ hjk

theorem lt_length_of_getElem? (hk : accepted[k]? = some msg) : k < accepted.length :=
  (List.getElem?_eq_some_iff.mp hk).1

theorem getElem?_append_of_eq_some {last : Message} (hk : accepted[k]? = some msg) :
    (accepted ++ [last])[k]? = some msg :=
  (List.getElem?_append_left (lt_length_of_getElem? hk)).trans hk

/-- Two messages that are both in the ring own different slots. -/
theorem slot_injective (tail : ℕ) {j : ℕ} (hj : tail ≤ j ∧ j < tail + ringHeaderSize)
    (hk : tail ≤ k ∧ k < tail + ringHeaderSize)
    (hslot : j % ringHeaderSize = k % ringHeaderSize) : j = k :=
  mod_injective_of_window hj hk hslot

/-! ## The invariant -/

section Invariant

variable {ι : Type}

/-- The four counters; header slots are given back up to `tail`, bytes up to
`freed`, and the ready flags are lowered up to `released`. -/
structure Counters (r : MpscRing) (accepted : List Message) (tail freed released : ℕ) :
    Prop where
  hhead : r.hhead = UInt64.ofNat accepted.length
  dhead : r.dhead = UInt64.ofNat (start accepted accepted.length)
  htail : r.htail = UInt64.ofNat tail
  dtail : r.dtail = UInt64.ofNat (start accepted freed)
  tail_le : tail ≤ freed
  freed_le : freed ≤ released
  released_le : released ≤ accepted.length
  headers : accepted.length ≤ tail + ringHeaderSize
  window : start accepted accepted.length ≤ start accepted freed + ringBufferSize

structure Headers (hdrs : ℕ → MsgHdr) (accepted : List Message) (tail released : ℕ) :
    Prop where
  at_index : ∀ k msg, tail ≤ k → accepted[k]? = some msg →
    (hdrs (k % ringHeaderSize)).off = UInt64.ofNat (start accepted k) ∧
      (hdrs (k % ringHeaderSize)).len = msg.len
  ready_index : ∀ slot, (hdrs slot).ready = true →
    ∃ k, released ≤ k ∧ k < accepted.length ∧ slot = k % ringHeaderSize

/-- A reservation is that of an accepted message whose header is not raised. -/
structure PushAt (push : Push) (hdrs : ℕ → MsgHdr) (accepted : List Message)
    (released : ℕ) : Prop where
  released_le : released ≤ push.index
  accepted_eq : accepted[push.index]? = some push.msg
  h : push.h = push.index % ringHeaderSize
  off : push.off = UInt64.ofNat (start accepted push.index)
  not_ready : (hdrs push.h).ready = false

structure Pushes (pushes : ι → Option Push) (hdrs : ℕ → MsgHdr) (accepted : List Message)
    (released : ℕ) : Prop where
  at_index : ∀ i push, pushes i = some push → PushAt push hdrs accepted released
  injective : ∀ i j p q, pushes i = some p → pushes j = some q → p.index = q.index → i = j

/-- What has been copied into the ring and not been given back. -/
structure Bytes (data : ℕ → UInt8) (hdrs : ℕ → MsgHdr) (producers : ι → Producer)
    (accepted : List Message) (released : ℕ) : Prop where
  ready : ∀ k msg, released ≤ k → accepted[k]? = some msg →
    (hdrs (k % ringHeaderSize)).ready = true →
      Holds ringBufferSize data (start accepted k) msg.bytes
  copiedFirst : ∀ i push, producers i = .copiedFirst push →
    Holds ringBufferSize data (start accepted push.index) (push.msg.bytes.take push.first)
  copied : ∀ i push, producers i = .copied push →
    Holds ringBufferSize data (start accepted push.index) push.msg.bytes

structure PopAt (pop : Pop) (msg : Message) (accepted : List Message) (tail : ℕ) : Prop where
  at_tail : accepted[tail]? = some msg
  t : pop.t = UInt64.ofNat tail
  n : pop.n = msg.len

/-- What the consumer has copied of the message at the tail. -/
def PopOf (consumer : Consumer) (hdrs : ℕ → MsgHdr) (accepted : List Message)
    (tail : ℕ) : Prop :=
  match consumer with
  | .idle => True
  | .found pop => ∃ msg, PopAt pop msg accepted tail ∧
      (hdrs (tail % ringHeaderSize)).ready = true
  | .copiedFirst pop => ∃ msg, PopAt pop msg accepted tail ∧
      (hdrs (tail % ringHeaderSize)).ready = true ∧
      pop.buf = msg.bytes.take (firstPart ringBufferSize (start accepted tail) msg.bytes.length)
  | .copied pop => ∃ msg, PopAt pop msg accepted tail ∧
      (hdrs (tail % ringHeaderSize)).ready = true ∧ pop.buf = msg.bytes
  | .cleared pop | .freed pop => ∃ msg, PopAt pop msg accepted tail ∧ pop.buf = msg.bytes

def tail (s : State ι) : ℕ :=
  s.popped.length

def freed (s : State ι) : ℕ :=
  match s.consumer with
  | .freed _ => s.popped.length + 1
  | _ => s.popped.length

def released (s : State ι) : ℕ :=
  match s.consumer with
  | .cleared _ | .freed _ => s.popped.length + 1
  | _ => s.popped.length

structure Inv (s : State ι) : Prop where
  counters : Counters s.ring s.accepted (tail s) (freed s) (released s)
  headers : Headers s.ring.hdrs s.accepted (tail s) (released s)
  pushes : Pushes (fun i => (s.producers i).push?) s.ring.hdrs s.accepted (released s)
  bytes : Bytes s.ring.data s.ring.hdrs s.producers s.accepted (released s)
  popOf : PopOf s.consumer s.ring.hdrs s.accepted (tail s)
  popped : s.popped <+: s.accepted.map Message.bytes

theorem inv_init (data : ℕ → UInt8) : Inv (State.init data : State ι) where
  counters := by
    constructor <;> simp [State.init, MpscRing.init, start, tail, freed, released]
  headers := by constructor <;> simp [State.init, MpscRing.init]
  pushes := by constructor <;> simp [State.init, Producer.push?]
  bytes := by constructor <;> simp [State.init]
  popOf := trivial
  popped := List.nil_prefix

end Invariant

theorem first_eq {push : Push} {hdrs : ℕ → MsgHdr} {accepted : List Message} {released : ℕ}
    (hat : PushAt push hdrs accepted released) :
    push.first =
      firstPart ringBufferSize (start accepted push.index) push.msg.bytes.length := by
  rw [Push.first, hat.off, firstPart_ofNat]

/-! ## Reserving -/

section Push

variable {ι : Type} [DecidableEq ι] {s : State ι} {i : ι} {push : Push} {pop : Pop}

theorem update_eq_cases {A : Type} {f : ι → A} {a b : A} {j : ι}
    (hupdate : Function.update f i a j = b) : (j = i ∧ a = b) ∨ (j ≠ i ∧ f j = b) := by
  by_cases hj : j = i
  · subst hj
    exact Or.inl ⟨rfl, by rwa [Function.update_self] at hupdate⟩
  · exact Or.inr ⟨hj, by rwa [Function.update_of_ne hj] at hupdate⟩

/-- Room in the arithmetic of the code is room between the true counters. -/
theorem room_of_hasNoRoom {r : MpscRing} {tail freed released : ℕ}
    (hcounters : Counters r accepted tail freed released)
    (hroom : r.hasNoRoom msg.len = false) :
    accepted.length < tail + ringHeaderSize ∧
      start accepted accepted.length + msg.bytes.length ≤
        start accepted freed + ringBufferSize := by
  have hfreed : freed ≤ accepted.length := hcounters.freed_le.trans hcounters.released_le
  have htail : tail ≤ accepted.length := hcounters.tail_le.trans hfreed
  have hstart := start_mono accepted hfreed
  have hheaders := hcounters.headers
  have hwindow := hcounters.window
  have hmsg := msg.length_lt
  simp only [MpscRing.hasNoRoom, Bool.or_eq_false_iff, decide_eq_false_iff_not, hcounters.hhead,
    hcounters.htail, hcounters.dhead, hcounters.dtail, UInt64.le_iff_toNat_le,
    UInt64.lt_iff_toNat_lt, toUInt64_len, UInt64.toNat_ofNat'] at hroom
  rw [toNat_ofNat_sub htail (by simp only [ringHeaderSize] at hheaders; omega),
    UInt64.toNat_sub, toNat_ofNat_sub hstart (by simp only [ringBufferSize] at hwindow; omega),
    UInt64.toNat_ofNat'] at hroom
  simp only [ringHeaderSize, ringBufferSize] at *
  omega

theorem Counters.reserve {r : MpscRing} {tail freed released : ℕ}
    (hcounters : Counters r accepted tail freed released)
    (hroom : r.hasNoRoom msg.len = false) :
    Counters (r.reserve msg.len) (accepted ++ [msg]) tail freed released := by
  obtain ⟨hslots, hbytes⟩ := room_of_hasNoRoom hcounters hroom
  have hfreed : freed ≤ accepted.length := hcounters.freed_le.trans hcounters.released_le
  have hlength : (accepted ++ [msg]).length = accepted.length + 1 := by simp
  refine ⟨?_, ?_, hcounters.htail, ?_, hcounters.tail_le, hcounters.freed_le, ?_, ?_, ?_⟩
  · rw [MpscRing.reserve, hlength, UInt64.ofNat_add, hcounters.hhead]
    rfl
  · rw [MpscRing.reserve, hlength, start_append_length, UInt64.ofNat_add, hcounters.dhead,
      toUInt64_len]
  · rw [start_append hfreed]
    exact hcounters.dtail
  · exact hcounters.released_le.trans (by omega)
  · omega
  · rw [hlength, start_append_length, start_append hfreed]
    exact hbytes

/-- The slot of the next message belongs to no other message of the ring. -/
theorem slot_ne_of_room {tail : ℕ} (hslots : accepted.length < tail + ringHeaderSize)
    (htail : tail ≤ k) (hk : k < accepted.length) :
    k % ringHeaderSize ≠ accepted.length % ringHeaderSize := fun heq =>
  hk.ne (slot_injective _ ⟨htail, by omega⟩ ⟨by omega, hslots⟩ heq)

@[simp]
theorem ready_reserve (r : MpscRing) (len : UInt32) (slot : ℕ) :
    ((r.reserve len).hdrs slot).ready = (r.hdrs slot).ready := by
  by_cases hslot : slot = slotOf r.hhead <;> simp [MpscRing.reserve, hslot]

theorem hdrs_reserve_self (r : MpscRing) (len : UInt32) :
    (r.reserve len).hdrs (slotOf r.hhead) =
      { r.hdrs (slotOf r.hhead) with off := r.dhead, len := len } :=
  Function.update_self ..

theorem hdrs_reserve_of_ne {r : MpscRing} {slot : ℕ} (hslot : slot ≠ slotOf r.hhead)
    (len : UInt32) : (r.reserve len).hdrs slot = r.hdrs slot :=
  Function.update_of_ne hslot ..

theorem Headers.reserve {r : MpscRing} {tail released : ℕ}
    (hheaders : Headers r.hdrs accepted tail released)
    (hhead : r.hhead = UInt64.ofNat accepted.length)
    (dhead : r.dhead = UInt64.ofNat (start accepted accepted.length))
    (hslots : accepted.length < tail + ringHeaderSize) :
    Headers (r.reserve msg.len).hdrs (accepted ++ [msg]) tail released where
  at_index k other htail hk := by
    have hslot : slotOf r.hhead = accepted.length % ringHeaderSize := by
      rw [hhead, slotOf_ofNat]
    rcases getElem?_concat_cases hk with ⟨hlt, hold⟩ | ⟨rfl, rfl⟩
    · have hne := slot_ne_of_room hslots htail hlt
      rw [hdrs_reserve_of_ne (hslot ▸ hne), start_append hlt.le]
      exact hheaders.at_index k other htail hold
    · rw [← hslot, hdrs_reserve_self, start_append le_rfl]
      exact ⟨dhead, rfl⟩
  ready_index slot hready := by
    rw [ready_reserve] at hready
    obtain ⟨k, hreleased, hlt, hslot⟩ := hheaders.ready_index slot hready
    exact ⟨k, hreleased, by simp; omega, hslot⟩

theorem PushAt.append {hdrs : ℕ → MsgHdr} {released : ℕ}
    (hpush : PushAt push hdrs accepted released) :
    PushAt push hdrs (accepted ++ [msg]) released where
  released_le := hpush.released_le
  accepted_eq := getElem?_append_of_eq_some hpush.accepted_eq
  h := hpush.h
  off := by
    rw [start_append (lt_length_of_getElem? hpush.accepted_eq).le]
    exact hpush.off
  not_ready := hpush.not_ready

/-- The invariant of a reservation reads the headers' ready flags only. -/
theorem PushAt.congr {hdrs hdrs' : ℕ → MsgHdr} {released : ℕ}
    (hpush : PushAt push hdrs accepted released)
    (hready : (hdrs' push.h).ready = (hdrs push.h).ready) :
    PushAt push hdrs' accepted released :=
  { hpush with not_ready := hready.trans hpush.not_ready }

theorem PopAt.append {tail : ℕ} {other : Message} (hpop : PopAt pop other accepted tail) :
    PopAt pop other (accepted ++ [msg]) tail :=
  { hpop with at_tail := getElem?_append_of_eq_some hpop.at_tail }

theorem PopOf.append {consumer : Consumer} {hdrs : ℕ → MsgHdr} {tail : ℕ}
    (hpop : PopOf consumer hdrs accepted tail) :
    PopOf consumer hdrs (accepted ++ [msg]) tail := by
  cases consumer with
  | idle => trivial
  | found pop =>
      obtain ⟨other, hat, hready⟩ := hpop
      exact ⟨other, hat.append, hready⟩
  | copiedFirst pop =>
      obtain ⟨other, hat, hready, hbuf⟩ := hpop
      refine ⟨other, hat.append, hready, ?_⟩
      rw [start_append (lt_length_of_getElem? hat.at_tail).le]
      exact hbuf
  | copied pop =>
      obtain ⟨other, hat, hready, hbuf⟩ := hpop
      exact ⟨other, hat.append, hready, hbuf⟩
  | cleared pop | freed pop =>
      obtain ⟨other, hat, hbuf⟩ := hpop
      exact ⟨other, hat.append, hbuf⟩

/-- The consumer relies on the ready flag of the tail to stay up. -/
theorem PopOf.congr {consumer : Consumer} {hdrs hdrs' : ℕ → MsgHdr} {tail : ℕ}
    (hpop : PopOf consumer hdrs accepted tail)
    (hready : ∀ slot, (hdrs slot).ready = true → (hdrs' slot).ready = true) :
    PopOf consumer hdrs' accepted tail := by
  cases consumer with
  | idle => trivial
  | found pop =>
      obtain ⟨other, hat, hraised⟩ := hpop
      exact ⟨other, hat, hready _ hraised⟩
  | copiedFirst pop | copied pop =>
      obtain ⟨other, hat, hraised, hbuf⟩ := hpop
      exact ⟨other, hat, hready _ hraised, hbuf⟩
  | cleared pop | freed pop => exact hpop

theorem Inv.reserve (hinv : Inv s) (hidle : s.producers i = .idle)
    (hroom : s.ring.hasNoRoom msg.len = false) :
    Inv { s with
      ring := s.ring.reserve msg.len
      producers := Function.update s.producers i
        (.reserved ⟨slotOf s.ring.hhead, s.ring.dhead, msg, s.accepted.length⟩)
      accepted := s.accepted ++ [msg] } := by
  have hcounters := hinv.counters
  obtain ⟨hslots, -⟩ := room_of_hasNoRoom hcounters hroom
  have htail : tail s ≤ released s := hcounters.tail_le.trans hcounters.freed_le
  have hready : ∀ slot, ((s.ring.reserve msg.len).hdrs slot).ready = (s.ring.hdrs slot).ready :=
    ready_reserve s.ring msg.len
  -- No header of the ring is in the new slot.
  have hfree : (s.ring.hdrs (s.accepted.length % ringHeaderSize)).ready = false := by
    by_contra hraised
    obtain ⟨k, hreleased, hlt, hslot⟩ :=
      hinv.headers.ready_index _ (Bool.eq_true_of_not_eq_false hraised)
    exact slot_ne_of_room hslots (htail.trans hreleased) hlt hslot.symm
  refine ⟨hcounters.reserve hroom,
    hinv.headers.reserve hcounters.hhead hcounters.dhead hslots, ⟨?_, ?_⟩, ⟨?_, ?_, ?_⟩, ?_, ?_⟩
  · intro j push hpush
    by_cases hj : j = i
    · subst hj
      simp only [Function.update_self, Producer.push?, Option.some.injEq] at hpush
      subst hpush
      refine ⟨hcounters.released_le, List.getElem?_concat_length .., ?_, ?_, ?_⟩
      · rw [hcounters.hhead, slotOf_ofNat]
      · rw [start_append le_rfl]
        exact hcounters.dhead
      · rw [hready, hcounters.hhead, slotOf_ofNat]
        exact hfree
    · simp only [Function.update_of_ne hj] at hpush
      exact ((hinv.pushes.at_index j push hpush).congr (hready _)).append
  · intro j j' p q hp hq hindex
    have hlt : ∀ {j p}, (s.producers j).push? = some p → p.index < s.accepted.length :=
      fun hp => lt_length_of_getElem? (hinv.pushes.at_index _ _ hp).accepted_eq
    by_cases hj : j = i <;> by_cases hj' : j' = i
    · rw [hj, hj']
    · simp only [hj, Function.update_self, Function.update_of_ne hj', Producer.push?,
        Option.some.injEq] at hp hq
      subst hp
      exact absurd hindex (hlt hq).ne'
    · simp only [hj', Function.update_self, Function.update_of_ne hj, Producer.push?,
        Option.some.injEq] at hp hq
      subst hq
      exact absurd hindex (hlt hp).ne
    · simp only [Function.update_of_ne hj, Function.update_of_ne hj'] at hp hq
      exact hinv.pushes.injective j j' p q hp hq hindex
  · intro k other hreleased hk hraised
    rw [hready] at hraised
    rcases getElem?_concat_cases hk with ⟨hlt, hold⟩ | ⟨rfl, rfl⟩
    · rw [start_append hlt.le]
      exact hinv.bytes.ready k other hreleased hold hraised
    · rw [hfree] at hraised
      cases hraised
  · intro j push hpush
    obtain ⟨-, hpush⟩ | ⟨hj, hpush⟩ := update_eq_cases hpush
    · cases hpush
    have hat := hinv.pushes.at_index j push (by rw [hpush]; rfl)
    rw [start_append (lt_length_of_getElem? hat.accepted_eq).le]
    exact hinv.bytes.copiedFirst j push hpush
  · intro j push hpush
    obtain ⟨-, hpush⟩ | ⟨hj, hpush⟩ := update_eq_cases hpush
    · cases hpush
    have hat := hinv.pushes.at_index j push (by rw [hpush]; rfl)
    rw [start_append (lt_length_of_getElem? hat.accepted_eq).le]
    exact hinv.bytes.copied j push hpush
  · exact hinv.popOf.append.congr fun slot hraised => (hready slot).trans hraised
  · rw [List.map_append]
    exact hinv.popped.trans (List.prefix_append _ _)

/-! ## Copying a message in -/

/-- A piece of message `k` is written beside every other message of the ring. -/
theorem holds_copyIn_other {r : MpscRing} {tail freed released j d : ℕ} {other : Message}
    {data : ℕ → UInt8} {piece part : List UInt8}
    (hcounters : Counters r accepted tail freed released)
    (hreleased : released ≤ k) (hk : accepted[k]? = some msg)
    (hother : released ≤ j) (hj : accepted[j]? = some other) (hne : j ≠ k)
    (hpiece : d + piece.length ≤ msg.bytes.length)
    (hfit : (start accepted k + d) % ringBufferSize + piece.length ≤ ringBufferSize)
    (hpart : part.length ≤ other.bytes.length)
    (hholds : Holds ringBufferSize data (start accepted j) part) :
    Holds ringBufferSize (copyIn data ((start accepted k + d) % ringBufferSize) piece)
      (start accepted j) part := by
  have hwindow := hcounters.window
  have hfreed := hcounters.freed_le
  have hlowK := start_mono accepted (hfreed.trans hreleased)
  have hlowJ := start_mono accepted (hfreed.trans hother)
  have hhighK := start_add_le (lt_length_of_getElem? hk) hk
  have hhighJ := start_add_le (lt_length_of_getElem? hj) hj
  have hdisjoint : start accepted j + part.length ≤ start accepted k + d ∨
      start accepted k + d + piece.length ≤ start accepted j := by
    rcases Nat.lt_or_gt_of_ne hne with hlt | hlt
    · have hbefore := start_add_le hlt hj
      exact Or.inl (by omega)
    · have hbefore := start_add_le hlt hk
      exact Or.inr (by omega)
  exact hholds.copyIn hfit ⟨by omega, by omega⟩ ⟨hlowJ, by omega⟩ hdisjoint

/-- A producer moves on with the bytes of its own message. -/
theorem Inv.copy {data : ℕ → UInt8} {producer : Producer} (hinv : Inv s)
    (hpush : (s.producers i).push? = some push) (hsame : producer.push? = some push)
    (hframe : ∀ k other part, released s ≤ k → s.accepted[k]? = some other →
      k ≠ push.index → part.length ≤ other.bytes.length →
      Holds ringBufferSize s.ring.data (start s.accepted k) part →
        Holds ringBufferSize data (start s.accepted k) part)
    (hfirst : producer = .copiedFirst push →
      Holds ringBufferSize data (start s.accepted push.index) (push.msg.bytes.take push.first))
    (hcopied : producer = .copied push →
      Holds ringBufferSize data (start s.accepted push.index) push.msg.bytes) :
    Inv { s with
      ring := { s.ring with data := data }
      producers := Function.update s.producers i producer } := by
  have hat := hinv.pushes.at_index i push hpush
  have hpushes : (fun j => (Function.update s.producers i producer j).push?) =
      fun j => (s.producers j).push? := by
    funext j
    by_cases hj : j = i
    · rw [hj, Function.update_self, hsame, hpush]
    · rw [Function.update_of_ne hj]
  have hother : ∀ {j p}, j ≠ i → (s.producers j).push? = some p → p.index ≠ push.index :=
    fun hj hp heq => hj (hinv.pushes.injective _ _ _ _ hp hpush heq)
  refine ⟨⟨hinv.counters.hhead, hinv.counters.dhead, hinv.counters.htail,
    hinv.counters.dtail, hinv.counters.tail_le, hinv.counters.freed_le,
    hinv.counters.released_le, hinv.counters.headers, hinv.counters.window⟩,
    hinv.headers, ?_, ⟨?_, ?_, ?_⟩, hinv.popOf, hinv.popped⟩
  · rw [hpushes]
    exact hinv.pushes
  · intro k other hreleased hk hraised
    refine hframe k other _ hreleased hk ?_ le_rfl (hinv.bytes.ready k other hreleased hk hraised)
    rintro rfl
    rw [← hat.h, hat.not_ready] at hraised
    cases hraised
  · intro j p hp
    rcases update_eq_cases hp with ⟨rfl, rfl⟩ | ⟨hj, hp⟩
    · cases hsame
      exact hfirst rfl
    · have hp? : (s.producers j).push? = some p := by rw [hp]; rfl
      have hatJ := hinv.pushes.at_index j p hp?
      exact hframe _ _ _ hatJ.released_le hatJ.accepted_eq (hother hj hp?)
        (List.length_take_le' _ _) (hinv.bytes.copiedFirst j p hp)
  · intro j p hp
    rcases update_eq_cases hp with ⟨rfl, rfl⟩ | ⟨hj, hp⟩
    · cases hsame
      exact hcopied rfl
    · have hp? : (s.producers j).push? = some p := by rw [hp]; rfl
      have hatJ := hinv.pushes.at_index j p hp?
      exact hframe _ _ _ hatJ.released_le hatJ.accepted_eq (hother hj hp?) le_rfl
        (hinv.bytes.copied j p hp)

theorem Inv.pushFirst (hinv : Inv s) (hreserved : s.producers i = .reserved push) :
    Inv { s with
      ring := { s.ring with
        data := copyIn s.ring.data (push.off.toNat % ringBufferSize)
          (push.msg.bytes.take push.first) }
      producers := Function.update s.producers i (.copiedFirst push) } := by
  have hpush : (s.producers i).push? = some push := by rw [hreserved]; rfl
  have hat := hinv.pushes.at_index i push hpush
  have hlength : (push.msg.bytes.take push.first).length = push.first := by
    rw [List.length_take_of_le, first_eq hat]
    exact firstPart_le_length ..
  have hpos : push.off.toNat % ringBufferSize =
      start s.accepted push.index % ringBufferSize := by
    rw [hat.off, toNat_ofNat_mod (by decide)]
  have hfit : start s.accepted push.index % ringBufferSize +
      (push.msg.bytes.take push.first).length ≤ ringBufferSize := by
    rw [hlength, first_eq hat]
    exact mod_add_firstPart_le (by decide) _
  rw [hpos]
  refine hinv.copy hpush rfl ?_ (fun _ => holds_copyIn hfit) nofun
  intro k other part hreleased hk hne hpart hholds
  exact holds_copyIn_other hinv.counters hat.released_le hat.accepted_eq hreleased hk hne
    (d := 0) (by simp) hfit hpart hholds

theorem Inv.pushRest (hinv : Inv s) (hcopied : s.producers i = .copiedFirst push) :
    Inv { s with
      ring := { s.ring with
        data := if push.first < push.msg.bytes.length
          then copyIn s.ring.data 0 (push.msg.bytes.drop push.first) else s.ring.data }
      producers := Function.update s.producers i (.copied push) } := by
  have hpush : (s.producers i).push? = some push := by rw [hcopied]; rfl
  have hat := hinv.pushes.at_index i push hpush
  have hfirst := hinv.bytes.copiedFirst i push hcopied
  by_cases hrest : push.first < push.msg.bytes.length
  · have hpos : (start s.accepted push.index + push.first) % ringBufferSize = 0 := by
      rw [first_eq hat] at hrest ⊢
      exact add_firstPart_mod (by decide) hrest
    have hsize : push.msg.bytes.length ≤ ringBufferSize := by
      have hwindow := hinv.counters.window
      have hlow := start_mono s.accepted
        (hinv.counters.freed_le.trans hat.released_le)
      have hhigh := start_add_le (lt_length_of_getElem? hat.accepted_eq) hat.accepted_eq
      omega
    have hfit : (start s.accepted push.index + push.first) % ringBufferSize +
        (push.msg.bytes.drop push.first).length ≤ ringBufferSize := by
      rw [hpos, List.length_drop]
      omega
    rw [if_pos hrest, ← hpos]
    have hwrite : ∀ k other part, released s ≤ k → s.accepted[k]? = some other →
        k ≠ push.index → part.length ≤ other.bytes.length →
        Holds ringBufferSize s.ring.data (start s.accepted k) part →
          Holds ringBufferSize (copyIn s.ring.data
            ((start s.accepted push.index + push.first) % ringBufferSize)
            (push.msg.bytes.drop push.first)) (start s.accepted k) part := by
      intro k other part hreleased hk hne hpart hholds
      exact holds_copyIn_other hinv.counters hat.released_le hat.accepted_eq hreleased hk hne
        (by rw [List.length_drop]; omega) hfit hpart hholds
    refine hinv.copy hpush rfl hwrite nofun fun _ => ?_
    have hlength : (push.msg.bytes.take push.first).length = push.first :=
      List.length_take_of_le hrest.le
    rw [← List.take_append_drop push.first push.msg.bytes, holds_append, hlength,
      List.take_append_drop]
    have hwindow : start s.accepted push.index ≤ start s.accepted push.index + push.first ∧
        start s.accepted push.index + push.first + (push.msg.bytes.drop push.first).length ≤
          start s.accepted push.index + ringBufferSize := by
      rw [List.length_drop]
      omega
    exact ⟨hfirst.copyIn hfit hwindow ⟨le_rfl, by omega⟩ (Or.inl (by omega)),
      holds_copyIn hfit⟩
  · rw [if_neg hrest]
    refine hinv.copy hpush rfl (fun _ _ _ _ _ _ _ hholds => hholds) nofun fun _ => ?_
    rwa [List.take_of_length_le (Nat.not_lt.mp hrest)] at hfirst

/-! ## Raising and lowering a header -/

theorem hdrs_setReady (r : MpscRing) (slot : ℕ) (ready : Bool) (other : ℕ) :
    ((r.setReady slot ready).hdrs other).off = (r.hdrs other).off ∧
      ((r.setReady slot ready).hdrs other).len = (r.hdrs other).len := by
  by_cases hother : other = slot <;> simp [MpscRing.setReady, hother]

@[simp]
theorem ready_setReady_self (r : MpscRing) (slot : ℕ) (ready : Bool) :
    ((r.setReady slot ready).hdrs slot).ready = ready := by
  simp [MpscRing.setReady]

theorem ready_setReady_of_ne {r : MpscRing} {slot other : ℕ} (hother : other ≠ slot)
    (ready : Bool) : ((r.setReady slot ready).hdrs other).ready = (r.hdrs other).ready := by
  simp [MpscRing.setReady, Function.update_of_ne hother]

theorem push?_update_idle {producers : ι → Producer} {j : ι}
    (hpush : (Function.update producers i .idle j).push? = some push) :
    j ≠ i ∧ (producers j).push? = some push := by
  by_cases hj : j = i
  · rw [hj, Function.update_self] at hpush
    cases hpush
  · exact ⟨hj, by rwa [Function.update_of_ne hj] at hpush⟩

theorem Inv.setReady (hinv : Inv s) (hcopied : s.producers i = .copied push) :
    Inv { s with
      ring := s.ring.setReady push.h true
      producers := Function.update s.producers i .idle } := by
  have hpush : (s.producers i).push? = some push := by rw [hcopied]; rfl
  have hat := hinv.pushes.at_index i push hpush
  have hlt := lt_length_of_getElem? hat.accepted_eq
  have htail : tail s ≤ released s := hinv.counters.tail_le.trans hinv.counters.freed_le
  have hheaders := hinv.counters.headers
  -- The other messages of the ring are in other slots.
  have hslot : ∀ k, released s ≤ k → k < s.accepted.length → k ≠ push.index →
      k % ringHeaderSize ≠ push.h := by
    intro k hreleased hk hne heq
    rw [hat.h] at heq
    have hreleasedPush := hat.released_le
    exact hne (slot_injective (tail s) ⟨by omega, by omega⟩ ⟨by omega, by omega⟩ heq)
  refine ⟨⟨hinv.counters.hhead, hinv.counters.dhead, hinv.counters.htail,
    hinv.counters.dtail, hinv.counters.tail_le, hinv.counters.freed_le,
    hinv.counters.released_le, hinv.counters.headers, hinv.counters.window⟩,
    ⟨?_, ?_⟩, ⟨?_, ?_⟩, ⟨?_, ?_, ?_⟩, ?_, hinv.popped⟩
  · intro k msg hk hmsg
    obtain ⟨hoff, hlen⟩ := hdrs_setReady s.ring push.h true (k % ringHeaderSize)
    rw [hoff, hlen]
    exact hinv.headers.at_index k msg hk hmsg
  · intro slot hraised
    by_cases hother : slot = push.h
    · exact ⟨push.index, hat.released_le, hlt, hother.trans hat.h⟩
    · rw [ready_setReady_of_ne hother] at hraised
      exact hinv.headers.ready_index slot hraised
  · intro j p hp
    obtain ⟨hj, hp⟩ := push?_update_idle hp
    have hatJ := hinv.pushes.at_index j p hp
    have hne : p.index ≠ push.index := fun heq =>
      hj (hinv.pushes.injective j i p push hp hpush heq)
    refine hatJ.congr (ready_setReady_of_ne ?_ true)
    rw [hatJ.h]
    exact hslot p.index hatJ.released_le (lt_length_of_getElem? hatJ.accepted_eq) hne
  · intro j j' p q hp hq hindex
    exact hinv.pushes.injective j j' p q (push?_update_idle hp).2 (push?_update_idle hq).2 hindex
  · intro k msg hreleased hk hraised
    by_cases hindex : k = push.index
    · subst hindex
      rw [hat.accepted_eq, Option.some.injEq] at hk
      subst hk
      exact hinv.bytes.copied i push hcopied
    · rw [ready_setReady_of_ne (hslot k hreleased (lt_length_of_getElem? hk) hindex)] at hraised
      exact hinv.bytes.ready k msg hreleased hk hraised
  · intro j p hp
    obtain ⟨-, hp⟩ | ⟨-, hp⟩ := update_eq_cases hp
    · cases hp
    · exact hinv.bytes.copiedFirst j p hp
  · intro j p hp
    obtain ⟨-, hp⟩ | ⟨-, hp⟩ := update_eq_cases hp
    · cases hp
    · exact hinv.bytes.copied j p hp
  · refine hinv.popOf.congr fun slot hraised => ?_
    by_cases hother : slot = push.h
    · rw [hother, ready_setReady_self]
    · rwa [ready_setReady_of_ne hother]

end Push

/-! ## Popping -/

section Pop

variable {ι : Type} {s : State ι} {pop : Pop}

/-- The consumer moves on without giving anything back. -/
theorem Inv.consume {consumer : Consumer} (hinv : Inv s)
    (hfreed : freed { s with consumer := consumer } = freed s)
    (hreleased : released { s with consumer := consumer } = released s)
    (hpop : PopOf consumer s.ring.hdrs s.accepted (tail s)) :
    Inv { s with consumer := consumer } where
  counters := by
    rw [hfreed, hreleased]
    exact hinv.counters
  headers := by
    rw [hreleased]
    exact hinv.headers
  pushes := by
    rw [hreleased]
    exact hinv.pushes
  bytes := by
    rw [hreleased]
    exact hinv.bytes
  popOf := hpop
  popped := hinv.popped

/-- The header of the message that is popped. -/
theorem header_of_popAt (hinv : Inv s) (hpop : PopAt pop msg s.accepted (tail s)) :
    (s.ring.hdrs (slotOf pop.t)).off = UInt64.ofNat (start s.accepted (tail s)) ∧
      pop.n.toNat = msg.bytes.length := by
  rw [hpop.t, slotOf_ofNat, hpop.n, toNat_len]
  exact ⟨(hinv.headers.at_index _ _ le_rfl hpop.at_tail).1, rfl⟩

/-- A raised header at the tail has all bytes of its message behind it. -/
theorem holds_of_ready (hinv : Inv s) (hreleased : released s = tail s)
    (hpop : PopAt pop msg s.accepted (tail s))
    (hready : (s.ring.hdrs (tail s % ringHeaderSize)).ready = true) :
    Holds ringBufferSize s.ring.data (start s.accepted (tail s)) msg.bytes :=
  hinv.bytes.ready _ _ hreleased.le hpop.at_tail hready

theorem Inv.testReady (hinv : Inv s) (hidle : s.consumer = .idle)
    (hready : (s.ring.hdrs (slotOf s.ring.htail)).ready = true) :
    Inv { s with
      consumer := .found ⟨s.ring.htail, (s.ring.hdrs (slotOf s.ring.htail)).len, []⟩ } := by
  have hreleased : released s = tail s := by simp [released, tail, hidle]
  have htail := hinv.counters.htail
  rw [htail, slotOf_ofNat] at hready ⊢
  obtain ⟨k, hk, hlt, hslot⟩ := hinv.headers.ready_index _ hready
  have hheaders := hinv.counters.headers
  rw [hreleased] at hk
  -- The slot of the tail can only be raised for the message at the tail.
  obtain rfl : tail s = k :=
    slot_injective (tail s) ⟨le_rfl, by omega⟩ ⟨hk, by omega⟩ hslot
  obtain ⟨msg, hmsg⟩ : ∃ msg, s.accepted[tail s]? = some msg :=
    ⟨_, List.getElem?_eq_getElem hlt⟩
  have hlen := (hinv.headers.at_index _ _ le_rfl hmsg).2
  refine hinv.consume ?_ ?_ ⟨msg, ⟨hmsg, rfl, hlen⟩, hready⟩
  · simp [freed, hidle]
  · simp [released, hidle]

theorem Inv.popFirst (hinv : Inv s) (hfound : s.consumer = .found pop) :
    Inv { s with
      consumer := .copiedFirst { pop with
        buf := copyOut s.ring.data
          ((s.ring.hdrs (slotOf pop.t)).off.toNat % ringBufferSize)
          (firstPart ringBufferSize (s.ring.hdrs (slotOf pop.t)).off.toNat pop.n.toNat) } } := by
  have hreleased : released s = tail s := by simp [released, tail, hfound]
  have hpopOf := hinv.popOf
  rw [hfound] at hpopOf
  obtain ⟨msg, hat, hready⟩ := hpopOf
  obtain ⟨hoff, hn⟩ := header_of_popAt hinv hat
  have hholds := holds_of_ready hinv hreleased hat hready
  have hlength : (msg.bytes.take (firstPart ringBufferSize (start s.accepted (tail s))
      msg.bytes.length)).length =
        firstPart ringBufferSize (start s.accepted (tail s)) msg.bytes.length :=
    List.length_take_of_le (firstPart_le_length ..)
  refine hinv.consume ?_ ?_ ⟨msg, ⟨hat.at_tail, hat.t, hat.n⟩, hready, ?_⟩
  · simp [freed, hfound]
  · simp [released, hfound]
  · rw [hoff, hn, firstPart_ofNat, toNat_ofNat_mod (by decide)]
    rw [← List.take_append_drop (firstPart ringBufferSize (start s.accepted (tail s))
      msg.bytes.length) msg.bytes, holds_append] at hholds
    have hcopy := copyOut_eq hholds.1 (by
      rw [hlength]
      exact mod_add_firstPart_le (by decide) _)
    rwa [hlength] at hcopy

theorem Inv.popRest (hinv : Inv s) (hfirst : s.consumer = .copiedFirst pop) :
    Inv { s with
      consumer := .copied { pop with
        buf := if pop.buf.length < pop.n.toNat
          then pop.buf ++ copyOut s.ring.data 0 (pop.n.toNat - pop.buf.length)
          else pop.buf } } := by
  have hreleased : released s = tail s := by simp [released, tail, hfirst]
  have hpopOf := hinv.popOf
  rw [hfirst] at hpopOf
  obtain ⟨msg, hat, hready, hbuf⟩ := hpopOf
  obtain ⟨-, hn⟩ := header_of_popAt hinv hat
  have hholds := holds_of_ready hinv hreleased hat hready
  have hlength : pop.buf.length =
      firstPart ringBufferSize (start s.accepted (tail s)) msg.bytes.length := by
    rw [hbuf, List.length_take_of_le (firstPart_le_length ..)]
  refine hinv.consume ?_ ?_ ⟨msg, ⟨hat.at_tail, hat.t, hat.n⟩, hready, ?_⟩
  · simp [freed, hfirst]
  · simp [released, hfirst]
  · rw [hn]
    by_cases hrest : pop.buf.length < msg.bytes.length
    · rw [if_pos hrest]
      have hpos : (start s.accepted (tail s) + pop.buf.length) % ringBufferSize = 0 := by
        rw [hlength] at hrest ⊢
        exact add_firstPart_mod (by decide) hrest
      have hsize : msg.bytes.length ≤ ringBufferSize := by
        have hwindow := hinv.counters.window
        have hfreed : freed s = tail s := by simp [freed, tail, hfirst]
        have hhigh := start_add_le (lt_length_of_getElem? hat.at_tail) hat.at_tail
        rw [hfreed] at hwindow
        omega
      rw [← hlength] at hbuf
      rw [← List.take_append_drop pop.buf.length msg.bytes, holds_append, ← hbuf] at hholds
      have hcopy := copyOut_eq hholds.2 (by
        rw [hpos, List.length_drop]
        omega)
      rw [hpos, List.length_drop] at hcopy
      calc pop.buf ++ copyOut s.ring.data 0 (msg.bytes.length - pop.buf.length)
          = pop.buf ++ msg.bytes.drop pop.buf.length := by rw [hcopy]
        _ = msg.bytes.take pop.buf.length ++ msg.bytes.drop pop.buf.length := by rw [← hbuf]
        _ = msg.bytes := List.take_append_drop ..
    · rw [if_neg hrest, hbuf, List.take_of_length_le]
      rw [← hlength]
      exact Nat.not_lt.mp hrest

theorem Inv.clearReady (hinv : Inv s) (hcopied : s.consumer = .copied pop) :
    Inv { s with
      ring := s.ring.setReady (slotOf pop.t) false
      consumer := .cleared pop } := by
  have hreleased : released s = tail s := by simp [released, tail, hcopied]
  have hpopOf := hinv.popOf
  rw [hcopied] at hpopOf
  obtain ⟨msg, hat, hready, hbuf⟩ := hpopOf
  have hlt := lt_length_of_getElem? hat.at_tail
  have hfreed : freed s = tail s := by simp [freed, tail, hcopied]
  have hcounters := hinv.counters
  rw [hfreed] at hcounters
  have hheaders := hcounters.headers
  have hslotTail : slotOf pop.t = tail s % ringHeaderSize := by rw [hat.t, slotOf_ofNat]
  rw [hslotTail]
  have hslot : ∀ k, tail s + 1 ≤ k → k < s.accepted.length →
      k % ringHeaderSize ≠ tail s % ringHeaderSize := by
    intro k hk hlt heq
    have hsame := slot_injective (tail s) ⟨by omega, by omega⟩ ⟨le_rfl, by omega⟩ heq
    omega
  refine ⟨⟨hcounters.hhead, hcounters.dhead, hcounters.htail, hcounters.dtail, le_rfl,
    Nat.le_succ _, hlt, hcounters.headers, hcounters.window⟩, ⟨?_, ?_⟩,
    ⟨?_, hinv.pushes.injective⟩, ⟨?_, ?_, ?_⟩, ⟨msg, hat, hbuf⟩, hinv.popped⟩
  · intro k other hk hother
    obtain ⟨hoff, hlen⟩ := hdrs_setReady s.ring (tail s % ringHeaderSize) false
      (k % ringHeaderSize)
    rw [hoff, hlen]
    exact hinv.headers.at_index k other hk hother
  · intro slot hraised
    by_cases hother : slot = tail s % ringHeaderSize
    · rw [hother, ready_setReady_self] at hraised
      cases hraised
    · rw [ready_setReady_of_ne hother] at hraised
      obtain ⟨k, hk, hklt, rfl⟩ := hinv.headers.ready_index slot hraised
      refine ⟨k, ?_, hklt, rfl⟩
      have hne : k ≠ tail s := fun heq => hother (by rw [heq])
      rw [hreleased] at hk
      exact Nat.lt_of_le_of_ne hk hne.symm
  · intro i push hpush
    have hatPush := hinv.pushes.at_index i push hpush
    have hne : push.index ≠ tail s := by
      intro heq
      have hnotReady := hatPush.not_ready
      rw [hatPush.h, heq, hready] at hnotReady
      cases hnotReady
    have hle := hatPush.released_le
    rw [hreleased] at hle
    have hlater : tail s + 1 ≤ push.index := Nat.lt_of_le_of_ne hle hne.symm
    have hother := hslot push.index hlater (lt_length_of_getElem? hatPush.accepted_eq)
    rw [← hatPush.h] at hother
    exact ⟨hlater, hatPush.accepted_eq, hatPush.h, hatPush.off,
      (ready_setReady_of_ne hother false).trans hatPush.not_ready⟩
  · intro k other hk hother hraised
    rw [ready_setReady_of_ne (hslot k hk (lt_length_of_getElem? hother))] at hraised
    exact hinv.bytes.ready k other (hreleased ▸ (Nat.le_succ _).trans hk) hother hraised
  · exact hinv.bytes.copiedFirst
  · exact hinv.bytes.copied

theorem Inv.setDtail (hinv : Inv s) (hcleared : s.consumer = .cleared pop) :
    Inv { s with
      ring := { s.ring with
        dtail := (s.ring.hdrs (slotOf pop.t)).off + pop.n.toUInt64 }
      consumer := .freed pop } := by
  have hreleased : released s = tail s + 1 := by simp [released, tail, hcleared]
  have hfreed : freed s = tail s := by simp [freed, tail, hcleared]
  have hpopOf := hinv.popOf
  rw [hcleared] at hpopOf
  obtain ⟨msg, hat, hbuf⟩ := hpopOf
  obtain ⟨hoff, -⟩ := header_of_popAt hinv hat
  have hnext := start_succ hat.at_tail
  have hdtail : (s.ring.hdrs (slotOf pop.t)).off + pop.n.toUInt64 =
      UInt64.ofNat (start s.accepted (tail s + 1)) := by
    rw [hoff, hat.n, toUInt64_len, hnext, UInt64.ofNat_add]
  obtain ⟨hcounters, hheaders, hpushes, hbytes, -, hpopped⟩ := hinv
  rw [hreleased] at hcounters hheaders hpushes hbytes
  rw [hfreed] at hcounters
  rw [hdtail]
  exact ⟨⟨hcounters.hhead, hcounters.dhead, hcounters.htail, rfl, Nat.le_succ _, le_rfl,
    hcounters.released_le, hcounters.headers,
    hcounters.window.trans (Nat.add_le_add_right (start_mono _ (Nat.le_succ _)) _)⟩,
    hheaders, hpushes, hbytes, ⟨msg, hat, hbuf⟩, hpopped⟩

/-- The popped messages are the first accepted ones, so the next one popped is
the one at the tail. -/
theorem popped_concat (hinv : Inv s) (hmsg : s.accepted[tail s]? = some msg) :
    s.popped ++ [msg.bytes] <+: s.accepted.map Message.bytes := by
  obtain ⟨rest, hrest⟩ := hinv.popped
  have hhead : (s.accepted.map Message.bytes)[s.popped.length]? = some msg.bytes := by
    rw [List.getElem?_map]
    exact congrArg (Option.map Message.bytes) hmsg
  rw [← hrest, List.getElem?_append_right le_rfl, Nat.sub_self] at hhead
  cases rest with
  | nil => cases hhead
  | cons first rest =>
      rw [List.getElem?_cons_zero, Option.some.injEq] at hhead
      exact ⟨rest, by rw [← hrest, ← hhead, List.append_assoc]; rfl⟩

theorem Inv.setHtail (hinv : Inv s) (hfreedPop : s.consumer = .freed pop) :
    Inv { s with
      ring := { s.ring with htail := pop.t + 1 }
      consumer := .idle
      popped := s.popped ++ [pop.buf] } := by
  have hreleased : released s = tail s + 1 := by simp [released, tail, hfreedPop]
  have hfreed : freed s = tail s + 1 := by simp [freed, tail, hfreedPop]
  have hpopOf := hinv.popOf
  rw [hfreedPop] at hpopOf
  obtain ⟨msg, hat, hbuf⟩ := hpopOf
  have htail : pop.t + 1 = UInt64.ofNat (tail s + 1) := by
    rw [hat.t, UInt64.ofNat_add]
    rfl
  have hlength : (s.popped ++ [pop.buf]).length = tail s + 1 := by simp [tail]
  have hcounters := hinv.counters
  have hheaders := hinv.headers
  rw [hfreed, hreleased] at hcounters
  rw [hreleased] at hheaders
  rw [htail]
  refine ⟨?_, ?_, ?_, ?_, trivial, hbuf ▸ popped_concat hinv hat.at_tail⟩
  · simp only [tail, freed, released, hlength]
    exact ⟨hcounters.hhead, hcounters.dhead, rfl, hcounters.dtail, le_rfl, le_rfl,
      hcounters.released_le, hcounters.headers.trans (Nat.add_le_add_right (Nat.le_succ _) _),
      hcounters.window⟩
  · simp only [tail, released, hlength]
    exact ⟨fun k msg hk => hheaders.at_index k msg (Nat.le_of_succ_le hk),
      hheaders.ready_index⟩
  · simp only [released, hlength]
    exact hreleased ▸ hinv.pushes
  · simp only [released, hlength]
    exact hreleased ▸ hinv.bytes

end Pop

/-! ## Runs -/

variable {ι : Type} [DecidableEq ι] {bufSize : UInt32} {s s' : State ι} {data : ℕ → UInt8}

theorem inv_step (hinv : Inv s) (l : Label ι) (hstep : step bufSize s l = some s') :
    Inv s' := by
  cases l with
  | reserve i msg =>
      rw [step] at hstep
      split at hstep
      next hidle =>
        split_ifs at hstep with hroom <;> cases hstep
        · exact hinv
        · exact hinv.reserve hidle (Bool.eq_false_of_not_eq_true hroom)
      next => cases hstep
  | pushFirst i =>
      rw [step] at hstep
      split at hstep <;> cases hstep
      next hreserved => exact hinv.pushFirst hreserved
  | pushRest i =>
      rw [step] at hstep
      split at hstep <;> cases hstep
      next hcopied => exact hinv.pushRest hcopied
  | setReady i =>
      rw [step] at hstep
      split at hstep <;> cases hstep
      next hcopied => exact hinv.setReady hcopied
  | testReady =>
      rw [step] at hstep
      split at hstep
      next hidle =>
        simp only at hstep
        split_ifs at hstep with hready <;> cases hstep
        · exact hinv.testReady hidle (by simp at hready; exact hready.1)
        · exact hinv
      next => cases hstep
  | popFirst =>
      rw [step] at hstep
      split at hstep <;> cases hstep
      next hfound => exact hinv.popFirst hfound
  | popRest =>
      rw [step] at hstep
      split at hstep <;> cases hstep
      next hfirst => exact hinv.popRest hfirst
  | clearReady =>
      rw [step] at hstep
      split at hstep <;> cases hstep
      next hcopied => exact hinv.clearReady hcopied
  | setDtail =>
      rw [step] at hstep
      split at hstep <;> cases hstep
      next hcleared => exact hinv.setDtail hcleared
  | setHtail =>
      rw [step] at hstep
      split at hstep <;> cases hstep
      next hfreed => exact hinv.setHtail hfreed

theorem inv_of_reachable (hreachable : Reachable (step bufSize) (State.init data) s) :
    Inv s :=
  hreachable.invariant (inv_init data) fun _ l _ hinv hstep => inv_step hinv l hstep

/-- However the parties interleave, `ring_pop` returns the accepted messages in
lock order, byte for byte, and both space computations of `ring_push` subtract a
smaller number from a larger one. -/
theorem popped_isPrefix_accepted (hreachable : Reachable (step bufSize) (State.init data) s) :
    s.popped <+: s.accepted.map Message.bytes ∧
      (s.ring.hhead - s.ring.htail).toNat ≤ ringHeaderSize ∧
      (s.ring.dhead - s.ring.dtail).toNat ≤ ringBufferSize := by
  obtain ⟨hcounters, -, -, -, -, hpopped⟩ := inv_of_reachable hreachable
  have hfreed := hcounters.freed_le.trans hcounters.released_le
  have htail := hcounters.tail_le.trans hfreed
  have hheaders := hcounters.headers
  have hwindow := hcounters.window
  refine ⟨hpopped, ?_, ?_⟩
  · rw [hcounters.hhead, hcounters.htail, toNat_ofNat_sub htail]
    all_goals simp only [ringHeaderSize] at hheaders ⊢; omega
  · rw [hcounters.dhead, hcounters.dtail, toNat_ofNat_sub (start_mono _ hfreed)]
    all_goals simp only [ringBufferSize] at hwindow ⊢; omega

/-- A pop of the message at the tail. -/
def onePop : List (Label Bool) :=
  [.testReady, .popFirst, .popRest, .clearReady, .setDtail, .setHtail]

/-- The second producer reserves behind the first one and is ready before it, and the
consumer looks for a message in between. -/
def outOfOrder : List (Label Bool) :=
  [.reserve false ⟨[1, 2, 3], by decide⟩, .pushFirst false, .reserve true ⟨[4, 5], by decide⟩,
    .pushFirst true, .pushRest true, .setReady true, .testReady, .pushRest false,
    .setReady false] ++ onePop ++ onePop

theorem popped_outOfOrder : ∃ s : State Bool,
    run (step 1048576) (State.init fun _ => 0) outOfOrder = some s ∧
      s.popped = [[1, 2, 3], [4, 5]] ∧ s.popped <+: s.accepted.map Message.bytes := by
  have hpopped : (run (step 1048576) (State.init fun _ => 0) outOfOrder).map State.popped =
      some [[1, 2, 3], [4, 5]] := by decide +kernel
  obtain ⟨s, hrun, hs⟩ := Option.map_eq_some_iff.mp hpopped
  exact ⟨s, hrun, hs, (popped_isPrefix_accepted (reachable_of_run hrun)).1⟩

end Pgr.RingInvariant
