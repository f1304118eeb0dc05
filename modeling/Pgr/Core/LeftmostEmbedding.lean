import Mathlib

/-!
# Leftmost embeddings

A pattern embeds in a list when its items stand there in the same order, with
others between them.  The greedy scan finds the longest beginning of the pattern
that embeds, and of each item the first place it can have.
-/

namespace Pgr.LeftmostEmbedding

variable {A : Type*}

/-- The places of an embedding of the pattern. -/
structure IsEmbedding (source pattern : List A) (places : List ℕ) : Prop where
  increasing : places.Pairwise (· < ·)
  found : places.map (fun place => source[place]?) = pattern.map some

/-- The places of the longest beginning of the pattern that embeds, each the first
that any embedding gives it. -/
structure IsLeftmost (source pattern : List A) (places : List ℕ) : Prop where
  length_le : places.length ≤ pattern.length
  embeds : IsEmbedding source (pattern.take places.length) places
  longest : ∀ count ≤ pattern.length, (pattern.take count).Sublist source → count ≤ places.length
  first : ∀ other, IsEmbedding source (pattern.take places.length) other →
    List.Forall₂ (· ≤ ·) places other

/-- The greedy scan. -/
def leftmost [DecidableEq A] : (source pattern : List A) → List ℕ
  | [], _ => []
  | _ :: _, [] => []
  | head :: source, item :: pattern =>
      if head = item then 0 :: (leftmost source pattern).map (· + 1)
      else (leftmost source (item :: pattern)).map (· + 1)

variable {head : A} {source pattern : List A} {places : List ℕ}

theorem IsEmbedding.length_eq (hembeds : IsEmbedding source pattern places) :
    places.length = pattern.length := by
  simpa using congrArg List.length hembeds.found

theorem isEmbedding_nil (source : List A) : IsEmbedding source [] [] :=
  ⟨List.Pairwise.nil, rfl⟩

/-- An embedding that leaves out the head. -/
theorem IsEmbedding.map_succ (hembeds : IsEmbedding source pattern places) (head : A) :
    IsEmbedding (head :: source) pattern (places.map (· + 1)) where
  increasing := List.pairwise_map.mpr (hembeds.increasing.imp Nat.succ_lt_succ)
  found := by
    rw [List.map_map, ← hembeds.found]
    rfl

/-- An embedding that begins at the head. -/
theorem IsEmbedding.cons_head (hembeds : IsEmbedding source pattern places) (head : A) :
    IsEmbedding (head :: source) (head :: pattern) (0 :: places.map (· + 1)) where
  increasing := by
    refine List.pairwise_cons.mpr ⟨fun place hplace => ?_, (hembeds.map_succ head).increasing⟩
    obtain ⟨other, -, hother⟩ := List.mem_map.mp hplace
    exact hother ▸ other.succ_pos
  found := by
    rw [List.map_cons, (hembeds.map_succ head).found]
    rfl

/-- An embedding that does not use the head embeds in the tail. -/
theorem IsEmbedding.of_pos (hembeds : IsEmbedding (head :: source) pattern places)
    (hpos : ∀ place ∈ places, 0 < place) :
    ∃ places', places = places'.map (· + 1) ∧ IsEmbedding source pattern places' := by
  have hsucc : places = (places.map (· - 1)).map (· + 1) := by
    rw [List.map_map]
    apply (List.map_id places).symm.trans
    apply List.map_congr_left
    intro place hplace
    exact (Nat.sub_add_cancel (hpos place hplace)).symm
  refine ⟨places.map (· - 1), hsucc, ?_, ?_⟩
  · have hincreasing := hembeds.increasing
    rw [hsucc, List.pairwise_map] at hincreasing
    exact hincreasing.imp Nat.lt_of_succ_lt_succ
  · have hfound := hembeds.found
    rw [hsucc, List.map_map] at hfound
    exact hfound

theorem exists_isEmbedding_of_sublist (hsublist : pattern.Sublist source) :
    ∃ places, IsEmbedding source pattern places := by
  induction hsublist with
  | slnil => exact ⟨[], isEmbedding_nil []⟩
  | cons head _ ih =>
      obtain ⟨places, hembeds⟩ := ih
      exact ⟨_, hembeds.map_succ head⟩
  | cons_cons head _ ih =>
      obtain ⟨places, hembeds⟩ := ih
      exact ⟨_, hembeds.cons_head head⟩

/-! ## The greedy scan -/

variable [DecidableEq A]

theorem leftmost_isEmbedding (source pattern : List A) :
    IsEmbedding source (pattern.take (leftmost source pattern).length)
      (leftmost source pattern) := by
  induction source generalizing pattern with
  | nil => exact isEmbedding_nil []
  | cons head source ih =>
      cases pattern with
      | nil => exact isEmbedding_nil _
      | cons item pattern =>
          rw [leftmost]
          split_ifs with hhead
          · rw [List.length_cons, List.length_map, List.take_succ_cons, ← hhead]
            exact (ih pattern).cons_head head
          · rw [List.length_map]
            exact (ih (item :: pattern)).map_succ head

theorem length_leftmost_le (source pattern : List A) :
    (leftmost source pattern).length ≤ pattern.length := by
  have hlength := (leftmost_isEmbedding source pattern).length_eq
  rw [List.length_take] at hlength
  exact min_eq_left_iff.mp hlength.symm

/-- No embedding of a beginning of the pattern gives an item an earlier place. -/
theorem leftmost_le {initial : List A} (hinitial : initial <+: pattern)
    (hembeds : IsEmbedding source initial places) :
    List.Forall₂ (· ≤ ·) ((leftmost source pattern).take places.length) places := by
  induction source generalizing pattern initial places with
  | nil =>
      have hnil : places = [] := by
        have hfound := hembeds.found
        cases places with
        | nil => rfl
        | cons place places =>
            cases initial with
            | nil => exact absurd hfound (List.cons_ne_nil _ _)
            | cons item initial => cases (List.cons.inj hfound).1
      rw [hnil]
      exact List.Forall₂.nil
  | cons head source ih =>
      cases hplaces : places with
      | nil => exact List.Forall₂.nil
      | cons place rest =>
          subst hplaces
          obtain ⟨later, hlater⟩ := hinitial
          cases initial with
          | nil => exact absurd hembeds.found (List.cons_ne_nil _ _)
          | cons item initial =>
              obtain ⟨hfirst, hfound⟩ := List.cons.inj hembeds.found
              obtain ⟨hbehind, hincreasing⟩ := List.pairwise_cons.mp hembeds.increasing
              rw [← hlater, List.cons_append, leftmost]
              split_ifs with hhead
              · have hrest : IsEmbedding (head :: source) initial rest := ⟨hincreasing, hfound⟩
                obtain ⟨rest', hrest', htail⟩ :=
                  hrest.of_pos fun other hother => (Nat.zero_le place).trans_lt (hbehind other hother)
                have hleast := ih (List.prefix_append initial later) htail
                rw [hrest', List.length_cons, List.length_map, List.take_succ_cons, ← List.map_take]
                refine List.Forall₂.cons (Nat.zero_le place) ?_
                rw [List.forall₂_map_left_iff, List.forall₂_map_right_iff]
                exact hleast.imp fun _ _ => Nat.succ_le_succ
              · have hplace : 0 < place := by
                  apply Nat.pos_of_ne_zero
                  intro hzero
                  rw [hzero] at hfirst
                  exact hhead (Option.some.inj hfirst)
                obtain ⟨places', hplaces', htail⟩ := hembeds.of_pos
                  (List.forall_mem_cons.mpr ⟨hplace, fun other hother =>
                    hplace.trans (hbehind other hother)⟩)
                have hleast := ih (List.prefix_append (item :: initial) later) htail
                rw [hplaces', List.length_map, ← List.map_take, List.forall₂_map_left_iff,
                  List.forall₂_map_right_iff]
                exact hleast.imp fun _ _ => Nat.succ_le_succ

theorem leftmost_isLeftmost (source pattern : List A) :
    IsLeftmost source pattern (leftmost source pattern) where
  length_le := length_leftmost_le source pattern
  embeds := leftmost_isEmbedding source pattern
  longest count hcount hsublist := by
    obtain ⟨places, hembeds⟩ := exists_isEmbedding_of_sublist hsublist
    have hlength := (leftmost_le (List.take_prefix count pattern) hembeds).length_eq
    rw [List.length_take, hembeds.length_eq, List.length_take, min_eq_left hcount] at hlength
    exact min_eq_left_iff.mp hlength
  first other hembeds := by
    have hlength := hembeds.length_eq
    rw [List.length_take, min_eq_left (length_leftmost_le source pattern)] at hlength
    have hleast := leftmost_le (List.take_prefix _ pattern) hembeds
    rwa [hlength, List.take_length] at hleast

end Pgr.LeftmostEmbedding
