import Mathlib

/-!
# A queue as its history

All values ever written to a queue and how many of them have been marked read: what a
reader still has in front of it is the rest.
-/

namespace Pgr.Fifo

structure Queue (α : Type*) where
  written : List α
  marked : ℕ
  marked_le : marked ≤ written.length

namespace Queue

variable {α : Type*}

def empty : Queue α := ⟨[], 0, le_refl 0⟩

def unread (queue : Queue α) : List α :=
  queue.written.drop queue.marked

def write (values : List α) (queue : Queue α) : Queue α where
  written := queue.written ++ values
  marked := queue.marked
  marked_le := by
    rw [List.length_append]
    exact queue.marked_le.trans (Nat.le_add_right _ _)

/-- At most what is there is marked. -/
def markRead (n : ℕ) (queue : Queue α) : Queue α where
  written := queue.written
  marked := queue.marked + min n queue.unread.length
  marked_le := by
    have hmarked := queue.marked_le
    have hunread : queue.unread.length = queue.written.length - queue.marked := List.length_drop
    omega

def markReadAll (queue : Queue α) : Queue α where
  written := queue.written
  marked := queue.written.length
  marked_le := le_refl _

variable (queue : Queue α)

@[simp]
theorem unread_empty : (empty : Queue α).unread = [] := rfl

@[simp]
theorem unread_write (values : List α) : (queue.write values).unread = queue.unread ++ values :=
  List.drop_append_of_le_length queue.marked_le

@[simp]
theorem unread_markRead (n : ℕ) : (queue.markRead n).unread = queue.unread.drop n := by
  change queue.written.drop (queue.marked + min n queue.unread.length) = queue.unread.drop n
  rw [← List.drop_drop]
  change queue.unread.drop (min n queue.unread.length) = queue.unread.drop n
  by_cases hn : n ≤ queue.unread.length
  · rw [min_eq_left hn]
  · have hmore : queue.unread.length ≤ n := le_of_not_ge hn
    rw [min_eq_right hmore, List.drop_length, List.drop_of_length_le hmore]

@[simp]
theorem unread_markReadAll : queue.markReadAll.unread = [] :=
  List.drop_length

end Queue

end Pgr.Fifo
