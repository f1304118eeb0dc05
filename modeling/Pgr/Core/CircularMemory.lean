import Mathlib

/-!
# Circular memory

A memory of `size` cells that is addressed by offsets which only grow: offset
`off` lives in cell `off % size`.  `Holds` says that a list lies in the cells
from an offset on.  A list is copied in and out in at most two pieces, and as
long as all lists of interest lie in one window of `size` offsets, writing one
leaves the others alone.
-/

namespace Pgr.CircularMemory

variable {A : Type*}

/-- `memcpy(mem + pos, items, items.length)`. -/
def copyIn (mem : ℕ → A) (pos : ℕ) (items : List A) : ℕ → A := fun cell =>
  if pos ≤ cell then items[cell - pos]?.getD (mem cell) else mem cell

/-- `memcpy(…, mem + pos, length)`. -/
def copyOut (mem : ℕ → A) (pos length : ℕ) : List A :=
  (List.range length).map fun i => mem (pos + i)

/-- `min(length, size - off % size)`: how much fits before the end. -/
def firstPart (size off length : ℕ) : ℕ :=
  min length (size - off % size)

/-- The items lie in the cells from offset `off` on. -/
def Holds (size : ℕ) (mem : ℕ → A) (off : ℕ) (items : List A) : Prop :=
  ∀ i (hi : i < items.length), mem ((off + i) % size) = items[i]

variable {size : ℕ} {mem : ℕ → A} {off : ℕ} {items : List A}

theorem holds_append {left right : List A} :
    Holds size mem off (left ++ right) ↔
      Holds size mem off left ∧ Holds size mem (off + left.length) right := by
  constructor
  · intro hholds
    refine ⟨fun i hi => ?_, fun i hi => ?_⟩
    · rw [hholds i (by simp; omega), List.getElem_append_left hi]
    · rw [Nat.add_assoc, hholds (left.length + i) (by simp; omega),
        List.getElem_append_right (by omega)]
      simp
  · rintro ⟨hleft, hright⟩ i hi
    rw [List.length_append] at hi
    by_cases hlt : i < left.length
    · rw [hleft i hlt, List.getElem_append_left hlt]
    · have hcell := hright (i - left.length) (by omega)
      rw [Nat.add_assoc, Nat.add_sub_cancel' (Nat.not_lt.mp hlt)] at hcell
      rw [hcell, List.getElem_append_right (Nat.not_lt.mp hlt)]

theorem firstPart_le_length (size off length : ℕ) : firstPart size off length ≤ length :=
  min_le_left _ _

theorem mod_add_firstPart_le (hsize : 0 < size) (length : ℕ) :
    off % size + firstPart size off length ≤ size := by
  have hlt := Nat.mod_lt off hsize
  have hpart : firstPart size off length ≤ size - off % size := min_le_right _ _
  omega

/-- The second part begins at the first cell. -/
theorem add_firstPart_mod (hsize : 0 < size) {length : ℕ}
    (hfirst : firstPart size off length < length) :
    (off + firstPart size off length) % size = 0 := by
  have hlt := Nat.mod_lt off hsize
  have hpart : firstPart size off length = size - off % size := by
    rw [firstPart] at hfirst ⊢
    omega
  have hoff := Nat.div_add_mod off size
  have hround : off + (size - off % size) = size * (off / size + 1) := by
    rw [Nat.mul_succ]
    omega
  rw [hpart, hround, Nat.mul_mod_right]

/-- While no offset wraps, consecutive offsets are consecutive cells. -/
theorem add_mod_of_fit {length i : ℕ} (hfit : off % size + length ≤ size) (hi : i < length) :
    (off + i) % size = off % size + i := by
  rw [Nat.add_mod, Nat.mod_eq_of_lt (by omega : i < size), Nat.mod_eq_of_lt (by omega)]

/-- Two offsets of one window live in different cells. -/
theorem mod_injective_of_window {window u v : ℕ} (hu : window ≤ u ∧ u < window + size)
    (hv : window ≤ v ∧ v < window + size) (heq : u % size = v % size) : u = v := by
  obtain ⟨a, rfl⟩ := Nat.exists_eq_add_of_le hu.1
  obtain ⟨b, rfl⟩ := Nat.exists_eq_add_of_le hv.1
  have hmod : a ≡ b [MOD size] := Nat.ModEq.add_left_cancel' window heq
  rw [hmod.eq_of_lt_of_lt (by omega) (by omega)]

theorem copyIn_of_mem {pos i : ℕ} (hi : i < items.length) :
    copyIn mem pos items (pos + i) = items[i] := by
  simp [copyIn, hi]

theorem copyIn_of_not_mem {pos cell : ℕ} (hcell : cell < pos ∨ pos + items.length ≤ cell) :
    copyIn mem pos items cell = mem cell := by
  rw [copyIn]
  split_ifs with hpos
  · rw [List.getElem?_eq_none (by omega), Option.getD_none]
  · rfl

/-- A piece that does not wrap is written where it belongs. -/
theorem holds_copyIn (hfit : off % size + items.length ≤ size) :
    Holds size (copyIn mem (off % size) items) off items := by
  intro i hi
  rw [add_mod_of_fit hfit hi, copyIn_of_mem hi]

/-- Writing one piece leaves alone what the window holds elsewhere. -/
theorem Holds.copyIn {window other : ℕ} {others : List A}
    (hholds : Holds size mem other others) (hfit : off % size + items.length ≤ size)
    (hoff : window ≤ off ∧ off + items.length ≤ window + size)
    (hother : window ≤ other ∧ other + others.length ≤ window + size)
    (hdisjoint : other + others.length ≤ off ∨ off + items.length ≤ other) :
    Holds size (copyIn mem (off % size) items) other others := by
  intro i hi
  rw [copyIn_of_not_mem, hholds i hi]
  by_contra hcell
  -- Otherwise the cell is also that of an offset of the piece.
  have hpiece : (off + ((other + i) % size - off % size)) % size = (other + i) % size := by
    rw [add_mod_of_fit hfit (by omega)]
    omega
  have hsame := mod_injective_of_window (by omega : window ≤ _ ∧ _ < window + size) (by omega) hpiece
  omega

theorem copyOut_eq (hholds : Holds size mem off items)
    (hfit : off % size + items.length ≤ size) :
    copyOut mem (off % size) items.length = items := by
  apply List.ext_getElem (by simp [copyOut])
  intro i _ hi
  simp only [copyOut, List.getElem_map, List.getElem_range]
  rw [← add_mod_of_fit hfit hi, hholds i hi]

end Pgr.CircularMemory
