import Mathlib

/-!
# Fixed-width integers as bytes

`leBytes width value` is the `to_le_bytes` layout of an unsigned integer of
`width` bytes, least-significant byte first; `beBytes` is the network layout.
A value that does not fit is cut to its low `8 * width` bits, as a cast to the
fixed-width type does.
-/

namespace Pgr.FixedWidth

def leBytes : (width value : ℕ) → List UInt8
  | 0, _ => []
  | width + 1, value => UInt8.ofNat value :: leBytes width (value / 256)

def ofLeBytes : List UInt8 → ℕ
  | [] => 0
  | byte :: bytes => byte.toNat + 256 * ofLeBytes bytes

def beBytes (width value : ℕ) : List UInt8 :=
  (leBytes width value).reverse

def ofBeBytes (bytes : List UInt8) : ℕ :=
  ofLeBytes bytes.reverse

@[simp]
theorem length_leBytes (width value : ℕ) :
    (leBytes width value).length = width := by
  induction width generalizing value with
  | zero => rfl
  | succ width ih => simp [leBytes, ih]

@[simp]
theorem length_beBytes (width value : ℕ) :
    (beBytes width value).length = width := by
  simp [beBytes]

theorem ofLeBytes_lt (bytes : List UInt8) :
    ofLeBytes bytes < 256 ^ bytes.length := by
  induction bytes with
  | nil => simp [ofLeBytes]
  | cons byte bytes ih =>
      have hbyte : byte.toNat < 256 := byte.toNat_lt
      simp only [ofLeBytes, List.length_cons, pow_succ]
      omega

/-- Reading back a fixed-width encoding gives the value cut to its width. -/
theorem ofLeBytes_leBytes (width value : ℕ) :
    ofLeBytes (leBytes width value) = value % 256 ^ width := by
  induction width generalizing value with
  | zero => simp [leBytes, ofLeBytes, Nat.mod_one]
  | succ width ih =>
      rw [leBytes, ofLeBytes, ih, UInt8.toNat_ofNat', pow_succ' 256, Nat.mod_mul]

theorem ofLeBytes_leBytes_of_lt {width value : ℕ} (hvalue : value < 256 ^ width) :
    ofLeBytes (leBytes width value) = value := by
  rw [ofLeBytes_leBytes, Nat.mod_eq_of_lt hvalue]

/-- The layout has no spare bits: the bytes are recovered from the value. -/
theorem leBytes_ofLeBytes (bytes : List UInt8) :
    leBytes bytes.length (ofLeBytes bytes) = bytes := by
  induction bytes with
  | nil => rfl
  | cons byte bytes ih =>
      have hbyte : byte.toNat < 256 := byte.toNat_lt
      have hhead : UInt8.ofNat (byte.toNat + 256 * ofLeBytes bytes) = byte := by
        apply UInt8.toNat_inj.mp
        rw [UInt8.toNat_ofNat']
        omega
      have htail : (byte.toNat + 256 * ofLeBytes bytes) / 256 = ofLeBytes bytes := by
        omega
      simp only [ofLeBytes, List.length_cons, leBytes, hhead, htail, ih]

theorem ofBeBytes_beBytes_of_lt {width value : ℕ} (hvalue : value < 256 ^ width) :
    ofBeBytes (beBytes width value) = value := by
  rw [ofBeBytes, beBytes, List.reverse_reverse, ofLeBytes_leBytes_of_lt hvalue]

/-! ## Reading at an index -/

/-- The `width` bytes of `bytes` from `idx` on as an unsigned integer. -/
def leAt (width : ℕ) (bytes : List UInt8) (idx : ℕ) : ℕ :=
  ofLeBytes ((bytes.drop idx).take width)

theorem leAt_append {width value : ℕ} (head tail : List UInt8)
    (hvalue : value < 256 ^ width) :
    leAt width (head ++ (leBytes width value ++ tail)) head.length = value := by
  have htake : (leBytes width value ++ tail).take width = leBytes width value := by
    simp
  rw [leAt, List.drop_left, htake, ofLeBytes_leBytes_of_lt hvalue]

end Pgr.FixedWidth
