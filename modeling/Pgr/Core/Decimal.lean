import Mathlib

/-!
# Decimal numbers as bytes

`decimal` is the layout of an unsigned integer that `%u` and `Display` print:
ASCII digits without leading zeros.  A reader takes the digits at the front of its
input and gets the number back.  Zeros in front do not change what is read, and a
minus sign is read apart from the digits.
-/

namespace Pgr.Decimal

def isDigit (byte : UInt8) : Bool :=
  0x30 ≤ byte.toNat ∧ byte.toNat ≤ 0x39

def digitByte (digit : ℕ) : UInt8 :=
  UInt8.ofNat (0x30 + digit)

def decimal (value : ℕ) : List UInt8 :=
  if value = 0 then [digitByte 0] else ((Nat.digits 10 value).map digitByte).reverse

/-- The value of a string of digits. -/
def ofDecimal (digits : List UInt8) : ℕ :=
  digits.foldl (fun value digit => 10 * value + (digit.toNat - 0x30)) 0

/-- `{:0width}`. -/
def paddedDecimal (width value : ℕ) : List UInt8 :=
  List.replicate (width - (decimal value).length) (digitByte 0) ++ decimal value

def minus : UInt8 := 0x2D

def signed (value : ℤ) (magnitude : List UInt8) : List UInt8 :=
  if value < 0 then minus :: magnitude else magnitude

/-- A number behind an optional minus sign. -/
def ofSigned (read : List UInt8 → ℕ) : List UInt8 → ℤ
  | [] => read []
  | byte :: bytes => if byte = minus then -(read bytes) else read (byte :: bytes)

variable {digit : ℕ}

theorem toNat_digitByte (hdigit : digit < 10) : (digitByte digit).toNat = 0x30 + digit := by
  rw [digitByte, UInt8.toNat_ofNat']
  omega

theorem isDigit_digitByte (hdigit : digit < 10) : isDigit (digitByte digit) = true := by
  apply decide_eq_true
  rw [toNat_digitByte hdigit]
  omega

theorem decimal_ne_nil (value : ℕ) : decimal value ≠ [] := by
  rw [decimal]
  split_ifs with hzero
  · exact List.cons_ne_nil _ _
  · simpa [Nat.digits_ne_nil_iff_ne_zero] using hzero

theorem isDigit_of_mem_decimal {value : ℕ} {byte : UInt8} (hbyte : byte ∈ decimal value) :
    isDigit byte = true := by
  rw [decimal] at hbyte
  split_ifs at hbyte with hzero
  · rw [List.mem_singleton.mp hbyte]
    exact isDigit_digitByte (by decide)
  · obtain ⟨digit, hdigit, hbyte⟩ := List.mem_map.mp (List.mem_reverse.mp hbyte)
    rw [← hbyte]
    exact isDigit_digitByte (Nat.digits_lt_base (by decide) hdigit)

theorem length_decimal_le_iff {value width : ℕ} (hwidth : 0 < width) :
    (decimal value).length ≤ width ↔ value < 10 ^ width := by
  rw [decimal]
  split_ifs with hzero
  · rw [hzero]
    exact iff_of_true hwidth (Nat.pow_pos (by decide))
  · rw [List.length_reverse, List.length_map]
    exact Nat.digits_length_le_iff (by decide) value

/-- Reading a printed number gives the number. -/
theorem ofDecimal_decimal (value : ℕ) : ofDecimal (decimal value) = value := by
  have hread : ∀ digits : List ℕ, (∀ digit ∈ digits, digit < 10) →
      ofDecimal (digits.map digitByte).reverse = Nat.ofDigits 10 digits := by
    intro digits hdigits
    induction digits with
    | nil => rfl
    | cons digit digits ih =>
        obtain ⟨hdigit, htail⟩ := List.forall_mem_cons.mp hdigits
        have hrest := ih htail
        rw [ofDecimal] at hrest ⊢
        rw [List.map_cons, List.reverse_cons, List.foldl_append, hrest, List.foldl_cons,
          List.foldl_nil, toNat_digitByte hdigit, Nat.ofDigits_cons]
        omega
  rw [decimal]
  split_ifs with hzero
  · rw [hzero]
    rfl
  · rw [hread _ fun digit hdigit => Nat.digits_lt_base (by decide) hdigit, Nat.ofDigits_digits]

theorem isDigit_of_mem_paddedDecimal {width value : ℕ} {byte : UInt8}
    (hbyte : byte ∈ paddedDecimal width value) : isDigit byte = true := by
  rcases List.mem_append.mp hbyte with hzero | hdigit
  · rw [List.eq_of_mem_replicate hzero]
    exact isDigit_digitByte (by decide)
  · exact isDigit_of_mem_decimal hdigit

theorem ofDecimal_zeros_append (count : ℕ) (digits : List UInt8) :
    ofDecimal (List.replicate count (digitByte 0) ++ digits) = ofDecimal digits := by
  induction count with
  | zero => rfl
  | succ count ih =>
      rw [ofDecimal] at ih ⊢
      exact ih

theorem ofDecimal_paddedDecimal (width value : ℕ) :
    ofDecimal (paddedDecimal width value) = value := by
  rw [paddedDecimal, ofDecimal_zeros_append, ofDecimal_decimal]

/-- A sign in front of a magnitude that does not begin with one is read back. -/
theorem ofSigned_signed {read : List UInt8 → ℕ} {value : ℤ} {magnitude : List UInt8}
    (hread : read magnitude = value.natAbs) (hsign : magnitude.head? ≠ some minus) :
    ofSigned read (signed value magnitude) = value := by
  rw [signed]
  split_ifs with hnegative
  · rw [ofSigned, if_pos rfl, hread]
    omega
  · cases magnitude with
    | nil =>
        rw [ofSigned, hread]
        omega
    | cons byte bytes =>
        have hbyte : byte ≠ minus := fun heq => hsign (by rw [heq]; rfl)
        rw [ofSigned, if_neg hbyte, hread]
        omega

theorem head?_decimal_ne_minus (value : ℕ) (rest : List UInt8) :
    (decimal value ++ rest).head? ≠ some minus := by
  intro hhead
  cases hdecimal : decimal value with
  | nil => exact decimal_ne_nil value hdecimal
  | cons byte bytes =>
      rw [hdecimal] at hhead
      cases hhead
      have hdigit : isDigit minus = true := isDigit_of_mem_decimal (by
        rw [hdecimal]
        exact List.mem_cons_self)
      exact absurd hdigit (by decide)

section Reading

variable {value : ℕ} {rest : List UInt8} (hrest : ∀ byte, rest.head? = some byte → isDigit byte = false)
include hrest

theorem takeWhile_decimal_append :
    (decimal value ++ rest).takeWhile isDigit = decimal value := by
  rw [List.takeWhile_append_of_pos fun byte => isDigit_of_mem_decimal]
  cases rest with
  | nil => exact List.append_nil _
  | cons byte rest =>
      have hbyte := hrest byte rfl
      rw [List.takeWhile_cons, hbyte, if_neg (by decide), List.append_nil]

theorem dropWhile_decimal_append :
    (decimal value ++ rest).dropWhile isDigit = rest := by
  rw [List.dropWhile_append_of_pos fun byte => isDigit_of_mem_decimal]
  cases rest with
  | nil => rfl
  | cons byte rest =>
      have hbyte := hrest byte rfl
      rw [List.dropWhile_cons, hbyte, if_neg (by decide)]

end Reading

end Pgr.Decimal
