import Mathlib

/-!
# Lossy UTF-8 decoding

Decoding with replacement, as `String::from_utf8_lossy` documents it: a
well-formed sequence gives its character and every maximal ill-formed chunk
gives one replacement character.  Well-formed input is returned unchanged, and
no other input is, because the result is always well formed.
-/

namespace Pgr.Utf8Lossy

/-- The UTF-8 bytes of a string. -/
def asBytes (text : String) : List UInt8 :=
  text.toList.flatMap String.utf8EncodeChar

theorem asBytes_append (left right : String) :
    asBytes (left ++ right) = asBytes left ++ asBytes right := by
  rw [asBytes, asBytes, asBytes, String.toList_append, List.flatMap_append]

/-- The bytes of some string. -/
def IsUtf8 (bytes : List UInt8) : Prop :=
  ∃ text, asBytes text = bytes

def replacement : Char := '\uFFFD'

def isContinuation (byte : UInt8) : Bool :=
  byte &&& 0xC0 == 0x80

/-- Whether `second` may follow the lead byte of a sequence of three or four
bytes: overlong forms, surrogates and values above U+10FFFF are excluded. -/
def secondAllowed (lead second : UInt8) : Bool :=
  if lead == 0xE0 then 0xA0 ≤ second && second ≤ 0xBF
  else if lead == 0xED then 0x80 ≤ second && second ≤ 0x9F
  else if lead == 0xF0 then 0x90 ≤ second && second ≤ 0xBF
  else if lead == 0xF4 then 0x80 ≤ second && second ≤ 0x8F
  else 0x80 ≤ second && second ≤ 0xBF

/-- Length of the ill-formed chunk at the front of the input: the longest start
of a sequence that could still have become well formed, and at least one byte.
A byte past the end counts as zero, which continues no sequence. -/
def illFormedLength (bytes : List UInt8) : ℕ :=
  let lead := bytes.getD 0 0
  if 0xE0 ≤ lead && lead ≤ 0xEF then
    if secondAllowed lead (bytes.getD 1 0) then 2 else 1
  else if 0xF0 ≤ lead && lead ≤ 0xF4 then
    if secondAllowed lead (bytes.getD 1 0) then
      if isContinuation (bytes.getD 2 0) then 3 else 2
    else 1
  else 1

/-- The character at the front of the input, when a well-formed sequence
starts there. -/
def headChar (bytes : List UInt8) : Option Char :=
  bytes.toByteArray.utf8DecodeChar? 0

/-- Chunk-wise decoding; `fuel` bounds the number of chunks. -/
def decodeChunks : (fuel : ℕ) → List UInt8 → List Char
  | 0, _ => []
  | _ + 1, [] => []
  | fuel + 1, byte :: bytes =>
      match headChar (byte :: bytes) with
      | some char => char :: decodeChunks fuel ((byte :: bytes).drop char.utf8Size)
      | none =>
          replacement ::
            decodeChunks fuel ((byte :: bytes).drop (illFormedLength (byte :: bytes)))

def fromUtf8Lossy (bytes : List UInt8) : String :=
  String.ofList (decodeChunks bytes.length bytes)

theorem headChar_encode_append (char : Char) (bytes : List UInt8) :
    headChar (String.utf8EncodeChar char ++ bytes) = some char := by
  rw [headChar, List.toByteArray_append]
  exact ByteArray.utf8DecodeChar?_utf8EncodeChar_append

theorem drop_encode_append (char : Char) (bytes : List UInt8) :
    (String.utf8EncodeChar char ++ bytes).drop char.utf8Size = bytes := by
  rw [← String.length_utf8EncodeChar char, List.drop_left]

theorem decodeChunks_encode_append (fuel : ℕ) (char : Char) (bytes : List UInt8) :
    decodeChunks (fuel + 1) (String.utf8EncodeChar char ++ bytes) =
      char :: decodeChunks fuel bytes := by
  have hhead := headChar_encode_append char bytes
  have hdrop := drop_encode_append char bytes
  have hsize := char.utf8Size_pos
  rw [← String.length_utf8EncodeChar char] at hsize
  generalize hinput : String.utf8EncodeChar char ++ bytes = input at hhead hdrop
  cases input with
  | nil =>
      have hlength := congrArg List.length hinput
      simp only [List.length_append, List.length_nil] at hlength
      omega
  | cons byte rest =>
      rw [decodeChunks, hhead]
      simp only [hdrop]

theorem decodeChunks_flatMap (chars : List Char) {fuel : ℕ}
    (hfuel : (chars.flatMap String.utf8EncodeChar).length ≤ fuel) :
    decodeChunks fuel (chars.flatMap String.utf8EncodeChar) = chars := by
  induction chars generalizing fuel with
  | nil => cases fuel <;> rfl
  | cons char chars ih =>
      rw [List.flatMap_cons] at hfuel ⊢
      have hsize := char.utf8Size_pos
      rw [List.length_append, String.length_utf8EncodeChar] at hfuel
      obtain ⟨fuel, rfl⟩ : ∃ rest, fuel = rest + 1 := ⟨fuel - 1, by omega⟩
      rw [decodeChunks_encode_append, ih (by omega)]

/-- Decoding the bytes of a string gives the string back. -/
@[simp]
theorem fromUtf8Lossy_asBytes (text : String) :
    fromUtf8Lossy (asBytes text) = text := by
  rw [fromUtf8Lossy, asBytes, decodeChunks_flatMap text.toList le_rfl,
    String.ofList_toList]

/-- Decoding keeps the bytes exactly when they are well formed. -/
theorem asBytes_fromUtf8Lossy_eq_iff (bytes : List UInt8) :
    asBytes (fromUtf8Lossy bytes) = bytes ↔ IsUtf8 bytes := by
  constructor
  · intro heq
    exact ⟨_, heq⟩
  · rintro ⟨text, rfl⟩
    rw [fromUtf8Lossy_asBytes]

/-! ## Bytes of a lossy decoding -/

theorem eq_encode_append_of_headChar {bytes : List UInt8} {char : Char}
    (hhead : headChar bytes = some char) :
    bytes = String.utf8EncodeChar char ++ bytes.drop char.utf8Size := by
  obtain ⟨rest, hrest⟩ := ByteArray.exists_of_utf8DecodeChar?_eq_some hhead
  have hbytes : bytes = String.utf8EncodeChar char ++ rest.data.toList := by
    simpa using congrArg (fun array => array.data.toList) hrest
  rw [hbytes, drop_encode_append]

theorem illFormedLength_pos (bytes : List UInt8) : 0 < illFormedLength bytes := by
  simp only [illFormedLength]
  split_ifs <;> omega

/-- What holds of the empty string, of a string behind any character and behind
any replaced chunk holds of every chunk-wise decoding.  The chunk consumes at
least one byte, so the fuel of the rest suffices. -/
theorem decodeChunks_induction {motive : List UInt8 → List Char → Prop}
    (hnil : motive [] [])
    (hchar : ∀ char bytes chars, motive bytes chars →
      motive (String.utf8EncodeChar char ++ bytes) (char :: chars))
    (hreplaced : ∀ chunk bytes chars, 0 < chunk.length → motive bytes chars →
      motive (chunk ++ bytes) (replacement :: chars))
    (fuel : ℕ) (bytes : List UInt8) (hfuel : bytes.length ≤ fuel) :
    motive bytes (decodeChunks fuel bytes) := by
  induction fuel generalizing bytes with
  | zero =>
      obtain rfl := List.eq_nil_of_length_eq_zero (Nat.le_zero.mp hfuel)
      exact hnil
  | succ fuel ih =>
      cases bytes with
      | nil => exact hnil
      | cons byte bytes =>
          rw [decodeChunks]
          cases hhead : headChar (byte :: bytes) with
          | some char =>
              have hsize := char.utf8Size_pos
              have hrest := ih ((byte :: bytes).drop char.utf8Size) (by
                simp only [List.length_drop, List.length_cons] at hfuel ⊢
                omega)
              have hsplit := hchar char _ _ hrest
              rwa [← eq_encode_append_of_headChar hhead] at hsplit
          | none =>
              have hsize := illFormedLength_pos (byte :: bytes)
              have hrest := ih ((byte :: bytes).drop (illFormedLength (byte :: bytes))) (by
                simp only [List.length_drop, List.length_cons] at hfuel ⊢
                omega)
              have hsplit := hreplaced ((byte :: bytes).take (illFormedLength (byte :: bytes)))
                _ _ (by simp [hsize]) hrest
              rwa [List.take_append_drop] at hsplit

theorem asBytes_fromUtf8Lossy (bytes : List UInt8) :
    asBytes (fromUtf8Lossy bytes) =
      (decodeChunks bytes.length bytes).flatMap String.utf8EncodeChar := by
  rw [asBytes, fromUtf8Lossy, String.toList_ofList]

/-- Decoding brings in no NUL. -/
theorem nul_not_mem_fromUtf8Lossy {bytes : List UInt8} (hbytes : 0 ∉ bytes) :
    0 ∉ asBytes (fromUtf8Lossy bytes) := by
  rw [asBytes_fromUtf8Lossy]
  refine decodeChunks_induction
    (motive := fun bytes chars => 0 ∉ bytes → 0 ∉ chars.flatMap String.utf8EncodeChar)
    (by simp) ?_ ?_ bytes.length bytes le_rfl hbytes
  · intro char bytes chars ih hfree
    rw [List.mem_append, not_or] at hfree
    simpa [hfree.1] using ih hfree.2
  · intro chunk bytes chars _ ih hfree
    rw [List.mem_append, not_or] at hfree
    have hreplacement : 0 ∉ String.utf8EncodeChar replacement := by decide
    simpa [hreplacement] using ih hfree.2

/-- A replaced chunk has at least one byte and its replacement has three. -/
theorem length_decodeChunks_le {fuel : ℕ} {bytes : List UInt8} (hfuel : bytes.length ≤ fuel) :
    ((decodeChunks fuel bytes).flatMap String.utf8EncodeChar).length ≤ 3 * bytes.length := by
  refine decodeChunks_induction
    (motive := fun bytes chars =>
      (chars.flatMap String.utf8EncodeChar).length ≤ 3 * bytes.length)
    (by simp) ?_ ?_ fuel bytes hfuel
  · intro char bytes chars ih
    rw [List.flatMap_cons, List.length_append, List.length_append]
    omega
  · intro chunk bytes chars hchunk ih
    have hreplacement : (String.utf8EncodeChar replacement).length = 3 := by decide
    rw [List.flatMap_cons, List.length_append, List.length_append, hreplacement]
    omega

theorem length_fromUtf8Lossy_le (bytes : List UInt8) :
    (asBytes (fromUtf8Lossy bytes)).length ≤ 3 * bytes.length := by
  rw [asBytes_fromUtf8Lossy]
  exact length_decodeChunks_le le_rfl

/-- A prefix of a text decodes to hardly more bytes than it has: only the last
character can be cut, into at most three bytes. -/
theorem length_decodeChunks_prefix_le (chars : List Char) {fuel : ℕ} {part : List UInt8}
    (hpart : part <+: chars.flatMap String.utf8EncodeChar) (hfuel : part.length ≤ fuel) :
    ((decodeChunks fuel part).flatMap String.utf8EncodeChar).length ≤ part.length + 6 := by
  induction chars generalizing fuel part with
  | nil =>
      obtain rfl := List.prefix_nil.mp hpart
      cases fuel <;> simp [decodeChunks]
  | cons char chars ih =>
      rw [List.flatMap_cons] at hpart
      have hsize := char.utf8Size_le_four
      rw [← String.length_utf8EncodeChar char] at hsize
      rcases le_or_gt (String.utf8EncodeChar char).length part.length with hwhole | hcut
      · obtain ⟨tail, rfl⟩ := List.prefix_of_prefix_length_le
          (List.prefix_append (String.utf8EncodeChar char) _) hpart hwhole
        have htail := (List.prefix_append_right_inj (String.utf8EncodeChar char)).mp hpart
        have hpos := char.utf8Size_pos
        rw [← String.length_utf8EncodeChar char] at hpos
        rw [List.length_append] at hfuel
        obtain ⟨fuel, rfl⟩ : ∃ rest, fuel = rest + 1 := ⟨fuel - 1, by omega⟩
        have hrest : ((decodeChunks fuel tail).flatMap String.utf8EncodeChar).length ≤
            tail.length + 6 := ih htail (by omega)
        rw [decodeChunks_encode_append, List.flatMap_cons, List.length_append,
          List.length_append]
        omega
      · have hle := length_decodeChunks_le hfuel
        omega

example : decodeChunks 6 [0x61, 0xE2, 0x82, 0xFF, 0xC3, 0xA9] =
    ['a', replacement, replacement, 'é'] := by decide

end Pgr.Utf8Lossy
