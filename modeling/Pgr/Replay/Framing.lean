import Pgr.Replay.Frontend

/-!
# Splitting a byte stream into frames

The frames that `try_read_frame` finds one behind the other, and what is left
behind the last of them.  Frames do not depend on what follows them, so the split
of a stream can be taken up again when more bytes arrive.  The frames of `emit`
are frames of this kind.
-/

namespace Pgr.Framing

open Pgr.FixedWidth Pgr.Decoding Pgr.Utf8Lossy Pgr.Capture Pgr.Proto Pgr.Manager Pgr.Frontend

/-- Every frame takes at least its tag. -/
theorem tryReadFrame_bounds {buf : List UInt8} {tag : UInt8} {frameLen : ℕ}
    (hframe : tryReadFrame buf = some (tag, frameLen)) :
    0 < frameLen ∧ frameLen ≤ buf.length ∧ 5 ≤ buf.length := by
  match buf with
  | [] | [_] | [_, _] | [_, _, _] | [_, _, _, _] => cases hframe
  | first :: b1 :: b2 :: b3 :: b4 :: rest =>
      simp only [tryReadFrame] at hframe
      split_ifs at hframe with hshort
      cases hframe
      refine ⟨Nat.add_pos_left Nat.one_pos _, not_lt.mp hshort, ?_⟩
      simp only [List.length_cons]
      omega

/-- A frame is found whatever follows it. -/
theorem tryReadFrame_append {buf : List UInt8} {tag : UInt8} {frameLen : ℕ}
    (hframe : tryReadFrame buf = some (tag, frameLen)) (more : List UInt8) :
    tryReadFrame (buf ++ more) = some (tag, frameLen) := by
  have hbounds := tryReadFrame_bounds hframe
  match buf with
  | [] | [_] | [_, _] | [_, _, _] | [_, _, _, _] => cases hframe
  | first :: b1 :: b2 :: b3 :: b4 :: rest =>
      simp only [tryReadFrame] at hframe
      split_ifs at hframe with hshort
      simp only [List.cons_append, tryReadFrame]
      rw [if_neg, hframe]
      simp only [List.length_cons, List.length_append] at hshort ⊢
      omega

/-- A frame that has room for its header is a frame by itself, with the same tag. -/
theorem tryReadFrame_take {buf : List UInt8} {tag : UInt8} {frameLen : ℕ}
    (hframe : tryReadFrame buf = some (tag, frameLen)) (hheader : 5 ≤ frameLen) :
    tryReadFrame (buf.take frameLen) = some (tag, frameLen) ∧
      (buf.take frameLen).headD 0 = tag := by
  have hbounds := tryReadFrame_bounds hframe
  match buf with
  | [] | [_] | [_, _] | [_, _, _] | [_, _, _, _] => cases hframe
  | first :: b1 :: b2 :: b3 :: b4 :: rest =>
      obtain ⟨body, rfl⟩ : ∃ body, frameLen = body + 5 := ⟨frameLen - 5, by omega⟩
      simp only [tryReadFrame] at hframe
      split_ifs at hframe with hshort
      obtain ⟨htag, hlen⟩ := Prod.mk.inj (Option.some.inj hframe)
      have hlonger : ¬((first :: b1 :: b2 :: b3 :: b4 :: rest.take body).length < body + 5) := by
        simp only [List.length_cons, List.length_take] at hshort ⊢
        omega
      rw [htag] at hlonger ⊢
      refine ⟨?_, rfl⟩
      simp only [List.take_succ_cons, tryReadFrame, hlen]
      exact if_neg hlonger

/-- The frames in front, and the rest. -/
def splitFrames (buf : List UInt8) : List (List UInt8) × List UInt8 :=
  match _hframe : tryReadFrame buf with
  | none => ([], buf)
  | some (_, frameLen) =>
      let split := splitFrames (buf.drop frameLen)
      (buf.take frameLen :: split.1, split.2)
  termination_by buf.length
  decreasing_by
    have hbounds := tryReadFrame_bounds _hframe
    rw [List.length_drop]
    omega

theorem splitFrames_of_none {buf : List UInt8} (hframe : tryReadFrame buf = none) :
    splitFrames buf = ([], buf) := by
  rw [splitFrames]
  split
  · rfl
  · simp_all

theorem splitFrames_of_some {buf : List UInt8} {tag : UInt8} {frameLen : ℕ}
    (hframe : tryReadFrame buf = some (tag, frameLen)) :
    splitFrames buf = (buf.take frameLen :: (splitFrames (buf.drop frameLen)).1,
      (splitFrames (buf.drop frameLen)).2) := by
  conv_lhs => rw [splitFrames]
  split
  · simp_all
  · simp_all

/-- A byte string that is one frame. -/
def IsFrame (frame : List UInt8) : Prop :=
  ∃ tag, tryReadFrame frame = some (tag, frame.length)

theorem splitFrames_cons {frame : List UInt8} (hframe : IsFrame frame) (more : List UInt8) :
    splitFrames (frame ++ more) = (frame :: (splitFrames more).1, (splitFrames more).2) := by
  obtain ⟨tag, htag⟩ := hframe
  rw [splitFrames_of_some (tryReadFrame_append htag more), List.take_left, List.drop_left]

/-- Frames in a row are split into themselves. -/
theorem splitFrames_flatten {frames : List (List UInt8)} (hframes : ∀ frame ∈ frames, IsFrame frame)
    (more : List UInt8) :
    splitFrames (frames.flatten ++ more) =
      (frames ++ (splitFrames more).1, (splitFrames more).2) := by
  induction frames with
  | nil => rfl
  | cons frame frames ih =>
      have hframe : IsFrame frame := hframes frame (by simp)
      rw [List.flatten_cons, List.append_assoc, splitFrames_cons hframe,
        ih fun other hother => hframes other (by simp [hother])]
      rfl

end Pgr.Framing
