import Mathlib.Data.List.Basic
import Mathlib.Tactic.Common

/-! Frames in a stream of octets that arrives in pieces: a frame is taken from the front of a
buffer once it is all there, and what follows it does not matter for that.
-/

namespace MediaServer.Foundation

open List

variable {α : Type}

/-- A way to take the next frame from a buffer, with what is left of the buffer. -/
structure Framing (α : Type) where
  next : List α → Option (List α × List α)
  joins : ∀ {buffer frame rest}, next buffer = some (frame, rest) → frame ++ rest = buffer
  nonempty : ∀ {buffer frame rest}, next buffer = some (frame, rest) → frame ≠ []
  stable
    : ∀ {buffer frame rest}, next buffer = some (frame, rest)
      → ∀ more, next (buffer ++ more) = some (frame, rest ++ more)

namespace Framing

variable (framing : Framing α)

theorem shorter {buffer frame rest : List α} (taken : framing.next buffer = some (frame, rest))
    : rest.length < buffer.length := by
  have positive := length_pos_iff.mpr (framing.nonempty taken)
  have whole := congrArg List.length (framing.joins taken)
  rw [length_append] at whole
  omega

def split (buffer : List α) : List (List α) × List α :=
  match taken : framing.next buffer with
  | none => ([], buffer)
  | some (frame, rest) =>
    have := framing.shorter taken
    (frame :: (split rest).1, (split rest).2)
termination_by buffer.length

variable {framing}

theorem split_of_none {buffer : List α} (waits : framing.next buffer = none)
    : framing.split buffer = ([], buffer) := by
  rw [split]
  split
  · rfl
  · rename_i taken
    cases waits.symm.trans taken

theorem split_of_some {buffer frame rest : List α}
    (taken : framing.next buffer = some (frame, rest))
    : framing.split buffer = (frame :: (framing.split rest).1, (framing.split rest).2) := by
  rw [split]
  split
  · rename_i waits
    cases waits.symm.trans taken
  · rename_i same
    cases same.symm.trans taken
    rfl

theorem next_of_split_nil {buffer : List α} (empty : (framing.split buffer).1 = [])
    : framing.next buffer = none := by
  cases taken : framing.next buffer with
  | none => rfl
  | some entry =>
    rw [split_of_some taken] at empty
    cases empty

variable {frames : List (List α)}

theorem next_of_split_cons {buffer frame : List α}
    (first : (framing.split buffer).1 = frame :: frames)
    : ∃ rest, framing.next buffer = some (frame, rest) ∧ (framing.split rest).1 = frames := by
  cases taken : framing.next buffer with
  | none =>
    rw [split_of_none taken] at first
    cases first
  | some entry =>
    rw [split_of_some taken] at first
    cases first
    exact ⟨entry.2, rfl, rfl⟩

theorem next_nil : framing.next [] = none := by
  cases taken : framing.next [] with
  | none => rfl
  | some entry =>
    have whole := framing.joins taken
    exact absurd (append_eq_nil_iff.mp whole).1 (framing.nonempty taken)

/-- What is left behind the frames waits for more. -/
theorem next_split (buffer : List α) : framing.next (framing.split buffer).2 = none := by
  induction size : buffer.length using Nat.strongRecOn generalizing buffer with
  | ind bound ih =>
    cases taken : framing.next buffer with
    | none => rwa [split_of_none taken]
    | some entry =>
      rw [split_of_some taken]
      exact ih _ (size ▸ framing.shorter taken) _ rfl

/-- Splitting at once what comes in two pieces, or one piece after the other. -/
theorem split_append (first second : List α)
    : framing.split (first ++ second)
      = ((framing.split first).1 ++ (framing.split ((framing.split first).2 ++ second)).1,
          (framing.split ((framing.split first).2 ++ second)).2) := by
  induction size : first.length using Nat.strongRecOn generalizing first with
  | ind bound ih =>
    cases taken : framing.next first with
    | none => rw [split_of_none taken, nil_append]
    | some entry =>
      rw [split_of_some (framing.stable taken second), split_of_some taken,
        ih _ (size ▸ framing.shorter taken) _ rfl, cons_append]

def IsFrame (framing : Framing α) (frame : List α) : Prop :=
  framing.next frame = some (frame, [])

theorem split_flatten (each : ∀ frame ∈ frames, framing.IsFrame frame)
    : framing.split frames.flatten = (frames, []) := by
  induction frames with
  | nil => exact split_of_none next_nil
  | cons frame rest ih =>
    rw [forall_mem_cons] at each
    have taken := framing.stable each.1 rest.flatten
    rw [nil_append] at taken
    rw [flatten_cons, split_of_some taken, ih each.2]

/-- The frames of a stream that lie in its first octets. -/
def whole : List (List α) → Nat → List (List α)
  | [], _ => []
  | frame :: rest, count =>
    if frame.length ≤ count then frame :: whole rest (count - frame.length) else []

/-- A piece of a stream is split into the frames that lie in it. -/
theorem split_prefix (each : ∀ frame ∈ frames, framing.IsFrame frame) {piece : List α}
    (front : piece <+: frames.flatten)
    : (framing.split piece).1 = whole frames piece.length := by
  induction frames generalizing piece with
  | nil =>
    rw [flatten_nil, prefix_nil] at front
    rw [front, split_of_none next_nil, whole]
  | cons frame rest ih =>
    rw [forall_mem_cons] at each
    rw [flatten_cons] at front
    rw [whole]
    by_cases fits : frame.length ≤ piece.length
    · obtain ⟨tail, rfl⟩ := prefix_of_prefix_length_le (prefix_append _ _) front fits
      have taken := framing.stable each.1 tail
      rw [nil_append] at taken
      rw [split_of_some taken, if_pos fits, length_append, Nat.add_sub_cancel_left,
        ih each.2 ((prefix_append_right_inj frame).mp front)]
    · -- a piece that is shorter than the frame is the front of it
      obtain ⟨missing, whole⟩ := prefix_of_prefix_length_le front
        (prefix_append frame rest.flatten) (by omega)
      have waits : framing.next piece = none := by
        cases taken : framing.next piece with
        | none => rfl
        | some entry =>
          have longer := framing.stable taken missing
          rw [whole, each.1] at longer
          have nothing : missing = [] :=
            (append_eq_nil_iff.mp (congrArg Prod.snd (Option.some.inj longer)).symm).2
          rw [nothing, append_nil] at whole
          exact absurd (whole ▸ Nat.le_refl _) fits
      rw [split_of_none waits, if_neg fits]

end Framing

end MediaServer.Foundation
