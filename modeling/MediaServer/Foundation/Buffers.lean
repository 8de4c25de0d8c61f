import Mathlib.Data.List.Basic

/-! Writers into bounded buffers and readers of windows.
A reader gives a value, refuses what it reads, or goes wrong: it touches something outside of
its window or does not come to an end.
-/

namespace MediaServer.Foundation

inductive Outcome (α : Type)
  | value (read : α)
  | refused
  | fault
  deriving DecidableEq

namespace Outcome

variable {α β : Type}

def bind (outcome : Outcome α) (next : α → Outcome β) : Outcome β :=
  match outcome with
  | .value read => next read
  | .refused => .refused
  | .fault => .fault

instance : Monad Outcome where
  pure := .value
  bind := .bind

@[simp] theorem value_bind (read : α) (next : α → Outcome β)
    : Bind.bind (Outcome.value read) next = next read := rfl

@[simp] theorem refused_bind (next : α → Outcome β)
    : Bind.bind (Outcome.refused : Outcome α) next = .refused := rfl

@[simp] theorem pure_eq (read : α) : (pure read : Outcome α) = .value read := rfl

def ofOption : Option α → Outcome α
  | none => .refused
  | some read => .value read

/-- Nothing went wrong. -/
def Sound (outcome : Outcome α) : Prop := outcome ≠ .fault

theorem Sound.value (read : α) : Sound (.value read) := nofun

theorem Sound.refused : Sound (.refused : Outcome α) := nofun

theorem Sound.ofOption (read : Option α) : Sound (ofOption read) := by
  cases read with
  | none => exact .refused
  | some read => exact .value read

theorem Sound.bind {outcome : Outcome α} {next : α → Outcome β} (sound : outcome.Sound)
    (each : ∀ read, outcome = .value read → (next read).Sound)
    : (outcome >>= next).Sound := by
  cases outcome with
  | value read => exact each read rfl
  | refused => exact .refused
  | fault => exact absurd rfl sound

end Outcome

section Windows

variable {α : Type} {window : List α}

def elementAt (window : List α) (position : Nat) : Outcome α :=
  match window[position]? with
  | some element => .value element
  | none => .fault

def slice (window : List α) (start length : Nat) : Outcome (List α) :=
  if start + length ≤ window.length then .value ((window.drop start).take length) else .fault

theorem elementAt_sound {position : Nat} (inside : position < window.length)
    : (elementAt window position).Sound := by
  simp only [elementAt, List.getElem?_eq_getElem inside]
  exact .value _

theorem slice_inside {start length : Nat} (inside : start + length ≤ window.length)
    : slice window start length = .value ((window.drop start).take length) := if_pos inside

theorem slice_sound {start length : Nat} (inside : start + length ≤ window.length)
    : (slice window start length).Sound := by
  rw [slice_inside inside]
  exact .value _

end Windows

/-- What is written into the room that is left, if it fits. -/
abbrev Writer (α : Type) := Nat → Option (List α)

namespace Writer

variable {α : Type}

/-- One writer after the other, each into the room that the ones before left. -/
def sequence : List (Writer α) → Writer α
  | [], _ => some []
  | writer :: rest, room => do
      let first ← writer room
      let others ← sequence rest (room - first.length)
      some (first ++ others)

end Writer

end MediaServer.Foundation
