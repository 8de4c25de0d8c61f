import Mathlib.Data.Nat.Basic

/-! The representative of a residue that is nearest to a point: a candidate, or the number one
period above or below it.
-/

namespace MediaServer.Foundation

def distance (point number : Nat) : Nat := if number > point then number - point else point - number

/-- The nearest of a candidate and its neighbours, the candidate first. There is no number below
zero.
-/
def nearest (period candidate point : Nat) : Nat :=
  let up := candidate + period
  let down := if candidate ≥ period then candidate - period else candidate
  let best := if distance point up < distance point candidate then up else candidate
  if distance point down < distance point best then down else best

theorem distance_cases (point number : Nat)
    : number = point + distance point number ∨ point = number + distance point number := by
  rw [distance]
  split <;> omega

/-- The number less than half a period away is found. -/
theorem nearest_eq {period candidate point target : Nat}
    (congruent
      : target = candidate ∨ target = candidate + period ∨ target + period = candidate)
    (above : 2 * target < 2 * point + period) (below : 2 * point < 2 * target + period)
    : nearest period candidate point = target := by
  have here := distance_cases point candidate
  have up := distance_cases point (candidate + period)
  have down := distance_cases point (candidate - period)
  simp only [nearest]
  rcases congruent with same | next | previous
  · rw [if_neg (by omega : ¬ distance point (candidate + period) < distance point candidate)]
    split
    · rw [if_neg (by omega), same]
    · rw [if_neg (by omega), same]
  · rw [if_pos (by omega : distance point (candidate + period) < distance point candidate)]
    split
    · rw [if_neg (by omega), next]
    · rw [if_neg (by omega), next]
  · rw [if_neg (by omega : ¬ distance point (candidate + period) < distance point candidate),
      if_pos (by omega : candidate ≥ period), if_pos (by omega)]
    omega

end MediaServer.Foundation
