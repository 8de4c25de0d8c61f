import MediaServer.Foundation.OrderedMap
import MediaServer.Foundation.Runs
import MediaServer.Rtp.Packet
import Mathlib.Data.List.DropRight

/-! The targets that the estimator of a sender keeps for its next raise: the first one is the
smallest of the last second.
-/

namespace MediaServer.TransportFeedback.SenderBWE

open Foundation List

def increaseIntervalUs : QWORD := 1000000

/-- A target, behind the time at which it was recorded. -/
abbrev Entry := QWORD × DWORD

def isOld (nowUs : QWORD) (entry : Entry) : Bool := nowUs - entry.1 > increaseIntervalUs

def updateMinHistory (minHistory : List Entry) (nowUs : QWORD) (lossBasedTarget : DWORD)
    : List Entry :=
  (minHistory.dropWhile (isOld nowUs)).rdropWhile (fun entry => entry.2 ≥ lossBasedTarget)
    ++ [(nowUs, lossBasedTarget)]

/-- The start phase clears the history before it records the target. -/
structure Call where
  restarts : Bool := false
  nowUs : QWORD
  lossBasedTarget : DWORD

/-- A history, with the time of the last call and what was recorded since the last restart. -/
structure Session where
  minHistory : List Entry := []
  nowUs : QWORD := 0
  recorded : List Entry := []

def Session.step (session : Session) (call : Call) : Session :=
  let entry := (call.nowUs, call.lossBasedTarget)
  if call.restarts then ⟨[entry], call.nowUs, [entry]⟩
  else
    ⟨updateMinHistory session.minHistory call.nowUs call.lossBasedTarget, call.nowUs,
      session.recorded ++ [entry]⟩

/-- No more than a second lies between an entry and a later time. -/
def Recent (nowUs : QWORD) (entry : Entry) : Prop := nowUs.toNat ≤ entry.1.toNat + 1000000

variable {nowUs : QWORD} {entry left right : Entry}

theorem isOld_iff (past : entry.1 ≤ nowUs) : isOld nowUs entry ↔ ¬ Recent nowUs entry := by
  have order := UInt64.le_iff_toNat_le.mp past
  rw [isOld, decide_eq_true_iff, gt_iff_lt, UInt64.lt_iff_toNat_lt, UInt64.toNat_sub_of_le _ _ past,
    Recent, show increaseIntervalUs.toNat = 1000000 from rfl]
  omega

/-- Times do not fall and targets rise. -/
def Ordered (minHistory : List Entry) : Prop :=
  minHistory.Pairwise (fun left right => left.1 ≤ right.1 ∧ left.2 < right.2)

theorem Recent.later (recent : Recent nowUs left) (before : left.1 ≤ right.1)
    : Recent nowUs right :=
  Nat.le_trans recent (Nat.add_le_add_right (UInt64.le_iff_toNat_le.mp before) _)

/-- In an ordered history both ends are cut where they should be. -/
theorem updateMinHistory_spec {minHistory : List Entry} (ordered : Ordered minHistory)
    (past : ∀ entry ∈ minHistory, entry.1 ≤ nowUs) (lossBasedTarget : DWORD)
    : ∃ left, updateMinHistory minHistory nowUs lossBasedTarget
        = left ++ [(nowUs, lossBasedTarget)]
      ∧ Ordered left
      ∧ ∀ entry, entry ∈ left
        ↔ entry ∈ minHistory ∧ entry.2 < lossBasedTarget ∧ Recent nowUs entry := by
  have front : minHistory.Pairwise (fun left right => isOld nowUs right → isOld nowUs left) := by
    refine List.Pairwise.imp_of_mem (fun {left right} isLeft isRight less old => ?_) ordered
    rw [isOld_iff (past _ isRight)] at old
    rw [isOld_iff (past _ isLeft)]
    exact fun recent => old (recent.later less.1)
  have back : (minHistory.filter (!isOld nowUs ·)).reverse.Pairwise (fun left right =>
      decide (right.2 ≥ lossBasedTarget) → decide (left.2 ≥ lossBasedTarget)) := by
    refine pairwise_reverse.mpr ((List.Pairwise.filter _ ordered).imp (fun less => ?_))
    simpa using fun above => UInt32.le_trans above (UInt32.le_of_lt less.2)
  rw [updateMinHistory, dropWhile_eq_filter front, List.rdropWhile, dropWhile_eq_filter back,
    filter_reverse, reverse_reverse, filter_filter]
  refine ⟨_, rfl, List.Pairwise.filter _ ordered, fun entry => ?_⟩
  rw [mem_filter, Bool.and_eq_true, Bool.not_eq_true', Bool.not_eq_true',
    decide_eq_false_iff_not, ge_iff_le, UInt32.not_le, ← Bool.not_eq_true]
  refine and_congr_right (fun member => and_congr_right (fun _ => ?_))
  rw [isOld_iff (past entry member), not_not]

/-- What the history keeps of all that was recorded: whatever is recent is not below something
kept that is no older.
-/
structure Session.Tracks (session : Session) : Prop where
  past : ∀ entry ∈ session.recorded, entry.1 ≤ session.nowUs
  kept : ∀ entry ∈ session.minHistory, entry ∈ session.recorded ∧ Recent session.nowUs entry
  covered
    : ∀ entry ∈ session.recorded, Recent session.nowUs entry
      → ∃ kept ∈ session.minHistory, entry.1 ≤ kept.1 ∧ kept.2 ≤ entry.2
  ordered : Ordered session.minHistory

theorem Session.Tracks.step {session : Session} (tracks : session.Tracks) {call : Call}
    (later : session.nowUs ≤ call.nowUs) : (session.step call).Tracks := by
  have now : Recent call.nowUs (call.nowUs, call.lossBasedTarget) := Nat.le_add_right _ _
  unfold Session.step
  split_ifs
  · exact ⟨by simp, by simp [now], by simp, pairwise_singleton _ _⟩
  have past : ∀ entry ∈ session.recorded, entry.1 ≤ call.nowUs :=
    fun entry member => UInt64.le_trans (tracks.past entry member) later
  obtain ⟨left, isHistory, ordered, mem_left⟩ := updateMinHistory_spec tracks.ordered
    (fun entry member => past entry (tracks.kept entry member).1) call.lossBasedTarget
  rw [isHistory]
  refine ⟨?_, ?_, ?_, ?_⟩
  · exact forall_mem_append.mpr ⟨past, by simp⟩
  · refine forall_mem_append.mpr ⟨fun entry member => ?_, by simp [now]⟩
    obtain ⟨before, -, recent⟩ := (mem_left entry).mp member
    exact ⟨mem_append_left _ (tracks.kept entry before).1, recent⟩
  · refine forall_mem_append.mpr ⟨fun entry member recent => ?_, by simp⟩
    have before : Recent session.nowUs entry :=
      Nat.le_trans (UInt64.le_iff_toNat_le.mp later) recent
    obtain ⟨kept, isKept, newer, below⟩ := tracks.covered entry member before
    by_cases smaller : kept.2 < call.lossBasedTarget
    · have stays := (mem_left kept).mpr ⟨isKept, smaller, recent.later newer⟩
      exact ⟨kept, mem_append_left _ stays, newer, below⟩
    · exact ⟨_, mem_append_right _ (.head _), past entry member,
        UInt32.le_trans (UInt32.not_lt.mp smaller) below⟩
  · refine pairwise_append.mpr ⟨ordered, pairwise_singleton _ _, ?_⟩
    intro entry member new isNew
    obtain ⟨before, smaller, -⟩ := (mem_left entry).mp member
    rw [mem_singleton.mp isNew]
    exact ⟨past entry (tracks.kept entry before).1, smaller⟩

/-- After each call of a run in the order of time, the first entry has the smallest target that
was recorded since the last restart and within a second before the call.
-/
theorem front_isMin (calls : List Call) (call : Call) {session : Session}
    (inOrder
      : EachStep Session.step (fun session call => session.nowUs ≤ call.nowUs) {}
          (calls ++ [call]))
    (reached : session = Foundation.run Session.step {} (calls ++ [call]))
    : Ordered session.minHistory
      ∧ ∃ front ∈ session.minHistory.head?, front ∈ session.recorded ∧ Recent call.nowUs front
        ∧ ∀ entry ∈ session.recorded, Recent call.nowUs entry → front.2 ≤ entry.2 := by
  have tracks : session.Tracks := by
    rw [reached]
    exact run_invariant_of_eachStep (fun _ _ tracks later => tracks.step later)
      ⟨nofun, nofun, nofun, .nil⟩ inOrder
  have time : session.nowUs = call.nowUs := by
    rw [reached, run_append]
    simp only [run_cons, run_nil, Session.step]
    split_ifs <;> rfl
  have some : session.minHistory ≠ [] := by
    rw [reached, run_append]
    simp only [run_cons, run_nil, Session.step, updateMinHistory]
    split_ifs <;> simp
  obtain ⟨front, rest, isHistory⟩ := exists_cons_of_ne_nil some
  have ordered := tracks.ordered
  obtain ⟨recorded, recent⟩ := tracks.kept front (by rw [isHistory]; exact .head _)
  rw [isHistory] at ordered ⊢
  refine ⟨ordered, front, rfl, recorded, time ▸ recent, fun entry member isRecent => ?_⟩
  obtain ⟨kept, isKept, -, below⟩ := tracks.covered entry member (time ▸ isRecent)
  rw [isHistory] at isKept
  rcases mem_cons.mp isKept with same | behind
  · exact same ▸ below
  · exact UInt32.le_trans (UInt32.le_of_lt ((pairwise_cons.mp ordered).1 kept behind).2) below

/-- Three targets within a second: the second one is the smallest. -/
theorem front_isMin_three
    : ∃ front ∈ (Foundation.run Session.step {}
        [⟨true, 1000, 500⟩, ⟨false, 2000, 300⟩, ⟨false, 3000, 400⟩]).minHistory.head?,
      front.2 ≤ 300 := by
  obtain ⟨-, front, isFront, -, -, smallest⟩ := front_isMin [⟨true, 1000, 500⟩, ⟨false, 2000, 300⟩]
    ⟨false, 3000, 400⟩ (by decide) rfl
  exact ⟨front, isFront, smallest (2000, 300) (by decide) (by unfold Recent; decide)⟩

end MediaServer.TransportFeedback.SenderBWE
