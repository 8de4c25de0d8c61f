import MediaServer.Foundation.Nearest
import MediaServer.TransportFeedback.Generator

/-! The sending side: when each packet left, and what the reports of the peer tell of its
arrival.
-/

namespace MediaServer.TransportFeedback

open Foundation

structure Sent where
  sentTimeUs : QWORD
  size : DWORD
  acked : Bool := false

/-- A packet that was acknowledged, with its arrival on the clock of the peer. -/
structure Result where
  sentTimeUs : QWORD
  recvTimeUs : QWORD
  size : DWORD
  deriving DecidableEq

def windowUs : QWORD := 60 * 1000000

def wrapTicks : QWORD := (1 : QWORD) <<< (32 : QWORD)

structure SentPacketHistory where
  history : OrderedMap Nat Sent := .empty
  lastSeq : Nat := 0
  hasLastSeq : Bool := false
  lastRecvTicks : QWORD := 0
  hasLastRecvTicks : Bool := false

namespace SentPacketHistory

def unwrap (history : SentPacketHistory) (seq : WORD) : Nat :=
  unwrapSeq16 seq history.lastSeq history.hasLastSeq

def onPacketSent (history : SentPacketHistory) (seq : WORD) (nowUs : QWORD) (size : DWORD)
    : SentPacketHistory :=
  let unwrapped := history.unwrap seq
  let history :=
    if !history.hasLastSeq ∨ unwrapped > history.lastSeq then
      { history with lastSeq := unwrapped, hasLastSeq := true }
    else history
  { history with
    history :=
      (history.history.insert unwrapped ⟨nowUs, size, false⟩).dropFrontWhile
        (fun entry => entry.2.sentTimeUs + windowUs < nowUs) }

def dist (lastRecvTicks ticks : QWORD) : QWORD :=
  if ticks > lastRecvTicks then ticks - lastRecvTicks else lastRecvTicks - ticks

def best (lastRecvTicks candidate : QWORD) : QWORD :=
  let up := candidate + wrapTicks
  let down := if candidate ≥ wrapTicks then candidate - wrapTicks else candidate
  let best := if dist lastRecvTicks up < dist lastRecvTicks candidate then up else candidate
  if dist lastRecvTicks down < dist lastRecvTicks best then down else best

/-- The reference time of a report, unwrapped next to the last arrival. -/
def baseTicks (history : SentPacketHistory) (referenceTicks : DWORD) : QWORD :=
  let baseTicks := referenceTicks.toUInt64 <<< 8
  if !history.hasLastRecvTicks then baseTicks
  else best history.lastRecvTicks (history.lastRecvTicks / wrapTicks * wrapTicks + baseTicks)

/-- What the loop over the statuses changes. -/
structure Processing where
  history : OrderedMap Nat Sent
  arrivalTicks : QWORD
  sawReceived : Bool := false
  results : List Result := []
  lost : Nat := 0
  unknown : Nat := 0

def processStatus (owner : SentPacketHistory) (hasTimestamps : Bool) (state : Processing)
    (status : PacketStatus) : Processing :=
  if !status.received then { state with lost := state.lost + 1 }
  else
    let arrivalTicks :=
      if hasTimestamps then state.arrivalTicks + .ofInt status.deltaTicks else state.arrivalTicks
    let state := { state with sawReceived := true, arrivalTicks }
    match state.history.find? (owner.unwrap status.seq) with
    | none => { state with unknown := state.unknown + 1 }
    | some sent =>
      if sent.acked then state
      else
        { state with
          history := state.history.insert (owner.unwrap status.seq) { sent with acked := true }
          results :=
            state.results ++ [⟨sent.sentTimeUs, arrivalTicks * .ofNat tickUs, sent.size⟩] }

def processFeedback (history : SentPacketHistory) (feedback : TransportWideFeedbackField)
    : SentPacketHistory × List Result × Nat × Nat :=
  let state :=
    feedback.packets.foldl (history.processStatus feedback.hasTimestamps)
      { history := history.history, arrivalTicks := history.baseTicks feedback.referenceTicks }
  let history := { history with history := state.history }
  let history :=
    if feedback.hasTimestamps && state.sawReceived then
      { history with lastRecvTicks := state.arrivalTicks, hasLastRecvTicks := true }
    else history
  (history, state.results, state.lost, state.unknown)

theorem wrapTicks_toNat : wrapTicks.toNat = 2 ^ 32 := rfl

theorem dist_toNat (lastRecvTicks ticks : QWORD)
    : (dist lastRecvTicks ticks).toNat = distance lastRecvTicks.toNat ticks.toNat := by
  rw [dist, distance]
  by_cases later : ticks > lastRecvTicks
  · rw [if_pos later, if_pos (UInt64.lt_iff_toNat_lt.mp later),
      UInt64.toNat_sub_of_le _ _ (UInt64.le_of_lt later)]
  · rw [if_neg later, if_neg (fun above => later (UInt64.lt_iff_toNat_lt.mpr above)),
      UInt64.toNat_sub_of_le _ _ (UInt64.not_lt.mp later)]

variable {referenceTicks : DWORD}

theorem shifted_toNat (small : referenceTicks.toNat < 2 ^ 24)
    : (referenceTicks.toUInt64 <<< 8).toNat = referenceTicks.toNat * 256 := by
  rw [UInt64.toNat_shiftLeft, UInt32.toNat_toUInt64, Nat.shiftLeft_eq,
    show (8 : UInt64).toNat % 64 = 8 from rfl]
  omega

theorem baseTicks_first {history : SentPacketHistory} (fresh : history.hasLastRecvTicks = false)
    (small : referenceTicks.toNat < 2 ^ 24)
    : (history.baseTicks referenceTicks).toNat = referenceTicks.toNat * 256 := by
  rw [baseTicks, fresh]
  exact shifted_toNat small

/-- The choice in 64-bit arithmetic is the one among unbounded numbers. -/
theorem best_toNat (last candidate : QWORD) (room : candidate.toNat < 2 ^ 64 - 2 ^ 32)
    : (best last candidate).toNat = nearest (2 ^ 32) candidate.toNat last.toNat := by
  have wrap := wrapTicks_toNat
  have up : (candidate + wrapTicks).toNat = candidate.toNat + 2 ^ 32 := by
    rw [UInt64.toNat_add, wrap]
    omega
  have down : (if candidate ≥ wrapTicks then candidate - wrapTicks else candidate).toNat
      = if candidate.toNat ≥ 2 ^ 32 then candidate.toNat - 2 ^ 32 else candidate.toNat := by
    by_cases large : candidate ≥ wrapTicks
    · rw [if_pos large, if_pos (wrap ▸ UInt64.le_iff_toNat_le.mp large),
        UInt64.toNat_sub_of_le _ _ large, wrap]
    · rw [if_neg large,
        if_neg (fun above => large (UInt64.le_iff_toNat_le.mpr (wrap ▸ above)))]
  have ite_toNat : ∀ (p : Prop) [Decidable p] (left right : QWORD),
      (if p then left else right).toNat = if p then left.toNat else right.toNat :=
    fun p _ left right => apply_ite UInt64.toNat p left right
  simp only [best, nearest, UInt64.lt_iff_toNat_lt, ite_toNat, dist_toNat, up] at down ⊢
  rw [down]

/-- A reference time less than half a period from the last arrival is found. -/
theorem baseTicks_next {history : SentPacketHistory} (later : history.hasLastRecvTicks = true)
    (small : referenceTicks.toNat < 2 ^ 24) {target : Nat}
    (room : history.lastRecvTicks.toNat < 2 ^ 63)
    (residue : target % 2 ^ 32 = referenceTicks.toNat * 256)
    (above : target < history.lastRecvTicks.toNat + 2 ^ 31)
    (below : history.lastRecvTicks.toNat < target + 2 ^ 31)
    : (history.baseTicks referenceTicks).toNat = target := by
  have candidate : (history.lastRecvTicks / wrapTicks * wrapTicks
        + referenceTicks.toUInt64 <<< 8).toNat
      = history.lastRecvTicks.toNat / 2 ^ 32 * 2 ^ 32 + referenceTicks.toNat * 256 := by
    rw [UInt64.toNat_add, UInt64.toNat_mul, UInt64.toNat_div, wrapTicks_toNat,
      shifted_toNat small]
    omega
  simp only [baseTicks, later, Bool.not_true, Bool.false_eq_true, if_false]
  rw [best_toNat _ _ (lt_of_eq_of_lt candidate (by omega)), candidate]
  exact nearest_eq (by omega) (by omega) (by omega)

end SentPacketHistory

/-- A number near the last one is unwrapped exactly. -/
theorem unwrapSeq16_exact {number lastSeq : Nat}
    (near : number ≤ lastSeq + 32767 ∧ lastSeq ≤ number + 32767
      ∨ number < 65536 ∧ lastSeq + 32768 < number)
    : unwrapSeq16 (.ofNat number) lastSeq true = number := by
  rw [unwrapSeq16_eq, UInt16.toNat_ofNat']
  split <;> split <;> omega

theorem unwrapSeq16_residue (seq : WORD) (lastSeq : Nat) (hasLastSeq : Bool)
    : unwrapSeq16 seq lastSeq hasLastSeq % 65536 = seq.toNat := by
  have small := seq.toNat_lt
  cases hasLastSeq with
  | false => exact Nat.mod_eq_of_lt small
  | true =>
    rw [unwrapSeq16_eq]
    split <;> split <;> omega

end MediaServer.TransportFeedback
