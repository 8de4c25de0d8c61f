import MediaServer.Rtp.DeliveryOrder

/-! When the jitter buffer gives in to packets that are out of sequence.
The counter of such packets is not cleared by a packet in sequence, so that they need not
follow one another.
-/

namespace MediaServer.Rtp.RTPBuffer

open Foundation

/-- The packet is below the expected number of its source. -/
def isLate (buffer : RTPBuffer) (rtp : RTPTimedPacket) : Bool :=
  (buffer.trackSsrc rtp).isPast rtp

/-- A late packet is taken all the same, and the expected number is forgotten. -/
def AcceptsLate (buffer : RTPBuffer) (rtp : RTPTimedPacket) : Prop :=
  buffer.isLate rtp = true ∧ (buffer.add rtp).2 = true ∧ (buffer.add rtp).1.next = noNext

instance (buffer : RTPBuffer) (rtp : RTPTimedPacket) : Decidable (buffer.AcceptsLate rtp) :=
  inferInstanceAs (Decidable (_ ∧ _ ∧ _))

/-- A buffer with what the calls of `Add` have met: how many packets in a row were late up to
now, and how many late ones were refused since one was accepted, the source changed, or the
buffer was reset.
-/
structure Lateness where
  buffer : RTPBuffer := {}
  streak : Nat := 0
  refused : Nat := 0

namespace Lateness

def step (seen : Lateness) (op : Op) : Lateness where
  buffer := (seen.buffer.step op).1
  streak :=
    match op with
    | .add rtp => if seen.buffer.isLate rtp then seen.streak + 1 else 0
    | _ => seen.streak
  refused :=
    match op with
    | .add rtp =>
      if seen.buffer.isLate rtp then
        if (seen.buffer.add rtp).2 then 0 else seen.refused + 1
      else if seen.buffer.changesSsrc rtp then 0
      else seen.refused
    | .reset _ => 0
    | _ => seen.refused

/-- A late packet is accepted only as the 21st of 21 packets in a row. -/
def OnlyConsecutive (seen : Lateness) : Op → Prop
  | .add rtp => seen.buffer.AcceptsLate rtp → 20 ≤ seen.streak
  | _ => True

/-- The 20 packets that were refused before a late one came in a row. -/
def Permits (seen : Lateness) : Op → Prop
  | .add rtp => seen.buffer.isLate rtp = true → seen.refused = 20 → 20 ≤ seen.streak
  | _ => True

def Counted (seen : Lateness) : Prop :=
  seen.buffer.bigJumps = seen.refused ∧ seen.refused ≤ 20

end Lateness

variable (buffer : RTPBuffer)

theorem dropOverflow_bigJumps (now : QWORD)
    : (buffer.dropOverflow now).bigJumps = buffer.bigJumps := by
  unfold dropOverflow
  simp only
  split_ifs <;> rfl

theorem enqueue_bigJumps (rtp : RTPTimedPacket)
    : (buffer.enqueue rtp).bigJumps = buffer.bigJumps := by
  unfold enqueue
  cases buffer.packets.find? rtp.getExtSeqNum with
  | some old => rfl
  | none => exact dropOverflow_bigJumps _ _

theorem wait_bigJumps (now : QWORD) : (buffer.wait now).1.bigJumps = buffer.bigJumps := by
  unfold wait
  split_ifs
  · rfl
  · cases buffer.packets.entries.head? with
    | none => rfl
    | some head =>
      simp only
      split_ifs <;> rfl

theorem trackSsrc_bigJumps (rtp : RTPTimedPacket)
    : (buffer.trackSsrc rtp).bigJumps
      = if buffer.changesSsrc rtp then 0 else buffer.bigJumps := by
  unfold trackSsrc
  cases buffer.changesSsrc rtp <;> rfl

variable {buffer : RTPBuffer} {rtp : RTPTimedPacket}

/-- A late packet is of the source that was seen last. -/
theorem changesSsrc_of_isLate (late : buffer.isLate rtp = true)
    : buffer.changesSsrc rtp = false := by
  cases changed : buffer.changesSsrc rtp with
  | false => rfl
  | true => simp [isLate, isPast, trackSsrc_next, changed] at late

/-- What `Add` does with a late packet: the 21st one is accepted. -/
theorem add_of_isLate (late : buffer.isLate rtp = true)
    : (20 ≤ buffer.bigJumps
        ∧ (buffer.add rtp).2 = true ∧ (buffer.add rtp).1.next = noNext
        ∧ (buffer.add rtp).1.bigJumps = 0)
      ∨ (buffer.bigJumps < 20
        ∧ (buffer.add rtp).2 = false
        ∧ (buffer.add rtp).1.bigJumps = buffer.bigJumps + 1) := by
  have same := changesSsrc_of_isLate late
  have jumps : (buffer.trackSsrc rtp).bigJumps = buffer.bigJumps := by
    rw [trackSsrc_bigJumps, same]
    rfl
  by_cases many : (buffer.trackSsrc rtp).bigJumps + 1 > 20
  · have result : buffer.add rtp
        = (enqueue { buffer.trackSsrc rtp with next := noNext, bigJumps := 0 } rtp, true) :=
      (if_pos late).trans (if_pos many)
    rw [result]
    refine .inl ⟨by omega, rfl, ?_, enqueue_bigJumps _ rtp⟩
    exact (enqueue_next _ rtp).elim id id
  · have result : buffer.add rtp
        = ({ buffer.trackSsrc rtp with bigJumps := (buffer.trackSsrc rtp).bigJumps + 1 }, false) :=
      (if_pos late).trans (if_neg many)
    rw [result]
    exact .inr ⟨by omega, rfl, congrArg (· + 1) jumps⟩

theorem add_of_not_isLate (inTime : buffer.isLate rtp = false)
    : (buffer.add rtp).1.bigJumps
      = if buffer.changesSsrc rtp then 0 else buffer.bigJumps := by
  have notPast : ¬ (buffer.trackSsrc rtp).isPast rtp = true := by
    rw [← isLate, inTime]
    exact Bool.false_ne_true
  have result : buffer.add rtp = ((buffer.trackSsrc rtp).enqueue rtp, true) := if_neg notPast
  rw [result, enqueue_bigJumps, trackSsrc_bigJumps]

namespace Lateness

theorem step_counted (seen : Lateness) (op : Op) (counted : seen.Counted)
    : (seen.step op).Counted := by
  obtain ⟨jumps, bound⟩ := counted
  cases op with
  | add rtp =>
    simp only [Counted, step, RTPBuffer.step]
    cases late : seen.buffer.isLate rtp with
    | true =>
      rcases add_of_isLate late with ⟨-, accepted, -, zero⟩ | ⟨few, refused, more⟩
      · simp only [accepted, zero, if_true, Nat.zero_le, and_self]
      · simp only [refused, more, jumps, if_true, Bool.false_eq_true, if_false, true_and]
        omega
    | false =>
      rw [add_of_not_isLate late]
      simp only [Bool.false_eq_true, if_false]
      split_ifs
      · exact ⟨rfl, Nat.zero_le _⟩
      · exact ⟨jumps, bound⟩
  | wait now => exact ⟨(wait_bigJumps _ now).trans jumps, bound⟩
  | reset clear => exact ⟨rfl, Nat.zero_le _⟩
  | hurryUp | setMaxWaitTime maxWaitTime | clear | cancel => exact ⟨jumps, bound⟩

/-- A late packet is accepted exactly when 20 others were refused. -/
theorem acceptsLate_iff {seen : Lateness} (counted : seen.Counted) (rtp : RTPTimedPacket)
    : seen.buffer.AcceptsLate rtp ↔ seen.buffer.isLate rtp = true ∧ seen.refused = 20 := by
  obtain ⟨jumps, bound⟩ := counted
  constructor
  · rintro ⟨late, accepted, -⟩
    rcases add_of_isLate late with ⟨many, -⟩ | ⟨-, refused, -⟩
    · exact ⟨late, by omega⟩
    · rw [refused] at accepted
      cases accepted
  · rintro ⟨late, many⟩
    rcases add_of_isLate late with ⟨-, accepted, forgotten, -⟩ | ⟨few, -⟩
    · exact ⟨late, accepted, forgotten⟩
    · omega

theorem onlyConsecutive_iff_permits {seen : Lateness} (counted : seen.Counted) (op : Op)
    : seen.OnlyConsecutive op ↔ seen.Permits op := by
  cases op with
  | add rtp =>
    simp only [OnlyConsecutive, Permits, acceptsLate_iff counted]
    exact and_imp
  | wait now | hurryUp | setMaxWaitTime maxWaitTime | clear | reset clear | cancel => exact Iff.rfl

/-- A run accepts late packets only as the 21st of 21 in a row if and only if, whenever a late
packet meets 20 that were refused, these came in a row.
-/
theorem resyncs_on_consecutive_iff (ops : List Op)
    : EachStep step OnlyConsecutive {} ops ↔ EachStep step Permits {} ops :=
  eachStep_congr step_counted (fun _ op counted => onlyConsecutive_iff_permits counted op)
    ⟨rfl, Nat.zero_le _⟩ ops

/-- Packet 101 is in sequence between 20 late packets and the one that is accepted. -/
theorem resyncs_behind_packet_in_sequence
    : let ops : List Op :=
        [.add { seqNum := 100 }, .wait 0] ++ List.replicate 20 (.add { seqNum := 3 })
          ++ [.add { seqNum := 101 }]
      (run step {} ops).streak = 0
      ∧ (run step {} ops).buffer.AcceptsLate { seqNum := 3 }
      ∧ ¬ (run step {} ops).OnlyConsecutive (.add { seqNum := 3 }) := by
  have accepts : (run step {} ([.add { seqNum := 100 }, .wait 0]
      ++ List.replicate 20 (.add { seqNum := 3 }) ++ [.add { seqNum := 101 }])).buffer.AcceptsLate
      { seqNum := 3 } := by
    decide +kernel
  have none : (run step {} ([.add { seqNum := 100 }, .wait 0]
      ++ List.replicate 20 (.add { seqNum := 3 }) ++ [.add { seqNum := 101 }])).streak = 0 := by
    decide +kernel
  refine ⟨none, accepts, fun only => ?_⟩
  have := only accepts
  omega

end Lateness

end MediaServer.Rtp.RTPBuffer
