import MediaServer.Rtcp.Report
import MediaServer.Rtp.Stream

/-! The loss arithmetic of receiver reports.
What was lost since the last report is the difference of a span of numbers and a count of
packets, and packets that arrive twice count twice.
-/

namespace MediaServer.Rtp

open Foundation Rtcp

structure ReportingStream extends RTPStream where
  lostRecvPackets : Nat := 0

/-- What `CreateReceiverReport` comes to. -/
inductive Reported
  | nothing
  | divisionByZero
  | report (report : RTCPReport)

namespace ReportingStream

variable (stream : ReportingStream)

/-- The numbers from the lowest one since the last report to the highest one. -/
def spanned : Nat :=
  stream.recExtSeq - stream.minRecvExtSeqNumSinceLastSR + 1

def total : Nat := stream.spanned % 4294967296

/-- `lostRecvPacketsSinceLastSR`, a difference of `DWORD`s. -/
def lostRecvPacketsSinceLastSR : Nat :=
  (stream.total + (4294967296 - stream.totalRecvPacketsSinceLastSR)) % 4294967296

def frac : Nat :=
  stream.lostRecvPacketsSinceLastSR * 256 % 4294967296 / stream.total

def HasReport : Prop :=
  stream.totalRecvPacketsSinceLastSR ≠ 0
  ∧ stream.recExtSeq ≥ stream.minRecvExtSeqNumSinceLastSR

instance (stream : ReportingStream) : Decidable stream.HasReport :=
  inferInstanceAs (Decidable (_ ∧ _))

def receiverReport (medkit : Medkit) (stream : ReportingStream)
    (recSR delaySinceLastSR : DWORD) : RTCPReport :=
  .new medkit stream.recSSRC (.ofNat stream.frac)
    (.ofNat (stream.lostRecvPackets + stream.lostRecvPacketsSinceLastSR))
    (.ofNat stream.recExtSeq) (.ofNat stream.jitter) recSR delaySinceLastSR

def reported : ReportingStream :=
  { stream with
    lostRecvPackets :=
      (stream.lostRecvPackets + stream.lostRecvPacketsSinceLastSR) % 4294967296
    totalRecvPacketsSinceLastSR := 0
    totalRecvBytesSinceLastSR := 0
    minRecvExtSeqNumSinceLastSR := maxExtSeqNum }

def createReceiverReport (medkit : Medkit) (stream : ReportingStream)
    (recSR delaySinceLastSR : DWORD) : ReportingStream × Reported :=
  if stream.HasReport then
    if stream.total = 0 then (stream, .divisionByZero)
    else (stream.reported, .report (stream.receiverReport medkit recSR delaySinceLastSR))
  else (stream, .nothing)

/-- What happens to a stream. -/
inductive Event
  | add (flags : SessionFlags) (packet : RTPTimedPacket) (size : DWORD) (now : QWORD)
  | createReceiverReport (recSR delaySinceLastSR : DWORD)

structure Observed where
  stream : ReportingStream := {}
  losses : List Nat := []

namespace Observed

def step (medkit : Medkit) (seen : Observed) : Event → Observed
  | .add flags packet size now =>
    { seen with
      stream :=
        { seen.stream with
          toRTPStream := (seen.stream.toRTPStream.add flags packet size now).1 } }
  | .createReceiverReport recSR delaySinceLastSR =>
    match seen.stream.createReceiverReport medkit recSR delaySinceLastSR with
    | (stream, .report _) =>
      ⟨stream, seen.stream.lostRecvPacketsSinceLastSR :: seen.losses⟩
    | (stream, _) => { seen with stream := stream }

/-- A report whose loss lies within its span, with the fraction of it that was lost and the
sum of all losses.
-/
def Sound (medkit : Medkit) (seen : Observed) : Event → Prop
  | .add _ _ _ _ => True
  | .createReceiverReport recSR delaySinceLastSR =>
    match (seen.stream.createReceiverReport medkit recSR delaySinceLastSR).2 with
    | .nothing => True
    | .divisionByZero => False
    | .report report =>
      seen.stream.lostRecvPacketsSinceLastSR ≤ seen.stream.spanned
      ∧ report.getFactionLost.toNat
        = 256 * seen.stream.lostRecvPacketsSinceLastSR / seen.stream.spanned
      ∧ (report.getLostCount medkit).toNat
        = seen.losses.sum + seen.stream.lostRecvPacketsSinceLastSR

/-- No more packets were counted than numbers lie in the span, and the losses still fit in 24
bits.
-/
def Permits (seen : Observed) : Event → Prop
  | .add _ _ _ _ => True
  | .createReceiverReport _ _ =>
    seen.stream.HasReport
    → seen.stream.totalRecvPacketsSinceLastSR ≤ seen.stream.spanned
      ∧ seen.stream.spanned < 4294967296
      ∧ seen.losses.sum + (seen.stream.spanned - seen.stream.totalRecvPacketsSinceLastSR)
        < 2 ^ 24

instance (seen : Observed) (event : Event) : Decidable (seen.Permits event) :=
  match event with
  | .add _ _ _ _ => .isTrue trivial
  | .createReceiverReport _ _ => inferInstanceAs (Decidable (_ → _ ∧ _ ∧ _))

structure Tallied (seen : Observed) : Prop where
  received : seen.stream.totalRecvPacketsSinceLastSR < 4294967296
  highest : seen.stream.recExtSeq < 4294967296
  lost : seen.stream.lostRecvPackets = seen.losses.sum % 4294967296

end Observed

theorem spanned_pos : 0 < stream.spanned := Nat.succ_pos _

variable {stream : ReportingStream}

theorem lostRecvPacketsSinceLastSR_eq (within : stream.totalRecvPacketsSinceLastSR ≤ stream.spanned)
    (small : stream.spanned < 4294967296)
    : stream.lostRecvPacketsSinceLastSR
      = stream.spanned - stream.totalRecvPacketsSinceLastSR := by
  rw [lostRecvPacketsSinceLastSR, total, Nat.mod_eq_of_lt small]
  omega

/-- A count above the span makes a loss above the span. -/
theorem within_of_lost_le (received : stream.totalRecvPacketsSinceLastSR < 4294967296)
    (small : stream.spanned < 4294967296)
    (lost : stream.lostRecvPacketsSinceLastSR ≤ stream.spanned)
    : stream.totalRecvPacketsSinceLastSR ≤ stream.spanned := by
  by_cases within : stream.totalRecvPacketsSinceLastSR ≤ stream.spanned
  · exact within
  · rw [lostRecvPacketsSinceLastSR, total, Nat.mod_eq_of_lt small] at lost
    omega

theorem frac_eq (some : stream.totalRecvPacketsSinceLastSR ≠ 0)
    (within : stream.totalRecvPacketsSinceLastSR ≤ stream.spanned)
    (small : stream.spanned < 4294967296) (lost : stream.lostRecvPacketsSinceLastSR < 2 ^ 24)
    : stream.frac = 256 * stream.lostRecvPacketsSinceLastSR / stream.spanned
      ∧ stream.frac < 256 := by
  have value := lostRecvPacketsSinceLastSR_eq within small
  have fraction : stream.frac = 256 * stream.lostRecvPacketsSinceLastSR / stream.spanned := by
    rw [frac, total, Nat.mod_eq_of_lt small, Nat.mod_eq_of_lt (by omega), Nat.mul_comm]
  refine ⟨fraction, ?_⟩
  rw [fraction, Nat.div_lt_iff_lt_mul stream.spanned_pos]
  have := stream.spanned_pos
  omega

namespace Observed

variable {medkit : Medkit}

theorem step_tallied (seen : Observed) (event : Event) (tallied : seen.Tallied)
    : (seen.step medkit event).Tallied := by
  obtain ⟨received, highest, lost⟩ := tallied
  cases event with
  | add flags packet size now =>
    refine ⟨?_, ?_, lost⟩
    · simp only [step]
      rw [RTPStream.add]
      split
      · exact Nat.mod_lt _ (by decide)
      · exact Nat.mod_lt _ (by decide)
    · simp only [step]
      rw [RTPStream.add_recExtSeq]
      exact max_lt (extSeqNum_lt _ _) highest
  | createReceiverReport recSR delaySinceLastSR =>
    simp only [step, createReceiverReport]
    split_ifs with has zero
    · exact ⟨received, highest, lost⟩
    · refine ⟨by simp only [reported]; decide, highest, ?_⟩
      simp only [reported, lost, List.sum_cons]
      omega
    · exact ⟨received, highest, lost⟩

/-- One report is sound exactly when its condition holds. -/
theorem sound_iff_permits (order : medkit.NetworkOrder)
    (narrow : ∀ high middle low, (medkit.get3 high middle low).toNat < 2 ^ 24)
    {seen : Observed} (tallied : seen.Tallied) (event : Event)
    : seen.Sound medkit event ↔ seen.Permits event := by
  obtain ⟨received, highest, lost⟩ := tallied
  cases event with
  | add flags packet size now => exact Iff.rfl
  | createReceiverReport recSR delaySinceLastSR =>
    have positive := seen.stream.spanned_pos
    have bound : seen.stream.spanned ≤ 4294967296 := by
      rw [spanned]
      omega
    by_cases has : seen.stream.HasReport
    · by_cases zero : seen.stream.total = 0
      · -- the span is that of all numbers
        have full : ¬ seen.stream.spanned < 4294967296 := by
          intro small
          rw [total, Nat.mod_eq_of_lt small] at zero
          omega
        simp only [Sound, createReceiverReport, if_pos has, if_pos zero, false_iff]
        exact fun permitted => full (permitted has).2.1
      · have small : seen.stream.spanned < 4294967296 := by
          refine Nat.lt_of_le_of_ne bound (fun full => zero ?_)
          rw [total, full]
        simp only [Sound, createReceiverReport, if_neg zero, Permits, has, forall_const, small,
          true_and]
        constructor
        · rintro ⟨below, -, count⟩
          have within := within_of_lost_le received small below
          have value := lostRecvPacketsSinceLastSR_eq within small
          refine ⟨within, ?_⟩
          rw [← value, ← count]
          exact narrow _ _ _
        · rintro ⟨within, fits⟩
          have value := lostRecvPacketsSinceLastSR_eq within small
          obtain ⟨fraction, byte⟩ := frac_eq has.1 within small (by omega)
          refine ⟨by omega, ?_, ?_⟩
          · refine Eq.trans ?_ fraction
            exact (UInt8.toNat_ofNat' (n := seen.stream.frac)).trans (Nat.mod_eq_of_lt byte)
          · have sum : (UInt32.ofNat (seen.stream.lostRecvPackets
                + seen.stream.lostRecvPacketsSinceLastSR)).toNat
                = seen.losses.sum + seen.stream.lostRecvPacketsSinceLastSR := by
              rw [UInt32.toNat_ofNat', lost]
              omega
            exact (congrArg UInt32.toNat (order.get3_set3 _ (by omega))).trans sum
    · simp only [Sound, createReceiverReport, if_neg has, true_iff]
      exact fun impossible => absurd impossible has

theorem start_tallied (ssrc : DWORD) : Tallied { stream := { recSSRC := ssrc } } :=
  ⟨Nat.zero_lt_succ _, Nat.zero_lt_succ _, rfl⟩

/-- The reports of a run are sound if and only if each of them meets its condition. -/
theorem reports_sound_iff (order : medkit.NetworkOrder)
    (narrow : ∀ high middle low, (medkit.get3 high middle low).toNat < 2 ^ 24)
    (ssrc : DWORD) (events : List Event)
    : EachStep (step medkit) (Sound medkit) { stream := { recSSRC := ssrc } } events
      ↔ EachStep (step medkit) Permits { stream := { recSSRC := ssrc } } events :=
  eachStep_congr step_tallied
    (fun _ event tallied => sound_iff_permits order narrow tallied event)
    (start_tallied ssrc) events

/-- Packets 7, 8 and 10 arrive, with 7 again after the report. -/
theorem reports_sound_iff_example
    : EachStep (step .bigEndian) (Sound .bigEndian) { stream := { recSSRC := 1 } }
        [.add {} { seqNum := 7 } 12 0, .add {} { seqNum := 10 } 12 1, .add {} { seqNum := 8 } 12 2,
          .createReceiverReport 0 0, .add {} { seqNum := 7 } 12 3, .createReceiverReport 0 0] := by
  refine (reports_sound_iff Medkit.bigEndian_networkOrder ?_ 1 _).mpr (by decide +kernel)
  exact Medkit.bigEndian_get3_lt

/-- One packet that arrives twice makes a loss of 0xFFFFFFFF, of which the report shows 0 as
fraction and 0xFFFFFF as cumulative count.
-/
theorem report_of_duplicate
    : let seen := run (step .bigEndian) {}
        [.add {} { seqNum := 5 } 12 0, .add {} { seqNum := 5 } 12 1]
      seen.stream.spanned = 1
      ∧ seen.stream.lostRecvPacketsSinceLastSR = 0xFFFFFFFF
      ∧ (seen.stream.receiverReport .bigEndian 0 0).getFactionLost = 0
      ∧ (seen.stream.receiverReport .bigEndian 0 0).getLostCount .bigEndian = 0xFFFFFF
      ∧ ¬ seen.Sound .bigEndian (.createReceiverReport 0 0) := by
  intro seen
  refine ⟨by decide +kernel, by decide +kernel, by decide +kernel, by decide +kernel,
    fun sound => ?_⟩
  have tallied : seen.Tallied := run_invariant step_tallied (start_tallied 0) _
  have permitted := (sound_iff_permits Medkit.bigEndian_networkOrder Medkit.bigEndian_get3_lt
    tallied _).mp sound
  revert permitted
  decide +kernel

end Observed

end ReportingStream

end MediaServer.Rtp
