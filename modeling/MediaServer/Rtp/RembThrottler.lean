import MediaServer.Foundation.Runs
import MediaServer.Medkit

/-! The throttler between the bitrate estimator of a receiver and the rate that the peer is told
to keep to: what the peer was told last never stays above the measure and the ceiling, and what
the sticky TMMBR dialect makes of two announcements in a row.
-/

namespace MediaServer.Rtp

open Foundation

/-- What is worth an announcement in one dialect; a `raiseIntervalMs` or a `raiseStepPercent` of 0
turns that rule off.
-/
structure Policy where
  raiseIntervalMs : QWORD
  raiseStepPercent : DWORD
  dropThresholdPercent : DWORD
deriving DecidableEq, Repr

def rembPolicy : Policy := ⟨200, 0, 103⟩
def tmmbrPolicy : Policy := ⟨0, 20, 110⟩

/-- No ceiling, and nothing announced yet. -/
def noLimit : DWORD := 0xFFFFFFFF

structure RembThrottler where
  policy : Policy
  lastSent : DWORD := noLimit
  lastAnnounced : DWORD := noLimit
  lastSendTime : QWORD := 0
  hasSent : Bool := false
  maxBitrate : DWORD := noLimit
  peerBitrate : DWORD := 0
deriving DecidableEq, Repr

namespace RembThrottler

def compose (throttler : RembThrottler) (bitrate : DWORD) : DWORD :=
  if bitrate < throttler.maxBitrate then bitrate else throttler.maxBitrate

def raiseIsInformative (throttler : RembThrottler) : Bool :=
  if throttler.peerBitrate = 0 ∨ throttler.lastAnnounced = noLimit then true
  else throttler.peerBitrate.toUInt64 * 100 ≤ throttler.lastAnnounced.toUInt64 * 105

/-- A drop that goes out at once, against the rate the caller compares with. -/
def drop (policy : Policy) (bitrate reference : DWORD) : Bool :=
  bitrate.toUInt64 * policy.dropThresholdPercent.toUInt64 / 100 ≤ reference.toUInt64

def step (throttler : RembThrottler) (bitrate reference : DWORD) : Bool :=
  throttler.policy.raiseStepPercent ≠ 0
    -- The sum of percents is one of 32 bits; the product is one of 64.
    ∧ bitrate.toUInt64 * 100
      ≥ reference.toUInt64 * (100 + throttler.policy.raiseStepPercent).toUInt64
    ∧ throttler.raiseIsInformative

def period (throttler : RembThrottler) (now : QWORD) : Bool :=
  throttler.policy.raiseIntervalMs ≠ 0
    ∧ now ≥ throttler.lastSendTime + throttler.policy.raiseIntervalMs

/-- The test both entry points make once something has been announced. -/
def due (throttler : RembThrottler) (urgent : Bool) (bitrate reference : DWORD) (now : QWORD)
    : Bool :=
  (urgent && drop throttler.policy bitrate reference) || throttler.step bitrate reference
    || throttler.period now

/-- The measure is compared with the measure remembered, not with what the peer was told. -/
def onEstimateChanged (throttler : RembThrottler) (bitrate : DWORD) (now : QWORD)
    (congestion : Bool)
    : RembThrottler × Option DWORD :=
  if throttler.hasSent && !throttler.due congestion bitrate throttler.lastSent now then
    (throttler, none)
  else
    let out := throttler.compose bitrate
    if throttler.hasSent && throttler.policy.raiseIntervalMs = 0
        && out = throttler.lastAnnounced then
      ({ throttler with lastSent := bitrate }, none)
    else
      ({ throttler with lastSent := bitrate, lastSendTime := now, hasSent := true,
                        lastAnnounced := out }, some out)

/-- The ceiling is compared with what the peer was told. -/
def setMaxBitrate (throttler : RembThrottler) (bitrate : DWORD) (now : QWORD)
    : RembThrottler × Option DWORD :=
  let limited := { throttler with maxBitrate := bitrate }
  let announce := limited.compose limited.lastSent
  if limited.hasSent && !limited.due true announce limited.lastAnnounced now then
    (limited, none)
  else
    ({ limited with lastSendTime := now, hasSent := true, lastAnnounced := announce },
      some announce)

def setPeerBitrate (throttler : RembThrottler) (bitrate : DWORD) : RembThrottler :=
  { throttler with peerBitrate := bitrate }

inductive Call
  | onEstimateChanged (bitrate : DWORD) (now : QWORD) (congestion : Bool)
  | setMaxBitrate (bitrate : DWORD) (now : QWORD)
  | setPeerBitrate (bitrate : DWORD)

/-- One call, with the value to announce if it asks for one. -/
def call (throttler : RembThrottler) : Call → RembThrottler × Option DWORD
  | .onEstimateChanged bitrate now congestion =>
    throttler.onEstimateChanged bitrate now congestion
  | .setMaxBitrate bitrate now => throttler.setMaxBitrate bitrate now
  | .setPeerBitrate bitrate => (throttler.setPeerBitrate bitrate, none)

def after (throttler : RembThrottler) (event : Call) : RembThrottler := (throttler.call event).1

/-- Everything that a run announces, in order. -/
def announcements : RembThrottler → List Call → List DWORD
  | _, [] => []
  | throttler, event :: rest =>
    (throttler.call event).2.toList ++ announcements (throttler.after event) rest

theorem compose_toNat (throttler : RembThrottler) (bitrate : DWORD)
    : (throttler.compose bitrate).toNat = min bitrate.toNat throttler.maxBitrate.toNat := by
  simp only [compose]
  split_ifs with below
  all_goals rw [UInt32.lt_iff_toNat_lt] at below; omega

/-- Products of two words of 32 bits are exact in 64 bits. -/
theorem toNat_product (left right : DWORD)
    : (left.toUInt64 * right.toUInt64).toNat = left.toNat * right.toNat := by
  have bound := Nat.mul_lt_mul'' left.toNat_lt right.toNat_lt
  rw [UInt64.toNat_mul, UInt32.toNat_toUInt64, UInt32.toNat_toUInt64]
  exact Nat.mod_eq_of_lt bound

theorem drop_iff (policy : Policy) (bitrate reference : DWORD)
    : drop policy bitrate reference = true
      ↔ bitrate.toNat * policy.dropThresholdPercent.toNat / 100 ≤ reference.toNat := by
  simp only [drop, decide_eq_true_eq, UInt64.le_iff_toNat_le, UInt64.toNat_div, toNat_product,
    UInt32.toNat_toUInt64]
  rfl

/-! What the peer was told last. -/

/-- What the peer may send at most: the measure remembered, under the ceiling. -/
def allowed (throttler : RembThrottler) : Nat :=
  min throttler.lastSent.toNat throttler.maxBitrate.toNat

/-- The last announcement, if there was one. -/
def told (throttler : RembThrottler) : List DWORD :=
  if throttler.hasSent then [throttler.lastAnnounced] else []

/-- The last announcement is within the tolerance of what the peer may send. -/
def Fresh (throttler : RembThrottler) : Prop :=
  ∀ last ∈ throttler.told,
    last.toNat ≤ throttler.allowed * throttler.policy.dropThresholdPercent.toNat / 100

/-- A call that announces something announces what the peer may send at that moment, and the
others leave what the peer was told.
-/
theorem call_spec (throttler : RembThrottler) (event : Call)
    : (throttler.after event).policy = throttler.policy
      ∧ ((throttler.call event).2 = none → (throttler.after event).told = throttler.told)
      ∧ ∀ value, (throttler.call event).2 = some value
        → (throttler.after event).told = [value]
          ∧ value.toNat = (throttler.after event).allowed := by
  have announced (limited : RembThrottler) (bitrate value : DWORD)
      (same : some (limited.compose bitrate) = some value)
      : [limited.compose bitrate] = [value]
        ∧ value.toNat = min bitrate.toNat limited.maxBitrate.toNat := by
    cases same
    exact ⟨rfl, limited.compose_toNat bitrate⟩
  cases event with
  | onEstimateChanged bitrate now congestion =>
    simp only [after, call, onEstimateChanged]
    split_ifs
    · exact ⟨rfl, fun _ => rfl, nofun⟩
    · exact ⟨rfl, fun _ => rfl, nofun⟩
    · exact ⟨rfl, nofun, announced throttler bitrate⟩
  | setMaxBitrate bitrate now =>
    simp only [after, call, setMaxBitrate]
    split_ifs
    · exact ⟨rfl, fun _ => rfl, nofun⟩
    · exact ⟨rfl, nofun, announced _ throttler.lastSent⟩
  | setPeerBitrate => exact ⟨rfl, fun _ => rfl, nofun⟩

theorem tolerated {policy : Policy} (tolerant : 100 ≤ policy.dropThresholdPercent.toNat)
    (rate : Nat)
    : rate ≤ rate * policy.dropThresholdPercent.toNat / 100 := by
  rw [Nat.le_div_iff_mul_le (by decide)]
  exact Nat.mul_le_mul_left rate tolerant

variable {throttler : RembThrottler}

theorem Fresh.after (tolerant : 100 ≤ throttler.policy.dropThresholdPercent.toNat)
    (fresh : throttler.Fresh) (event : Call)
    : (throttler.after event).Fresh := by
  obtain ⟨same, _, loud⟩ := throttler.call_spec event
  cases announced : (throttler.call event).2 with
  | some value =>
    obtain ⟨last, exact⟩ := loud value announced
    rw [Fresh, last, same, List.forall_mem_singleton, exact]
    exact tolerated tolerant _
  | none =>
    cases event with
    | onEstimateChanged bitrate now congestion =>
      simp only [RembThrottler.after, call, onEstimateChanged] at announced ⊢
      split_ifs at announced ⊢ with quiet same
      · exact fresh
      · -- The measure is remembered although the announced value stays.
        simp only [Bool.and_eq_true, decide_eq_true_eq] at same
        have kept := compose_toNat throttler bitrate
        rw [same.2] at kept
        simp only [Fresh, told, same.1.1, if_true, List.forall_mem_singleton]
        exact kept.symm ▸ tolerated tolerant throttler.lastAnnounced.toNat
    | setMaxBitrate bitrate now =>
      simp only [RembThrottler.after, call, setMaxBitrate] at announced ⊢
      split_ifs at announced ⊢ with quiet
      simp only [due, Bool.and_eq_true, Bool.not_eq_true', Bool.or_eq_false_iff,
        Bool.true_and] at quiet
      have above := (drop_iff _ _ _).not.mp (ne_true_of_eq_false quiet.2.1.1)
      rw [compose_toNat] at above
      simp only [Fresh, told, quiet.1, if_true, List.forall_mem_singleton]
      exact (Nat.lt_of_not_le above).le
    | setPeerBitrate => exact fresh

/-- After every call of a run the announced value is what the peer may send, and what the peer was
told last exceeds it by no more than the tolerance of the policy.
-/
theorem announcements_never_stale (policy : Policy)
    (tolerant : 100 ≤ policy.dropThresholdPercent.toNat) (calls : List Call) (event : Call)
    : let before := run after { policy := policy } calls
      let now := before.after event
      (∀ value, (before.call event).2 = some value
        → value.toNat = min now.lastSent.toNat now.maxBitrate.toNat)
      ∧ (now.hasSent = true
        → now.lastAnnounced.toNat
          ≤ min now.lastSent.toNat now.maxBitrate.toNat
            * policy.dropThresholdPercent.toNat / 100) := by
  intro before now
  have reached : before.policy = policy ∧ before.Fresh := by
    let holds (throttler : RembThrottler) := throttler.policy = policy ∧ throttler.Fresh
    refine @run_invariant _ _ after holds ?_ _ ⟨rfl, by simp [Fresh, told]⟩ calls
    rintro throttler event ⟨same, fresh⟩
    exact ⟨(throttler.call_spec event).1.trans same, fresh.after (by rwa [same]) event⟩
  obtain ⟨same, _, loud⟩ := before.call_spec event
  refine ⟨fun value announced => (loud value announced).2, ?_⟩
  intro sent
  have fresh := reached.2.after (by rwa [reached.1]) event
  rw [Fresh, same, reached.1] at fresh
  exact fresh _ (by rw [told, if_pos sent]; exact List.mem_singleton_self _)

theorem announcements_never_stale_remb : (run after { policy := rembPolicy }
          [.onEstimateChanged 1000 0 true, .setMaxBitrate 900 10]).lastAnnounced.toNat
      ≤ 900 * 103 / 100 :=
  (announcements_never_stale rembPolicy (by decide) [.onEstimateChanged 1000 0 true]
    (.setMaxBitrate 900 10)).2 (by decide)

/-! Two announcements in a row. -/

/-- A rate that makes a peer restart its encoder for a reason: ten percent down or twenty up. -/
def RealChange (last next : DWORD) : Prop :=
  next.toNat * 110 / 100 ≤ last.toNat ∨ next.toNat * 100 ≥ last.toNat * 120

instance (last next : DWORD) : Decidable (RealChange last next) :=
  inferInstanceAs (Decidable (_ ∨ _))

/-- What the peer has been told so far and what it is told next stand in a relation. -/
def Follows (related : DWORD → DWORD → Prop) (throttler : RembThrottler) (event : Call) : Prop :=
  throttler.hasSent = true
    → ∀ value, (throttler.call event).2 = some value → related throttler.lastAnnounced value

/-- The announcements of a run stand in a relation one after the other exactly if each of them
stands in it to what the peer was told before.
-/
theorem announcements_chain (related : DWORD → DWORD → Prop) (throttler : RembThrottler)
    (calls : List Call)
    : (throttler.told ++ throttler.announcements calls).IsChain related
      ↔ EachStep after (Follows related) throttler calls := by
  induction calls generalizing throttler with
  | nil => by_cases sent : throttler.hasSent <;> simp [announcements, told, sent, EachStep]
  | cons event rest ih =>
    rw [EachStep, ← ih, announcements]
    obtain ⟨_, silent, loud⟩ := throttler.call_spec event
    cases announced : (throttler.call event).2 with
    | none =>
      rw [silent announced]
      simp [Follows, announced]
    | some value =>
      rw [(loud value announced).1]
      by_cases sent : throttler.hasSent <;> simp [told, sent, Follows, announced]

/-- Rates of at least ten bits a second. -/
def Call.Usual : Call → Prop
  | .onEstimateChanged bitrate _ _ => 10 ≤ bitrate.toNat
  | .setMaxBitrate bitrate _ => 10 ≤ bitrate.toNat
  | .setPeerBitrate _ => True

/-- Rates so low that ten percent of them is nothing have not been seen. -/
structure Usual (throttler : RembThrottler) : Prop where
  policy : throttler.policy = tmmbrPolicy
  lastSent : 10 ≤ throttler.lastSent.toNat
  maxBitrate : 10 ≤ throttler.maxBitrate.toNat

theorem Usual.after (usual : throttler.Usual) {event : Call} (rate : event.Usual)
    : (throttler.after event).Usual := by
  obtain ⟨policy, lastSent, maxBitrate⟩ := usual
  cases event with
  | onEstimateChanged bitrate now congestion =>
    simp only [RembThrottler.after, call, onEstimateChanged]
    split_ifs
    · exact ⟨policy, lastSent, maxBitrate⟩
    all_goals exact ⟨policy, rate, maxBitrate⟩
  | setMaxBitrate bitrate now =>
    simp only [RembThrottler.after, call, setMaxBitrate]
    split_ifs <;> exact ⟨policy, lastSent, rate⟩
  | setPeerBitrate => exact ⟨policy, lastSent, maxBitrate⟩

/-- In the TMMBR dialect a rate is due exactly for a real change against the rate it is compared
with, and a rise has to tell the peer something as well.
-/
theorem realChange_of_due {urgent : Bool} {bitrate reference : DWORD} {now : QWORD}
    (policy : throttler.policy = tmmbrPolicy)
    (due : throttler.due urgent bitrate reference now = true)
    : RealChange reference bitrate := by
  simp only [RembThrottler.due, step, period, policy, Bool.or_eq_true, Bool.and_eq_true,
    drop_iff] at due
  rcases due with (⟨_, low⟩ | high) | late
  · exact .inl low
  · right
    have above := (of_decide_eq_true high).2.1
    rw [ge_iff_le, UInt64.le_iff_toNat_le, toNat_product] at above
    have exact : (bitrate.toUInt64 * 100).toNat = bitrate.toNat * 100 := toNat_product bitrate 100
    rw [exact] at above
    exact above
  · exact absurd (of_decide_eq_true late).1 (by decide)

/-- A ceiling is announced only for a real change. -/
theorem setMaxBitrate_follows (policy : throttler.policy = tmmbrPolicy) (bitrate : DWORD)
    (now : QWORD)
    : Follows RealChange throttler (.setMaxBitrate bitrate now) := by
  intro sent value announced
  simp only [call, setMaxBitrate] at announced
  split_ifs at announced with quiet
  cases announced
  simp only [sent, Bool.true_and, Bool.not_eq_true', Bool.not_eq_false] at quiet
  exact realChange_of_due policy quiet

theorem RealChange.ne {last next : DWORD} (change : RealChange last next) (usual : 10 ≤ next.toNat)
    : last ≠ next := by
  rintro rfl
  rcases change with low | high <;> omega

/-- Before a measure, the peer has been told either the measure remembered, and the ceiling leaves
the new one alone or is a real rise itself; or the ceiling, and the new measure is not below it or
ten percent below it.
-/
def Settled (throttler : RembThrottler) : Call → Prop
  | .onEstimateChanged bitrate _ _ =>
    throttler.hasSent = true →
      throttler.lastAnnounced = throttler.lastSent
        ∧ (bitrate ≤ throttler.maxBitrate
          ∨ throttler.maxBitrate.toNat * 100 ≥ throttler.lastSent.toNat * 120)
      ∨ throttler.lastAnnounced = throttler.maxBitrate
        ∧ (throttler.maxBitrate ≤ bitrate
          ∨ bitrate.toNat * 110 / 100 ≤ throttler.maxBitrate.toNat)
  | _ => True

theorem onEstimateChanged_announced (policy : throttler.policy = tmmbrPolicy)
    (sent : throttler.hasSent = true) {bitrate : DWORD} {now : QWORD} {congestion : Bool}
    {value : DWORD}
    : (throttler.onEstimateChanged bitrate now congestion).2 = some value
      ↔ throttler.due congestion bitrate throttler.lastSent now = true
        ∧ throttler.compose bitrate ≠ throttler.lastAnnounced
        ∧ throttler.compose bitrate = value := by
  have sticky : throttler.policy.raiseIntervalMs = 0 := by rw [policy]; rfl
  simp only [onEstimateChanged, sent, sticky, Bool.true_and, decide_true, decide_eq_true_eq]
  split_ifs with quiet same <;> simp_all

theorem follows_of_settled (policy : throttler.policy = tmmbrPolicy) {event : Call}
    (settled : throttler.Settled event)
    : Follows RealChange throttler event := by
  intro sent value announced
  cases event with
  | onEstimateChanged bitrate now congestion =>
    obtain ⟨due, differs, rfl⟩ := (onEstimateChanged_announced policy sent).mp announced
    have change := realChange_of_due policy due
    have least := compose_toNat throttler bitrate
    rw [RealChange] at change ⊢
    rcases settled sent with ⟨isMeasure, free⟩ | ⟨isCeiling, apart⟩
    · rw [isMeasure]
      rw [UInt32.le_iff_toNat_le] at free
      omega
    · rw [← UInt32.toNat_inj.ne, least, isCeiling] at differs
      rw [isCeiling]
      rw [UInt32.le_iff_toNat_le] at apart
      omega
  | setMaxBitrate bitrate now => exact setMaxBitrate_follows policy bitrate now sent value announced
  | setPeerBitrate => cases announced

theorem follows_ne (usual : throttler.Usual) {event : Call} (rate : event.Usual)
    : Follows (· ≠ ·) throttler event := by
  intro sent value announced
  cases event with
  | onEstimateChanged bitrate now congestion =>
    obtain ⟨_, differs, rfl⟩ := (onEstimateChanged_announced usual.policy sent).mp announced
    exact differs.symm
  | setMaxBitrate bitrate now =>
    have next := usual.after rate
    have change := setMaxBitrate_follows usual.policy bitrate now sent value announced
    refine change.ne ?_
    rw [((throttler.call_spec _).2.2 value announced).2]
    exact Nat.le_min.mpr ⟨next.lastSent, next.maxBitrate⟩
  | setPeerBitrate => cases announced

/-- With rates of at least ten bits a second no value is announced twice in a row; and each
announcement is a real change if every measure finds what the peer was told settled.
-/
theorem tmmbr_hysteresis (calls : List Call) (usual : ∀ event ∈ calls, event.Usual)
    : (announcements { policy := tmmbrPolicy } calls).IsChain (· ≠ ·)
      ∧ (EachStep after Settled { policy := tmmbrPolicy } calls
        → (announcements { policy := tmmbrPolicy } calls).IsChain RealChange) := by
  have fresh : Usual { policy := tmmbrPolicy } := ⟨rfl, by decide, by decide⟩
  have chains (related : DWORD → DWORD → Prop) := announcements_chain related
    { policy := tmmbrPolicy } calls
  simp only [told, Bool.false_eq_true, if_false, List.nil_append] at chains
  rw [chains, chains]
  generalize ({ policy := tmmbrPolicy } : RembThrottler) = throttler at fresh
  clear chains
  induction calls generalizing throttler with
  | nil => simp [EachStep]
  | cons event rest ih =>
    have rate := usual event (by simp)
    obtain ⟨differ, change⟩ := ih (fun later member => usual later (by simp [member])) _
      (fresh.after rate)
    exact ⟨⟨follows_ne fresh rate, differ⟩,
      And.imp (follows_of_settled fresh.policy) change⟩

/-- The measure of 3000 is cut by a ceiling that is a real rise; the next one falls below it. -/
theorem tmmbr_hysteresis_ceiling
    : ([1000, 2000, 1500] : List DWORD).IsChain (· ≠ ·)
      ∧ ([1000, 2000, 1500] : List DWORD).IsChain RealChange := by
  have both := tmmbr_hysteresis
    [.onEstimateChanged 1000 0 true, .setMaxBitrate 2000 1, .onEstimateChanged 3000 2 true,
      .onEstimateChanged 1500 3 true]
    (by simp [Call.Usual])
  have announced : announcements { policy := tmmbrPolicy }
      [.onEstimateChanged 1000 0 true, .setMaxBitrate 2000 1, .onEstimateChanged 3000 2 true,
        .onEstimateChanged 1500 3 true]
      = [1000, 2000, 1500] := by decide
  rw [announced] at both
  refine ⟨both.1, both.2 ⟨nofun, trivial, fun _ => .inl ?_, fun _ => .inr ?_, trivial⟩⟩
  · decide
  · decide

/-- A ceiling of 950 is no news after 1000 bits a second; the measure that follows is a step
against the measure of 1000, and what goes out is the ceiling.
-/
theorem tmmbr_announces_within_noise : announcements { policy := tmmbrPolicy }
        [.onEstimateChanged 1000 0 true, .setMaxBitrate 950 1, .onEstimateChanged 1200 2 true]
        = [1000, 950]
      ∧ ¬ RealChange 1000 950 := by
  decide

end RembThrottler

end MediaServer.Rtp
