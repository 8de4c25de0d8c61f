import MediaServer.TransportFeedback.Pairing

/-! Packets that are unwrapped one after the other: the extended numbers follow the true ones
unless a packet is older than the cycle of the first one.
-/

namespace MediaServer.TransportFeedback

open TransportWideFeedbackGenerator

variable {σ : Type}

def extended (unwrap : σ → WORD → Nat) (take : σ → WORD → DWORD × QWORD → σ)
    : σ → List (Nat × DWORD × QWORD) → List (Nat × Nat)
  | _, [] => []
  | state, (number, packet) :: rest =>
    (number, unwrap state (.ofNat number))
      :: extended unwrap take (take state (.ofNat number) packet) rest

def receivedNumbers (packets : List (Nat × DWORD × QWORD)) : List (Nat × Nat) :=
  extended (fun generator seq => unwrapSeq16 seq generator.lastSeq generator.hasLastSeq)
    (fun generator seq (ssrc, nowUs) => generator.onPacketReceived ssrc seq nowUs)
    ({} : TransportWideFeedbackGenerator) packets

def sentNumbers (packets : List (Nat × DWORD × QWORD)) : List (Nat × Nat) :=
  extended SentPacketHistory.unwrap
    (fun history seq (size, nowUs) => history.onPacketSent seq nowUs size) {} packets

def Reordered : Nat → List (Nat × DWORD × QWORD) → Prop
  | _, [] => True
  | highest, (number, _) :: rest => Near number highest ∧ Reordered (max highest number) rest

/-- One constant lies between the true numbers and the extended ones. -/
def ConstantOffset (numbers : List (Nat × Nat)) : Prop :=
  ∃ offset : Int, ∀ pair ∈ numbers, (pair.1 : Int) - pair.2 = offset

/-- Every packet is there with its true number. -/
theorem mem_extended (unwrap : σ → WORD → Nat) (take : σ → WORD → DWORD × QWORD → σ) (state : σ)
    {packets : List (Nat × DWORD × QWORD)} {packet : Nat × DWORD × QWORD}
    (member : packet ∈ packets)
    : ∃ number, (packet.1, number) ∈ extended unwrap take state packets := by
  induction packets generalizing state with
  | nil => cases member
  | cons head rest ih =>
    rcases List.mem_cons.mp member with rfl | later
    · exact ⟨_, .head _⟩
    · obtain ⟨number, found⟩ := ih _ later
      exact ⟨number, .tail _ found⟩

structure KeepsHighest (lastSeq : σ → Nat) (hasLastSeq : σ → Bool)
    (take : σ → WORD → DWORD × QWORD → σ) : Prop where
  known : ∀ state seq packet, hasLastSeq (take state seq packet) = true
  last
    : ∀ state seq packet, lastSeq (take state seq packet)
      = if hasLastSeq state = false
            ∨ unwrapSeq16 seq (lastSeq state) (hasLastSeq state) > lastSeq state then
          unwrapSeq16 seq (lastSeq state) (hasLastSeq state)
        else lastSeq state

section

variable {lastSeq : σ → Nat} {hasLastSeq : σ → Bool} {take : σ → WORD → DWORD × QWORD → σ}
  (keeps : KeepsHighest lastSeq hasLastSeq take) {rest : List (Nat × DWORD × QWORD)}
include keeps

/-- Behind the first packet, by induction on the packets. -/
theorem extended_offset {origin : Nat} (multiple : origin % 65536 = 0) {state : σ} {highest : Nat}
    (started : hasLastSeq state = true) (position : lastSeq state + origin = highest)
    (reordered : Reordered highest rest) (after : ∀ packet ∈ rest, origin ≤ packet.1)
    : ∀ pair ∈ extended (fun state seq => unwrapSeq16 seq (lastSeq state) (hasLastSeq state)) take
        state rest, pair.1 = pair.2 + origin := by
  induction rest generalizing state highest with
  | nil => nofun
  | cons packet rest ih =>
    obtain ⟨⟨above, below⟩, later⟩ := reordered
    have here := after packet List.mem_cons_self
    have same : (.ofNat packet.1 : WORD) = .ofNat (packet.1 - origin) := ofNat_congr (by omega)
    have exact' : unwrapSeq16 (.ofNat packet.1) (lastSeq state) true = packet.1 - origin := by
      rw [same, unwrapSeq16_exact (by omega)]
    have next : lastSeq (take state (.ofNat packet.1) packet.2) + origin
        = max highest packet.1 := by
      simp only [keeps.last, started, exact', Bool.true_eq_false, false_or]
      split <;> omega
    intro pair member
    rcases List.mem_cons.mp member with rfl | member
    · simp only [started, exact']
      omega
    · exact ih (keeps.known _ _ _) next later
        (fun other isOther => after other (List.mem_cons_of_mem _ isOther)) pair member

theorem constantOffset_extended {start : σ} (fresh : hasLastSeq start = false)
    {first : Nat × DWORD × QWORD} (reordered : Reordered first.1 rest)
    : ConstantOffset (extended
          (fun state seq => unwrapSeq16 seq (lastSeq state) (hasLastSeq state)) take start
          (first :: rest))
      ↔ ∀ packet ∈ rest, first.1 / 65536 * 65536 ≤ packet.1 := by
  have low : (UInt16.ofNat first.1).toNat + first.1 / 65536 * 65536 = first.1 := by
    rw [UInt16.toNat_ofNat']
    omega
  have head : unwrapSeq16 (.ofNat first.1) (lastSeq start) (hasLastSeq start)
      = (UInt16.ofNat first.1).toNat := by
    simp only [fresh, unwrapSeq16, Bool.not_false, if_true]
  constructor
  · -- the first packet gives the constant, and no extended number is negative
    rintro ⟨offset, all⟩ packet member
    have one := all _ (.head _)
    obtain ⟨number, found⟩ := mem_extended _ take _ member
    have other := all _ (.tail _ found)
    simp only [head] at one other
    omega
  · intro after
    refine ⟨↑(first.1 / 65536 * 65536), fun pair member => ?_⟩
    rcases List.mem_cons.mp member with rfl | member
    · simp only [head]
      omega
    · have offset := extended_offset keeps (Nat.mul_mod_left _ 65536)
        (keeps.known start _ first.2) (by rw [keeps.last, fresh]; exact low) reordered after pair
        member
      omega

end

theorem received_keepsHighest
    : KeepsHighest TransportWideFeedbackGenerator.lastSeq TransportWideFeedbackGenerator.hasLastSeq
        (fun generator seq (ssrc, nowUs) => generator.onPacketReceived ssrc seq nowUs) := by
  refine ⟨fun generator seq packet => ?_, fun generator seq packet => ?_⟩
  · simp only [onPacketReceived, purge]
    split <;> split <;> split <;> simp_all
  · simp only [onPacketReceived, purge, Bool.not_eq_true']
    split <;> split <;> split <;> rfl

theorem sent_keepsHighest
    : KeepsHighest SentPacketHistory.lastSeq SentPacketHistory.hasLastSeq
        (fun history seq (size, nowUs) => history.onPacketSent seq nowUs size) := by
  refine ⟨fun history seq packet => ?_, fun history seq packet => onPacketSent_lastSeq ..⟩
  simp only [SentPacketHistory.onPacketSent]
  split <;> simp_all

/-- Packets that are reordered by less than 32768 keep their distances in the generator and in the
history exactly if none is older than the cycle of the first one.
-/
theorem constantOffset_iff_after {first : Nat × DWORD × QWORD} {rest : List (Nat × DWORD × QWORD)}
    (reordered : Reordered first.1 rest)
    : (ConstantOffset (receivedNumbers (first :: rest))
        ↔ ∀ packet ∈ rest, first.1 / 65536 * 65536 ≤ packet.1)
      ∧ (ConstantOffset (sentNumbers (first :: rest))
        ↔ ∀ packet ∈ rest, first.1 / 65536 * 65536 ≤ packet.1) :=
  ⟨constantOffset_extended received_keepsHighest rfl reordered,
    constantOffset_extended sent_keepsHighest rfl reordered⟩

/-- The second packet is one before the first one, the third is one behind it. -/
theorem constantOffset_iff_after_example
    : ConstantOffset (receivedNumbers [(65537, 0, 0), (65536, 0, 0), (65538, 0, 0)])
      ∧ ConstantOffset (sentNumbers [(65537, 0, 0), (65536, 0, 0), (65538, 0, 0)]) := by
  have both := @constantOffset_iff_after (65537, 0, 0) [(65536, 0, 0), (65538, 0, 0)]
    ⟨by decide, by decide, trivial⟩
  exact ⟨both.1.mpr (by decide), both.2.mpr (by decide)⟩

/-- A packet from before the cycle of the first one is taken for one ahead. -/
theorem not_constantOffset_of_wrap
    : Reordered 65536 [(65535, 0, 0)]
      ∧ ¬ ConstantOffset (receivedNumbers [(65536, 0, 0), (65535, 0, 0)])
      ∧ ¬ ConstantOffset (sentNumbers [(65536, 0, 0), (65535, 0, 0)]) := by
  refine ⟨⟨by decide, trivial⟩, ?_, ?_⟩
  all_goals
    rintro ⟨offset, all⟩
    have first := all (65536, 0) (.head _)
    have second := all (65535, 65535) (.tail _ (.head _))
    omega

end MediaServer.TransportFeedback
