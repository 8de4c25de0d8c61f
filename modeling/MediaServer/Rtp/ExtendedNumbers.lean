import MediaServer.Rtp.Stream

/-! Extended sequence numbers against the true ones.
A stream takes a wrap for granted only in a window of 255 numbers behind and in front of it,
and it never goes back a cycle: within these limits the given numbers are exact.
-/

namespace MediaServer.Rtp

open Foundation RTPStream

/-- A packet with its true number, of which it carries sixteen bits. -/
structure Arrival where
  number : Nat
  packet : RTPTimedPacket := { seqNum := 0 }
  flags : SessionFlags := {}
  size : DWORD := 0
  now : QWORD := 0

structure Numbered where
  stream : RTPStream := {}
  given : List (Nat × Nat) := []

namespace Numbered

def add (seen : Numbered) (arrival : Arrival) : RTPStream × RTPTimedPacket × List NACKField :=
  seen.stream.add arrival.flags { arrival.packet with seqNum := .ofNat arrival.number }
    arrival.size arrival.now

def step (seen : Numbered) (arrival : Arrival) : Numbered where
  stream := (seen.add arrival).1
  given := (arrival.number, (seen.add arrival).2.1.getExtSeqNum) :: seen.given

/-- The largest true number so far. -/
def highest (seen : Numbered) : Nat := (seen.given.map Prod.fst).foldr max 0

/-- The arrival is less than half a cycle away from the largest number before it. -/
def Near (seen : Numbered) (arrival : Arrival) : Prop :=
  seen.given ≠ []
  → arrival.number < seen.highest + 32768 ∧ seen.highest < arrival.number + 32768

/-- The arrival stays in the cycle of the largest number before it, or enters the next one
inside the window in which a wrap is seen; and cycles fit their sixteen bits.
-/
def InWindow (seen : Numbered) (arrival : Arrival) : Prop :=
  ∀ first ∈ seen.given.getLast?,
    (arrival.number / 65536 = seen.highest / 65536
      ∨ (arrival.number / 65536 = seen.highest / 65536 + 1
        ∧ arrival.number % 65536 < 0x00FF ∧ seen.highest % 65536 > 0xFF00))
    ∧ arrival.number / 65536 < first.1 / 65536 + 65536

/-- No true number lies below the first one. -/
def StartsLowest (seen : Numbered) : Prop :=
  ∀ first ∈ seen.given.getLast?, ∀ pair ∈ seen.given, first.1 ≤ pair.1

/-- Given numbers differ from the first one as the true ones do. -/
def Exact (seen : Numbered) : Prop :=
  ∀ first ∈ seen.given.getLast?, ∀ pair ∈ seen.given, first.1 ≤ pair.1
    → (pair.2 : Int) - first.2 = pair.1 - first.1

variable (seen : Numbered) (arrival : Arrival)

theorem add_number
    : (seen.add arrival).2.1.getExtSeqNum
      = (if arrival.number % 65536 < 0x00FF ∧ seen.stream.recExtSeq % 65536 > 0xFF00
          then (seen.stream.recCycles + 1) % 4294967296 else seen.stream.recCycles)
        % 65536 * 65536 + arrival.number % 65536 := by
  rw [add, RTPStream.add_number, RTPStream.advanceCycles_recCycles]
  simp [RTPStream.wraps]

theorem step_recCycles
    : (seen.step arrival).stream.recCycles
      = if arrival.number % 65536 < 0x00FF ∧ seen.stream.recExtSeq % 65536 > 0xFF00
          then (seen.stream.recCycles + 1) % 4294967296 else seen.stream.recCycles := by
  rw [step, add, add_recCycles, advanceCycles_recCycles]
  simp [wraps]

theorem step_recExtSeq
    : (seen.step arrival).stream.recExtSeq
      = max (seen.add arrival).2.1.getExtSeqNum seen.stream.recExtSeq :=
  add_recExtSeq ..

theorem step_highest : (seen.step arrival).highest = max arrival.number seen.highest := rfl

variable {seen : Numbered} {first : Nat × Nat}

theorem step_first (begun : seen.given.getLast? = some first)
    : (seen.step arrival).given.getLast? = some first := by
  rw [step, List.getLast?_cons, begun]
  rfl

/-- The stream counts from the cycle of the first number: it holds the largest true number
and every given number less that many whole cycles.
-/
structure InStep (seen : Numbered) (first : Nat × Nat) : Prop where
  begun : seen.given.getLast? = some first
  numbers : ∀ pair ∈ seen.given, pair.2 + first.1 / 65536 * 65536 = pair.1
  above : first.1 ≤ seen.highest
  cycles : seen.stream.recCycles + first.1 / 65536 = seen.highest / 65536
  fits : seen.stream.recCycles < 65536
  top : seen.stream.recExtSeq + first.1 / 65536 * 65536 = seen.highest

theorem InStep.started (inStep : InStep seen first) : seen.given ≠ [] := by
  intro empty
  have begun := inStep.begun
  rw [empty] at begun
  cases begun

theorem InStep.begin
    : InStep (Numbered.step {} arrival)
        (arrival.number, (Numbered.add {} arrival).2.1.getExtSeqNum) := by
  have number := add_number {} arrival
  have cycles := step_recCycles {} arrival
  have top := step_recExtSeq {} arrival
  rw [if_neg (by simp)] at number cycles
  simp only [Nat.zero_mod, Nat.zero_mul, Nat.zero_add] at number
  have largest : (Numbered.step {} arrival).highest = arrival.number := by
    rw [step_highest]
    simp [highest]
  refine ⟨rfl, ?_, ?_, ?_, ?_, ?_⟩
  · intro pair member
    have same : pair = (arrival.number, (Numbered.add {} arrival).2.1.getExtSeqNum) := by
      simpa [step] using member
    rw [same, number]
    dsimp only
    omega
  · rw [largest]
  · rw [cycles, largest]
    simp
  · rw [cycles]
    simp
  · rw [top, number, largest]
    simp only [Nat.zero_le, max_eq_left]
    omega

/-- An arrival near the largest number is numbered exactly when it comes in the window. -/
theorem InStep.number_iff (inStep : InStep seen first) {arrival : Arrival}
    (near : seen.Near arrival)
    : (seen.add arrival).2.1.getExtSeqNum + first.1 / 65536 * 65536 = arrival.number
      ↔ seen.InWindow arrival := by
  obtain ⟨notFarAbove, notFarBelow⟩ := near inStep.started
  obtain ⟨begun, _, above, cycles, fits, top⟩ := inStep
  simp only [InWindow, begun, Option.mem_def, Option.some.injEq, forall_eq']
  rw [add_number]
  split
  · -- the wrap is seen, so the arrival is in the next cycle
    rename_i wrap
    have next : arrival.number / 65536 = seen.highest / 65536 + 1 := by omega
    omega
  · -- no wrap is seen: the number stays in the cycle of the largest one
    rename_i noWrap
    have sameLow : seen.stream.recExtSeq % 65536 = seen.highest % 65536 := by omega
    rw [sameLow] at noWrap
    omega

theorem InStep.step (inStep : InStep seen first) {arrival : Arrival} (near : seen.Near arrival)
    (inWindow : seen.InWindow arrival)
    : InStep (seen.step arrival) first := by
  have number := (inStep.number_iff near).mpr inWindow
  obtain ⟨notFarAbove, notFarBelow⟩ := near inStep.started
  obtain ⟨begun, numbers, above, cycles, fits, top⟩ := inStep
  obtain ⟨place, room⟩ := inWindow first begun
  have counted := step_recCycles seen arrival
  refine ⟨step_first arrival begun, ?_, ?_, ?_, ?_, ?_⟩
  · intro pair member
    rcases List.mem_cons.mp member with same | earlier
    · rw [same]
      exact number
    · exact numbers pair earlier
  · rw [step_highest]
    omega
  · rw [counted, step_highest]
    split <;> omega
  · rw [counted]
    split <;> omega
  · rw [step_recExtSeq, step_highest]
    omega

theorem run_given_mono (seen : Numbered) (arrivals : List Arrival)
    : seen.given ⊆ (run Numbered.step seen arrivals).given := by
  induction arrivals generalizing seen with
  | nil => exact List.Subset.refl _
  | cons arrival rest ih =>
    exact List.Subset.trans (List.subset_cons_self _ _) (ih (seen.step arrival))

theorem run_first (begun : seen.given.getLast? = some first) (arrivals : List Arrival)
    : (run Numbered.step seen arrivals).given.getLast? = some first := by
  induction arrivals generalizing seen with
  | nil => exact begun
  | cons arrival rest ih => exact ih (step_first arrival begun)

/-- From a state in step, the arrivals come in the window exactly when all numbers are exact. -/
theorem InStep.run_iff (inStep : InStep seen first) {arrivals : List Arrival}
    (near : EachStep Numbered.step Near seen arrivals)
    : EachStep Numbered.step InWindow seen arrivals
      ↔ ∀ pair ∈ (run Numbered.step seen arrivals).given,
        pair.2 + first.1 / 65536 * 65536 = pair.1 := by
  induction arrivals generalizing seen with
  | nil => exact ⟨fun _ => inStep.numbers, fun _ => trivial⟩
  | cons arrival rest ih =>
    constructor
    · intro inWindow
      exact (ih (inStep.step near.1 inWindow.1) near.2).mp inWindow.2
    · intro numbers
      have number := numbers _ (run_given_mono (seen.step arrival) rest List.mem_cons_self)
      have inWindow := (inStep.number_iff near.1).mp number
      exact ⟨inWindow, (ih (inStep.step near.1 inWindow) near.2).mpr numbers⟩

/-- Where every arrival comes in the window, the given numbers are exact; and where no number
lies below the first, they are exact only then.
-/
theorem extended_numbers_exact (arrivals : List Arrival)
    (near : EachStep Numbered.step Near {} arrivals)
    : (EachStep Numbered.step InWindow {} arrivals → (run Numbered.step {} arrivals).Exact)
      ∧ ((run Numbered.step {} arrivals).StartsLowest
        → (run Numbered.step {} arrivals).Exact
        → EachStep Numbered.step InWindow {} arrivals) := by
  cases arrivals with
  | nil => exact ⟨fun _ _ none => (by cases none), fun _ _ => trivial⟩
  | cons arrival rest =>
    have inStep := InStep.begin arrival
    have all := inStep.run_iff near.2
    have begun := run_first inStep.begun rest
    have atFirst := inStep.numbers _ (List.mem_of_getLast? inStep.begun)
    constructor
    · intro inWindow first isFirst pair member _
      rw [run_cons, begun] at isFirst
      cases isFirst
      have atPair := all.mp inWindow.2 pair member
      omega
    · intro lowest exact
      refine ⟨fun _ none => (by cases none), all.mpr ?_⟩
      intro pair member
      have difference := exact _ begun pair member (lowest _ begun pair member)
      omega

/-- Numbers 65534, 65536, 65537: the wrap is seen although 65535 is lost. -/
theorem extended_numbers_exact_wrap
    : (run Numbered.step {} [{ number := 65534 }, { number := 65536 }, { number := 65537 }]
        ).Exact := by
  refine (extended_numbers_exact _ ?_).1 ?_
  · simp only [EachStep, Near]
    decide
  · simp only [EachStep, InWindow]
    decide

/-- The late 65535 behind 65536 counts as a number of the new cycle. -/
theorem late_packet_counts_as_wrapped
    : (run Numbered.step {} [{ number := 65534 }, { number := 65536 }, { number := 65535 }]
        ).given = [(65535, 131071), (65536, 65536), (65534, 65534)]
      ∧ ¬ (run Numbered.step {}
          [{ number := 65534 }, { number := 65536 }, { number := 65535 }]).Exact := by
  refine ⟨by decide, ?_⟩
  intro exact
  have difference := exact (65534, 65534) (by decide) (65535, 131071) (by decide) (by decide)
  simp at difference

end Numbered

end MediaServer.Rtp
