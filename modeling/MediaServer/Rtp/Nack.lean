import MediaServer.Rtp.Stream
import Mathlib.Data.Set.Basic

/-! What the NACK fields for a gap ask the other side to send again.
Writer and reader agree on the order of the mask bits, but a field covers seventeen numbers
while the base advances by sixteen.
-/

namespace MediaServer.Rtp

open RTPStream

/-- The numbers that the reader of a field passes on, as plain integers. -/
def NACKField.resends (field : NACKField) : List Nat :=
  field.pid ::
    ((List.range 16).filter (fun i => (field.blp >>> (15 - i)) &&& 1 = 1)).map
      (fun i => field.pid + i + 1)

/-- Sixteen-bit numbers asked for by a list of fields. -/
def askedFor (fields : List NACKField) : Set Nat :=
  { number | ∃ field ∈ fields, ∃ seq ∈ field.resends, seq % 65536 = number }

def numbersFrom (base count : Nat) : Set Nat :=
  { number | ∃ k < count, (base + k) % 65536 = number }

/-- Of a mask of `n` leading bits the reader sees the first `n`. -/
theorem leadingMask_bit {n i : Nat} (few : n ≤ 16) (inside : i < 16)
    : (((0xFFFF <<< (16 - n)) % 65536) >>> (15 - i)) &&& 1 = 1 ↔ i < n := by
  have all : ∀ n < 17, ∀ i < 16,
      ((((0xFFFF <<< (16 - n)) % 65536) >>> (15 - i)) &&& 1 = 1 ↔ i < n) := by decide
  exact all n (by omega) i inside

theorem mem_resends {base n seq : Nat} (few : n ≤ 16)
    : seq ∈ (NACKField.mk base ((0xFFFF <<< (16 - n)) % 65536)).resends
      ↔ ∃ k < n + 1, seq = base + k := by
  simp only [NACKField.resends, List.mem_cons, List.mem_map, List.mem_filter, List.mem_range,
    decide_eq_true_eq]
  constructor
  · intro member
    rcases member with first | ⟨i, ⟨inside, bit⟩, rfl⟩
    · exact ⟨0, by omega, first⟩
    · have early := (leadingMask_bit few inside).mp bit
      exact ⟨i + 1, by omega, by omega⟩
  · intro covered
    obtain ⟨k, early, rfl⟩ := covered
    cases k with
    | zero => exact Or.inl rfl
    | succ i =>
      have inside : i < 16 := by omega
      exact Or.inr ⟨i, ⟨inside, (leadingMask_bit few inside).mpr (by omega)⟩, by omega⟩

/-! The loop over a gap. -/

theorem askedFor_cons {base n : Nat} (few : n ≤ 16) (rest : List NACKField)
    : askedFor (⟨base, (0xFFFF <<< (16 - n)) % 65536⟩ :: rest)
      = numbersFrom base (n + 1) ∪ askedFor rest := by
  ext number
  simp only [askedFor, numbersFrom, Set.mem_ofPred_eq, Set.mem_union, List.mem_cons,
    exists_eq_or_imp, mem_resends few]
  refine or_congr ⟨?_, ?_⟩ Iff.rfl
  · intro asked
    obtain ⟨_, ⟨k, inside, rfl⟩, same⟩ := asked
    exact ⟨k, inside, same⟩
  · intro covered
    obtain ⟨k, inside, same⟩ := covered
    exact ⟨base + k, ⟨k, inside, rfl⟩, same⟩

theorem numbersFrom_union {base count : Nat} (some : 0 < count)
    : numbersFrom base 17 ∪ numbersFrom ((base + 16) % 65536) count
      = numbersFrom base (16 + count) := by
  ext number
  simp only [numbersFrom, Set.mem_union, Set.mem_ofPred_eq]
  constructor
  · intro covered
    rcases covered with ⟨k, inside, rfl⟩ | ⟨k, inside, rfl⟩
    · exact ⟨k, by omega, rfl⟩
    · exact ⟨16 + k, by omega, by omega⟩
  · intro covered
    obtain ⟨k, inside, rfl⟩ := covered
    by_cases early : k < 17
    · exact Or.inl ⟨k, early, rfl⟩
    · exact Or.inr ⟨k - 16, by omega, by omega⟩

/-- Every full round of the loop leaves one number out at the end of the gap. -/
theorem askedFor_nackFields (lost base : Nat)
    : askedFor (nackFields lost base)
      = numbersFrom base (lost - (lost - 1) / 17) := by
  induction lost using Nat.strongRecOn generalizing base with
  | ind lost ih =>
    rw [nackFields]
    split
    · rename_i some
      dsimp only
      rw [askedFor_cons (by omega), ih _ (by omega)]
      by_cases last : lost ≤ 17
      · -- the last round covers all that is left
        have all : min (lost - 1) 16 + 1 = lost := by omega
        have done : lost - 1 - min (lost - 1) 16 = 0 := by omega
        have whole : lost - (lost - 1) / 17 = lost := by omega
        rw [all, done, whole]
        ext number
        simp [numbersFrom]
      · -- a full round covers seventeen numbers and moves the base by sixteen
        have full : min (lost - 1) 16 = 16 := by omega
        rw [full, numbersFrom_union (by omega)]
        congr 1
        omega
    · rename_i none
      have zero : lost = 0 := by omega
      subst zero
      ext number
      simp [askedFor, numbersFrom]

theorem numbersFrom_eq_iff {base few many : Nat} (fewer : few ≤ many) (short : many ≤ 65536)
    : numbersFrom base few = numbersFrom base many ↔ few = many := by
  constructor
  · intro same
    by_contra different
    have last : (base + (many - 1)) % 65536 ∈ numbersFrom base many :=
      ⟨many - 1, by omega, rfl⟩
    rw [← same] at last
    obtain ⟨k, inside, equal⟩ := last
    omega
  · intro equal
    rw [equal]

/-- The fields sent for a gap of `lost` packets are those of the loop. -/
theorem RTPStream.add_nacks {stream : RTPStream} {flags : SessionFlags}
    {packet : RTPTimedPacket} {size : DWORD} {now : QWORD} {lost : Nat}
    (gap : 1 ≤ lost ∧ lost ≤ 4094) (received : stream.recExtSeq ≠ 0)
    (behind
      : (stream.add flags packet size now).2.1.getExtSeqNum = stream.recExtSeq + lost + 1)
    (enabled : flags.isNACKEnabled = true) (noFPU : flags.isRequestFPU = false)
    : (stream.add flags packet size now).2.2
      = nackFields lost ((stream.recExtSeq + 1) % 65536) := by
  have bound : stream.recExtSeq + lost + 1 < 4294967296 := behind ▸ extSeqNum_lt _ _
  have number : ((stream.advanceCycles packet.seqNum).setSeqCycles packet).getExtSeqNum
      = stream.recExtSeq + lost + 1 := by
    rw [← behind, add]
    split <;> rfl
  have counted : (stream.recExtSeq + lost + 1 - stream.recExtSeq - 1) % 65536 = lost := by
    omega
  have higher : stream.recExtSeq + lost + 1 > stream.recExtSeq := by omega
  have apart : stream.recExtSeq + lost + 1 > (stream.recExtSeq + 1) % 4294967296 := by omega
  have few : lost < 0x0FFF := by omega
  rw [add, if_pos (by rwa [count_recExtSeq, number])]
  simp only [nacks, count_recExtSeq, number, counted, enabled, noFPU]
  rw [if_pos ⟨received, apart⟩, if_pos (by simpa using few)]

/-- The NACK fields for a detected gap ask for exactly the missing numbers when the gap has
at most seventeen of them, and for fewer otherwise.
-/
theorem nacks_ask_for_gap_iff (stream : RTPStream) (flags : SessionFlags)
    (packet : RTPTimedPacket) (size : DWORD) (now : QWORD) (lost : Nat)
    (gap : 1 ≤ lost ∧ lost ≤ 4094) (received : stream.recExtSeq ≠ 0)
    (behind
      : (stream.add flags packet size now).2.1.getExtSeqNum = stream.recExtSeq + lost + 1)
    (enabled : flags.isNACKEnabled = true) (noFPU : flags.isRequestFPU = false)
    : askedFor (stream.add flags packet size now).2.2
        = { number | ∃ k, 1 ≤ k ∧ k ≤ lost ∧ (stream.recExtSeq + k) % 65536 = number }
      ↔ lost ≤ 17 := by
  have missing :
      { number | ∃ k, 1 ≤ k ∧ k ≤ lost ∧ (stream.recExtSeq + k) % 65536 = number }
        = numbersFrom ((stream.recExtSeq + 1) % 65536) lost := by
    ext number
    simp only [numbersFrom, Set.mem_ofPred_eq]
    constructor
    · intro given
      obtain ⟨k, positive, inside, rfl⟩ := given
      exact ⟨k - 1, by omega, by omega⟩
    · intro given
      obtain ⟨k, inside, rfl⟩ := given
      exact ⟨k + 1, by omega, by omega, by omega⟩
  rw [add_nacks gap received behind enabled noFPU, askedFor_nackFields, missing,
    numbersFrom_eq_iff (by omega) (by omega)]
  omega

/-- Behind number 100, packet 104 asks for 101, 102 and 103. -/
theorem nacks_ask_for_gap_of_three
    : askedFor (RTPStream.add { recExtSeq := 100 } {} { seqNum := 104 } 0 0).2.2
      = { number | ∃ k, 1 ≤ k ∧ k ≤ 3 ∧ (100 + k) % 65536 = number } :=
  (nacks_ask_for_gap_iff { recExtSeq := 100 } {} { seqNum := 104 } 0 0 3 (by decide)
    (by decide) (by decide) rfl rfl).mpr (by decide)

/-- Behind number 100, packet 119 leaves a gap of eighteen whose last number is not asked
for: the second field starts at 117, which the first one covers.
-/
theorem gap_of_eighteen_misses_last
    : (RTPStream.add { recExtSeq := 100 } {} { seqNum := 119 } 0 0).2.1.getExtSeqNum
        = 100 + 18 + 1
      ∧ 118 ∉ askedFor (RTPStream.add { recExtSeq := 100 } {} { seqNum := 119 } 0 0).2.2 := by
  have behind :
      (RTPStream.add { recExtSeq := 100 } {} { seqNum := 119 } 0 0).2.1.getExtSeqNum
        = 100 + 18 + 1 := by decide
  refine ⟨behind, ?_⟩
  rw [add_nacks (by decide) (by decide) behind rfl rfl, askedFor_nackFields]
  intro asked
  obtain ⟨k, inside, same⟩ := asked
  dsimp only at inside same
  omega

end MediaServer.Rtp
