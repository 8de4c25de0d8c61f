import MediaServer.Fec.Recover
import MediaServer.Fec.Window

/-! The three masks of `Recover` speak of the same numbers: presence bits, the mask of a code,
and the mask of the packets that the loop takes out.
-/

namespace MediaServer.Fec

open Foundation Rtp BitWritter List

def maskBit (mask : QWORD) (i : Nat) : Bool := mask.toNat.testBit (63 - i)

theorem maskBit_and (left right : QWORD) (i : Nat)
    : maskBit (left &&& right) i = (maskBit left i && maskBit right i) := by
  rw [maskBit, UInt64.toNat_and, Nat.testBit_and]
  rfl

theorem maskBit_or (left right : QWORD) (i : Nat)
    : maskBit (left ||| right) i = (maskBit left i || maskBit right i) := by
  rw [maskBit, UInt64.toNat_or, Nat.testBit_or]
  rfl

/-- A mask lies in another one if its bits do. -/
theorem and_eq_left_iff (left right : QWORD)
    : left &&& right = left ↔ ∀ i, i < 64 → maskBit left i = true → maskBit right i = true := by
  constructor
  · intro same i _ set
    have bit := maskBit_and left right i
    rw [same, set, Bool.true_and] at bit
    exact bit.symm
  · intro inside
    apply UInt64.toNat_inj.mp
    apply Nat.eq_of_testBit_eq
    intro j
    rw [UInt64.toNat_and, Nat.testBit_and]
    by_cases small : j < 64
    · have bit := inside (63 - j) (by omega)
      simp only [maskBit, show 63 - (63 - j) = j by omega] at bit
      cases set : left.toNat.testBit j with
      | false => rfl
      | true => rw [bit set, Bool.true_and]
    · have high : left.toNat.testBit j = false :=
        Nat.testBit_lt_two_pow (Nat.lt_of_lt_of_le left.toNat_lt
          (Nat.pow_le_pow_right (by decide) (Nat.le_of_not_lt small)))
      rw [high, Bool.false_and]

theorem maskBit_shiftLeft (mask : QWORD) {count i : Nat} (small : count < 64) (inside : i < 64)
    : maskBit (mask <<< .ofNat count) i
      = (decide (i + count < 64) && maskBit mask (i + count)) := by
  have amount : (UInt64.ofNat count).toNat % 64 = count := by
    rw [UInt64.toNat_ofNat']
    omega
  rw [maskBit, UInt64.toNat_shiftLeft, amount, Nat.testBit_mod_two_pow, Nat.testBit_shiftLeft,
    decide_eq_true (show 63 - i < 64 by omega), Bool.true_and]
  by_cases fits : i + count < 64
  · rw [decide_eq_true fits, decide_eq_true (show count ≤ 63 - i by omega), maskBit,
      show 63 - (i + count) = 63 - i - count by omega]
  · rw [decide_eq_false fits, decide_eq_false (show ¬ count ≤ 63 - i by omega), Bool.false_and,
      Bool.false_and]

/-- One bit is taken out of a mask. -/
theorem maskBit_clear (mask : QWORD) {bit i : Nat} (small : bit < 64) (inside : i < 64)
    : maskBit (mask &&& ~~~((1 : QWORD) <<< .ofNat (64 - bit - 1))) i
      = (maskBit mask i && decide (i ≠ bit)) := by
  have amount : (UInt64.ofNat (64 - bit - 1)).toNat % 64 = 63 - bit := by
    rw [UInt64.toNat_ofNat']
    omega
  have power : ((1 : QWORD) <<< .ofNat (64 - bit - 1)).toNat = 2 ^ (63 - bit) := by
    rw [UInt64.toNat_shiftLeft, amount, UInt64.toNat_one, Nat.shiftLeft_eq, Nat.one_mul]
    exact Nat.mod_eq_of_lt (Nat.pow_lt_pow_right (by decide) (by omega))
  have below : 2 ^ (63 - bit) < 2 ^ 64 := Nat.pow_lt_pow_right (by decide) (by omega)
  have complement : maskBit (~~~((1 : QWORD) <<< .ofNat (64 - bit - 1))) i = decide (i ≠ bit) := by
    rw [maskBit, UInt64.toNat_not, power, UInt64.size, Nat.sub_sub, Nat.add_comm 1,
      Nat.testBit_two_pow_sub_succ below, Nat.testBit_two_pow,
      decide_eq_true (show 63 - i < 64 by omega), Bool.true_and, ← decide_not]
    exact decide_eq_decide.mpr (by omega)
  rw [maskBit_and, complement]

namespace FECDecoder

/-! Presence bits. -/

theorem between_eq {last cur : Nat} (above : last < cur) (word : cur < 4294967296)
    : between last cur = List.range' (last + 1) (cur - (last + 1)) := by
  rw [between, Nat.mod_eq_of_lt (by omega)]

/-- The bits tell which numbers behind `last` are there, up to the highest one; the lost
numbers are those that are not, in their order. The induction is on the numbers.
-/
theorem scan_spec {last : Nat} {keys : List Nat} (sorted : keys.Pairwise (· < ·))
    (above : ∀ key ∈ keys, last < key) (words : ∀ key ∈ keys, key < 4294967296)
    : (∀ i, (scan last keys).1.getD i false = decide (last + 1 + i ∈ keys))
      ∧ (∀ key ∈ keys, key ≤ last + (scan last keys).1.length)
      ∧ (keys = [] ∧ (scan last keys).1.length = 0 ∨ last + (scan last keys).1.length ∈ keys)
      ∧ (scan last keys).2.Pairwise (· < ·)
      ∧ ∀ seq, seq ∈ (scan last keys).2
        ↔ last < seq ∧ seq ≤ last + (scan last keys).1.length ∧ seq ∉ keys := by
  induction keys generalizing last with
  | nil => simp [scan]
  | cons cur rest ih =>
    obtain ⟨first, others⟩ := pairwise_cons.mp sorted
    obtain ⟨bits, highest, last', ascending, losts⟩ :=
      ih others first (fun key member => words key (.tail cur member))
    have gap := between_eq (above cur (.head rest)) (words cur (.head rest))
    have after := above cur (.head rest)
    have length : (scan last (cur :: rest)).1.length
        = cur - last + (scan cur rest).1.length := by
      simp only [scan, gap, length_append, length_map, length_range', length_cons]
      omega
    refine ⟨fun i => ?_, ?_, ?_, ?_, fun seq => ?_⟩
    · simp only [scan, gap, getD_eq_getElem?_getD, getElem?_append, length_map, length_range']
      rcases Nat.lt_trichotomy i (cur - (last + 1)) with before | here | behind
      · rw [if_pos before, decide_eq_false]
        · simp [before]
        · intro member
          rcases mem_cons.mp member with same | old
          · omega
          · have := first _ old
            omega
      · rw [if_neg (by omega), here, Nat.sub_self, decide_eq_true]
        · rfl
        · exact mem_cons.mpr (.inl (by omega))
      · obtain ⟨j, position⟩ : ∃ j, i = cur - (last + 1) + (j + 1) := ⟨i - (cur - last), by omega⟩
        rw [if_neg (by omega), position, Nat.add_sub_cancel_left, getElem?_cons_succ,
          ← getD_eq_getElem?_getD, bits j,
          show last + 1 + (cur - (last + 1) + (j + 1)) = cur + 1 + j by omega]
        refine decide_eq_decide.mpr ⟨.tail cur, fun member => ?_⟩
        exact (mem_cons.mp member).resolve_left (by omega)
    · intro key member
      rcases mem_cons.mp member with same | old
      · omega
      · have := highest key old
        omega
    · right
      rcases last' with ⟨none, empty⟩ | member
      · rw [length, empty]
        exact mem_cons.mpr (.inl (by omega))
      · rw [length, ← Nat.add_assoc, Nat.add_sub_cancel' (Nat.le_of_lt after)]
        exact mem_cons.mpr (.inr member)
    · simp only [scan, gap]
      refine pairwise_append.mpr
        ⟨pairwise_lt_range' 1, ascending, fun lower inGap higher later => ?_⟩
      have inside := mem_range'_1.mp inGap
      have behind := (losts higher).mp later
      omega
    · rw [length]
      simp only [scan, gap, mem_append, mem_range'_1, losts seq, mem_cons, not_or]
      have absent : seq < cur → seq ∉ rest := fun small member =>
        Nat.lt_asymm small (first seq member)
      constructor
      · rintro (inGap | ⟨above', below, missing⟩)
        · exact ⟨by omega, by omega, by omega, absent (by omega)⟩
        · exact ⟨by omega, by omega, by omega, missing⟩
      · rintro ⟨above', below, different, missing⟩
        rcases Nat.lt_or_gt_of_ne different with inGap | behind
        · exact .inl (by omega)
        · exact .inr ⟨behind, by omega, missing⟩

/-- The same for all numbers of the table, from the first one on. -/
theorem scan_keys {first : Nat} {rest : List Nat} (sorted : (first :: rest).Pairwise (· < ·))
    (words : ∀ key ∈ first :: rest, key < 4294967296) (small : first + 1 < 4294967296)
    : (∀ i, (scan first (first :: rest)).1.getD i false = decide (first + i ∈ first :: rest))
      ∧ first + (scan first (first :: rest)).1.length - 1 ∈ first :: rest
      ∧ (scan first (first :: rest)).2.Pairwise (· < ·)
      ∧ ∀ seq, seq ∈ (scan first (first :: rest)).2
        ↔ seq ∉ first :: rest ∧ first < seq ∧ ∃ key ∈ rest, seq < key := by
  obtain ⟨above, others⟩ := pairwise_cons.mp sorted
  obtain ⟨bits, highest, last, ascending, losts⟩ :=
    scan_spec others above (fun key member => words key (.tail first member))
  have none : between first first = [] := by
    rw [between, Nat.mod_eq_of_lt small, Nat.sub_eq_zero_of_le (Nat.le_succ first)]
    rfl
  simp only [scan, none, map_nil, nil_append, length_cons]
  refine ⟨fun i => ?_, ?_, ascending, fun seq => ?_⟩
  · cases i with
    | zero => simp
    | succ i =>
      rw [getD_cons_succ, bits i, show first + (i + 1) = first + 1 + i by omega]
      refine decide_eq_decide.mpr ⟨.tail first, fun member => ?_⟩
      exact (mem_cons.mp member).resolve_left (by omega)
  · rcases last with ⟨-, empty⟩ | member
    · rw [empty]
      exact .head rest
    · exact .tail first member
  · rw [losts seq, mem_cons, not_or]
    constructor
    · rintro ⟨behind, below, missing⟩
      refine ⟨⟨by omega, missing⟩, behind, _, last.resolve_left ?_, ?_⟩
      · rintro ⟨-, empty⟩
        omega
      · refine Nat.lt_of_le_of_ne below (fun same => ?_)
        exact missing (same ▸ last.resolve_left (fun none => by omega))
    · rintro ⟨⟨-, missing⟩, behind, key, member, below⟩
      exact ⟨behind, (Nat.le_of_lt below).trans (highest key member), missing⟩

/-- The word has the bits of the list in front. -/
theorem lostMask_spec {platform : Platform} (bigEndian : platform.medkit.BigEndian)
    {bits : List Bool} (fits : bits.length ≤ 64)
    : ∃ mask, lostMask platform bits = .ok mask
      ∧ ∀ i, i < 64 → maskBit mask i = bits.getD i false := by
  obtain ⟨put, wrote, holds⟩ :=
    putBits_holds bigEndian bits (new_holds 8) (by omega)
  obtain ⟨flushed, success, short, zeros, length, value⟩ :=
    flush_holds bigEndian holds (by omega)
  rw [Nat.zero_add] at length
  rw [Nat.zero_mul, Nat.zero_add] at value
  let bytes := flushed.written ++ List.replicate (8 - flushed.written.length) 0
  have result : lostMask platform bits = .ok (platform.medkit.get8 bytes) := by
    rw [lostMask, wrote]
    exact congrArg (Except.map _) success
  refine ⟨_, result, fun i inside => ?_⟩
  have eight : bytes.length = 8 := by
    rw [length_append, length_replicate]
    omega
  have total : number bytes = bitNumber bits * 2 ^ (64 - bits.length) := by
    rw [number_zeros, value, Nat.mul_assoc, show 256 = 2 ^ 8 from rfl, ← Nat.pow_mul,
      ← Nat.pow_add]
    congr 2
    omega
  rw [maskBit, bigEndian.get8_eq _ eight, total, Nat.testBit_mul_two_pow]
  by_cases short : i < bits.length
  · rw [decide_eq_true (show 64 - bits.length ≤ 63 - i by omega), Bool.true_and,
      ← testBit_bitNumber bits short]
    congr 1
    omega
  · rw [decide_eq_false (show ¬ 64 - bits.length ≤ 63 - i by omega), Bool.false_and,
      getD_eq_default _ _ (Nat.le_of_not_lt short)]

/-! Codes. -/

section Code

variable {platform : Platform} {fec : FECData} {seq : Nat}

theorem getBaseExtSeq_eq (medkit : Medkit) (fec : FECData)
    : fec.getBaseExtSeq medkit = (fec.getBaseSeqNum medkit).toNat := by
  rw [FECData.getBaseExtSeq, extSeqNum, UInt16.toNat_zero, Nat.zero_shiftLeft, Nat.zero_or]

/-- The code protects a number that its mask selects. -/
theorem isProtected_iff {medkit : Medkit}
    : fec.isProtectedAtLevel0 medkit seq = true
      ↔ seq < 2 ^ 31 ∧ fec.getBaseExtSeq medkit ≤ seq ∧ seq ≤ fec.getBaseExtSeq medkit + 48
        ∧ maskBit (fec.getLevel0Mask medkit) (seq - fec.getBaseExtSeq medkit) = true := by
  rw [FECData.isProtectedAtLevel0, getBaseExtSeq_eq]
  generalize (fec.getBaseSeqNum medkit).toNat = base
  split_ifs with outside
  · simp only [false_iff]
    omega
  · have amount : (UInt64.ofNat (64 - (seq - base) - 1)).toNat % 64 = 63 - (seq - base) := by
      rw [UInt64.toNat_ofNat']
      omega
    have bit : (fec.getLevel0Mask medkit >>> .ofNat (64 - (seq - base) - 1)) &&& 1 ≠ 0
        ↔ maskBit (fec.getLevel0Mask medkit) (seq - base) = true := by
      rw [maskBit, Nat.testBit, bne_iff_ne, ne_eq, ne_eq, ← UInt64.toNat_inj, UInt64.toNat_and,
        UInt64.toNat_shiftRight, amount, Nat.and_comm]
      rfl
    rw [decide_eq_true_iff, bit]
    exact ⟨fun set => ⟨by omega, by omega, by omega, set⟩, fun inside => inside.2.2.2⟩

/-- The loop takes out the other packets of the code. -/
theorem maskBit_neededMask
    (isProtected : fec.isProtectedAtLevel0 platform.medkit seq = true) {i : Nat}
    (inside : i < 64)
    : maskBit (neededMask platform fec seq) i
      = (maskBit (fec.getLevel0Mask platform.medkit) i
        && decide (fec.getBaseExtSeq platform.medkit + i ≠ seq)) := by
  obtain ⟨small, above, near, -⟩ := isProtected_iff.mp isProtected
  have diff : (seq + (4294967296 - fec.getBaseExtSeq platform.medkit)) % 4294967296
      = seq - fec.getBaseExtSeq platform.medkit.toMedkit := by
    omega
  rw [neededMask, diff, maskBit_clear _ (by omega) inside]
  congr 1
  exact decide_eq_decide.mpr (by omega)

/-- With a base that is not below the first packet, the test says that the other packets of
the code are there.
-/
theorem canRecover_iff {mask : QWORD} {minSeq : Nat} {keys : List Nat}
    (presence : ∀ i, i < 64 → maskBit mask i = decide (minSeq + i ∈ keys))
    (narrow : ∀ key ∈ keys, key ≤ minSeq + 63) (close : seq < minSeq + 64)
    (lowest : minSeq ≤ fec.getBaseExtSeq platform.medkit)
    : canRecover platform mask minSeq seq fec = true
      ↔ fec.isProtectedAtLevel0 platform.medkit seq = true
        ∧ ∀ i, i < 64 → maskBit (fec.getLevel0Mask platform.medkit) i = true
          → fec.getBaseExtSeq platform.medkit + i ≠ seq
          → fec.getBaseExtSeq platform.medkit + i ∈ keys := by
  simp only [canRecover, Bool.and_eq_true, decide_eq_true_iff, and_eq_left_iff]
  refine and_congr_right (fun isProtected => ?_)
  obtain ⟨small, above, -⟩ := isProtected_iff.mp isProtected
  have needed := @maskBit_neededMask platform fec seq isProtected
  have word : fec.getBaseExtSeq platform.medkit < 65536 := by
    rw [getBaseExtSeq_eq]
    exact UInt16.toNat_lt _
  generalize fec.getBaseExtSeq platform.medkit = base at *
  have count : (base + (4294967296 - minSeq)) % 4294967296 = base - minSeq := by omega
  have amount : base - minSeq < 64 := by omega
  refine forall_congr' (fun i => forall_congr' (fun inside => ?_))
  rw [count, shiftLeft, if_pos amount, needed inside, maskBit_shiftLeft _ amount inside,
    Bool.and_eq_true, Bool.and_eq_true, decide_eq_true_iff, decide_eq_true_iff, and_imp]
  refine forall_congr' (fun _ => forall_congr' (fun _ => ?_))
  constructor
  · rintro ⟨fits, set⟩
    rw [presence _ fits, decide_eq_true_iff] at set
    exact (show minSeq + (i + (base - minSeq)) = base + i by omega) ▸ set
  · intro present
    have := narrow _ present
    refine ⟨by omega, ?_⟩
    rw [presence _ (by omega), decide_eq_true_iff]
    exact (show base + i = minSeq + (i + (base - minSeq)) by omega) ▸ present

end Code

end FECDecoder

end MediaServer.Fec
