import Mathlib.Data.Nat.Bitwise

/-! Bit fields of unsigned words as sums and remainders. -/

namespace MediaServer.Foundation

/-- A field put above the bits of another one. -/
theorem shiftLeft_or (high : Nat) {low width : Nat} (fits : low < 2 ^ width)
    : high <<< width ||| low = high * 2 ^ width + low := by
  rw [← Nat.shiftLeft_add_eq_or_of_lt fits, Nat.shiftLeft_eq]

theorem field_lt {high low above width : Nat} (fitsAbove : high < 2 ^ above)
    (fits : low < 2 ^ width)
    : high * 2 ^ width + low < 2 ^ (above + width) := by
  have whole : (high + 1) * 2 ^ width ≤ 2 ^ above * 2 ^ width :=
    Nat.mul_le_mul_right _ fitsAbove
  rw [Nat.add_mul, Nat.one_mul, ← Nat.pow_add] at whole
  omega

theorem pow_byte (count : Nat) : 256 ^ count = 2 ^ (count * 8) := by
  rw [Nat.mul_comm, Nat.pow_mul]

/-- The low bits of a word. -/
theorem and_mask (word width : Nat) : word &&& (2 ^ width - 1) = word % 2 ^ width :=
  Nat.and_two_pow_sub_one_eq_mod word width

theorem shiftRight_eq (word width : Nat) : word >>> width = word / 2 ^ width :=
  Nat.shiftRight_eq_div_pow word width

/-- One bit of a word. -/
theorem and_bit (word i : Nat) : word &&& 2 ^ i = word / 2 ^ i % 2 * 2 ^ i := by
  rw [Nat.and_two_pow, Nat.testBit_eq_decide_div_mod_eq]
  rcases Nat.mod_two_eq_zero_or_one (word / 2 ^ i) with clear | set
  · rw [clear]
    rfl
  · rw [set]
    rfl

/-- What holds for each of the 256 bytes holds for all bytes. -/
theorem forall_byte {holds : UInt8 → Prop} (all : ∀ i : Fin 256, holds (.ofNat i)) (byte : UInt8)
    : holds byte := by
  have this := all ⟨byte.toNat, byte.toNat_lt⟩
  rwa [UInt8.ofNat_toNat] at this

/-- A field put below another one, both above some free bits. -/
theorem shiftLeft_or_shiftLeft (high : Nat) {low width : Nat} (fits : low < 2 ^ width) (below : Nat)
    : high <<< (width + below) ||| low <<< below = (high * 2 ^ width + low) <<< below := by
  rw [Nat.shiftLeft_add, ← Nat.shiftLeft_or_distrib, shiftLeft_or high fits]

section Cancel

variable {α : Type} {op : α → α → α} {unit : α} (comm : ∀ left right, op left right = op right left)
  (assoc : ∀ first second third, op (op first second) third = op first (op second third))
  (unit_op : ∀ value, op unit value = value) (self : ∀ value, op value value = unit)

include comm assoc in
theorem foldl_op (first second : α) (values : List α)
    : values.foldl op (op first second) = op (values.foldl op first) second := by
  induction values generalizing first with
  | nil => rfl
  | cons value rest ih =>
    rw [List.foldl_cons, List.foldl_cons, ← ih, assoc, assoc, comm second value]

include comm assoc unit_op self

theorem foldl_foldl_cancel (start : α) (values : List α)
    : values.foldl op (values.foldl op start) = start := by
  induction values generalizing start with
  | nil => rfl
  | cons value rest ih =>
    rw [List.foldl_cons, List.foldl_cons, foldl_op comm assoc, foldl_op comm assoc,
      foldl_op comm assoc, ih, assoc, self, comm, unit_op]

/-- With an operation such as XOR, all values but one cancel what they gave to the total. -/
theorem foldl_cancel {all others : List α} {one : α} (perm : all.Perm (one :: others))
    : others.foldl op (all.foldl op unit) = one := by
  have total : all.foldl op unit = others.foldl op one := by
    rw [perm.foldl_eq' (fun first _ second _ acc => by
      rw [assoc, assoc, comm first second]) unit, List.foldl_cons, unit_op]
  rw [total, foldl_foldl_cancel comm assoc unit_op self]

end Cancel

end MediaServer.Foundation
