import Mathlib.Data.Nat.Digits.Defs

/-! Strings of bytes as numbers, the first byte being the most significant one. -/

namespace MediaServer.Foundation

open List

def number (bytes : List UInt8) : Nat := Nat.ofDigits 256 (bytes.reverse.map UInt8.toNat)

@[simp] theorem number_nil : number [] = 0 := rfl

theorem number_append (first second : List UInt8)
    : number (first ++ second) = number first * 256 ^ second.length + number second := by
  simp only [number, reverse_append, map_append, Nat.ofDigits_append, length_map, length_reverse]
  rw [Nat.add_comm, Nat.mul_comm]

@[simp] theorem number_singleton (byte : UInt8) : number [byte] = byte.toNat := by
  simp [number]

theorem number_cons (byte : UInt8) (bytes : List UInt8)
    : number (byte :: bytes) = byte.toNat * 256 ^ bytes.length + number bytes := by
  rw [← singleton_append, number_append, number_singleton]

theorem number_lt (bytes : List UInt8) : number bytes < 256 ^ bytes.length := by
  have small := @Nat.ofDigits_lt_base_pow_length 256 (bytes.reverse.map UInt8.toNat) (by decide)
    (by
      intro digit member
      obtain ⟨byte, -, rfl⟩ := mem_map.mp member
      exact byte.toNat_lt)
  simpa only [number, length_map, length_reverse] using small

/-- Zero bytes behind a number. -/
theorem number_zeros (bytes : List UInt8) (count : Nat)
    : number (bytes ++ List.replicate count 0) = number bytes * 256 ^ count := by
  have zeros : number (List.replicate count 0) = 0 := by
    induction count with
    | zero => rfl
    | succ count ih =>
      rw [replicate_succ, number_cons, ih]
      simp
  rw [number_append, zeros, length_replicate, Nat.add_zero]

end MediaServer.Foundation
