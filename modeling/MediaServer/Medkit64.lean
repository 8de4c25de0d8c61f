import MediaServer.Foundation.ByteNumbers
import MediaServer.Medkit

/-! The toolkit with its access to words of eight bytes, and its functions as numbers. -/

namespace MediaServer

open Foundation List

/-- `get8(data, i)` as a function of the bytes from `i` on, `set8(data, i, value)` as the bytes
it puts there.
-/
structure Medkit64 extends Medkit where
  get8 : List BYTE → QWORD
  set8 : QWORD → List BYTE

namespace Medkit64

instance : Coe Medkit64 Medkit := ⟨Medkit64.toMedkit⟩

structure BigEndian (medkit : Medkit64) : Prop where
  order : medkit.NetworkOrder
  number_put2 : ∀ word, number (put2 medkit word) = word.toNat
  number_put3 : ∀ word, word.toNat < 2 ^ 24 → number (put3 medkit word) = word.toNat
  number_put4 : ∀ word, number (put4 medkit word) = word.toNat
  get4_eq
    : ∀ first second third fourth, (medkit.get4 first second third fourth).toNat
      = number [first, second, third, fourth]
  get8_eq : ∀ bytes, bytes.length = 8 → (medkit.get8 bytes).toNat = number bytes
  length_set8 : ∀ word, (medkit.set8 word).length = 8
  number_set8 : ∀ word, number (medkit.set8 word) = word.toNat

/-- Functions that satisfy the laws. -/
def bigEndian : Medkit64 where
  toMedkit := Medkit.bigEndian
  get8 bytes := .ofNat (number (bytes.take 8))
  set8 word :=
    (List.range 8).map (fun i => .ofNat (word.toNat / 256 ^ (7 - i)))

theorem bigEndian_bigEndian : bigEndian.BigEndian := by
  refine ⟨Medkit.bigEndian_networkOrder, ?_, ?_, ?_, ?_, ?_, fun _ => rfl, ?_⟩
  · intro word
    have bound := word.toNat_lt
    simp only [bigEndian, put2, Medkit.bigEndian, number_cons, number_nil, UInt8.toNat_ofNat',
      length_cons, length_nil]
    omega
  · intro word small
    simp only [bigEndian, put3, Medkit.bigEndian, number_cons, number_nil, UInt8.toNat_ofNat',
      length_cons, length_nil]
    omega
  · intro word
    have bound := word.toNat_lt
    simp only [bigEndian, put4, Medkit.bigEndian, number_cons, number_nil, UInt8.toNat_ofNat',
      length_cons, length_nil]
    omega
  · intro first second third fourth
    have := first.toNat_lt
    have := second.toNat_lt
    have := third.toNat_lt
    have := fourth.toNat_lt
    simp only [bigEndian, Medkit.bigEndian, number_cons, number_nil, UInt32.toNat_ofNat',
      length_cons, length_nil]
    omega
  · intro bytes eight
    have bound := number_lt bytes
    rw [eight] at bound
    simp only [bigEndian, UInt64.toNat_ofNat', ← eight, take_length]
    exact Nat.mod_eq_of_lt (by omega)
  · intro word
    have bound := word.toNat_lt
    simp only [bigEndian, List.range, List.range.loop, map_cons, map_nil, number_cons,
      number_nil, UInt8.toNat_ofNat', length_cons, length_nil]
    omega

end Medkit64

end MediaServer
