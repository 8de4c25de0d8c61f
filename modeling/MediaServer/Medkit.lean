import MediaServer.Rtp.Packet

/-! The byte access functions of the media toolkit. The toolkit is a library outside of this
repository: its functions are parameters, and what its users rely on is stated as laws.
-/

namespace MediaServer

/-- `get2(data, i)` as a function of the two bytes at `i`, `set2(data, i, value)` as the two
bytes it puts there, and likewise for three and four bytes.
-/
structure Medkit where
  get2 : BYTE → BYTE → WORD
  set2 : WORD → BYTE × BYTE
  get3 : BYTE → BYTE → BYTE → DWORD
  set3 : DWORD → BYTE × BYTE × BYTE
  get4 : BYTE → BYTE → BYTE → BYTE → DWORD
  set4 : DWORD → BYTE × BYTE × BYTE × BYTE

namespace Medkit

structure NetworkOrder (medkit : Medkit) : Prop where
  get2_eq : ∀ high low, (medkit.get2 high low).toNat = high.toNat * 256 + low.toNat
  get2_set2 : ∀ word, medkit.get2 (medkit.set2 word).1 (medkit.set2 word).2 = word
  get3_set3
    : ∀ word, word.toNat < 2 ^ 24
      → medkit.get3 (medkit.set3 word).1 (medkit.set3 word).2.1 (medkit.set3 word).2.2 = word
  get4_set4
    : ∀ word, medkit.get4 (medkit.set4 word).1 (medkit.set4 word).2.1 (medkit.set4 word).2.2.1
        (medkit.set4 word).2.2.2 = word

/-- Functions that satisfy the laws. -/
def bigEndian : Medkit where
  get2 high low := .ofNat (high.toNat * 256 + low.toNat)
  set2 word := (.ofNat (word.toNat / 256), .ofNat word.toNat)
  get3 high middle low := .ofNat (high.toNat * 65536 + middle.toNat * 256 + low.toNat)
  set3 word := (.ofNat (word.toNat / 65536), .ofNat (word.toNat / 256), .ofNat word.toNat)
  get4 first second third fourth :=
    .ofNat (first.toNat * 16777216 + second.toNat * 65536 + third.toNat * 256 + fourth.toNat)
  set4 word :=
    (.ofNat (word.toNat / 16777216), .ofNat (word.toNat / 65536), .ofNat (word.toNat / 256),
      .ofNat word.toNat)

theorem bigEndian_networkOrder : bigEndian.NetworkOrder := by
  refine ⟨?_, ?_, ?_, ?_⟩
  · intro high low
    have h := high.toNat_lt
    have l := low.toNat_lt
    simp only [bigEndian, UInt16.toNat_ofNat']
    omega
  · intro word
    have bound := word.toNat_lt
    apply UInt16.toNat_inj.mp
    simp only [bigEndian, UInt16.toNat_ofNat', UInt8.toNat_ofNat']
    omega
  · intro word small
    apply UInt32.toNat_inj.mp
    simp only [bigEndian, UInt32.toNat_ofNat', UInt8.toNat_ofNat']
    omega
  · intro word
    have bound := word.toNat_lt
    apply UInt32.toNat_inj.mp
    simp only [bigEndian, UInt32.toNat_ofNat', UInt8.toNat_ofNat']
    omega

theorem bigEndian_get3_lt (high middle low : BYTE)
    : (bigEndian.get3 high middle low).toNat < 2 ^ 24 := by
  have h := high.toNat_lt
  have m := middle.toNat_lt
  have l := low.toNat_lt
  simp only [bigEndian, UInt32.toNat_ofNat']
  omega

end Medkit

def put2 (medkit : Medkit) (word : WORD) : List BYTE :=
  [(medkit.set2 word).1, (medkit.set2 word).2]

def put3 (medkit : Medkit) (word : DWORD) : List BYTE :=
  [(medkit.set3 word).1, (medkit.set3 word).2.1, (medkit.set3 word).2.2]

def put4 (medkit : Medkit) (word : DWORD) : List BYTE :=
  [(medkit.set4 word).1, (medkit.set4 word).2.1, (medkit.set4 word).2.2.1,
    (medkit.set4 word).2.2.2]

end MediaServer
