import MediaServer.Fec.Masks

/-! What a recovery code holds by RFC 5109, and what `FECData` reads of it. -/

namespace MediaServer.Fec

open Foundation Rtp FECData List

/-- The protected fields of a packet. A payload is followed by zeros. -/
@[ext] structure Content where
  p : Bool
  x : Bool
  cc : BYTE
  m : Bool
  pt : BYTE
  ts : DWORD
  l : WORD
  data : Nat → BYTE

namespace Content

def zero : Content := ⟨false, false, 0, false, 0, 0, 0, fun _ => 0⟩

def xor (left right : Content) : Content where
  p := left.p ^^ right.p
  x := left.x ^^ right.x
  cc := left.cc ^^^ right.cc
  m := left.m ^^ right.m
  pt := left.pt ^^^ right.pt
  ts := left.ts ^^^ right.ts
  l := left.l ^^^ right.l
  data i := left.data i ^^^ right.data i

theorem xor_comm (left right : Content) : left.xor right = right.xor left := by
  ext <;> simp only [xor, UInt8.xor_comm, UInt16.xor_comm, UInt32.xor_comm, Bool.xor_comm]

theorem xor_assoc (first second third : Content)
    : (first.xor second).xor third = first.xor (second.xor third) := by
  ext <;> simp only [xor, UInt8.xor_assoc, UInt16.xor_assoc, UInt32.xor_assoc, Bool.xor_assoc]

theorem zero_xor (content : Content) : zero.xor content = content := by
  ext <;> simp [xor, zero]

theorem xor_self (content : Content) : content.xor content = zero := by
  ext <;> simp [xor, zero]

end Content

def RTPMediaPacket.fields (packet : RTPMediaPacket) : Content where
  p := packet.p
  x := packet.x
  cc := packet.cc
  m := packet.mark
  pt := packet.type
  ts := packet.timestamp
  l := .ofNat packet.payload.length
  data i := packet.payload.getD i 0

/-- A code at level 0: the number of its first packet, the offsets of the packets that it
protects, and how much of their payloads.
-/
structure Protection where
  base : WORD
  long : Bool
  offsets : List Nat
  length : WORD

namespace Protection

variable (protection : Protection) (medkit : Medkit) (content : Content)

def total (packets : Nat → RTPMediaPacket) : Content :=
  (protection.offsets.map (fun offset => (packets offset).fields)).foldl Content.xor .zero

def selected (first count : Nat) : Nat :=
  BitWritter.bitNumber
    ((List.range' first count).map (fun offset => decide (offset ∈ protection.offsets)))

def offset : Nat := if protection.long then 18 else 14

def flags : BYTE :=
  (if protection.long then 0x40 else 0) ||| (if content.p then 0x20 else 0)
    ||| (if content.x then 0x10 else 0) ||| (content.cc &&& 0x0F)

def header : List BYTE :=
  protection.flags content :: ((if content.m then 0x80 else 0) ||| (content.pt &&& 0x7F))
    :: put2 medkit protection.base ++ put4 medkit content.ts ++ put2 medkit content.l
    ++ put2 medkit protection.length ++ put2 medkit (.ofNat (protection.selected 0 16))
    ++ if protection.long then put4 medkit (.ofNat (protection.selected 16 32)) else []

def encode : List BYTE :=
  protection.header medkit content ++ (List.range protection.length.toNat).map content.data

variable {protection medkit content}

theorem length_header : (protection.header medkit content).length = protection.offset := by
  rw [header, offset]
  split_ifs <;> rfl

/-- The bytes of the header are read as they are written. -/
theorem byte_encode {i : Nat} (inside : i < protection.offset)
    : (FECData.new (protection.encode medkit content)).byte i
      = (protection.header medkit content).getD i 0 := by
  have small : protection.offset ≤ 18 := by
    rw [offset]
    split_ifs <;> decide
  have fits : i < mtu := Nat.lt_of_lt_of_le inside (small.trans (by decide))
  rw [byte, FECData.new, getD_eq_getElem?_getD, getElem?_take_of_lt fits, encode,
    getElem?_append_left (length_header ▸ inside), ← getD_eq_getElem?_getD]

theorem le_offset : 14 ≤ protection.offset := by
  rw [offset]
  split_ifs <;> decide

section Read

variable (order : medkit.NetworkOrder)

theorem getLongMask_encode
    : (FECData.new (protection.encode medkit content)).getLongMask = protection.long := by
  rw [getLongMask, byte_encode (Nat.lt_of_lt_of_le (by decide) le_offset)]
  have all : ∀ cc : BYTE, ∀ long p x : Bool,
      decide (((if long then 0x40 else 0) ||| (if p then 0x20 else 0)
        ||| (if x then 0x10 else 0) ||| (cc &&& 0x0F)) &&& 0x40 ≠ (0 : BYTE)) = long :=
    forall_byte (by decide +kernel)
  exact all content.cc protection.long content.p content.x

theorem mark_type (m : Bool) (pt : BYTE)
    : decide (((if m then 0x80 else 0) ||| (pt &&& 0x7F)) &&& 0x80 ≠ (0 : BYTE)) = m
      ∧ ((if m then 0x80 else 0) ||| (pt &&& 0x7F)) &&& 0x7F = pt &&& 0x7F := by
  have all : ∀ pt : BYTE, ∀ m : Bool,
      decide (((if m then 0x80 else 0) ||| (pt &&& 0x7F)) &&& 0x80 ≠ (0 : BYTE)) = m
        ∧ ((if m then 0x80 else 0) ||| (pt &&& 0x7F)) &&& 0x7F = pt &&& 0x7F :=
    forall_byte (by decide +kernel)
  exact all pt m

theorem getRecoveryM_encode
    : (FECData.new (protection.encode medkit content)).getRecoveryM = content.m := by
  rw [getRecoveryM, byte_encode (Nat.lt_of_lt_of_le (by decide) le_offset)]
  exact (mark_type content.m content.pt).1

theorem getRecoveryType_encode
    : (FECData.new (protection.encode medkit content)).getRecoveryType = content.pt &&& 0x7F := by
  rw [getRecoveryType, byte_encode (Nat.lt_of_lt_of_le (by decide) le_offset)]
  exact (mark_type content.m content.pt).2

/-- A word of the header. -/
theorem get2_encode {i : Nat} (inside : i + 1 < 14)
    : (FECData.new (protection.encode medkit content)).get2 medkit i
      = medkit.get2 ((protection.header medkit content).getD i 0)
        ((protection.header medkit content).getD (i + 1) 0) := by
  have := @le_offset protection
  rw [get2, byte_encode (by omega), byte_encode (by omega)]

include order

theorem getBaseSeqNum_encode
    : (FECData.new (protection.encode medkit content)).getBaseSeqNum medkit = protection.base := by
  rw [getBaseSeqNum, get2_encode (by decide)]
  exact order.get2_set2 protection.base

theorem getRecoveryTimestamp_encode
    : (FECData.new (protection.encode medkit content)).getRecoveryTimestamp medkit
      = content.ts := by
  have := @le_offset protection
  rw [getRecoveryTimestamp, get4, byte_encode (by omega), byte_encode (by omega),
    byte_encode (by omega), byte_encode (by omega)]
  exact order.get4_set4 content.ts

theorem getRecoveryLength_encode
    : (FECData.new (protection.encode medkit content)).getRecoveryLength medkit = content.l := by
  rw [getRecoveryLength, get2_encode (by decide)]
  exact order.get2_set2 content.l

theorem getLevel0Size_encode
    : (FECData.new (protection.encode medkit content)).getLevel0Size medkit
      = min protection.length.toNat (mtu - protection.offset) := by
  have announced : (FECData.new (protection.encode medkit content)).get2 medkit 10
      = protection.length := by
    rw [get2_encode (by decide)]
    exact order.get2_set2 protection.length
  have small : protection.offset ≤ mtu := by
    rw [offset]
    split_ifs <;> decide
  rw [getLevel0Size, announced, getLevel0Offset, getLongMask_encode, FECData.new,
    encode, length_take, length_append, length_header, length_map,
    length_range, ← offset]
  omega

end Read

/-! The mask. -/

theorem selected_lt (first count : Nat) : protection.selected first count < 2 ^ count := by
  have small := BitWritter.bitNumber_lt
    ((List.range' first count).map (fun offset => decide (offset ∈ protection.offsets)))
  rwa [length_map, length_range'] at small

theorem testBit_selected {first count i : Nat} (inside : i < count)
    : (protection.selected first count).testBit (count - 1 - i)
      = decide (first + i ∈ protection.offsets) := by
  have bit := BitWritter.testBit_bitNumber
    ((List.range' first count).map (fun offset => decide (offset ∈ protection.offsets)))
    (i := i) (by rwa [length_map, length_range'])
  rw [length_map, length_range'] at bit
  rw [selected, bit, getD_eq_getElem?_getD, getElem?_map, getElem?_range' inside, Nat.one_mul]
  rfl

/-- A field of some selected bits that lie `above` of the lowest bit of a mask. -/
theorem maskBit_selected {first count i : Nat} {word : QWORD}
    (same : word.toNat = protection.selected first count) (fits : first + count < 64)
    (some : 0 < first + count) (inside : i < 64)
    : maskBit (word <<< .ofNat (64 - (first + count))) i
      = (decide (first ≤ i ∧ i < first + count) && decide (i ∈ protection.offsets)) := by
  rw [maskBit_shiftLeft _ (by omega) inside, maskBit, same]
  have small := @selected_lt protection first count
  by_cases below : i < first
  · have high : (protection.selected first count).testBit (63 - (i + (64 - (first + count))))
        = false :=
      Nat.testBit_lt_two_pow (Nat.lt_of_lt_of_le small
        (Nat.pow_le_pow_right (by decide) (by omega)))
    rw [high, Bool.and_false, decide_eq_false (by omega), Bool.false_and]
  · by_cases under : i < first + count
    · have bit := @testBit_selected protection first count (i - first) (by omega)
      rw [decide_eq_true (by omega), decide_eq_true (show first ≤ i ∧ i < first + count by omega),
        Bool.true_and, Bool.true_and,
        show 63 - (i + (64 - (first + count))) = count - 1 - (i - first) by omega, bit,
        Nat.add_sub_cancel' (by omega)]
    · rw [decide_eq_false (by omega), decide_eq_false (by omega), Bool.false_and, Bool.false_and]

/-- The mask that is read selects the offsets. -/
theorem maskBit_getLevel0Mask (order : medkit.NetworkOrder)
    (inMask : ∀ offset ∈ protection.offsets, offset < if protection.long then 48 else 16)
    {i : Nat} (inside : i < 64)
    : maskBit ((FECData.new (protection.encode medkit content)).getLevel0Mask medkit) i
      = decide (i ∈ protection.offsets) := by
  have short : ((FECData.new (protection.encode medkit content)).get2 medkit 12).toUInt64.toNat
      = protection.selected 0 16 := by
    rw [get2_encode (by decide), UInt16.toNat_toUInt64]
    refine Eq.trans (congrArg UInt16.toNat (order.get2_set2 _)) ?_
    rw [UInt16.toNat_ofNat', Nat.mod_eq_of_lt (selected_lt 0 16)]
  have low := maskBit_selected short (by decide) (by decide) inside
  rw [getLevel0Mask, getLongMask_encode]
  cases long : protection.long with
  | false =>
    rw [long] at inMask
    simp only [Bool.false_eq_true, if_false] at inMask ⊢
    refine low.trans ?_
    by_cases member : i ∈ protection.offsets
    · have := inMask i member
      rw [decide_eq_true (show 0 ≤ i ∧ i < 0 + 16 by omega), Bool.true_and]
    · rw [decide_eq_false member, Bool.and_false]
  | true =>
    rw [long] at inMask
    simp only [if_true] at inMask ⊢
    have offset : protection.offset = 18 := if_pos long
    have tail : (((FECData.new (protection.encode medkit content)).get4 medkit 14).toUInt64).toNat
        = protection.selected 16 32 := by
      rw [get4, byte_encode (by omega), byte_encode (by omega), byte_encode (by omega),
        byte_encode (by omega), UInt32.toNat_toUInt64, header, long]
      refine Eq.trans (congrArg UInt32.toNat (order.get4_set4 _)) ?_
      rw [UInt32.toNat_ofNat', Nat.mod_eq_of_lt (selected_lt 16 32)]
    have high := maskBit_selected tail (by decide) (by decide) inside
    rw [maskBit_or]
    refine (congrArg₂ or low high).trans ?_
    by_cases member : i ∈ protection.offsets
    · have := inMask i member
      rw [decide_eq_true member, Bool.and_true, Bool.and_true, Bool.or_eq_true,
        decide_eq_true_iff, decide_eq_true_iff]
      omega
    · rw [decide_eq_false member, Bool.and_false, Bool.and_false, Bool.or_false]

/-! What is put together. -/

/-- The protected bytes that were received. -/
theorem getLevel0Data_encode {i : Nat}
    (inside : i < min protection.length.toNat (mtu - protection.offset))
    : (FECData.new (protection.encode medkit content)).getLevel0Data.getD i 0
      = content.data i := by
  have fits : protection.offset + i < mtu := by omega
  rw [getLevel0Data, getLevel0Offset, getLongMask_encode, ← offset, FECData.new,
    getD_eq_getElem?_getD, getElem?_drop, getElem?_take_of_lt fits, encode,
    getElem?_append_right (by rw [length_header]; omega), length_header,
    Nat.add_sub_cancel_left, getElem?_map, getElem?_range (by omega)]
  rfl

end Protection

open Protection

namespace FECDecoder

structure Recovered.Matches (size : Nat) (recovered : Recovered) (content : Content) : Prop where
  m : recovered.m = content.m
  pt : recovered.pt = content.pt &&& 0x7F
  ts : recovered.ts = content.ts
  l : recovered.l = content.l
  length : recovered.data.length = mtu
  data : ∀ i, i < size → recovered.data.getD i 0 = content.data i

theorem length_xorInto (bytes buffer : List BYTE)
    : (xorInto bytes buffer).length = buffer.length := by
  fun_induction xorInto with
  | case1 byte bytes old rest ih => rw [length_cons, ih, length_cons]
  | case2 => rfl

theorem getD_xorInto (bytes buffer : List BYTE) {i : Nat} (inside : i < buffer.length)
    : (xorInto bytes buffer).getD i 0 = buffer.getD i 0 ^^^ bytes.getD i 0 := by
  fun_induction xorInto generalizing i with
  | case1 byte bytes old rest ih =>
    cases i with
    | zero => rfl
    | succ i =>
      simp only [getD_cons_succ]
      exact ih (Nat.lt_of_succ_lt_succ inside)
  | case2 bytes buffer other =>
    cases bytes with
    | nil => simp
    | cons byte bytes =>
      cases buffer with
      | nil => cases inside
      | cons old rest => exact (other byte bytes old rest rfl rfl).elim

theorem xor_type (left right : BYTE) (small : right &&& 0x7F = right)
    : (left &&& 0x7F) ^^^ right = (left ^^^ right) &&& 0x7F := by
  have low : right.toNat &&& 127 = right.toNat := congrArg UInt8.toNat small
  apply UInt8.toNat_inj.mp
  rw [UInt8.toNat_xor, UInt8.toNat_and, UInt8.toNat_and, UInt8.toNat_xor,
    Nat.and_xor_distrib_right]
  exact congrArg _ low.symm

/-- Taking out a packet takes out its content. -/
theorem Recovered.Matches.remove {size : Nat} {recovered : Recovered} {content : Content}
    (isMatch : recovered.Matches size content) (small : size ≤ mtu) {media : RTPMediaPacket}
    (type : media.type &&& 0x7F = media.type)
    : (recovered.remove size media).Matches size (content.xor media.fields) := by
  obtain ⟨m, pt, ts, l, length, data⟩ := isMatch
  refine ⟨?_, ?_, ?_, ?_, ?_, fun i inside => ?_⟩
  · exact congrArg (· ^^ media.mark) m
  · rw [Recovered.remove, pt]
    exact xor_type _ _ type
  · exact congrArg (· ^^^ media.timestamp) ts
  · exact congrArg (· ^^^ UInt16.ofNat media.payload.length) l
  · rw [Recovered.remove, length_xorInto, length]
  · have bytes : (media.payload.take (min media.payload.length size)).getD i 0
        = media.payload.getD i 0 := by
      by_cases short : i < media.payload.length
      · rw [getD_eq_getElem?_getD, getElem?_take_of_lt (by omega), ← getD_eq_getElem?_getD]
      · rw [getD_eq_default _ _ (by rw [length_take]; omega), getD_eq_default _ _ (by omega)]
    rw [Recovered.remove, getD_xorInto _ _ (by omega), data i inside, bytes]
    rfl

theorem length_level0 (medkit : Medkit) (fec : FECData)
    : (fec.getLevel0Data.take (fec.getLevel0Size medkit)).length = fec.getLevel0Size medkit := by
  rw [length_take, getLevel0Data, length_drop, getLevel0Size]
  omega

/-- A code gives what it was made of. -/
theorem recovery_matches {medkit : Medkit} (order : medkit.NetworkOrder) (protection : Protection)
    (content : Content)
    : (recovery medkit (.new (protection.encode medkit content))).Matches
      (min protection.length.toNat (mtu - protection.offset)) content := by
  have size := @getLevel0Size_encode protection medkit content order
  have dataLength := length_level0 medkit (.new (protection.encode medkit content))
  rw [size] at dataLength
  refine ⟨getRecoveryM_encode, getRecoveryType_encode,
    getRecoveryTimestamp_encode order, getRecoveryLength_encode order,
    ?_, fun i inside => ?_⟩
  · rw [recovery, size, length_append, dataLength, length_replicate]
    omega
  · rw [recovery, size, getD_append _ _ _ _ (by omega), getD_eq_getElem?_getD,
      getElem?_take_of_lt inside, ← getD_eq_getElem?_getD,
      getLevel0Data_encode inside]

end FECDecoder

end MediaServer.Fec
