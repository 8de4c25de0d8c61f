import MediaServer.Foundation.Bits
import MediaServer.Medkit64

/-! `BitWritter` and `BitReader`: bits go through a cache of 32 bits, the first bit is the most
significant one. What was written, and what is left to be read, is a number of so many bits.
-/

namespace MediaServer.Fec

open Foundation List

/-- `std::runtime_error` of the bit streams. -/
inductive BitError
  | pastEnd
  deriving DecidableEq

/-! Writing. -/

structure BitWritter where
  written : List BYTE
  bufferSize : Nat
  cache : Nat
  cached : Nat

namespace BitWritter

def new (size : Nat) : BitWritter := ⟨[], size, 0, 0⟩

def cacheBytes (medkit : Medkit64) (writer : BitWritter) : List BYTE :=
  if writer.cached = 32 then put4 medkit (.ofNat writer.cache)
  else if writer.cached = 24 then put3 medkit (.ofNat writer.cache)
  else if writer.cached = 16 then put2 medkit (.ofNat writer.cache)
  else if writer.cached = 8 then [.ofNat writer.cache]
  else []

def flushCache (medkit : Medkit64) (writer : BitWritter) : Except BitError BitWritter :=
  if writer.cached = 0 then .ok writer
  else if writer.cached > writer.bufferSize * 8 then .error .pastEnd
  else
    .ok { writer with
      written := writer.written ++ writer.cacheBytes medkit
      bufferSize := writer.bufferSize - (writer.cacheBytes medkit).length
      cached := 0 }

/-- `Put(n,v)`. When the cache is full the mask for its free bits has a shift by 32; it meets
the bits of `v` above the `n` lowest ones, and there are none.
-/
def put (medkit : Medkit64) (writer : BitWritter) (n v : Nat) : Except BitError BitWritter :=
  if n + writer.cached > 32 then
    let a := 32 - writer.cached
    let b := n - a
    let cache :=
      (writer.cache <<< a) % 2 ^ 32 ||| ((v >>> b) &&& (0xFFFFFFFF >>> writer.cached))
    (flushCache medkit { writer with cache, cached := 32 }).map
      (fun flushed => { flushed with cache := v &&& (0xFFFFFFFF >>> (32 - b)), cached := b })
  else
    .ok { writer with
      cache := (writer.cache <<< n) % 2 ^ 32 ||| (v &&& (0xFFFFFFFF >>> (32 - n)))
      cached := writer.cached + n }

def align (medkit : Medkit64) (writer : BitWritter) : Except BitError BitWritter :=
  if writer.cached % 8 = 0 then .ok writer
  else if writer.cached > 24 then writer.put medkit (32 - writer.cached) 0
  else if writer.cached > 16 then writer.put medkit (24 - writer.cached) 0
  else if writer.cached > 8 then writer.put medkit (16 - writer.cached) 0
  else writer.put medkit (8 - writer.cached) 0

def flush (medkit : Medkit64) (writer : BitWritter) : Except BitError BitWritter :=
  writer.align medkit >>= flushCache medkit

structure Holds (writer : BitWritter) (size count value : Nat) : Prop where
  count : 8 * writer.written.length + writer.cached = count
  value : number writer.written * 2 ^ writer.cached + writer.cache = value
  cache : writer.cache < 2 ^ writer.cached
  cached : writer.cached ≤ 32
  space : writer.written.length + writer.bufferSize = size

theorem new_holds (size : Nat) : (new size).Holds size 0 0 :=
  ⟨rfl, rfl, Nat.zero_lt_one, Nat.zero_le _, Nat.zero_add size⟩

variable {medkit : Medkit64} {writer : BitWritter} {size count value : Nat}

/-- Ones in the lowest bits. -/
theorem ones_shiftRight {n : Nat} (small : n ≤ 32) : 0xFFFFFFFF >>> (32 - n) = 2 ^ n - 1 := by
  have all : ∀ n : Fin 33, 0xFFFFFFFF >>> (32 - n.val) = 2 ^ n.val - 1 := by decide
  exact all ⟨n, Nat.lt_succ_of_le small⟩

theorem shiftLeft_mod {cache a width : Nat} (small : cache < 2 ^ width) (fits : width + a ≤ 32)
    : (cache <<< a) % 2 ^ 32 = cache <<< a := by
  rw [Nat.shiftLeft_eq]
  refine Nat.mod_eq_of_lt (Nat.lt_of_lt_of_le ?_ (Nat.pow_le_pow_right (by decide) fits))
  rw [Nat.pow_add]
  exact Nat.mul_lt_mul_of_pos_right small (Nat.two_pow_pos a)

/-- Whole bytes spell the cache. -/
theorem cacheBytes_spec (bigEndian : medkit.BigEndian) (holds : writer.Holds size count value)
    (aligned : writer.cached % 8 = 0)
    : (writer.cacheBytes medkit).length * 8 = writer.cached
      ∧ number (writer.cacheBytes medkit) = writer.cache := by
  have small := holds.cache
  have word : (UInt32.ofNat writer.cache).toNat = writer.cache := by
    rw [UInt32.toNat_ofNat']
    exact Nat.mod_eq_of_lt
      (Nat.lt_of_lt_of_le small (Nat.pow_le_pow_right (by decide) holds.cached))
  have widths : writer.cached = 0 ∨ writer.cached = 8 ∨ writer.cached = 16 ∨ writer.cached = 24
      ∨ writer.cached = 32 := by
    have := holds.cached
    omega
  rcases widths with width | width | width | width | width
  all_goals
    rw [width] at small
    simp only [cacheBytes, width, Nat.reduceEqDiff, if_false, if_true]
    refine ⟨rfl, ?_⟩
  · exact (Nat.lt_one_iff.mp small).symm
  · rw [number_singleton, UInt8.toNat_ofNat', Nat.mod_eq_of_lt small]
  · rw [bigEndian.number_put2, UInt16.toNat_ofNat', Nat.mod_eq_of_lt small]
  · rw [bigEndian.number_put3 _ (word.symm ▸ small), word]
  · rw [bigEndian.number_put4, word]

/-- A cache of whole bytes is written. -/
theorem flushCache_holds (bigEndian : medkit.BigEndian)
    (holds : writer.Holds size count value) (aligned : writer.cached % 8 = 0)
    (room : count ≤ 8 * size)
    : ∃ next, writer.flushCache medkit = .ok next ∧ next.written.length * 8 = count
      ∧ number next.written = value ∧ next.written.length + next.bufferSize = size := by
  obtain ⟨bytes, spelled⟩ := cacheBytes_spec bigEndian holds aligned
  obtain ⟨counted, valued, cache, cached, space⟩ := holds
  unfold flushCache
  split_ifs with empty full
  · rw [empty] at counted valued cache
    exact ⟨writer, rfl, by omega, by omega, space⟩
  · omega
  · refine ⟨_, rfl, ?_, ?_, ?_⟩
    · simp only [length_append]
      omega
    · simp only [number_append, spelled]
      rw [pow_byte, bytes]
      exact valued
    · simp only [length_append]
      omega

/-- `Put` appends bits. -/
theorem put_holds (bigEndian : medkit.BigEndian) (holds : writer.Holds size count value)
    {n v : Nat} (few : n ≤ 32) (bits : v < 2 ^ n) (room : count + n ≤ 8 * size)
    : ∃ next, writer.put medkit n v = .ok next ∧ next.Holds size (count + n) (value * 2 ^ n + v)
      ∧ (n + writer.cached ≤ 32 → next.cached = writer.cached + n) := by
  obtain ⟨counted, valued, cache, cached, space⟩ := holds
  unfold put
  by_cases full : n + writer.cached > 32
  · -- the cache is filled up and written, what is left of the bits begins the next one
    rw [if_pos full]
    obtain ⟨a, sum⟩ : ∃ a, writer.cached + a = 32 := ⟨32 - writer.cached, by omega⟩
    obtain ⟨b, split⟩ : ∃ b, n = a + b := ⟨n - a, by omega⟩
    have first : 32 - writer.cached = a := by omega
    have second : n - a = b := by omega
    have high : v / 2 ^ b < 2 ^ a := by
      rw [Nat.div_lt_iff_lt_mul (Nat.two_pow_pos b), ← Nat.pow_add, ← split]
      exact bits
    have mask : 0xFFFFFFFF >>> writer.cached = 2 ^ a - 1 := by
      rw [← ones_shiftRight (show a ≤ 32 by omega)]
      congr 1
      omega
    have filled : (writer.cache <<< a) % 2 ^ 32 ||| ((v >>> b) &&& (0xFFFFFFFF >>> writer.cached))
        = writer.cache * 2 ^ a + v / 2 ^ b := by
      rw [shiftLeft_mod cache (by omega), mask, and_mask, shiftRight_eq, Nat.mod_eq_of_lt high,
        shiftLeft_or _ high]
    have top : writer.cache * 2 ^ a + v / 2 ^ b < 2 ^ 32 := sum ▸ field_lt cache high
    simp only [first, second, filled]
    have before : Holds { writer with cache := writer.cache * 2 ^ a + v / 2 ^ b, cached := 32 } size
        (8 * writer.written.length + 32)
        (number writer.written * 2 ^ 32 + (writer.cache * 2 ^ a + v / 2 ^ b)) :=
      ⟨rfl, rfl, top, Nat.le_refl _, space⟩
    obtain ⟨flushed, success, length, spelled, left⟩ :=
      flushCache_holds bigEndian before (show 32 % 8 = 0 from rfl) (by omega)
    rw [success]
    have low : v &&& (0xFFFFFFFF >>> (32 - b)) = v % 2 ^ b := by
      rw [ones_shiftRight (by omega), and_mask]
    refine ⟨_, rfl, ⟨?_, ?_, ?_, ?_, left⟩, fun fits => absurd full (Nat.not_lt.mpr fits)⟩
    · simp only
      omega
    · simp only [spelled, low]
      have parts : v / 2 ^ b * 2 ^ b + v % 2 ^ b = v := Nat.div_add_mod' v (2 ^ b)
      have powers : (2 : Nat) ^ 32 * 2 ^ b = 2 ^ writer.cached * 2 ^ n := by
        rw [← Nat.pow_add, ← Nat.pow_add]
        congr 1
        omega
      have bitsOf : (2 : Nat) ^ a * 2 ^ b = 2 ^ n := by rw [← Nat.pow_add, ← split]
      calc (number writer.written * 2 ^ 32 + (writer.cache * 2 ^ a + v / 2 ^ b)) * 2 ^ b
            + v % 2 ^ b
          = number writer.written * (2 ^ 32 * 2 ^ b) + writer.cache * (2 ^ a * 2 ^ b)
            + (v / 2 ^ b * 2 ^ b + v % 2 ^ b) := by ring
        _ = (number writer.written * 2 ^ writer.cached + writer.cache) * 2 ^ n + v := by
            rw [parts, powers, bitsOf]
            ring
        _ = value * 2 ^ n + v := by rw [valued]
    · simp only [low]
      exact Nat.mod_lt _ (Nat.two_pow_pos b)
    · simp only
      omega
  · rw [if_neg full]
    have mask : v &&& (0xFFFFFFFF >>> (32 - n)) = v := by
      rw [ones_shiftRight few, and_mask, Nat.mod_eq_of_lt bits]
    have filled : (writer.cache <<< n) % 2 ^ 32 ||| v = writer.cache * 2 ^ n + v := by
      rw [shiftLeft_mod cache (by omega), shiftLeft_or _ bits]
    simp only [mask, filled]
    refine ⟨_, rfl, ⟨?_, ?_, ?_, ?_, space⟩, fun _ => rfl⟩
    · simp only
      omega
    · simp only [← valued, Nat.pow_add]
      ring
    · exact field_lt cache bits
    · simp only
      omega

theorem align_eq (medkit : Medkit64) (width : writer.cached ≤ 32) (partly : writer.cached % 8 ≠ 0)
    : writer.align medkit = writer.put medkit (8 - writer.cached % 8) 0 := by
  unfold align
  split_ifs
  all_goals
    congr 1
    omega

/-- Zero bits up to the next byte, and the bytes of the cache. -/
theorem flush_holds (bigEndian : medkit.BigEndian) (holds : writer.Holds size count value)
    (room : count ≤ 8 * size)
    : ∃ next, writer.flush medkit = .ok next ∧ next.written.length ≤ size
      ∧ ∃ zeros, next.written.length * 8 = count + zeros
        ∧ number next.written = value * 2 ^ zeros := by
  have counted := holds.count
  have space := holds.space
  have width := holds.cached
  by_cases aligned : writer.cached % 8 = 0
  · have same : writer.align medkit = .ok writer := if_pos aligned
    obtain ⟨next, flushed, length, spelled, left⟩ :=
      flushCache_holds bigEndian holds aligned room
    refine ⟨next, ?_, by omega, 0, length, by rw [spelled, Nat.pow_zero, Nat.mul_one]⟩
    rw [flush, same]
    exact flushed
  · obtain ⟨filled, success, filledHolds, cached⟩ := put_holds bigEndian holds
      (show 8 - writer.cached % 8 ≤ 32 by omega) (Nat.two_pow_pos _) (by omega)
    obtain ⟨next, flushed, length, spelled, left⟩ :=
      flushCache_holds bigEndian filledHolds (by rw [cached (by omega)]; omega) (by omega)
    refine ⟨next, ?_, by omega, _, length, by rw [spelled, Nat.add_zero]⟩
    rw [flush, align_eq medkit width aligned, success]
    exact flushed

def putBits (medkit : Medkit64) (writer : BitWritter) (bits : List Bool)
    : Except BitError BitWritter :=
  bits.foldlM (fun writer bit => writer.put medkit 1 bit.toNat) writer

def bitNumber : List Bool → Nat
  | [] => 0
  | bit :: rest => bit.toNat * 2 ^ rest.length + bitNumber rest

theorem bitNumber_lt (bits : List Bool) : bitNumber bits < 2 ^ bits.length := by
  induction bits with
  | nil => exact Nat.zero_lt_one
  | cons bit rest ih =>
    have single : bit.toNat < 2 ^ 1 := Nat.lt_succ_of_le (Bool.toNat_le bit)
    rw [bitNumber, length_cons, Nat.add_comm rest.length]
    exact field_lt single ih

/-- The bits of the number, from the highest one on. -/
theorem testBit_bitNumber (bits : List Bool) {i : Nat} (inside : i < bits.length)
    : (bitNumber bits).testBit (bits.length - 1 - i) = bits.getD i false := by
  induction bits generalizing i with
  | nil => cases inside
  | cons bit rest ih =>
    have small := bitNumber_lt rest
    rw [bitNumber, Nat.mul_comm, Nat.testBit_two_pow_mul_add _ small]
    cases i with
    | zero =>
      rw [if_neg (by simp)]
      simp only [length_cons, Nat.add_sub_cancel, Nat.sub_zero, Nat.sub_self, getD_cons_zero]
      cases bit <;> rfl
    | succ i =>
      rw [length_cons] at inside
      rw [if_pos (by simp only [length_cons]; omega), getD_cons_succ,
        ← ih (Nat.lt_of_succ_lt_succ inside)]
      congr 1
      simp only [length_cons]
      omega

/-- Putting bits, by induction on them. -/
theorem putBits_holds (bigEndian : medkit.BigEndian) (bits : List Bool)
    (holds : writer.Holds size count value) (room : count + bits.length ≤ 8 * size)
    : ∃ next, writer.putBits medkit bits = .ok next
      ∧ next.Holds size (count + bits.length) (value * 2 ^ bits.length + bitNumber bits) := by
  induction bits generalizing writer count value with
  | nil => exact ⟨writer, rfl, by simpa [bitNumber] using holds⟩
  | cons bit rest ih =>
    rw [length_cons] at room
    have single : bit.toNat < 2 ^ 1 := Nat.lt_succ_of_le (Bool.toNat_le bit)
    obtain ⟨first, success, firstHolds, -⟩ :=
      put_holds bigEndian holds (by decide) single (by omega)
    obtain ⟨next, rest', nextHolds⟩ := ih firstHolds (by omega)
    refine ⟨next, ?_, ?_⟩
    · rw [putBits, foldlM_cons, success]
      exact rest'
    · have total : (value * 2 ^ 1 + bit.toNat) * 2 ^ rest.length + bitNumber rest
          = value * 2 ^ (rest.length + 1) + (bit.toNat * 2 ^ rest.length + bitNumber rest) := by
        rw [Nat.pow_succ]
        ring
      rw [total, Nat.add_assoc, Nat.add_comm 1] at nextHolds
      exact nextHolds

end BitWritter

/-! Reading. -/

structure BitReader where
  buffer : List BYTE
  bufferPos : Nat
  cache : Nat
  cached : Nat

namespace BitReader

def new (data : List BYTE) : BitReader := ⟨data, 0, 0, 0⟩

def left (reader : BitReader) : Nat := reader.cached + reader.buffer.length * 8

def getPos (reader : BitReader) : Nat := reader.bufferPos * 8 - reader.cached

/-- `Cache`: up to four bytes. -/
def fill (medkit : Medkit64) (reader : BitReader) : Except BitError BitReader :=
  match reader.buffer with
  | b0 :: b1 :: b2 :: b3 :: rest =>
    .ok ⟨rest, reader.bufferPos + 4, (medkit.get4 b0 b1 b2 b3).toNat, 32⟩
  | [b0, b1, b2] =>
    .ok ⟨[], reader.bufferPos + 3, (medkit.get3 b0 b1 b2).toNat <<< 8 % 2 ^ 32, 24⟩
  | [b0, b1] => .ok ⟨[], reader.bufferPos + 2, (medkit.get2 b0 b1).toNat <<< 16, 16⟩
  | [b0] => .ok ⟨[], reader.bufferPos + 1, b0.toNat <<< 24, 8⟩
  | [] => .error .pastEnd

def getCached (reader : BitReader) (n : Nat) : Nat × BitReader :=
  if n = 0 then (0, reader)
  else
    (reader.cache >>> (32 - n),
      { reader with cache := (reader.cache <<< n) % 2 ^ 32, cached := reader.cached - n })

def get (medkit : Medkit64) (reader : BitReader) (n : Nat) : Except BitError (Nat × BitReader) :=
  if n > reader.cached then
    let a := n - reader.cached
    let ret := reader.cache >>> (32 - n)
    (reader.fill medkit).map (fun filled =>
      let (rest, next) := filled.getCached a
      (ret ||| rest, next))
  else .ok (reader.getCached n)

/-- `while(r.Left())` with a body that is run at the position of each set bit. A turn takes one
bit, so that `fuel` is what is left.
-/
def forEachSet {σ : Type} (medkit : Medkit64) (body : Nat → σ → σ)
    : Nat → BitReader → σ → Except BitError σ
  | 0, _, state => .ok state
  | fuel + 1, reader, state =>
    if reader.left = 0 then .ok state
    else
      (reader.get medkit 1) >>= fun (bit, next) =>
        forEachSet medkit body fuel next
          (if bit ≠ 0 then body (next.getPos - 1) state else state)

/-- Whole words are behind the cache, and `left` bits from `pos` on are the number `value`. -/
structure Leaves (reader : BitReader) (pos left value : Nat) : Prop where
  words : reader.buffer.length % 4 = 0
  left : reader.left = left
  pos : pos + reader.cached = reader.bufferPos * 8
  cached : reader.cached ≤ 32
  value
    : ∃ top, top < 2 ^ reader.cached ∧ reader.cache = top * 2 ^ (32 - reader.cached)
      ∧ value = top * 256 ^ reader.buffer.length + number reader.buffer

variable {medkit : Medkit64} {reader : BitReader} {pos left value : Nat}

theorem new_leaves {data : List BYTE} (words : data.length % 4 = 0)
    : (new data).Leaves 0 (data.length * 8) (number data) := by
  refine ⟨words, Nat.zero_add _, rfl, Nat.zero_le _, 0, Nat.zero_lt_one,
    (Nat.zero_mul _).symm, ?_⟩
  rw [Nat.zero_mul, Nat.zero_add]
  rfl

theorem fill_leaves (bigEndian : medkit.BigEndian) (leaves : reader.Leaves pos left value)
    (empty : reader.cached = 0) (some : 0 < left)
    : ∃ filled, reader.fill medkit = .ok filled ∧ filled.cached = 32
      ∧ filled.Leaves pos left value := by
  obtain ⟨words, leftover, position, -, top, small, cache, valued⟩ := leaves
  rw [BitReader.left, empty] at leftover
  rcases shape : reader.buffer with _ | ⟨b0, _ | ⟨b1, _ | ⟨b2, _ | ⟨b3, rest⟩⟩⟩⟩
  · rw [shape] at leftover
    simp only [length_nil] at leftover
    omega
  · rw [shape] at words
    cases words
  · rw [shape] at words
    cases words
  · rw [shape] at words
    cases words
  · rw [shape] at words leftover valued
    rw [empty, Nat.pow_zero, Nat.lt_one_iff] at small
    have bound : number [b0, b1, b2, b3] < 2 ^ 32 := by
      have := number_lt [b0, b1, b2, b3]
      simp only [length_cons, length_nil] at this
      omega
    refine ⟨_, by rw [fill, shape], rfl, ?_, ?_, ?_, Nat.le_refl _,
      number [b0, b1, b2, b3], bound, ?_, ?_⟩
    · simp only [length_cons] at words ⊢
      omega
    · simp only [BitReader.left, length_cons] at leftover ⊢
      omega
    · simp only
      omega
    · simp only [bigEndian.get4_eq, Nat.sub_self, Nat.pow_zero, Nat.mul_one]
    · rw [valued, small, Nat.zero_mul, Nat.zero_add]
      exact number_append [b0, b1, b2, b3] rest

/-- The top bit of a cache that is not empty. -/
theorem getCached_one (leaves : reader.Leaves pos left value) (some : 0 < reader.cached)
    : (reader.getCached 1).1 = value / 2 ^ (left - 1)
      ∧ (reader.getCached 1).2.Leaves (pos + 1) (left - 1) (value % 2 ^ (left - 1)) := by
  obtain ⟨words, leftover, position, cached, top, small, cache, valued⟩ := leaves
  obtain ⟨c, width⟩ : ∃ c, reader.cached = c + 1 := ⟨reader.cached - 1, by omega⟩
  have result : reader.getCached 1
      = (reader.cache >>> 31,
        { reader with cache := (reader.cache <<< 1) % 2 ^ 32, cached := reader.cached - 1 }) :=
    if_neg (by decide)
  have powers : (2 : Nat) ^ 31 = 2 ^ (31 - c) * 2 ^ c := by
    rw [← Nat.pow_add]
    congr 1
    omega
  have below : number reader.buffer < 256 ^ reader.buffer.length := number_lt _
  rw [BitReader.left] at leftover
  have scale : (2 : Nat) ^ (left - 1) = 256 ^ reader.buffer.length * 2 ^ c := by
    rw [pow_byte, ← Nat.pow_add]
    congr 1
    omega
  have whole : value / 256 ^ reader.buffer.length = top := by
    rw [valued, Nat.mul_comm, Nat.mul_add_div (Nat.pos_of_neZero _), Nat.div_eq_of_lt below,
      Nat.add_zero]
  have divided : value / 2 ^ (left - 1) = top / 2 ^ c := by
    rw [scale, ← Nat.div_div_eq_div_mul, whole]
  have remainder : value % 2 ^ (left - 1)
      = top % 2 ^ c * 256 ^ reader.buffer.length + number reader.buffer := by
    rw [scale, Nat.mod_mul, whole, valued, Nat.mul_comm top, Nat.mul_add_mod,
      Nat.mod_eq_of_lt below, Nat.add_comm, Nat.mul_comm]
  rw [result]
  refine ⟨?_, words, ?_, ?_, ?_, top % 2 ^ c, ?_, ?_, remainder⟩
  · rw [divided, shiftRight_eq, cache, width, powers, show 32 - (c + 1) = 31 - c by omega,
      Nat.mul_comm top]
    exact Nat.mul_div_mul_left _ _ (Nat.two_pow_pos _)
  · simp only [BitReader.left]
    omega
  · simp only
    omega
  · simp only
    omega
  · simp only [width, Nat.add_sub_cancel]
    exact Nat.mod_lt _ (Nat.two_pow_pos c)
  · simp only [cache, width, Nat.add_sub_cancel, Nat.shiftLeft_eq]
    have whole : (2 : Nat) ^ 32 = 2 ^ c * 2 ^ (32 - c) := by
      rw [← Nat.pow_add]
      congr 1
      omega
    have moved : top * 2 ^ (32 - (c + 1)) * 2 ^ 1 = top * 2 ^ (32 - c) := by
      rw [Nat.mul_assoc, ← Nat.pow_add]
      congr 2
      omega
    rw [moved, whole, Nat.mul_mod_mul_right]

theorem get_one (bigEndian : medkit.BigEndian) (leaves : reader.Leaves pos left value)
    (some : 0 < left)
    : ∃ next, reader.get medkit 1 = .ok (value / 2 ^ (left - 1), next)
      ∧ next.Leaves (pos + 1) (left - 1) (value % 2 ^ (left - 1)) := by
  unfold get
  by_cases empty : reader.cached = 0
  · obtain ⟨filled, success, full, filledLeaves⟩ := fill_leaves bigEndian leaves empty some
    obtain ⟨bit, next⟩ := getCached_one filledLeaves (by omega)
    have zero : reader.cache >>> 31 = 0 := by
      obtain ⟨top, small, cache, -⟩ := leaves.value
      rw [empty, Nat.pow_zero, Nat.lt_one_iff] at small
      rw [cache, small, Nat.zero_mul]
      rfl
    rw [if_pos (by omega), success]
    refine ⟨_, ?_, next⟩
    simp only [Except.map, zero, empty, Nat.zero_or, Nat.sub_zero, bit]
  · rw [if_neg (by omega)]
    obtain ⟨bit, next⟩ := getCached_one leaves (by omega)
    exact ⟨_, by rw [← bit], next⟩

theorem Leaves.lt (leaves : reader.Leaves pos left value) : value < 2 ^ left := by
  obtain ⟨-, leftover, -, -, top, small, -, valued⟩ := leaves
  have below := number_lt reader.buffer
  rw [pow_byte] at below valued
  rw [valued, ← leftover]
  exact field_lt small below

/-- The top bit of a number. -/
theorem div_ne_zero_iff {value n : Nat} (small : value < 2 ^ (n + 1))
    : value / 2 ^ n ≠ 0 ↔ value.testBit n = true := by
  have high : value / 2 ^ n < 2 := by
    rw [Nat.div_lt_iff_lt_mul (Nat.two_pow_pos n), Nat.mul_comm, ← Nat.pow_succ]
    exact small
  rw [Nat.testBit_eq_decide_div_mod_eq, decide_eq_true_iff]
  generalize value / 2 ^ n = bit at high ⊢
  omega

/-- The body is run at the set bits, from the highest one on. The induction is on the bits
that are left.
-/
theorem forEachSet_eq {σ : Type} (bigEndian : medkit.BigEndian) (body : Nat → σ → σ)
    (leaves : reader.Leaves pos left value) (state : σ)
    : forEachSet medkit body left reader state
      = .ok ((List.range left).foldl
        (fun state i => if value.testBit (left - 1 - i) then body (pos + i) state else state)
        state) := by
  induction left generalizing reader pos value state with
  | zero => rfl
  | succ left ih =>
    have small := leaves.lt
    obtain ⟨next, success, nextLeaves⟩ := get_one bigEndian leaves (Nat.succ_pos _)
    rw [Nat.add_sub_cancel] at success nextLeaves
    have position : next.getPos - 1 = pos := by
      have := nextLeaves.pos
      rw [getPos]
      omega
    have nonempty : reader.left ≠ 0 := by
      rw [leaves.left]
      exact Nat.succ_ne_zero _
    rw [forEachSet, if_neg nonempty, success]
    refine (ih nextLeaves _).trans ?_
    rw [range_succ_eq_map, foldl_cons, foldl_map, position]
    have first : (if value / 2 ^ left ≠ 0 then body pos state else state)
        = if value.testBit (left + 1 - 1 - 0) then body (pos + 0) state else state := by
      rw [Nat.add_sub_cancel, Nat.sub_zero, Nat.add_zero]
      by_cases set : value.testBit left = true
      · rw [if_pos set, if_pos ((div_ne_zero_iff small).mpr set)]
      · rw [if_neg set, if_neg (fun high => set ((div_ne_zero_iff small).mp high))]
    rw [first]
    congr 1
    refine foldl_ext _ _ _ (fun state i member => ?_)
    have inside := mem_range.mp member
    have bit : (value % 2 ^ left).testBit (left - 1 - i)
        = value.testBit (left + 1 - 1 - (i + 1)) := by
      rw [Nat.testBit_mod_two_pow, decide_eq_true (by omega), Bool.true_and]
      congr 1
      omega
    rw [bit, Nat.add_assoc, Nat.add_comm 1 i]

end BitReader

end MediaServer.Fec
