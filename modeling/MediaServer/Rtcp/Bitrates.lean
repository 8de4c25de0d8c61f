import MediaServer.Foundation.Bits
import MediaServer.Medkit

/-! Bitrates in RTCP feedback: a mantissa of 17 bits in TMMBR and of 18 bits in REMB, each behind an
exponent of 6 bits.
-/

namespace MediaServer.Rtcp

open Foundation List

/-- The loop both encoders begin with: the first exponent whose limit the bitrate does not exceed,
and 0 if there is none.
-/
def bitrateExp (count : Nat) (limit : Nat → Nat) (bitrate : DWORD) : Nat :=
  ((List.range count).find? (fun i => bitrate.toNat ≤ limit i)).getD 0

theorem bitrateExp_spec {count last : Nat} {limit : Nat → Nat} {bitrate : DWORD}
    (inside : last < count) (reached : bitrate.toNat ≤ limit last)
    : bitrateExp count limit bitrate ≤ last
      ∧ bitrate.toNat ≤ limit (bitrateExp count limit bitrate)
      ∧ (bitrate.toNat ≤ limit 0 → bitrateExp count limit bitrate = 0) := by
  rw [bitrateExp]
  cases found : (List.range count).find? (fun i => bitrate.toNat ≤ limit i) with
  | none =>
    have never := find?_eq_none.mp found last (mem_range.mpr inside)
    exact absurd (decide_eq_true reached) never
  | some i =>
    obtain ⟨fits, -, first⟩ := find?_range_eq_some.mp found
    simp only [Bool.not_eq_true', decide_eq_false_iff_not] at first
    have least (j : Nat) (small : bitrate.toNat ≤ limit j) : i ≤ j :=
      Nat.not_lt.mp fun later => first j later small
    exact ⟨least last reached, of_decide_eq_true fits, fun small => Nat.le_zero.mp (least 0 small)⟩

/-- What an encoding has to keep of a bitrate. -/
structure Survives (width : Nat) (bitrate : DWORD) (exp : Nat) (mantissa decoded : DWORD)
    : Prop where
  fits : mantissa.toNat < 2 ^ width
  below : decoded.toNat ≤ bitrate.toNat
  near : bitrate.toNat - decoded.toNat < 2 ^ exp
  exact : bitrate.toNat < 2 ^ width → decoded = bitrate

theorem toNat_shiftLeft {exp : Nat} (small : exp < 32) {mantissa : DWORD}
    (fits : mantissa.toNat * 2 ^ exp < 2 ^ 32)
    : (mantissa <<< UInt32.ofNat exp).toNat = mantissa.toNat * 2 ^ exp := by
  rw [UInt32.toNat_shiftLeft, UInt32.toNat_ofNat', Nat.shiftLeft_eq,
    show exp % 2 ^ 32 % 32 = exp by omega, Nat.mod_eq_of_lt fits]

theorem toNat_shiftRight {exp : Nat} (small : exp < 32) (bitrate : DWORD)
    : (bitrate >>> UInt32.ofNat exp).toNat = bitrate.toNat / 2 ^ exp := by
  rw [UInt32.toNat_shiftRight, UInt32.toNat_ofNat', shiftRight_eq]
  congr 2
  omega

/-- The exponent that the loop finds leaves a mantissa of the right width, and the bitrate survives
if both are read back.
-/
theorem survives_of_limits {width count : Nat} {limit : Nat → Nat} {bitrate : DWORD}
    (limits : ∀ i < 16, limit i = (2 ^ width - 1) * 2 ^ i) (inside : 15 < count)
    (reached : bitrate.toNat ≤ limit 15)
    : let exp := bitrateExp count limit bitrate
      exp < 16 ∧ (bitrate >>> UInt32.ofNat exp).toNat = bitrate.toNat / 2 ^ exp
      ∧ bitrate.toNat / 2 ^ exp < 2 ^ width
      ∧ ∀ mantissa : DWORD, mantissa.toNat = bitrate.toNat / 2 ^ exp
        → Survives width bitrate exp (bitrate >>> UInt32.ofNat exp)
            (mantissa <<< UInt32.ofNat exp) := by
  obtain ⟨least, fits, zero⟩ := bitrateExp_spec inside reached
  generalize bitrateExp count limit bitrate = exp at *
  rw [limits exp (by omega)] at fits
  have isMantissa := toNat_shiftRight (Nat.lt_of_le_of_lt least (by decide)) bitrate
  have narrow : bitrate.toNat / 2 ^ exp < 2 ^ width := by
    have positive := Nat.two_pow_pos width
    have below : bitrate.toNat / 2 ^ exp ≤ 2 ^ width - 1 :=
      Nat.div_le_of_le_mul (by rwa [Nat.mul_comm])
    omega
  refine ⟨by omega, isMantissa, narrow, fun mantissa same => ?_⟩
  have bound := bitrate.toNat_lt
  have whole := Nat.div_add_mod' bitrate.toNat (2 ^ exp)
  have rest := Nat.mod_lt bitrate.toNat (Nat.two_pow_pos exp)
  rw [← same] at whole
  have decoded := toNat_shiftLeft (Nat.lt_of_le_of_lt least (by decide))
    (by omega : mantissa.toNat * 2 ^ exp < 2 ^ 32)
  refine ⟨isMantissa ▸ narrow, by omega, by omega, fun small => ?_⟩
  rw [limits 0 (by decide), Nat.pow_zero, Nat.mul_one] at zero
  have none := zero (by omega)
  apply UInt32.toNat_inj.mp
  rw [decoded, same, none, Nat.pow_zero, Nat.div_one, Nat.mul_one]

/-! TMMBR. -/

structure TempMaxMediaStreamBitrateField where
  ssrc : DWORD
  maxTotalBitrateExp : Nat
  maxTotalBitrateMantissa : DWORD
  overhead : WORD

namespace TempMaxMediaStreamBitrateField

/-- The limits are of type `int`. From 16 on the shift leaves the type, which is undefined in C++;
here it wraps as the shift instruction does.
-/
def limit (i : Nat) : Nat := ((0x1FFFF : DWORD) <<< UInt32.ofNat i).toNat

def new (ssrc bitrate : DWORD) (overhead : WORD) : TempMaxMediaStreamBitrateField where
  ssrc := ssrc
  maxTotalBitrateExp := bitrateExp 64 limit bitrate
  maxTotalBitrateMantissa := bitrate >>> UInt32.ofNat (bitrateExp 64 limit bitrate)
  overhead := overhead

variable (medkit : Medkit)

def serialize (field : TempMaxMediaStreamBitrateField) : List BYTE :=
  let exp := field.maxTotalBitrateExp
  let mantissa := field.maxTotalBitrateMantissa.toNat
  let overhead := field.overhead.toNat
  put4 medkit field.ssrc
    ++ [.ofNat (exp <<< 2 ||| (mantissa >>> 15 &&& 0x03)), .ofNat (mantissa >>> 7),
      .ofNat (mantissa <<< 1 ||| (overhead >>> 8 &&& 0x01)), .ofNat overhead]

def parse : List BYTE → Option TempMaxMediaStreamBitrateField
  | b0 :: b1 :: b2 :: b3 :: b4 :: b5 :: b6 :: b7 :: _ => some {
      ssrc := medkit.get4 b0 b1 b2 b3
      maxTotalBitrateExp := b4.toNat >>> 2
      maxTotalBitrateMantissa :=
        .ofNat (((b4.toNat &&& 0x03) <<< 8 ||| b5.toNat) <<< 7 ||| b6.toNat >>> 1)
      overhead := .ofNat ((b6.toNat &&& 0x01) <<< 8 ||| b7.toNat) }
  | _ => none

/-- A shift by 32 and more is undefined in C++; here it is the one of the machine. -/
def getBitrate (field : TempMaxMediaStreamBitrateField) : DWORD :=
  field.maxTotalBitrateMantissa <<< UInt32.ofNat field.maxTotalBitrateExp

/-- Exponent and mantissa are read back as far as they fit in their bits. -/
theorem parse_serialize (field : TempMaxMediaStreamBitrateField)
    (small : field.maxTotalBitrateExp < 64)
    : ∃ parsed, parse medkit (field.serialize medkit) = some parsed
      ∧ parsed.maxTotalBitrateExp = field.maxTotalBitrateExp
      ∧ parsed.maxTotalBitrateMantissa.toNat = field.maxTotalBitrateMantissa.toNat % 2 ^ 17 := by
  obtain ⟨ssrc, exp, mantissa, overhead⟩ := field
  simp only at small
  have one (n : Nat) : n &&& 0x01 = n % 2 := and_mask n 1
  have three (n : Nat) : n &&& 0x03 = n % 4 := and_mask n 2
  have first : exp <<< 2 ||| mantissa.toNat / 2 ^ 15 % 4
      = exp * 2 ^ 2 + mantissa.toNat / 2 ^ 15 % 4 := shiftLeft_or exp (by omega)
  have third : mantissa.toNat <<< 1 ||| overhead.toNat / 2 ^ 8 % 2
      = mantissa.toNat * 2 ^ 1 + overhead.toNat / 2 ^ 8 % 2 := shiftLeft_or _ (by omega)
  refine ⟨_, rfl, ?_, ?_⟩
  · simp only [UInt8.toNat_ofNat', shiftRight_eq, three, first]
    omega
  · simp only [UInt8.toNat_ofNat', UInt32.toNat_ofNat', shiftRight_eq, one, three, first, third]
    rw [shiftLeft_or _ (by omega), shiftLeft_or _ (by omega)]
    omega

theorem limit_eq {i : Nat} (small : i < 16) : limit i = (2 ^ 17 - 1) * 2 ^ i := by
  have all : ∀ i < 16, limit i = (2 ^ 17 - 1) * 2 ^ i := by decide
  exact all i small

/-- No limit of the loop is above the one of the exponent 15. -/
theorem limit_le {i : Nat} (inside : i < 64) : limit i ≤ 0xFFFF8000 := by
  have all : ∀ i < 64, limit i ≤ 0xFFFF8000 := by decide
  exact all i inside

theorem bitrateExp_lt (bitrate : DWORD) : bitrateExp 64 limit bitrate < 64 := by
  rw [bitrateExp]
  cases found : (List.range 64).find? (fun i => bitrate.toNat ≤ limit i) with
  | none => decide
  | some i => exact mem_range.mp (mem_of_find?_eq_some found)

/-- The field of a bitrate keeps it, as far as its bytes go. -/
def Keeps (ssrc bitrate : DWORD) (overhead : WORD) : Prop :=
  let field := new ssrc bitrate overhead
  ∃ parsed, parse medkit (field.serialize medkit) = some parsed
    ∧ Survives 17 bitrate field.maxTotalBitrateExp field.maxTotalBitrateMantissa parsed.getBitrate

/-- A bitrate survives unless it is above every limit of the loop. -/
theorem keeps_iff (ssrc bitrate : DWORD) (overhead : WORD)
    : Keeps medkit ssrc bitrate overhead ↔ bitrate.toNat ≤ 0xFFFF8000 := by
  refine ⟨fun ⟨_, _, survives⟩ => ?_, fun small => ?_⟩
  · -- above the limits the loop leaves the exponent 0, and the whole bitrate is the mantissa
    by_contra above
    have never : bitrateExp 64 limit bitrate = 0 := by
      rw [bitrateExp, find?_eq_none.mpr, Option.getD_none]
      intro i member
      have := limit_le (mem_range.mp member)
      simp only [decide_eq_true_eq]
      omega
    have fits := survives.fits
    simp only [new, never] at fits
    rw [toNat_shiftRight (by decide)] at fits
    omega
  · obtain ⟨parsed, read, sameExp, sameMantissa⟩ :=
      parse_serialize medkit (new ssrc bitrate overhead) (bitrateExp_lt bitrate)
    obtain ⟨-, isMantissa, narrow, survives⟩ :=
      @survives_of_limits 17 64 limit bitrate (fun _ => limit_eq) (by decide) small
    refine ⟨parsed, read, ?_⟩
    rw [getBitrate, sameExp]
    refine survives _ ?_
    rw [sameMantissa]
    exact (congrArg (· % 2 ^ 17) isMantissa).trans (Nat.mod_eq_of_lt narrow)

end TempMaxMediaStreamBitrateField

/-! REMB. -/

namespace ApplicationLayerFeeedbackField

/-- Here the limits have 64 bits. -/
def limit (i : Nat) : Nat := ((0x3FFFF : QWORD) <<< UInt64.ofNat i).toNat

def rembId : List BYTE := [82, 69, 77, 66]

def createReceiverEstimatedMaxBitrate (medkit : Medkit) (ssrcs : List DWORD) (bitrate : DWORD)
    : List BYTE :=
  let exp := bitrateExp 32 limit bitrate
  let mantissa := (bitrate >>> UInt32.ofNat exp).toNat
  let num := if ssrcs.length < 255 then ssrcs.length else 255
  rembId
    ++ [.ofNat num, .ofNat (exp <<< 2 ||| (mantissa >>> 16 &&& 0x03)), .ofNat (mantissa >>> 8),
      .ofNat mantissa]
    ++ (ssrcs.take num).flatMap (put4 medkit)

/-- `pad32` belongs to the media toolkit. -/
def serialize (pad32 : Nat → Nat) (payload : List BYTE) : List BYTE :=
  payload ++ List.replicate (pad32 payload.length - payload.length) 0

def parse (pad32 : Nat → Nat) (data : List BYTE) : Option (List BYTE) :=
  if data.length ≠ pad32 data.length then none else some data

def rembExp (payload : List BYTE) : Nat := (payload.getD 5 0).toNat >>> 2

def rembMantissa (payload : List BYTE) : Nat :=
  (((payload.getD 5 0).toNat &&& 0x03) <<< 8 ||| (payload.getD 6 0).toNat) <<< 8
    ||| (payload.getD 7 0).toNat

/-- The bitrate that `HandleRTCP` takes from a field and gives to its listener. The shift is one of
32 bits.
-/
def rembBitrate (payload : List BYTE) : Option DWORD :=
  if 8 < payload.length ∧ payload.take 4 = rembId then
    some (.ofNat (rembMantissa payload) <<< UInt32.ofNat (rembExp payload))
  else none

theorem limit_eq {i : Nat} (small : i < 32) : limit i = (2 ^ 18 - 1) * 2 ^ i := by
  have all : ∀ i < 32, limit i = (2 ^ 18 - 1) * 2 ^ i := by decide
  exact all i small

theorem rembMantissa_lt (payload : List BYTE) : rembMantissa payload < 2 ^ 18 := by
  have second := (payload.getD 6 0).toNat_lt
  have third := (payload.getD 7 0).toNat_lt
  rw [rembMantissa, show (0x03 : Nat) = 2 ^ 2 - 1 from rfl, and_mask, shiftLeft_or _ (by omega),
    shiftLeft_or _ (by omega)]
  omega

/-- Whatever a field announces, it is read as such exactly if it has 32 bits: more is neither kept
nor cut off at the highest bitrate.
-/
theorem rembBitrate_iff {payload : List BYTE} {bitrate : DWORD}
    (read : rembBitrate payload = some bitrate)
    : bitrate.toNat = min (rembMantissa payload * 2 ^ rembExp payload) (2 ^ 32 - 1)
      ↔ rembMantissa payload * 2 ^ rembExp payload < 2 ^ 32 := by
  have mantissa := rembMantissa_lt payload
  have exp : rembExp payload < 64 := by
    have := (payload.getD 5 0).toNat_lt
    rw [rembExp, shiftRight_eq]
    omega
  simp only [rembBitrate] at read
  split_ifs at read
  cases read
  have isMantissa : (UInt32.ofNat (rembMantissa payload)).toNat = rembMantissa payload := by
    rw [UInt32.toNat_ofNat']
    omega
  generalize rembMantissa payload = m at *
  generalize rembExp payload = e at *
  constructor
  · -- the highest bitrate is odd, and no wrapped one is
    intro same
    by_contra above
    rw [Nat.min_eq_right (by omega), UInt32.toNat_shiftLeft, isMantissa, UInt32.toNat_ofNat',
      Nat.shiftLeft_eq, show e % 2 ^ 32 % 32 = e % 32 by omega] at same
    rcases Nat.eq_zero_or_pos (e % 32) with none | some
    · rw [none, Nat.pow_zero, Nat.mul_one] at same
      omega
    · obtain ⟨k, shift⟩ := Nat.exists_eq_succ_of_ne_zero (Nat.ne_of_gt some)
      rw [shift, Nat.pow_succ, ← Nat.mul_assoc] at same
      omega
  · intro small
    by_cases large : e < 32
    · rw [toNat_shiftLeft large (by rwa [isMantissa]), isMantissa]
      omega
    · -- a mantissa of 0 announces nothing, and any other too much
      have scale : 2 ^ 32 ≤ 2 ^ e := Nat.pow_le_pow_right (by decide) (by omega)
      obtain rfl : m = 0 := by
        by_contra some
        have := Nat.le_mul_of_pos_left (2 ^ e) (Nat.pos_of_ne_zero some)
        omega
      rw [UInt32.toNat_shiftLeft, isMantissa, Nat.zero_shiftLeft, Nat.zero_mul]
      rfl

/-- The field of a bitrate keeps it, as far as its bytes go. -/
def Keeps (pad32 : Nat → Nat) (medkit : Medkit) (ssrcs : List DWORD) (bitrate : DWORD) : Prop :=
  ∃ payload decoded,
    parse pad32 (serialize pad32 (createReceiverEstimatedMaxBitrate medkit ssrcs bitrate))
      = some payload
    ∧ rembBitrate payload = some decoded
    ∧ Survives 18 bitrate (bitrateExp 32 limit bitrate)
        (bitrate >>> UInt32.ofNat (bitrateExp 32 limit bitrate)) decoded

theorem length_createReceiverEstimatedMaxBitrate (medkit : Medkit) (ssrcs : List DWORD)
    (bitrate : DWORD)
    : (createReceiverEstimatedMaxBitrate medkit ssrcs bitrate).length
      = 4 * (2 + min 255 ssrcs.length) := by
  simp [createReceiverEstimatedMaxBitrate, rembId, put4, length_flatMap]
  split <;> omega

theorem parse_serialize {pad32 : Nat → Nat} (words : ∀ n, pad32 (4 * n) = 4 * n) (medkit : Medkit)
    (ssrcs : List DWORD) (bitrate : DWORD)
    : parse pad32 (serialize pad32 (createReceiverEstimatedMaxBitrate medkit ssrcs bitrate))
      = some (createReceiverEstimatedMaxBitrate medkit ssrcs bitrate) := by
  have length := length_createReceiverEstimatedMaxBitrate medkit ssrcs bitrate
  rw [serialize, length, words, Nat.sub_self, replicate_zero, append_nil, parse, length, words,
    if_neg (not_not.mpr rfl)]

/-- The reader ignores a field without SSRCs, and every other one keeps its bitrate. -/
theorem keeps_iff {pad32 : Nat → Nat} (words : ∀ n, pad32 (4 * n) = 4 * n) (medkit : Medkit)
    (ssrcs : List DWORD) (bitrate : DWORD)
    : Keeps pad32 medkit ssrcs bitrate ↔ ssrcs ≠ [] := by
  obtain ⟨small, isMantissa, narrow, survives⟩ :=
    @survives_of_limits 18 32 limit bitrate (fun i small => limit_eq (by omega)) (by decide) (by
      have := bitrate.toNat_lt
      rw [limit_eq (by decide)]
      omega)
  have length := length_createReceiverEstimatedMaxBitrate medkit ssrcs bitrate
  rw [Keeps, parse_serialize words]
  generalize payloadIs : createReceiverEstimatedMaxBitrate medkit ssrcs bitrate = payload at length
  constructor
  · rintro ⟨taken, decoded, same, read, _⟩ rfl
    obtain rfl := Option.some.inj same
    rw [rembBitrate, if_neg (fun long => absurd long.1 (by simp [length]))] at read
    exact nomatch read
  · intro nonempty
    have three (n : Nat) : n &&& 0x03 = n % 4 := and_mask n 2
    have exp : rembExp payload = bitrateExp 32 limit bitrate := by
      simp only [← payloadIs, createReceiverEstimatedMaxBitrate, rembExp, rembId, cons_append,
        nil_append, getD_cons_succ, getD_cons_zero, UInt8.toNat_ofNat', three,
        shiftRight_eq]
      rw [shiftLeft_or _ (by omega)]
      omega
    have mantissa : rembMantissa payload = bitrate.toNat / 2 ^ bitrateExp 32 limit bitrate := by
      simp only [← payloadIs, createReceiverEstimatedMaxBitrate, rembMantissa, rembId,
        cons_append, nil_append, getD_cons_succ, getD_cons_zero,
        UInt8.toNat_ofNat', three, shiftRight_eq, isMantissa]
      rw [@shiftLeft_or (bitrateExp 32 limit bitrate) _ 2 (by omega), shiftLeft_or _ (by omega),
        shiftLeft_or _ (by omega)]
      omega
    have long : 8 < payload.length := by
      have := length_pos_iff.mpr nonempty
      omega
    have start : payload.take 4 = rembId := by rw [← payloadIs]; rfl
    have read : rembBitrate payload = _ := if_pos ⟨long, start⟩
    rw [exp] at read
    refine ⟨payload, _, rfl, read, survives _ ?_⟩
    rw [UInt32.toNat_ofNat', mantissa]
    omega

end ApplicationLayerFeeedbackField

open ApplicationLayerFeeedbackField (rembBitrate rembMantissa rembExp) in
/-- Bitrates in feedback: a TMMBR field keeps the bitrates up to 0xFFFF8000 and no others, a REMB
field keeps all of them unless it names no SSRC, and a received REMB field is read right exactly if
what it announces has 32 bits.
-/
theorem bitrates_survive_iff (pad32 : Nat → Nat) (words : ∀ n, pad32 (4 * n) = 4 * n)
    (medkit : Medkit) (ssrc bitrate : DWORD) (overhead : WORD)
    : (TempMaxMediaStreamBitrateField.Keeps medkit ssrc bitrate overhead
        ↔ bitrate.toNat ≤ 0xFFFF8000)
      ∧ (∀ ssrcs, ApplicationLayerFeeedbackField.Keeps pad32 medkit ssrcs bitrate ↔ ssrcs ≠ [])
      ∧ ∀ payload read, rembBitrate payload = some read
        → (read.toNat = min (rembMantissa payload * 2 ^ rembExp payload) (2 ^ 32 - 1)
          ↔ rembMantissa payload * 2 ^ rembExp payload < 2 ^ 32) :=
  ⟨TempMaxMediaStreamBitrateField.keeps_iff medkit ssrc bitrate overhead,
    fun ssrcs => ApplicationLayerFeeedbackField.keeps_iff words medkit ssrcs bitrate,
    fun _ _ read => ApplicationLayerFeeedbackField.rembBitrate_iff read⟩

theorem bitrates_survive_iff_megabit
    : TempMaxMediaStreamBitrateField.Keeps Medkit.bigEndian 7 1000000 40 :=
  (bitrates_survive_iff (fun n => (n + 3) / 4 * 4) (by omega) Medkit.bigEndian 7 1000000 40).1.mpr
    (by decide)

/-- The highest bitrate is its own mantissa in TMMBR, and a REMB field that announces 2 ^ 36 bits
a second is read as one that announces nothing.
-/
theorem bitrates_lost
    : (TempMaxMediaStreamBitrateField.new 7 0xFFFFFFFF 0).maxTotalBitrateMantissa = 0xFFFFFFFF
      ∧ ApplicationLayerFeeedbackField.rembBitrate [82, 69, 77, 66, 1, 81, 0, 0, 0, 0, 0, 7]
        = some 0
      ∧ ApplicationLayerFeeedbackField.rembMantissa [82, 69, 77, 66, 1, 81, 0, 0, 0, 0, 0, 7]
          * 2 ^ ApplicationLayerFeeedbackField.rembExp [82, 69, 77, 66, 1, 81, 0, 0, 0, 0, 0, 7]
        = 2 ^ 36 := by
  decide

end MediaServer.Rtcp
