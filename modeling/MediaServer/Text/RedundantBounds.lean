import MediaServer.Foundation.Runs
import MediaServer.Text.RedundantPacket

/-! What a packet with redundant blocks exposes lies within its payload, as long as the header
chain is not cut off and no headers of an earlier payload are left.
-/

namespace MediaServer.Text

open Foundation List

namespace RTPRedundantPacket

/-- A header chain: headers of four bytes with their flag set, then the primary header. Blocks
begin behind `skip` bytes, `total` bytes of them are announced, and `data` follow the chain.
-/
inductive Chain : Nat → List BYTE → List RedHeader → Nat → List BYTE → Prop
  | primary {skip : Nat} {b0 : BYTE} {data : List BYTE} (last : b0.toNat >>> 7 = 0)
    : Chain skip (b0 :: data) [] skip data
  | block {skip total : Nat} {b0 b1 b2 b3 : BYTE} {rest data : List BYTE}
      {headers : List RedHeader} (flag : b0.toNat >>> 7 ≠ 0)
      (chain : Chain (skip + (readHeader b0 b1 b2 b3 skip).size) rest headers total data)
    : Chain skip (b0 :: b1 :: b2 :: b3 :: rest) (readHeader b0 b1 b2 b3 skip :: headers) total
        data

/-- Blocks that follow one another from `start` to `stop`. -/
def Contiguous : Nat → List RedHeader → Nat → Prop
  | start, [], stop => start = stop
  | start, header :: rest, stop =>
    header.ini = start ∧ Contiguous (start + header.size) rest stop

variable {skip total : Nat} {payload data : List BYTE} {headers : List RedHeader}

section

variable (chain : Chain skip payload headers total data)
include chain

theorem Chain.contiguous : Contiguous skip headers total := by
  induction chain with
  | primary last => exact rfl
  | block flag chain ih => exact ⟨rfl, ih⟩

theorem Chain.behind : data = payload.drop (4 * headers.length + 1) := by
  induction chain with
  | primary last => rfl
  | @block skip total b0 b1 b2 b3 rest data headers flag chain ih =>
    rw [ih]
    rfl

theorem Chain.ne_nil : payload ≠ [] := by
  cases chain with
  | primary last | block flag chain => exact cons_ne_nil _ _

/-- A payload has one header chain at most. -/
theorem Chain.unique {others : List RedHeader} {total' : Nat} {data' : List BYTE}
    (other : Chain skip payload others total' data')
    : headers = others ∧ total = total' := by
  induction chain generalizing others total' data' with
  | primary last =>
    cases other with
    | primary _ => exact ⟨rfl, rfl⟩
    | block flag _ => exact absurd last flag
  | block flag chain ih =>
    cases other with
    | primary last => exact absurd last flag
    | block _ rest =>
      obtain ⟨rfl, rfl⟩ := ih rest
      exact ⟨rfl, rfl⟩

end

section Loop

variable {b0 : BYTE} {tail : List BYTE} (headers : List RedHeader)

theorem readHeaders_last (skip : Nat) (last : b0.toNat >>> 7 = 0)
    : readHeaders headers skip (b0 :: tail) = (headers, some (skip, b0 :: tail)) := by
  unfold readHeaders
  rw [if_pos last]

theorem readHeaders_block (skip : Nat) (flag : ¬ b0.toNat >>> 7 = 0) (b1 b2 b3 next : BYTE)
    (rest : List BYTE)
    : readHeaders headers skip (b0 :: b1 :: b2 :: b3 :: next :: rest)
      = readHeaders (headers ++ [readHeader b0 b1 b2 b3 skip])
        (skip + (readHeader b0 b1 b2 b3 skip).size) (next :: rest) := by
  rw [readHeaders, if_neg flag]

theorem readHeaders_short (skip : Nat) (flag : ¬ b0.toNat >>> 7 = 0)
    (short : ∀ b1 b2 b3 next rest, tail = b1 :: b2 :: b3 :: next :: rest → False)
    : readHeaders headers skip (b0 :: tail) = (headers, none) := by
  rw [readHeaders, if_neg flag]
  exact short

end Loop

/-- Headers that are there already stay in front. -/
theorem readHeaders_append (first headers : List RedHeader) (skip : Nat) (payload : List BYTE)
    : readHeaders (first ++ headers) skip payload
      = (first ++ (readHeaders headers skip payload).1, (readHeaders headers skip payload).2) := by
  induction headers, skip, payload using readHeaders.induct with
  | case1 headers skip => rfl
  | case2 headers skip b0 tail last => rw [readHeaders_last _ _ last, readHeaders_last _ _ last]
  | case3 headers skip b0 flag b1 b2 b3 next rest header ih =>
    rw [readHeaders_block _ _ flag, readHeaders_block _ _ flag, append_assoc]
    exact ih
  | case4 headers skip b0 tail flag short =>
    rw [readHeaders_short _ _ flag short, readHeaders_short _ _ flag short]

/-- The header loop follows the chain of a payload, or ends with what it has read when the
payload has none.
-/
theorem readHeaders_cases (headers : List RedHeader) (skip : Nat) (payload : List BYTE)
    : (∃ parsed total b0 data, Chain skip payload parsed total data
        ∧ readHeaders headers skip payload = (headers ++ parsed, some (total, b0 :: data)))
      ∨ (∃ parsed, (∀ others total data, ¬ Chain skip payload others total data)
        ∧ readHeaders headers skip payload = (headers ++ parsed, none)) := by
  induction headers, skip, payload using readHeaders.induct with
  | case1 headers skip =>
    refine .inr ⟨[], fun others total data chain => chain.ne_nil rfl, ?_⟩
    simp only [readHeaders, append_nil]
  | case2 headers skip b0 tail last =>
    refine .inl ⟨[], skip, b0, tail, .primary last, ?_⟩
    rw [readHeaders_last _ _ last, append_nil]
  | case3 headers skip b0 flag b1 b2 b3 next rest header ih =>
    rw [readHeaders_block _ _ flag]
    rcases ih with ⟨parsed, total, first, data, chain, loop⟩ | ⟨parsed, none, loop⟩
    · refine .inl ⟨header :: parsed, total, first, data, .block flag chain, ?_⟩
      exact loop.trans (by rw [append_assoc]; rfl)
    · refine .inr ⟨header :: parsed, fun others total data chain => ?_, ?_⟩
      · cases chain with
        | primary last => exact flag last
        | block _ chain => exact none _ _ _ chain
      · exact loop.trans (by rw [append_assoc]; rfl)
  | case4 headers skip b0 tail flag short =>
    refine .inr ⟨[], fun others total data chain => ?_, ?_⟩
    · cases chain with
      | primary last => exact flag last
      | @block _ _ _ b1 b2 b3 rest _ _ _ chain =>
        obtain ⟨next, rest', shape⟩ := exists_cons_of_ne_nil chain.ne_nil
        subst shape
        exact short b1 b2 b3 next rest' rfl
    · rw [readHeaders_short _ _ flag short, append_nil]

/-- The exposed blocks are those of the payload: each in its place, and the primary one behind
them up to the end.
-/
structure Layout (packet : RTPRedundantPacket) (total : Nat) : Prop where
  chain : Chain 0 packet.payload packet.headers total packet.redundantData
  contiguous : Contiguous 0 packet.headers total
  behind : packet.redundantData = packet.payload.drop (4 * packet.headers.length + 1)
  fits : total ≤ packet.redundantData.length
  primary : packet.primaryData = packet.redundantData.drop total

/-- Nothing is exposed, or the blocks of the payload are. -/
def Exposed (packet : RTPRedundantPacket) : Prop :=
  (packet.headers = [] ∧ packet.primaryData = []) ∨ ∃ total, packet.Layout total

/-- The packet takes a payload: `SetPayload` behind its check of the size, and the receiving
constructor with the bytes behind the RTP header.
-/
def accept (packet : RTPRedundantPacket) (data : List BYTE) : RTPRedundantPacket :=
  decodeRedundantPayload { packet with payload := data, primaryType := 0, primaryData := [] } data

/-- `SetPayload` of a packet that has space for `limit` bytes behind its header. -/
def setPayloadWithin (limit : Nat) (packet : RTPRedundantPacket) (data : List BYTE)
    : RTPRedundantPacket :=
  if data.length > limit then packet else packet.accept data

/-- A payload with a whole header chain finds no headers of an earlier one, unless it announces
more than it has. A payload without one finds no headers either, and ends inside its first.
-/
def Permits (packet : RTPRedundantPacket) (data : List BYTE) : Prop :=
  match readHeaders [] 0 data with
  | (_, some (skip, _ :: rest)) => packet.headers = [] ∨ rest.length < skip
  | (headers, _) => packet.headers = [] ∧ headers = []

instance (packet : RTPRedundantPacket) (data : List BYTE) : Decidable (packet.Permits data) := by
  unfold Permits
  split <;> infer_instance

theorem exposed_accept_iff (packet : RTPRedundantPacket) (data : List BYTE)
    : (packet.accept data).Exposed ↔ packet.Permits data := by
  have append := readHeaders_append packet.headers [] 0 data
  rw [append_nil] at append
  rcases readHeaders_cases [] 0 data with
    ⟨parsed, total, b0, rest, chain, loop⟩ | ⟨parsed, none, loop⟩
  · rw [loop, nil_append] at append
    simp only [Permits, loop]
    by_cases long : total > rest.length
    · -- the announced lengths do not fit, the headers are dropped
      have result : (packet.accept data).headers = [] ∧ (packet.accept data).primaryData = [] := by
        simp only [accept, decodeRedundantPayload, append, if_pos long, and_self]
      exact ⟨fun _ => .inr long, fun _ => .inl result⟩
    · have result : packet.accept data
          = { packet with
              payload := data, headers := packet.headers ++ parsed,
              primaryType := b0.toNat &&& 0x7F, redundantData := rest,
              primaryData := rest.drop total } := by
        simp only [accept, decodeRedundantPayload, append, if_neg long]
      rw [result]
      constructor
      · rintro (⟨empty, -⟩ | ⟨other, layout⟩)
        · exact .inl (append_eq_nil_iff.mp empty).1
        · obtain ⟨same, -⟩ := chain.unique layout.chain
          exact .inl (append_left_eq_self.mp same.symm)
      · rintro (fresh | impossible)
        · refine .inr ⟨total, ?_⟩
          simp only [fresh, nil_append]
          exact ⟨chain, chain.contiguous, chain.behind, Nat.le_of_not_lt long, rfl⟩
        · exact absurd impossible long
  · rw [loop, nil_append] at append
    have result : packet.accept data
        = { packet with
            payload := data, primaryType := 0, headers := packet.headers ++ parsed,
            primaryData := [] } := by
      simp only [accept, decodeRedundantPayload, append]
    rw [result]
    simp only [Permits, loop, nil_append]
    constructor
    · rintro (⟨empty, -⟩ | ⟨other, layout⟩)
      · exact append_eq_nil_iff.mp empty
      · exact absurd layout.chain (none _ _ _)
    · rintro ⟨fresh, short⟩
      exact .inl ⟨by simp only [fresh, short, nil_append], rfl⟩

/-! Packets and their payloads. -/

/-- The bytes behind the RTP header of a received packet, without padding. A packet whose
header does not fit has none.
-/
def mediaData (data : List BYTE) : List BYTE :=
  let first := (data.getD 0 0).toNat
  let cc := first % 16
  let hasX := first / 16 % 2 = 1
  let hasP := first / 32 % 2 = 1
  let fixed := 12 + 4 * cc
  let extension :=
    if hasX then
      4 + 4 * ((data.getD (fixed + 2) 0).toNat * 256 + (data.getD (fixed + 3) 0).toNat)
    else 0
  if data.length > 1700 ∨ data.length < 12 then []
  else if hasX ∧ fixed + 4 > data.length then []
  else if fixed + extension > data.length then []
  else
    let media := data.drop (fixed + extension)
    if hasP then
      let pad := (data.getD (data.length - 1) 0).toNat
      if pad = 0 ∨ pad > media.length then [] else media.take (media.length - pad)
    else media

/-- How a packet comes about. -/
inductive Construction
  | sending (media : MediaType) (codec : RedCodec)
  | received (media : MediaType) (codec : RedCodec) (data : List BYTE)

def Construction.packet : Construction → RTPRedundantPacket
  | .sending media codec => { media, codec }
  | .received media codec data => accept { media, codec } (mediaData data)

/-- A received packet has no earlier headers. -/
def Construction.Permits : Construction → Prop
  | .sending _ _ => True
  | .received media codec data =>
    RTPRedundantPacket.Permits { media, codec } (mediaData data)

theorem exposed_construction_iff (made : Construction) : made.packet.Exposed ↔ made.Permits := by
  cases made with
  | sending media codec => exact ⟨fun _ => trivial, fun _ => .inl ⟨rfl, rfl⟩⟩
  | received media codec data => exact exposed_accept_iff _ _

/-- A packet exposes nothing but the blocks of its last payload, from its construction through
all calls of `SetPayload`, if and only if each payload is permitted.
-/
theorem exposed_iff_permits (made : Construction) (limit : Nat) (payloads : List (List BYTE))
    : (∀ before, before <+: payloads
        → (run (setPayloadWithin limit) made.packet before).Exposed)
      ↔ made.Permits
        ∧ EachStep (setPayloadWithin limit)
          (fun packet data => data.length ≤ limit → packet.Permits data) made.packet payloads := by
  have step (packet : RTPRedundantPacket) {data : List BYTE} (fits : data.length ≤ limit)
      : packet.setPayloadWithin limit data = packet.accept data :=
    if_neg (Nat.not_lt.mpr fits)
  have refused (packet : RTPRedundantPacket) {data : List BYTE} (long : ¬ data.length ≤ limit)
      : packet.setPayloadWithin limit data = packet :=
    if_pos (Nat.lt_of_not_le long)
  have sound (packet : RTPRedundantPacket) (data : List BYTE) (_ : True)
      (exposed : packet.Exposed) (permitted : data.length ≤ limit → packet.Permits data)
      : (packet.setPayloadWithin limit data).Exposed := by
    by_cases fits : data.length ≤ limit
    · rw [step packet fits]
      exact (exposed_accept_iff packet data).mpr (permitted fits)
    · rw [refused packet fits]
      exact exposed
  have complete (packet : RTPRedundantPacket) (data : List BYTE)
      (exposed : (packet.setPayloadWithin limit data).Exposed) (fits : data.length ≤ limit)
      : packet.Permits data := by
    rw [step packet fits] at exposed
    exact (exposed_accept_iff packet data).mp exposed
  have steps (exposed : made.packet.Exposed) :=
    eachStep_iff_prefixes (fun _ _ _ => trivial) sound (fun _ => id)
      (fun packet data _ _ => complete packet data) trivial exposed payloads
  constructor
  · intro all
    have first := all [] nil_prefix
    exact ⟨(exposed_construction_iff made).mp first, (steps first).mpr all⟩
  · rintro ⟨permitted, each⟩
    exact (steps ((exposed_construction_iff made).mpr permitted)).mp each

/-- A header chain that is cut off behind a header leaves the header, and a second payload
adds its headers to those of the first.
-/
theorem exposed_of_cut_chain
    : let cut : List BYTE := [0xE2, 0, 0, 1, 0xE2]
      let whole : List BYTE := [0xE2, 0, 0, 1, 0x62, 7, 8]
      let packet := Construction.packet (.sending .text .t140Red)
      ((packet.setPayload cut).1.headers.length = 1
        ∧ (packet.setPayload cut).1.primaryData = []
        ∧ ¬ (packet.setPayload cut).1.Exposed)
      ∧ (((packet.setPayload whole).1.setPayload whole).1.headers.length = 2
        ∧ ¬ ((packet.setPayload whole).1.setPayload whole).1.Exposed) := by
  intro cut whole packet
  refine ⟨⟨by decide, by decide, fun exposed => ?_⟩, ⟨by decide, fun exposed => ?_⟩⟩
  · have permitted := (exposed_accept_iff packet cut).mp exposed
    revert permitted
    decide
  · have permitted := (exposed_accept_iff (packet.setPayload whole).1 whole).mp exposed
    revert permitted
    decide

end RTPRedundantPacket

end MediaServer.Text
