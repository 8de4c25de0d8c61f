import MediaServer.Foundation.Runs
import MediaServer.Text.RedundentCodec

/-! Every packet of an encoder repeats the texts of the two packets before it. A decoder that
misses no more than two packets in a row therefore hands on every text exactly once.
-/

namespace MediaServer.Text

open Foundation RTPRedundantPacket RedundentCodec List
open Rtp (extSeqNum extSeqNum_eq maxExtSeqNum)

inductive EncodeCall
  | encode (frame : MediaFrame) (ptype : BYTE) (rand : Nat → Nat)
  | encodeBOM (ptype : BYTE) (rand : Nat → Nat)
  | encodeNull (ptype : BYTE) (rand : Nat → Nat)

namespace EncodeCall

def frame : EncodeCall → Option MediaFrame
  | encode frame _ _ => some frame
  | encodeBOM _ _ => some { data := bomUtf8 }
  | encodeNull _ _ => none

def ptype : EncodeCall → BYTE
  | encode _ ptype _ | encodeBOM ptype _ | encodeNull ptype _ => ptype

def rand : EncodeCall → Nat → Nat
  | encode _ _ rand | encodeBOM _ rand | encodeNull _ rand => rand

def text (call : EncodeCall) : List BYTE := (call.frame.map MediaFrame.data).getD []

def apply (codec : RedundentCodec) : EncodeCall → RedundentCodec × Option RTPRedundantPacket
  | encode frame ptype rand => codec.encode (some frame) ptype rand
  | encodeBOM ptype rand => codec.encodeBOM ptype rand
  | encodeNull ptype rand => codec.encodeNull ptype rand

theorem apply_eq (codec : RedundentCodec) (call : EncodeCall)
    : call.apply codec = codec.encode call.frame call.ptype call.rand := by
  cases call <;> rfl

end EncodeCall

/-- A packet with the two halves of its extended sequence number set. -/
def RTPRedundantPacket.withExtSeqNum (packet : RTPRedundantPacket) (number : Nat)
    : RTPRedundantPacket :=
  { packet with cycles := .ofNat (number / 65536), seqNum := .ofNat number }

theorem RTPRedundantPacket.getExtSeqNum_withExtSeqNum (packet : RTPRedundantPacket)
    (number : Nat) (fits : number < 2 ^ 32)
    : (packet.withExtSeqNum number).getExtSeqNum = number := by
  simp only [getExtSeqNum, withExtSeqNum, extSeqNum_eq, UInt16.toNat_ofNat']
  omega

/-- An encoder with the packets it returned so far, each next to its primary text. -/
structure Encoder where
  codec : RedundentCodec := {}
  sent : List (List BYTE × RTPRedundantPacket) := []

namespace Encoder

def step (encoder : Encoder) (call : EncodeCall) : Encoder :=
  let (codec, packet) := call.apply encoder.codec
  { codec, sent := encoder.sent ++ (packet.map (call.text, ·)).toList }

/-- What callers promise: a 7-bit type, a text whose length fits in ten bits, and a payload
that fits in the buffer.
-/
def Permits (encoder : Encoder) (call : EncodeCall) : Prop :=
  call.ptype.toNat ≤ 127
  ∧ call.text.length ≤ 1023
  ∧ (encoder.codec.buildPayload call.text call.ptype call.rand).length ≤ mtu

instance (encoder : Encoder) (call : EncodeCall) : Decidable (encoder.Permits call) :=
  inferInstanceAs (Decidable (_ ∧ _ ∧ _))

def texts (encoder : Encoder) : List (List BYTE) := encoder.sent.map Prod.fst

def delivered (encoder : Encoder) (first : Nat) (positions : List Nat) : List RTPRedundantPacket :=
  positions.filterMap (fun k =>
    encoder.sent[k]?.map (fun entry => entry.2.withExtSeqNum (first + k)))

end Encoder

/-- A decoder with the frames it handed on and how many of them are marks for lost text. -/
structure Decoder where
  codec : RedundentCodec := {}
  frames : List TextFrame := []
  marks : Nat := 0

def Decoder.step (decoder : Decoder) (red : RTPRedundantPacket) : Decoder :=
  let (codec, frames) := decoder.codec.decode red
  let lost := decoder.codec.lostBefore red.getExtSeqNum
  { codec
    frames := decoder.frames ++ frames
    marks := decoder.marks + (RedundentCodec.lostMarks red lost).length }

def previousTwo (texts : List (List BYTE)) (k : Nat) : List (List BYTE) :=
  ((List.replicate 2 [] ++ texts).drop k).take 2

theorem length_padded (texts : List (List BYTE))
    : (List.replicate 2 [] ++ texts).length = texts.length + 2 := by
  rw [length_append, length_replicate, Nat.add_comm]

variable {texts : List (List BYTE)}

theorem previousTwo_append {k : Nat} (within : k ≤ texts.length) (more : List (List BYTE))
    : previousTwo (texts ++ more) k = previousTwo texts k := by
  have length := length_padded texts
  have left : 2 ≤ ((List.replicate 2 [] ++ texts).drop k).length := by
    rw [length_drop]
    omega
  rw [previousTwo, ← append_assoc, drop_append_of_le_length (by omega),
    take_append_of_le_length left, previousTwo]

theorem previousTwo_length (texts : List (List BYTE))
    : previousTwo texts texts.length = (List.replicate 2 [] ++ texts).drop texts.length := by
  rw [previousTwo, take_of_length_le]
  rw [length_drop, length_padded]
  omega

theorem previousTwo_last (texts : List (List BYTE)) (text : List BYTE)
    : previousTwo (texts ++ [text]) (texts.length + 1)
      = (previousTwo texts texts.length).tail ++ [text] := by
  have whole := previousTwo_length (texts ++ [text])
  have length := length_padded texts
  rw [length_append, length_singleton] at whole
  rw [whole, previousTwo_length, tail_drop, ← append_assoc, drop_append_of_le_length (by omega)]

/-- The end of the two texts in front of a position is a slice of all texts. -/
theorem drop_previousTwo {k lost : Nat} (few : lost ≤ 2) (before : lost ≤ k)
    : (previousTwo texts k).drop (2 - lost) = (texts.drop (k - lost)).take lost := by
  have blank : (List.replicate 2 ([] : List BYTE)).length = 2 := rfl
  rw [previousTwo, drop_take, drop_drop, drop_append,
    drop_of_length_le (by omega), nil_append, blank]
  congr 2 <;> omega

namespace RedundentCodec

/-- The queue moves by one text with each call. -/
theorem generations_rotate (codec next : RedundentCodec) {frame : MediaFrame}
    (rotated : next.reds = rotate codec.reds frame)
    : next.generations = codec.generations.tail ++ [frame.data] := by
  obtain ⟨_, reds, _, _, few⟩ := codec
  rw [generations, generations, rotated]
  rcases reds with _ | ⟨_, _ | ⟨_, _ | _⟩⟩
  · rfl
  · rfl
  · rfl
  · simp at few

theorem generations_blank {codec : RedundentCodec} (blank : ∀ red ∈ codec.reds, red.data = [])
    : codec.generations = List.replicate 2 [] := by
  obtain ⟨_, reds, _, _, few⟩ := codec
  have texts : reds.map MediaFrame.data = List.replicate reds.length [] :=
    map_eq_replicate_iff.mpr blank
  rw [generations, texts, replicate_append_replicate]
  congr 1
  exact Nat.sub_add_cancel few

theorem mem_rotate {reds : List MediaFrame} {frame red : MediaFrame}
    (present : red ∈ rotate reds frame) : red ∈ reds ∨ red = frame := by
  have appended : red ∈ reds ++ [frame] := by
    rw [rotate] at present
    split at present
    · exact mem_of_mem_tail present
    · exact present
  simpa using appended

/-- What a call leaves behind and returns. -/
theorem encode_cases (codec : RedundentCodec) (frame : Option MediaFrame) (ptype : BYTE)
    (rand : Nat → Nat)
    : (codec.encode frame ptype rand).1.reds
        = rotate codec.reds (frame.getD { timeStamp := codec.lastTime })
      ∧ ((codec.encode frame ptype rand).2 = some (codec.buildPacket frame ptype rand)
        ∨ frame = none ∧ (∀ red ∈ codec.reds, red.data = [])
          ∧ (codec.encode frame ptype rand).2 = none) := by
  constructor
  · cases frame <;> rfl
  · simp only [encode]
    cases frame with
    | some frame => exact .inl rfl
    | none =>
      by_cases some : codec.reds.any (fun red => red.data ≠ [])
      · exact .inl (by rw [some]; rfl)
      · refine .inr ⟨rfl, by simpa using some, ?_⟩
        rw [Bool.not_eq_true] at some
        rw [some]
        rfl

/-- A packet carries the generations and the text of the call, and how long ago each generation
was.
-/
theorem buildPacket_carries {codec : RedundentCodec}
    (short : ∀ frame ∈ codec.reds, frame.data.length ≤ 1023)
    (frame : Option MediaFrame) {ptype : BYTE} {rand : Nat → Nat} (small : ptype.toNat ≤ 127)
    (fits : (codec.buildPayload ((frame.map MediaFrame.data).getD []) ptype rand).length ≤ mtu)
    : (codec.buildPacket frame ptype rand).redundantBlocks = codec.generations
      ∧ (codec.buildPacket frame ptype rand).primaryData = (frame.map MediaFrame.data).getD []
      ∧ ((codec.buildPacket frame ptype rand).headers.map RedHeader.offset).drop
          (2 - codec.reds.length)
        = codec.reds.map (fun frame => (codec.lastTime - frame.timeStamp).toNat % 2 ^ 14) := by
  obtain ⟨blocks, payload, generations, offsets⟩ :=
    buildPayload_blocks short ((frame.map MediaFrame.data).getD []) ptype rand
  have room : (Block.payload blocks ptype ((frame.map MediaFrame.data).getD [])).length
      ≤ maxMediaLength := by
    rw [payload] at fits
    exact Nat.le_trans fits (by decide)
  rw [← generations, buildPacket, payload]
  let empty : RTPRedundantPacket :=
    let media := (frame.map MediaFrame.type).getD .text
    { media, codec := if media = .video then .videoRed else .t140Red }
  have fresh : empty.headers = [] := rfl
  obtain ⟨texts, primary, headers⟩ := setPayload_blocks fresh small room
  refine ⟨texts, primary, ?_⟩
  rw [← offsets, ← Block.headersFrom_offset blocks ptype 0, ← headers]

end RedundentCodec

namespace Encoder

/-- The queue holds the last two texts sent, and each packet the two texts in front of it. -/
structure Repeats (encoder : Encoder) : Prop where
  short : ∀ frame ∈ encoder.codec.reds, frame.data.length ≤ 1023
  queue : encoder.codec.generations = previousTwo encoder.texts encoder.texts.length
  packets
    : ∀ k text packet, encoder.sent[k]? = some (text, packet)
      → packet.redundantBlocks = previousTwo encoder.texts k ∧ packet.primaryData = text

theorem step_codec (encoder : Encoder) (call : EncodeCall)
    : (encoder.step call).codec
      = (encoder.codec.encode call.frame call.ptype call.rand).1 := by
  rw [step, EncodeCall.apply_eq]

theorem step_sent (encoder : Encoder) (call : EncodeCall)
    : (encoder.step call).sent
      = encoder.sent
        ++ ((encoder.codec.encode call.frame call.ptype call.rand).2.map
          (call.text, ·)).toList := by
  rw [step, EncodeCall.apply_eq]

theorem Repeats.step {encoder : Encoder} (repeats : encoder.Repeats) {call : EncodeCall}
    (permitted : encoder.Permits call)
    : (encoder.step call).Repeats := by
  obtain ⟨small, short, fits⟩ := permitted
  obtain ⟨rotated, outcome⟩ :=
    encoder.codec.encode_cases call.frame call.ptype call.rand
  have pushed : (call.frame.getD { timeStamp := encoder.codec.lastTime }).data = call.text := by
    rw [EncodeCall.text]
    cases call.frame <;> rfl
  have moved := generations_rotate encoder.codec _ rotated
  rw [← step_codec] at rotated moved
  rw [pushed] at moved
  have allShort : ∀ frame ∈ (encoder.step call).codec.reds, frame.data.length ≤ 1023 := by
    intro frame present
    rw [rotated] at present
    rcases mem_rotate present with queued | rfl
    · exact repeats.short frame queued
    · rwa [pushed]
  rcases outcome with returned | ⟨noFrame, blank, suppressed⟩
  · -- one more text: the packet carries the queue as it was before the rotation
    obtain ⟨blocks, primary, -⟩ :=
      buildPacket_carries repeats.short call.frame small fits
    have sent := step_sent encoder call
    rw [returned] at sent
    have texts : (encoder.step call).texts = encoder.texts ++ [call.text] := by
      rw [Encoder.texts, sent, map_append]
      rfl
    have count : encoder.texts.length = encoder.sent.length := length_map ..
    refine ⟨allShort, ?_, ?_⟩
    · rw [moved, texts, length_append, length_singleton, previousTwo_last,
        repeats.queue]
    · intro k text packet position
      rw [sent, getElem?_append] at position
      rw [texts]
      split at position
      · rename_i older
        rw [previousTwo_append (by omega)]
        exact repeats.packets k text packet position
      · rename_i newest
        obtain ⟨last, same⟩ := List.getElem?_eq_some_iff.mp position
        have here : k = encoder.texts.length := by
          simp only [Option.map_some, Option.toList_some, length_singleton] at last
          omega
        obtain ⟨rfl, rfl⟩ : call.text = text ∧ _ = packet := by
          simpa [here, count] using position
        rw [here, previousTwo_append (Nat.le_refl _), ← repeats.queue]
        exact ⟨blocks, primary⟩
  · -- no packet: all generations were empty, and one more empty one changes nothing
    have sent : (encoder.step call).sent = encoder.sent := by
      rw [step_sent, suppressed]
      exact append_nil _
    have texts : (encoder.step call).texts = encoder.texts := by rw [Encoder.texts, sent]; rfl
    have empty : call.text = [] := by rw [EncodeCall.text, noFrame]; rfl
    refine ⟨allShort, ?_, ?_⟩
    · rw [moved, texts, ← repeats.queue, generations_blank blank, empty]
      rfl
    · rw [sent, texts]
      exact repeats.packets

/-- By induction over the calls. -/
theorem repeats_run {calls : List EncodeCall} (permitted : EachStep step Permits {} calls)
    : (run step {} calls).Repeats := by
  refine run_invariant_of_eachStep (fun _ _ repeats allowed => repeats.step allowed) ?_ permitted
  exact ⟨by simp, rfl, by simp⟩

end Encoder

/-! Delivery with gaps. -/

/-- A packet that exposes the two texts in front of it recovers up to two lost ones. -/
theorem recovered_texts {red : RTPRedundantPacket} {k lost : Nat}
    (repeated : red.redundantBlocks = previousTwo texts k) (within : k ≤ texts.length)
    (few : lost ≤ 2) (before : lost ≤ k)
    : lostMarks red lost = []
      ∧ (recovered red lost).map TextFrame.data
        = (texts.drop (k - lost)).take lost := by
  have two : red.redundantBlocks.length = 2 := by
    rw [repeated, previousTwo, length_take, length_drop, length_padded]
    omega
  have count : red.getRedundantCount = 2 := by
    rw [redundantBlocks, length_map] at two
    rw [getRedundantCount, two]
  constructor
  · rw [lostMarks, count, Nat.sub_eq_zero_of_le few]
    rfl
  · rw [← drop_previousTwo few before, ← repeated, recovered, count, Nat.min_eq_left few, map_map]
    simp only [Function.comp_def, getRedundantPayload_eq]
    obtain ⟨older, newer, blocks⟩ := length_eq_two.mp two
    rw [blocks]
    obtain rfl | rfl | rfl : lost = 0 ∨ lost = 1 ∨ lost = 2 := by omega
    all_goals rfl

/-- The decoder has handed on every text up to a position, and no mark. -/
structure Decoder.UpTo (decoder : Decoder) (texts : List (List BYTE)) (k : Nat) : Prop where
  handedOn : decoder.frames.map TextFrame.data = texts.take k
  noMark : decoder.marks = 0

/-- One packet brings the decoder from the first text it missed past its own text. -/
theorem Decoder.UpTo.step {decoder : Decoder} {red : RTPRedundantPacket} {k : Nat}
    (upTo : decoder.UpTo texts (k - decoder.codec.lostBefore red.getExtSeqNum))
    (few : decoder.codec.lostBefore red.getExtSeqNum ≤ 2)
    (before : decoder.codec.lostBefore red.getExtSeqNum ≤ k)
    (repeated : red.redundantBlocks = previousTwo texts k)
    (primary : texts[k]? = some red.primaryData)
    : (decoder.step red).UpTo texts (k + 1) := by
  have within : k ≤ texts.length := Nat.le_of_lt (List.getElem?_eq_some_iff.mp primary).1
  obtain ⟨noMark, recovered⟩ := recovered_texts repeated within few before
  refine ⟨?_, ?_⟩
  · simp only [Decoder.step, RedundentCodec.decode, map_append, upTo.handedOn, noMark,
      recovered, nil_append, map_cons, map_nil]
    rw [take_add_one, primary, ← append_assoc, ← take_add,
      Nat.sub_add_cancel before]
    rfl
  · simp only [Decoder.step, noMark, upTo.noMark, length_nil]

namespace Encoder

variable {encoder : Encoder}

theorem Repeats.sent_at (repeats : encoder.Repeats) {k : Nat} (inside : k < encoder.sent.length)
    : ∃ text packet, encoder.sent[k]? = some (text, packet)
      ∧ packet.redundantBlocks = previousTwo encoder.texts k
      ∧ encoder.texts[k]? = some packet.primaryData := by
  have position := getElem?_eq_getElem inside
  obtain ⟨repeated, primary⟩ := repeats.packets k _ _ position
  refine ⟨_, _, position, repeated, ?_⟩
  rw [texts, getElem?_map, position, primary]
  rfl

theorem delivered_cons {first k : Nat} {text : List BYTE} {packet : RTPRedundantPacket}
    (position : encoder.sent[k]? = some (text, packet)) (later : List Nat)
    : encoder.delivered first (k :: later)
      = packet.withExtSeqNum (first + k) :: encoder.delivered first later := by
  rw [delivered, filterMap_cons, position]
  rfl

/-- By induction on the positions still to come: each of them is at most three behind the one
before it, so that its packet misses two texts at the most.
-/
theorem Repeats.delivered_upTo (repeats : encoder.Repeats) {first : Nat}
    (numbers : first + encoder.sent.length ≤ 2 ^ 32) {last : Nat} {later : List Nat}
    (gaps : List.IsChain (fun i j => i < j ∧ j ≤ i + 3) (last :: later))
    (sent : ∀ k ∈ later, k < encoder.sent.length) {decoder : Decoder}
    (current : decoder.codec.lastSeq = first + last) (upTo : decoder.UpTo encoder.texts (last + 1))
    : (run Decoder.step decoder (encoder.delivered first later)).UpTo encoder.texts
        ((last :: later).getLast (cons_ne_nil _ _) + 1) := by
  induction later generalizing last decoder with
  | nil => exact upTo
  | cons k later ih =>
    obtain ⟨⟨after, near⟩, rest⟩ := isChain_cons_cons.mp gaps
    have inside := sent k mem_cons_self
    obtain ⟨text, packet, position, repeated, primary⟩ := repeats.sent_at inside
    have number := packet.getExtSeqNum_withExtSeqNum (first + k) (by omega)
    have lost : decoder.codec.lostBefore (packet.withExtSeqNum (first + k)).getExtSeqNum
        = k - last - 1 := by
      rw [lostBefore, number, current, if_pos ⟨by rw [maxExtSeqNum]; omega, by omega⟩]
      omega
    rw [delivered_cons position, run_cons, getLast_cons_cons]
    apply ih rest (fun j present => sent j (mem_cons_of_mem _ present))
    · exact number
    · refine Decoder.UpTo.step ?_ (by omega) (by omega) repeated primary
      rw [lost, show k - (k - last - 1) = last + 1 by omega]
      exact upTo

/-- For every list of encoder calls, and for every choice of the packets that arrive in which
no more than two are missing in a row, the text handed on is the text of all packets up to
the last one that arrived, without a mark.
-/
theorem text_delivered_exactly_once (calls : List EncodeCall)
    (permitted : EachStep step Permits {} calls) (first : Nat)
    (numbers : first + (run step {} calls).sent.length ≤ 2 ^ 32) (later : List Nat)
    (gaps : List.IsChain (fun i j => i < j ∧ j ≤ i + 3) (0 :: later))
    (sent : ∀ k ∈ 0 :: later, k < (run step {} calls).sent.length)
    : let encoder := run step {} calls
      let decoder := run Decoder.step {} (encoder.delivered first (0 :: later))
      let last := (0 :: later).getLast (List.cons_ne_nil _ _)
      decoder.frames.flatMap TextFrame.data = (encoder.texts.take (last + 1)).flatten
      ∧ decoder.marks = 0 := by
  intro encoder decoder last
  have repeats : encoder.Repeats := repeats_run permitted
  have nonempty := sent 0 mem_cons_self
  obtain ⟨text, packet, position, repeated, primary⟩ := repeats.sent_at nonempty
  have started : (({} : Decoder).step (packet.withExtSeqNum (first + 0))).UpTo encoder.texts 1 :=
    .step ⟨rfl, rfl⟩ (Nat.zero_le _) (Nat.zero_le _) repeated primary
  have upTo : decoder.UpTo encoder.texts (last + 1) := by
    have number := packet.getExtSeqNum_withExtSeqNum (first + 0) (by omega)
    have received :=
      repeats.delivered_upTo numbers gaps (fun k present => sent k (.tail _ present)) number started
    rwa [← run_cons, ← delivered_cons position] at received
  exact ⟨by rw [← upTo.handedOn, flatMap_def], upTo.noMark⟩

/-- A byte order mark, a text, a keep-alive and another text. -/
def shortConversation : List EncodeCall :=
  [.encodeBOM 98 (fun i => 1000 * i), .encode { data := [72, 105], timeStamp := 300 } 98 id,
    .encodeNull 98 id, .encode { data := [33], timeStamp := 900 } 98 id]

/-- Only the first and the last packet arrive, across a wrap of the 16-bit number. -/
theorem text_delivered_exactly_once_two_lost
    : let encoder := run step {} shortConversation
      let decoder := run Decoder.step {} (encoder.delivered 65534 [0, 3])
      decoder.frames.flatMap TextFrame.data = (encoder.texts.take 4).flatten
      ∧ decoder.marks = 0 :=
  text_delivered_exactly_once shortConversation
    ⟨by decide, by decide, by decide, by decide, trivial⟩ 65534 (by decide) [3] (by simp)
    (by decide)

/-! The time of the repeated texts. -/

/-- The offset of 14 bits loses nothing that a byte shows. -/
theorem redundantTimestamp_eq (lastTime timeStamp : DWORD)
    : (lastTime - .ofNat ((lastTime - timeStamp).toNat % 2 ^ 14)).toUInt8 = timeStamp.toUInt8 := by
  apply UInt8.toNat_inj.mp
  have now := lastTime.toNat_lt
  have before := timeStamp.toNat_lt
  simp only [UInt32.toNat_toUInt8, UInt32.toNat_sub, UInt32.toNat_ofNat']
  omega

/-- A repeated text is read back with the lowest byte of the time of its frame, so with its time
exactly if that is below 256.
-/
theorem redundant_time_iff (calls : List EncodeCall) (permitted : EachStep step Permits {} calls)
    (call : EncodeCall) (allowed : (run step {} calls).Permits call) (packet : RTPRedundantPacket)
    (returned : (call.apply (run step {} calls).codec).2 = some packet)
    (i : Nat) (frame : MediaFrame) (queued : (run step {} calls).codec.reds[i]? = some frame)
    : let block := 2 - (run step {} calls).codec.reds.length + i
      packet.getRedundantPayload block = frame.data
      ∧ ((packet.getRedundantTimestamp block).toUInt32 = frame.timeStamp
        ↔ frame.timeStamp.toNat < 256) := by
  have repeats := repeats_run permitted
  generalize run step {} calls = encoder at *
  obtain ⟨small, -, fits⟩ := allowed
  rw [EncodeCall.apply_eq] at returned
  obtain built | ⟨-, -, nothing⟩ :=
    (encoder.codec.encode_cases call.frame call.ptype call.rand).2
  · cases built.symm.trans returned
    obtain ⟨texts, -, offsets⟩ :=
      buildPacket_carries repeats.short call.frame small fits
    intro block
    constructor
    · rw [getRedundantPayload_eq, texts, generations]
      simp [block, getElem?_append_right, queued]
    · have header := congrArg (·[i]?) offsets
      simp only [getElem?_drop, getElem?_map, queued, Option.map_some] at header
      obtain ⟨found, here, offset⟩ := Option.map_eq_some_iff.mp header
      have time : (encoder.codec.buildPacket call.frame call.ptype
          call.rand).getRedundantTimestamp block = frame.timeStamp.toUInt8 := by
        rw [getRedundantTimestamp, here]
        simp only [offset]
        exact redundantTimestamp_eq encoder.codec.lastTime frame.timeStamp
      rw [time, ← UInt32.toNat_inj, UInt8.toNat_toUInt32, UInt32.toNat_toUInt8]
      have bound := frame.timeStamp.toNat_lt
      omega
  · cases nothing.symm.trans returned

/-- A text of the time 1000 is repeated under the time 232. -/
theorem redundant_time_of_later_frame
    : ∃ packet,
        (EncodeCall.apply (run step {} [.encode { data := [72], timeStamp := 1000 } 98 id]).codec
          (.encode { data := [105], timeStamp := 1100 } 98 id)).2 = some packet
        ∧ packet.getRedundantPayload 1 = [72] ∧ packet.getRedundantTimestamp 1 = 232 :=
  ⟨_, rfl, by decide, by decide⟩

theorem redundant_time_iff_early
    : (RTPRedundantPacket.getRedundantTimestamp
        (RedundentCodec.buildPacket
          (run step {} [.encode { data := [72], timeStamp := 200 } 98 id]).codec
          (some { data := [105], timeStamp := 300 }) 98 id) 1).toUInt32 = 200 :=
  (redundant_time_iff [.encode { data := [72], timeStamp := 200 } 98 id] ⟨by decide, trivial⟩
    (.encode { data := [105], timeStamp := 300 } 98 id) (by decide) _ rfl 0 _ rfl).2.mpr (by decide)

end Encoder

end MediaServer.Text
