import MediaServer.Text.RedundantPacket

/-! The codec of redundant real-time text. One object encodes with two generations of
redundancy and decodes with what the gaps between sequence numbers tell.
-/

namespace MediaServer.Text

open Foundation Block List
open Rtp (maxExtSeqNum)

/-- What the codec reads of a frame. -/
structure MediaFrame where
  type : MediaType := .text
  timeStamp : DWORD := 0
  data : List BYTE := []

structure TextFrame where
  timeStamp : DWORD
  data : List BYTE

def bomUtf8 : List BYTE := [0xEF, 0xBB, 0xBF]

def lostReplacement : List BYTE := [0xEF, 0xBF, 0xBD]

def maxLostReplacements : Nat := 16

structure RedundentCodec where
  lastSeq : Nat := maxExtSeqNum
  reds : List MediaFrame := []
  lastTime : DWORD := 0
  idle : Bool := true
  reds_le : reds.length ≤ 2 := by decide

namespace RedundentCodec

variable (codec : RedundentCodec)

/-- Packets missing in front of a number; one that does not advance tells nothing. -/
def lostBefore (seq : Nat) : Nat :=
  if codec.lastSeq ≠ maxExtSeqNum ∧ seq > codec.lastSeq then seq - codec.lastSeq - 1 else 0

def lostMarks (red : RTPRedundantPacket) (lost : Nat) : List TextFrame :=
  let ts :=
    if red.getRedundantCount > 0 then (red.getRedundantTimestamp 0).toUInt32 else red.timestamp
  List.replicate (min (lost - red.getRedundantCount) maxLostReplacements) ⟨ts, lostReplacement⟩

def recovered (red : RTPRedundantPacket) (lost : Nat) : List TextFrame :=
  let lost := min lost red.getRedundantCount
  (List.range' (red.getRedundantCount - lost) lost).map
    (fun i => ⟨(red.getRedundantTimestamp i).toUInt32, red.getRedundantPayload i⟩)

def decode (red : RTPRedundantPacket) : RedundentCodec × List TextFrame :=
  let lost := codec.lostBefore red.getExtSeqNum
  ({ codec with lastSeq := red.getExtSeqNum },
    lostMarks red lost ++ recovered red lost ++ [⟨red.timestamp, red.primaryData⟩])

/-- The header of an empty generation, with two values of `rand` as its time. -/
def fillerHeader (ptype : BYTE) (high low : Nat) : List BYTE :=
  [0x80 ||| ptype, .ofNat high, .ofNat ((low &&& 0x3F) <<< 2), 0]

def redHeader (ptype : BYTE) (lastTime : DWORD) (frame : MediaFrame) : List BYTE :=
  let diff := (lastTime - frame.timeStamp).toNat
  [0x80 ||| ptype, .ofNat (diff >>> 6),
    .ofNat ((diff &&& 0x3F) <<< 2 ||| frame.data.length >>> 8), .ofNat frame.data.length]

/-- The payload in front of the rotation of the queue; `rand` gives the successive values. -/
def buildPayload (text : List BYTE) (ptype : BYTE) (rand : Nat → Nat) : List BYTE :=
  (List.range (2 - codec.reds.length)).flatMap
      (fun i => fillerHeader ptype (rand (2 * i)) (rand (2 * i + 1)))
    ++ (codec.reds.flatMap (redHeader ptype codec.lastTime)
      ++ ptype :: (codec.reds.flatMap MediaFrame.data ++ text))

/-- The queue with one more generation, the oldest of three gone. -/
def rotate (reds : List MediaFrame) (frame : MediaFrame) : List MediaFrame :=
  if (reds ++ [frame]).length = 3 then (reds ++ [frame]).tail else reds ++ [frame]

theorem rotate_le {reds : List MediaFrame} (few : reds.length ≤ 2) (frame : MediaFrame)
    : (rotate reds frame).length ≤ 2 := by
  rw [rotate]
  split
  · rename_i three
    rw [length_tail, three]
  · rename_i notThree
    simp only [length_append, length_singleton] at notThree ⊢
    omega

/-- A generation that keeps the encoder from being idle: neither empty nor a byte order mark. -/
def isActive (frame : MediaFrame) : Bool := frame.data ≠ [] && frame.data ≠ bomUtf8

def buildPacket (frame : Option MediaFrame) (ptype : BYTE) (rand : Nat → Nat)
    : RTPRedundantPacket :=
  let media := (frame.map MediaFrame.type).getD .text
  let packet : RTPRedundantPacket :=
    { media, codec := if media = .video then .videoRed else .t140Red }
  let text := (frame.map MediaFrame.data).getD []
  { (packet.setPayload (codec.buildPayload text ptype rand)).1 with
    timestamp := codec.lastTime
    mark := codec.idle && frame.isSome }

/-- `Encode`; without a frame and with empty generations only there is no packet. -/
def encode (frame : Option MediaFrame) (ptype : BYTE) (rand : Nat → Nat)
    : RedundentCodec × Option RTPRedundantPacket :=
  let isNotNull := frame.isSome || codec.reds.any (fun red => red.data ≠ [])
  let packet := codec.buildPacket frame ptype rand
  let reds := rotate codec.reds (frame.getD { timeStamp := codec.lastTime })
  let next : RedundentCodec :=
    match frame with
    | some frame =>
      { codec with
        reds
        reds_le := rotate_le codec.reds_le _
        idle := false
        lastTime := frame.timeStamp }
    | none =>
      { codec with reds, reds_le := rotate_le codec.reds_le _, idle := !reds.any isActive }
  (next, if isNotNull then some packet else none)

def encodeBOM (ptype : BYTE) (rand : Nat → Nat) : RedundentCodec × Option RTPRedundantPacket :=
  codec.encode (some { data := bomUtf8 }) ptype rand

def encodeNull (ptype : BYTE) (rand : Nat → Nat) : RedundentCodec × Option RTPRedundantPacket :=
  codec.encode none ptype rand

/-- The redundant texts of the next packet, empty ones in front. -/
def generations : List (List BYTE) :=
  List.replicate (2 - codec.reds.length) [] ++ codec.reds.map MediaFrame.data

def fillerBlock (high low : Nat) : Block where
  offset := high % 256 * 64 + low % 64
  data := []
  offset_lt := by omega
  length_lt := by decide

theorem fillerHeader_eq (ptype : BYTE) (high low : Nat)
    : fillerHeader ptype high low = (fillerBlock high low).header ptype := by
  have time : (low &&& (2 ^ 6 - 1)) <<< 2 = low % 64 * 4 := by
    rw [and_mask, Nat.shiftLeft_eq]
    rfl
  have upper : UInt8.ofNat high = .ofNat ((high % 256 * 64 + low % 64) / 64) := by
    apply UInt8.toNat_inj.mp
    simp only [UInt8.toNat_ofNat']
    omega
  have lower : low % 64 * 4 = (high % 256 * 64 + low % 64) % 64 * 4 := by omega
  simp only [fillerHeader, header, fillerBlock]
  rw [show (0x3F : Nat) = 2 ^ 6 - 1 from rfl, time, upper, lower]
  rfl

def redBlock (lastTime : DWORD) (frame : MediaFrame) (short : frame.data.length ≤ 1023)
    : Block where
  offset := (lastTime - frame.timeStamp).toNat % 2 ^ 14
  data := frame.data
  offset_lt := Nat.mod_lt _ (by decide)
  length_lt := by omega

theorem redHeader_eq (ptype : BYTE) (lastTime : DWORD) {frame : MediaFrame}
    (short : frame.data.length ≤ 1023)
    : redHeader ptype lastTime frame = (redBlock lastTime frame short).header ptype := by
  simp only [redHeader, header, redBlock]
  generalize (lastTime - frame.timeStamp).toNat = diff
  have upper : UInt8.ofNat (diff >>> 6) = .ofNat (diff % 2 ^ 14 / 64) := by
    apply UInt8.toNat_inj.mp
    rw [shiftRight_eq]
    simp only [UInt8.toNat_ofNat']
    omega
  have lower : (diff &&& (2 ^ 6 - 1)) <<< 2 ||| frame.data.length >>> 8
      = diff % 2 ^ 14 % 64 * 4 + frame.data.length / 256 := by
    rw [and_mask, shiftRight_eq, shiftLeft_or _ (by omega)]
    omega
  rw [show (0x3F : Nat) = 2 ^ 6 - 1 from rfl, upper, lower]

/-- A payload consists of the generations and the text. -/
theorem buildPayload_blocks {codec : RedundentCodec}
    (short : ∀ frame ∈ codec.reds, frame.data.length ≤ 1023) (text : List BYTE) (ptype : BYTE)
    (rand : Nat → Nat)
    : ∃ blocks, codec.buildPayload text ptype rand = payload blocks ptype text
      ∧ blocks.map Block.data = codec.generations
      ∧ (blocks.map Block.offset).drop (2 - codec.reds.length)
        = codec.reds.map (fun frame => (codec.lastTime - frame.timeStamp).toNat % 2 ^ 14) := by
  let fillers :=
    (List.range (2 - codec.reds.length)).map
      (fun i => fillerBlock (rand (2 * i)) (rand (2 * i + 1)))
  let queued :=
    codec.reds.attach.map (fun frame => redBlock codec.lastTime frame.1 (short _ frame.2))
  refine ⟨fillers ++ queued, ?_, ?_, ?_⟩
  · have filled : fillers.flatMap (header · ptype)
        = (List.range (2 - codec.reds.length)).flatMap
            (fun i => fillerHeader ptype (rand (2 * i)) (rand (2 * i + 1))) := by
      simp only [fillers, flatMap_map, fillerHeader_eq]
    have headers : queued.flatMap (header · ptype)
        = codec.reds.flatMap (redHeader ptype codec.lastTime) := by
      conv_rhs => rw [← attach_map_subtype_val codec.reds, flatMap_map]
      simp only [queued, flatMap_map]
      exact flatMap_congr (fun frame _ => (redHeader_eq ptype _ (short _ frame.2)).symm)
    have noText : fillers.flatMap Block.data = [] := by
      simp only [fillers, flatMap_map, fillerBlock, flatMap_eq_nil_iff, implies_true]
    have texts : queued.flatMap Block.data = codec.reds.flatMap MediaFrame.data := by
      conv_rhs => rw [← attach_map_subtype_val codec.reds, flatMap_map]
      simp only [queued, flatMap_map, redBlock]
    rw [buildPayload, payload, flatMap_append, flatMap_append, filled, headers,
      noText, texts, nil_append, append_assoc]
  · have noText : fillers.map Block.data = List.replicate (2 - codec.reds.length) [] := by
      simp [fillers, fillerBlock, Function.comp_def]
    have texts : queued.map Block.data = codec.reds.map MediaFrame.data := by
      conv_rhs => rw [← attach_map_subtype_val codec.reds, map_map]
      simp only [queued, map_map, Function.comp_def, redBlock]
    rw [map_append, noText, texts, generations]
  · have count : (fillers.map Block.offset).length = 2 - codec.reds.length := by simp [fillers]
    rw [map_append, ← count, drop_left]
    conv_rhs => rw [← attach_map_subtype_val codec.reds, map_map]
    simp only [queued, map_map, Function.comp_def, redBlock]

end RedundentCodec

end MediaServer.Text
