import MediaServer.Foundation.Bits
import MediaServer.Rtp.Packet

/-! RTP packets with redundant blocks: one header a block, the header of the primary block,
then the data of all blocks in the same order.
-/

namespace MediaServer.Text

open Foundation List
open Rtp (extSeqNum)

inductive MediaType
  | audio | video | text
  deriving DecidableEq

inductive RedCodec
  | videoRed | t140Red
  deriving DecidableEq

/-- Where a redundant block lies behind the headers. -/
structure RedHeader where
  type : Nat
  offset : Nat
  ini : Nat
  size : Nat
  deriving DecidableEq

structure RTPRedundantPacket where
  media : MediaType
  codec : RedCodec
  mark : Bool := false
  timestamp : DWORD := 0
  seqNum : WORD := 0
  cycles : WORD := 0
  payload : List BYTE := []
  headers : List RedHeader := []
  primaryType : Nat := 0
  primaryData : List BYTE := []
  redundantData : List BYTE := []

namespace RTPRedundantPacket

/-- One header of four bytes: the flag and the type, 14 bits of time offset, and 10 bits of
length.
-/
def readHeader (b0 b1 b2 b3 : BYTE) (skip : Nat) : RedHeader where
  type := b0.toNat &&& 0x7F
  offset := b1.toNat <<< 6 ||| b2.toNat >>> 2
  ini := skip
  size := (b2.toNat &&& 0x03) <<< 8 ||| b3.toNat

/-- The header loop from the current byte on. Besides the headers it gives the bytes to skip
and what is left from the primary header on, unless the packet ends inside a header.
-/
def readHeaders (headers : List RedHeader) (skip : Nat)
    : List BYTE → List RedHeader × Option (Nat × List BYTE)
  | [] => (headers, none)
  | b0 :: tail =>
    if b0.toNat >>> 7 = 0 then (headers, some (skip, b0 :: tail))
    else
      match tail with
      | b1 :: b2 :: b3 :: next :: rest =>
        let header := readHeader b0 b1 b2 b3 skip
        readHeaders (headers ++ [header]) (skip + header.size) (next :: rest)
      | _ => (headers, none)

variable (packet : RTPRedundantPacket)

/-- `DecodeRedundantPayload`: headers are appended to those the packet already has. -/
def decodeRedundantPayload (payload : List BYTE) : RTPRedundantPacket :=
  match readHeaders packet.headers 0 payload with
  | (headers, some (skip, b0 :: data)) =>
    let primaryType := b0.toNat &&& 0x7F
    if skip > data.length then
      { packet with headers := [], primaryType, redundantData := data }
    else
      { packet with headers, primaryType, redundantData := data, primaryData := data.drop skip }
  | (headers, _) => { packet with headers }

/-- The largest payload behind the fixed header. -/
def maxMediaLength : Nat := 1700 - 12

def setPayload (data : List BYTE) : RTPRedundantPacket × Bool :=
  if data.length > maxMediaLength then (packet, false)
  else
    (decodeRedundantPayload
      { packet with payload := data, primaryType := 0, primaryData := [] } data, true)

def getExtSeqNum : Nat := extSeqNum packet.cycles packet.seqNum

def getRedundantCount : Nat := packet.headers.length % 256

def getRedundantPayload (i : Nat) : List BYTE :=
  match packet.headers[i]? with
  | none => []
  | some header => (packet.redundantData.drop header.ini).take header.size

/-- The timestamp of a block is returned as a byte. -/
def getRedundantTimestamp (i : Nat) : BYTE :=
  match packet.headers[i]? with
  | none => 0
  | some header => (packet.timestamp - .ofNat header.offset).toUInt8

end RTPRedundantPacket

/-- A redundant block: 14 bits of time offset, and at most 1023 bytes. -/
structure Block where
  offset : Nat
  data : List BYTE
  offset_lt : offset < 2 ^ 14
  length_lt : data.length < 2 ^ 10

open RTPRedundantPacket

namespace Block

def header (block : Block) (ptype : BYTE) : List BYTE :=
  [0x80 ||| ptype, .ofNat (block.offset / 64),
    .ofNat (block.offset % 64 * 4 + block.data.length / 256), .ofNat block.data.length]

def headersFrom (skip : Nat) (ptype : BYTE) : List Block → List RedHeader
  | [] => []
  | block :: rest =>
    ⟨ptype.toNat, block.offset, skip, block.data.length⟩
      :: headersFrom (skip + block.data.length) ptype rest

variable (blocks : List Block)

def payload (ptype : BYTE) (primary : List BYTE) : List BYTE :=
  blocks.flatMap (header · ptype) ++ ptype :: (blocks.flatMap Block.data ++ primary)

/-- A header is read back as it was put. -/
theorem readHeader_header (block : Block) {ptype : BYTE} (small : ptype.toNat ≤ 127) (skip : Nat)
    : readHeader (0x80 ||| ptype) (.ofNat (block.offset / 64))
        (.ofNat (block.offset % 64 * 4 + block.data.length / 256)) (.ofNat block.data.length)
        skip
      = ⟨ptype.toNat, block.offset, skip, block.data.length⟩ := by
  obtain ⟨offset, data, offset_lt, length_lt⟩ := block
  have flag : (0x80 ||| ptype : BYTE).toNat = 1 * 2 ^ 7 + ptype.toNat := by
    rw [UInt8.toNat_or, ← shiftLeft_or 1 (by omega)]
    rfl
  have type : (0x80 ||| ptype : BYTE).toNat &&& (2 ^ 7 - 1) = ptype.toNat := by
    rw [flag, and_mask]
    omega
  have low : (offset % 64 * 4 + data.length / 256) % 256 = offset % 64 * 4 + data.length / 256 := by
    omega
  have time : (offset / 64 % 256) <<< 6 ||| (offset % 64 * 4 + data.length / 256) >>> 2
      = offset := by
    rw [shiftRight_eq, shiftLeft_or _ (by omega)]
    omega
  have size : ((offset % 64 * 4 + data.length / 256) &&& (2 ^ 2 - 1)) <<< 8
        ||| data.length % 256
      = data.length := by
    rw [and_mask, shiftLeft_or _ (by omega)]
    omega
  simp only [readHeader, UInt8.toNat_ofNat', RedHeader.mk.injEq, true_and]
  rw [show (2 : Nat) ^ 8 = 256 from rfl, low]
  exact ⟨type, time, size⟩

section

variable {ptype : BYTE} (small : ptype.toNat ≤ 127)
include small

theorem flag_set : (0x80 ||| ptype : BYTE).toNat >>> 7 = 1 := by
  rw [UInt8.toNat_or, show (0x80 : BYTE).toNat = 1 <<< 7 from rfl, shiftLeft_or 1 (by omega),
    shiftRight_eq]
  omega

theorem flag_clear : ptype.toNat >>> 7 = 0 := by
  rw [shiftRight_eq]
  omega

/-- The header loop reads the headers of all blocks, by induction on the blocks. -/
theorem readHeaders_blocks (headers : List RedHeader) (skip : Nat) (data : List BYTE)
    : readHeaders headers skip
        (blocks.flatMap (header · ptype) ++ ptype :: data)
      = (headers ++ headersFrom skip ptype blocks,
          some (skip + (blocks.flatMap Block.data).length, ptype :: data)) := by
  induction blocks generalizing headers skip with
  | nil =>
    rw [flatMap_nil, nil_append]
    unfold readHeaders
    rw [if_pos (flag_clear small)]
    simp [headersFrom]
  | cons block rest ih =>
    have set := flag_set small
    obtain ⟨next, tail, shape⟩ :
        ∃ next tail, rest.flatMap (header · ptype) ++ ptype :: data = next :: tail := by
      cases rest with
      | nil => exact ⟨ptype, data, rfl⟩
      | cons second others => exact ⟨_, _, rfl⟩
    have loop :=
      ih (headers ++ [⟨ptype.toNat, block.offset, skip, block.data.length⟩])
        (skip + block.data.length)
    rw [shape] at loop
    simp only [flatMap_cons, append_assoc, shape]
    simp only [header, cons_append, nil_append]
    rw [readHeaders, if_neg (by rw [set]; decide)]
    simp only [readHeader_header block small skip, loop, headersFrom, append_assoc,
      singleton_append, length_append]
    rw [Nat.add_assoc]

end

theorem headersFrom_offset (ptype : BYTE) (skip : Nat)
    : (headersFrom skip ptype blocks).map RedHeader.offset = blocks.map Block.offset := by
  induction blocks generalizing skip with
  | nil => rfl
  | cons block rest ih => rw [headersFrom, map_cons, map_cons, ih]

/-- Each header points at the data of its block, by induction on the blocks. -/
theorem headersFrom_slices (ptype : BYTE) (before after : List BYTE)
    : (headersFrom before.length ptype blocks).map
        (fun header =>
          ((before ++ (blocks.flatMap Block.data ++ after)).drop header.ini).take header.size)
      = blocks.map Block.data := by
  induction blocks generalizing before with
  | nil => rfl
  | cons block rest ih =>
    have later := ih (before ++ block.data)
    rw [length_append] at later
    simp only [headersFrom, map_cons, flatMap_cons, append_assoc] at later ⊢
    rw [later, drop_left, take_left]

end Block

namespace RTPRedundantPacket

def redundantBlocks (packet : RTPRedundantPacket) : List (List BYTE) :=
  packet.headers.map (fun header => (packet.redundantData.drop header.ini).take header.size)

theorem getRedundantPayload_eq (packet : RTPRedundantPacket) (i : Nat)
    : packet.getRedundantPayload i = packet.redundantBlocks.getD i [] := by
  rw [getRedundantPayload, redundantBlocks, getD_eq_getElem?_getD, getElem?_map]
  cases packet.headers[i]? <;> rfl

/-- A fresh packet exposes exactly the blocks its payload was made of. -/
theorem setPayload_blocks {packet : RTPRedundantPacket} (fresh : packet.headers = [])
    {blocks : List Block} {ptype : BYTE} {primary : List BYTE} (small : ptype.toNat ≤ 127)
    (fits : (Block.payload blocks ptype primary).length ≤ maxMediaLength)
    : (packet.setPayload (Block.payload blocks ptype primary)).1.redundantBlocks
        = blocks.map Block.data
      ∧ (packet.setPayload (Block.payload blocks ptype primary)).1.primaryData = primary
      ∧ (packet.setPayload (Block.payload blocks ptype primary)).1.headers
        = Block.headersFrom 0 ptype blocks := by
  have loop :=
    Block.readHeaders_blocks blocks small [] 0 (blocks.flatMap Block.data ++ primary)
  have slices := Block.headersFrom_slices blocks ptype [] primary
  rw [setPayload, if_neg (by omega), decodeRedundantPayload]
  simp only [fresh, Block.payload, loop, Nat.zero_add, nil_append]
  rw [if_neg (by simp)]
  refine ⟨?_, drop_left, rfl⟩
  simpa [redundantBlocks] using slices

end RTPRedundantPacket

end MediaServer.Text
