import MediaServer.Medkit

/-! The tables of the FEC decoder: media packets by extended number, and recovery codes by the
number of their first packet.
-/

namespace MediaServer.Fec

open Foundation Rtp

/-- The largest payload behind the fixed RTP header. -/
def maxMediaLength : Nat := 1700 - 12

/-- An RTP packet with all that the decoder reads of it. -/
structure RTPMediaPacket extends RTPTimedPacket where
  p : Bool := false
  x : Bool := false
  cc : BYTE := 0
  mark : Bool := false
  type : BYTE := 0
  payload : List BYTE := []
  fits : payload.length ≤ maxMediaLength := by decide

/-- `RTPTimedPacket::Clone`. The source of the packet is not among what is copied. -/
def RTPMediaPacket.clone (packet : RTPMediaPacket) : RTPMediaPacket where
  seqNum := packet.seqNum
  cycles := packet.cycles
  timestamp := packet.timestamp
  codec := packet.codec
  clockRate := packet.clockRate
  time := packet.time
  mark := packet.mark
  type := packet.type
  payload := packet.payload
  fits := packet.fits

/-- Whether a block of a redundant packet holds a recovery code. -/
inductive BlockCodec
  | ulpfec
  | media (codec : DWORD)
  deriving DecidableEq

/-- A packet with redundant blocks. Its header is that of a packet without payload. -/
structure RedPacket where
  header : RTPMediaPacket
  primaryCodec : BlockCodec
  primaryType : BYTE
  primaryData : List BYTE
  fits : primaryData.length ≤ maxMediaLength
  redundant : List (BlockCodec × List BYTE)

/-- `CreatePrimaryPacket`, `now` being the time at which it is created. -/
def RedPacket.createPrimaryPacket (red : RedPacket) (codec : DWORD) (now : QWORD)
    : RTPMediaPacket where
  seqNum := red.header.seqNum
  cycles := red.header.cycles
  ssrc := red.header.ssrc
  timestamp := red.header.timestamp
  codec := codec
  clockRate := red.header.clockRate
  time := now
  mark := red.header.mark
  type := red.primaryType
  payload := red.primaryData
  fits := red.fits

/-! Recovery codes. -/

/-- `FECData`: as much of a recovery code as fits; what lies behind it reads as zero. The
count of wraps of its base number is never set.
-/
structure FECData where
  data : List BYTE
  size : data.length ≤ mtu
  deriving DecidableEq

namespace FECData

variable (medkit : Medkit) (fec : FECData)

def new (data : List BYTE) : FECData where
  data := data.take mtu
  size := List.length_take_le mtu data

def byte (i : Nat) : BYTE := fec.data.getD i 0

def get2 (i : Nat) : WORD := medkit.get2 (fec.byte i) (fec.byte (i + 1))

def get4 (i : Nat) : DWORD :=
  medkit.get4 (fec.byte i) (fec.byte (i + 1)) (fec.byte (i + 2)) (fec.byte (i + 3))

def getLongMask : Bool := fec.byte 0 &&& 0x40 ≠ 0

def getRecoveryP : Bool := fec.byte 0 &&& 0x20 ≠ 0

def getRecoveryX : Bool := fec.byte 0 &&& 0x10 ≠ 0

def getRecoveryCC : BYTE := fec.byte 0 &&& 0x0F

def getRecoveryM : Bool := fec.byte 1 &&& 0x80 ≠ 0

def getRecoveryType : BYTE := fec.byte 1 &&& 0x7F

def getBaseSeqNum : WORD := fec.get2 medkit 2

def getRecoveryTimestamp : DWORD := fec.get4 medkit 4

def getRecoveryLength : WORD := fec.get2 medkit 8

def getBaseExtSeq : Nat := extSeqNum 0 (fec.getBaseSeqNum medkit)

def getLevel0Offset : Nat := if fec.getLongMask then 18 else 14

def getLevel0Data : List BYTE := fec.data.drop fec.getLevel0Offset

/-- The announced length, as far as it was received. -/
def getLevel0Size : Nat :=
  min (fec.get2 medkit 10).toNat (fec.data.length - fec.getLevel0Offset)

/-- The mask of the protected packets, the first one in the highest bit. -/
def getLevel0Mask : QWORD :=
  let mask := (fec.get2 medkit 12).toUInt64 <<< 48
  if fec.getLongMask then mask ||| (fec.get4 medkit 14).toUInt64 <<< 16 else mask

/-- The number is given as an `int`. -/
def isProtectedAtLevel0 (seq : Nat) : Bool :=
  let base := (fec.getBaseSeqNum medkit).toNat
  if 2 ^ 31 ≤ seq ∨ seq < base ∨ seq > base + 48 then false
  else (fec.getLevel0Mask medkit >>> .ofNat (64 - (seq - base) - 1)) &&& 1 ≠ 0

end FECData

/-! Tables. -/

structure FECDecoder where
  medias : OrderedMap Nat RTPMediaPacket := .empty
  codes : OrderedMap Nat FECData := .empty

inductive Arrival
  | media (packet : RTPMediaPacket)
  | ulpfec (payload : List BYTE)
  | red (packet : RedPacket) (now : QWORD)

namespace FECDecoder

variable (medkit : Medkit)

def addCode (codes : OrderedMap Nat FECData) (payload : List BYTE) : OrderedMap Nat FECData :=
  codes.insert ((FECData.new payload).getBaseExtSeq medkit) (.new payload)

def redundantCodes (red : RedPacket) : List (List BYTE) :=
  (red.redundant.take (red.redundant.length % 256)).filterMap
    (fun (codec, data) => if codec = .ulpfec then some data else none)

/-- `seq-63` in words of 32 bits. -/
def oldest (seq : Nat) : Nat := (seq + (4294967296 - 63)) % 4294967296

/-- Both tables without what lies too far behind the last media packet. -/
def prune (decoder : FECDecoder) : FECDecoder :=
  match decoder.medias.keys.getLast? with
  | none => decoder
  | some seq =>
    { medias := decoder.medias.dropFrontWhile (fun entry => entry.1 < oldest seq)
      codes := decoder.codes.dropFrontWhile (fun entry => entry.1 < oldest seq) }

def content : Arrival → Option RTPMediaPacket × List (List BYTE)
  | .media packet => (some packet.clone, [])
  | .ulpfec payload => (none, [payload])
  | .red red now =>
    match red.primaryCodec with
    | .ulpfec => (none, [red.primaryData])
    | .media codec => (some (red.createPrimaryPacket codec now), redundantCodes red)

/-- `AddPacket`, with its return value: whether the packet has media. -/
def addPacket (decoder : FECDecoder) (arrival : Arrival) : FECDecoder × Bool :=
  let (media, codes) := content arrival
  let codes := codes.foldl (addCode medkit) decoder.codes
  match media with
  | none => ({ decoder with codes }, false)
  | some packet =>
    (prune { medias := decoder.medias.insert packet.getExtSeqNum packet, codes }, true)

end FECDecoder

end MediaServer.Fec
