import MediaServer.Foundation.Runs
import MediaServer.Rtp.Packet

/-! One received RTP stream: arrivals get their extended number, are counted, and a gap in
front of them is asked for again. What happens to a numbered packet afterwards (error
correction and the jitter buffer) is not part of the stream's own state.
-/

namespace MediaServer.Rtp

/-- A generic NACK: a lost number, and a mask over the sixteen numbers behind it. -/
structure NACKField where
  pid : Nat
  blp : Nat
  deriving DecidableEq

/-- What a stream asks of its session. -/
structure SessionFlags where
  isNACKEnabled : Bool := true
  isRequestFPU : Bool := false

structure RTPStream where
  recExtSeq : Nat := 0
  recSSRC : DWORD := 0
  recTimestamp : Nat := 0
  recTimeval : QWORD := 0
  recCycles : Nat := 0
  numRecvPackets : Nat := 0
  totalRecvBytes : Nat := 0
  totalRecvPacketsSinceLastSR : Nat := 0
  totalRecvBytesSinceLastSR : Nat := 0
  minRecvExtSeqNumSinceLastSR : Nat := maxExtSeqNum
  jitter : Nat := 0
  recCodec : DWORD := 0

namespace RTPStream

variable (stream : RTPStream)

def wraps (seq : WORD) : Bool :=
  seq.toNat < 0x00FF && stream.recExtSeq % 65536 > 0xFF00

def advanceCycles (seq : WORD) : RTPStream :=
  if stream.wraps seq then { stream with recCycles := (stream.recCycles + 1) % 4294967296 }
  else stream

def setSeqCycles (packet : RTPTimedPacket) : RTPTimedPacket :=
  { packet with cycles := UInt16.ofNat stream.recCycles }

def count (packet : RTPTimedPacket) (size : DWORD) : RTPStream :=
  { stream with
    numRecvPackets := (stream.numRecvPackets + 1) % 4294967296
    totalRecvPacketsSinceLastSR := (stream.totalRecvPacketsSinceLastSR + 1) % 4294967296
    totalRecvBytes := (stream.totalRecvBytes + size.toNat) % 4294967296
    totalRecvBytesSinceLastSR := (stream.totalRecvBytesSinceLastSR + size.toNat) % 4294967296
    recCodec := packet.codec
    minRecvExtSeqNumSinceLastSR :=
      min packet.getExtSeqNum stream.minRecvExtSeqNumSinceLastSR }

def nackFields (lost base : Nat) : List NACKField :=
  if 0 < lost then
    let n := min (lost - 1) 16
    let mask := (0xFFFF <<< (16 - n)) % 65536
    ⟨base, mask⟩ :: nackFields (lost - 1 - n) ((base + 16) % 65536)
  else []
termination_by lost

def nacks (flags : SessionFlags) (extSeq : Nat) : List NACKField :=
  if stream.recExtSeq ≠ 0 ∧ extSeq > (stream.recExtSeq + 1) % 4294967296 then
    let lost := (extSeq - stream.recExtSeq - 1) % 65536
    let base := (stream.recExtSeq + 1) % 65536
    if flags.isNACKEnabled && !flags.isRequestFPU && lost < 0x0FFF then nackFields lost base
    else []
  else []

/-- Interarrival jitter in milliseconds, with the signed 32-bit steps of the code. -/
def updateJitter (clockTimestamp diff : Nat) : Nat :=
  if stream.recTimestamp ≠ 0 ∧ stream.recTimestamp < clockTimestamp then
    let d := Int.bmod (clockTimestamp - stream.recTimestamp - diff : Int) 4294967296
    let v := Int.bmod (d.natAbs - stream.jitter) 4294967296
    ((stream.jitter + v.tdiv 16) % 4294967296).toNat
  else stream.jitter

/-- An arrival that is not out of order becomes the highest one. -/
def advance (packet : RTPTimedPacket) (now : QWORD) : RTPStream :=
  { stream with
    recExtSeq := packet.getExtSeqNum
    recTimeval := now
    jitter :=
      stream.updateJitter packet.getClockTimestamp
        ((now - stream.recTimeval).toNat / 1000 % 4294967296)
    recTimestamp := packet.getClockTimestamp }

/-- `Add` up to the numbered packet that goes on to the buffer, with the NACK fields sent. -/
def add (flags : SessionFlags) (packet : RTPTimedPacket) (size : DWORD) (now : QWORD)
    : RTPStream × RTPTimedPacket × List NACKField :=
  let stream := stream.advanceCycles packet.seqNum
  let packet := stream.setSeqCycles packet
  let stream := stream.count packet size
  if packet.getExtSeqNum > stream.recExtSeq then
    (stream.advance packet now, packet, stream.nacks flags packet.getExtSeqNum)
  else (stream, packet, [])

@[simp] theorem advanceCycles_recExtSeq (seq : WORD)
    : (stream.advanceCycles seq).recExtSeq = stream.recExtSeq := by
  rw [advanceCycles]
  split <;> rfl

theorem advanceCycles_recCycles (seq : WORD)
    : (stream.advanceCycles seq).recCycles
      = if stream.wraps seq then (stream.recCycles + 1) % 4294967296
        else stream.recCycles := by
  rw [advanceCycles]
  split <;> rfl

section

variable (flags : SessionFlags) (packet : RTPTimedPacket) (size : DWORD) (now : QWORD)

/-- The number given to an arrival: the counted wraps above its own sixteen bits. -/
theorem add_number
    : (stream.add flags packet size now).2.1.getExtSeqNum
      = (stream.advanceCycles packet.seqNum).recCycles % 65536 * 65536
        + packet.seqNum.toNat := by
  have number :
      ((stream.advanceCycles packet.seqNum).setSeqCycles packet).getExtSeqNum
        = (stream.advanceCycles packet.seqNum).recCycles % 65536 * 65536
          + packet.seqNum.toNat := by
    rw [setSeqCycles, RTPTimedPacket.getExtSeqNum, extSeqNum_eq, UInt16.toNat_ofNat']
  rw [add]
  split <;> exact number

theorem add_recCycles
    : (stream.add flags packet size now).1.recCycles
      = (stream.advanceCycles packet.seqNum).recCycles := by
  rw [add]
  split <;> rfl

theorem count_recExtSeq
    : ((stream.advanceCycles packet.seqNum).count
        ((stream.advanceCycles packet.seqNum).setSeqCycles packet) size).recExtSeq
      = stream.recExtSeq :=
  advanceCycles_recExtSeq stream packet.seqNum

theorem add_recExtSeq
    : (stream.add flags packet size now).1.recExtSeq
      = max (stream.add flags packet size now).2.1.getExtSeqNum stream.recExtSeq := by
  rw [add]
  split
  · rename_i higher
    rw [count_recExtSeq] at higher
    exact (max_eq_left higher.le).symm
  · rename_i notHigher
    rw [count_recExtSeq] at notHigher
    exact (count_recExtSeq ..).trans (max_eq_right (not_lt.mp notHigher)).symm

end

end RTPStream

end MediaServer.Rtp
