import MediaServer.Foundation.OrderedMap
import Mathlib.Data.Nat.Bitwise

/-! Machine words and the part of an RTP packet that the session layer reads. -/

namespace MediaServer

abbrev BYTE := UInt8
abbrev WORD := UInt16
abbrev DWORD := UInt32
abbrev QWORD := UInt64

/-- The largest datagram payload the session builds. -/
def mtu : Nat := 1500

namespace Rtp

/-- The sentinel that no extended sequence number is meant to take. -/
def maxExtSeqNum : Nat := 0xFFFFFFFF

/-- An RTP packet with its arrival time. `cycles` is not on the wire: the receiving stream
counts the wraps of the 16-bit sequence number.
-/
structure RTPTimedPacket where
  seqNum : WORD
  cycles : WORD := 0
  ssrc : DWORD := 0
  timestamp : DWORD := 0
  codec : DWORD := 0
  clockRate : DWORD := 1000
  time : QWORD := 0
deriving DecidableEq, Repr

/-- `((DWORD)cycles) << 16 | GetSeqNum()`. -/
def extSeqNum (cycles seqNum : WORD) : Nat := cycles.toNat <<< 16 ||| seqNum.toNat

/-- The packing of the two halves is a sum, since they occupy different bits. -/
theorem extSeqNum_eq (cycles seqNum : WORD)
    : extSeqNum cycles seqNum = cycles.toNat * 65536 + seqNum.toNat := by
  rw [extSeqNum, ← Nat.shiftLeft_add_eq_or_of_lt seqNum.toNat_lt, Nat.shiftLeft_eq]

theorem extSeqNum_lt (cycles seqNum : WORD) : extSeqNum cycles seqNum < 4294967296 := by
  rw [extSeqNum_eq]
  have hc := cycles.toNat_lt
  have hs := seqNum.toNat_lt
  omega

namespace RTPTimedPacket

def getExtSeqNum (packet : RTPTimedPacket) : Nat := extSeqNum packet.cycles packet.seqNum

/-- Media time in milliseconds, `static_cast<QWORD>(timestamp) * 1000 / clockRate`. -/
def getClockTimestamp (packet : RTPTimedPacket) : Nat :=
  packet.timestamp.toNat * 1000 / packet.clockRate.toNat % 4294967296

end RTPTimedPacket

end Rtp

end MediaServer
