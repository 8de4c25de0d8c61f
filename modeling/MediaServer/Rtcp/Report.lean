import MediaServer.Medkit

/-! The report block of sender and receiver reports. -/

namespace MediaServer.Rtcp

/-- `RTCPReport`: 24 bytes that are read and written through accessors. -/
structure RTCPReport where
  buffer : List BYTE
  size : buffer.length = 24
  deriving DecidableEq

namespace RTCPReport

def byte (report : RTCPReport) (i : Nat) : BYTE := report.buffer.getD i 0

/-- The source spells it `GetFactionLost`. -/
def getFactionLost (report : RTCPReport) : BYTE := report.byte 4

def getLostCount (medkit : Medkit) (report : RTCPReport) : DWORD :=
  medkit.get3 (report.byte 5) (report.byte 6) (report.byte 7)

/-- A new report on which all setters were called. -/
def new (medkit : Medkit) (ssrc : DWORD) (fraction : BYTE)
    (count seq jitter lastSR delaySinceLastSR : DWORD) : RTCPReport where
  buffer :=
    put4 medkit ssrc ++ [fraction] ++ put3 medkit count ++ put4 medkit seq ++ put4 medkit jitter
      ++ put4 medkit lastSR ++ put4 medkit delaySinceLastSR
  size := rfl

end RTCPReport

end MediaServer.Rtcp
