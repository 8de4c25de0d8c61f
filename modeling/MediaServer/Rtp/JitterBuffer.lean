import MediaServer.Foundation.Runs
import MediaServer.Rtp.Packet

/-! The reordering jitter buffer.
Every method body runs under one lock, and `Wait` releases it between two looks at the
queue, so an execution is a sequence of whole method bodies and of single looks.
-/

namespace MediaServer.Rtp

open Foundation

/-- Depth of the queue, in milliseconds of arrivals. -/
def maxQueuedMs : QWORD := 500

/-- `(DWORD)-1`: no packet is expected. -/
def noNext : Nat := 0xFFFFFFFF

structure RTPBuffer where
  packets : OrderedMap Nat RTPTimedPacket := .empty
  cancel : Bool := false
  hurryUp : Bool := false
  next : Nat := noNext
  maxWaitTime : DWORD := 0
  bigJumps : Nat := 0
  lastSsrc : DWORD := 0
  hasSsrc : Bool := false
  lastDropLogMs : QWORD := 0
  droppedSinceLog : Nat := 0

namespace RTPBuffer

variable (buffer : RTPBuffer)

def changesSsrc (rtp : RTPTimedPacket) : Bool :=
  buffer.hasSsrc && rtp.ssrc != buffer.lastSsrc

/-- Follow the source of the packet; a new source expects no number. -/
def trackSsrc (rtp : RTPTimedPacket) : RTPBuffer :=
  let buffer :=
    if buffer.changesSsrc rtp then { buffer with next := noNext, bigJumps := 0 } else buffer
  { buffer with lastSsrc := rtp.ssrc, hasSsrc := true }

def isPast (rtp : RTPTimedPacket) : Bool :=
  buffer.next != noNext && rtp.getExtSeqNum < buffer.next

/-- The queue without the head packets that arrived too long before `now`. -/
def keptAt (now : QWORD) : OrderedMap Nat RTPTimedPacket :=
  buffer.packets.dropFrontWhile (fun entry => ¬ now < entry.2.time + maxQueuedMs)

/-- `DropOverflow`: a dropped head may be the expected packet, so nothing is expected. -/
def dropOverflow (now : QWORD) : RTPBuffer :=
  let dropped := buffer.packets.size - (buffer.keptAt now).size
  if dropped = 0 then buffer
  else
    let logs := now ≥ buffer.lastDropLogMs + 1000
    { buffer with
      packets := buffer.keptAt now
      next := noNext
      lastDropLogMs := if logs then now else buffer.lastDropLogMs
      droppedSinceLog :=
        if logs then 0 else (buffer.droppedSinceLog + dropped) % 4294967296 }

/-- Queue the packet; a number that is already queued keeps its first packet. -/
def enqueue (rtp : RTPTimedPacket) : RTPBuffer :=
  match buffer.packets.find? rtp.getExtSeqNum with
  | some _ => buffer
  | none =>
    dropOverflow
      { buffer with packets := buffer.packets.insert rtp.getExtSeqNum rtp } rtp.time

/-- `Add`, with its return value: `false` when the packet is too old and lost. -/
def add (rtp : RTPTimedPacket) : RTPBuffer × Bool :=
  let buffer := buffer.trackSsrc rtp
  if buffer.isPast rtp then
    if buffer.bigJumps + 1 > 20 then
      (enqueue { buffer with next := noNext, bigJumps := 0 } rtp, true)
    else ({ buffer with bigJumps := buffer.bigJumps + 1 }, false)
  else (buffer.enqueue rtp, true)

/-- One look of `Wait` at the queue, `now` being the time in milliseconds. -/
def wait (now : QWORD) : RTPBuffer × Option RTPTimedPacket :=
  if buffer.cancel then (buffer, none)
  else
    match buffer.packets.entries.head? with
    | some (seq, candidate) =>
      if buffer.next = noNext ∨ seq = buffer.next
          ∨ now ≥ candidate.time + buffer.maxWaitTime.toUInt64 ∨ buffer.hurryUp then
        ({ buffer with
            next := (seq + 1) % 4294967296
            packets := buffer.packets.dropFront }, some candidate)
      else (buffer, none)
    | none => ({ buffer with hurryUp := false }, none)

def clear : RTPBuffer := { buffer with packets := .empty }

def reset (clear : Bool) : RTPBuffer :=
  let buffer := { buffer with cancel := false }
  let buffer :=
    if clear then { buffer with packets := .empty, next := noNext, hasSsrc := false }
    else buffer
  { buffer with bigJumps := 0 }

/-- The public operations, `wait` being one look of a `Wait` call. -/
inductive Op where
  | add (rtp : RTPTimedPacket)
  | wait (now : QWORD)
  | hurryUp
  | setMaxWaitTime (maxWaitTime : DWORD)
  | clear
  | reset (clear : Bool)
  | cancel

def step : Op → RTPBuffer × Option RTPTimedPacket
  | .add rtp => ((buffer.add rtp).1, none)
  | .wait now => buffer.wait now
  | .hurryUp => ({ buffer with hurryUp := true }, none)
  | .setMaxWaitTime maxWaitTime => ({ buffer with maxWaitTime }, none)
  | .clear => (buffer.clear, none)
  | .reset clear => (buffer.reset clear, none)
  | .cancel => ({ buffer with cancel := true }, none)

end RTPBuffer

end MediaServer.Rtp
