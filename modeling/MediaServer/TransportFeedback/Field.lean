import MediaServer.Medkit

/-! The body of a transport-wide feedback report: arrival times by sequence number, in ticks
of 250 microseconds.
-/

namespace MediaServer.TransportFeedback

def tickUs : Nat := 250

def baseTickUs : Nat := tickUs <<< 8

def timeWrapUs : Nat := baseTickUs <<< 24

theorem tickUs_eq : tickUs = 250 := rfl

theorem baseTickUs_eq : baseTickUs = 64000 := rfl

theorem timeWrapUs_eq : timeWrapUs = 1073741824000 := rfl

/-- The status of one sequence number. The delta is the distance in arrival from the received
packet before it, or from the reference time.
-/
structure PacketStatus where
  seq : WORD
  received : Bool
  deltaTicks : Int
  deriving DecidableEq

/-- A symbol is the number of bytes of the delta. -/
inductive Symbol
  | notReceived | small | large | reserved
  deriving DecidableEq

namespace Symbol

def code : Symbol → Nat
  | notReceived => 0
  | small => 1
  | large => 2
  | reserved => 3

def ofBits (bits : Nat) : Symbol :=
  match bits &&& 0x03 with
  | 0 => notReceived
  | 1 => small
  | 2 => large
  | _ => reserved

def deltaBytes : Symbol → Nat
  | notReceived => 0
  | small => 1
  | large => 2
  | reserved => 3

end Symbol

namespace PacketStatus

def symbol? (status : PacketStatus) : Option Symbol :=
  if !status.received then some .notReceived
  else if 0 ≤ status.deltaTicks ∧ status.deltaTicks ≤ 0xFF then some .small
  else if -32768 ≤ status.deltaTicks ∧ status.deltaTicks ≤ 32767 then some .large
  else none

/-- The bytes of the delta; a word is in two's complement, high byte first. -/
def deltas (status : PacketStatus) : List BYTE :=
  if !status.received then []
  else if 0 ≤ status.deltaTicks ∧ status.deltaTicks ≤ 0xFF then [.ofNat status.deltaTicks.toNat]
  else
    let word := (status.deltaTicks % 65536).toNat
    [.ofNat (word >>> 8), .ofNat (word &&& 0xFF)]

end PacketStatus

structure TransportWideFeedbackField where
  baseSeq : WORD := 0
  referenceTicks : DWORD := 0
  fbSeq : BYTE := 0
  hasTimestamps : Bool := true
  packets : List PacketStatus := []
  lastArrivalTicks : Nat := 0

namespace TransportWideFeedbackField

def referenceOf (arrivalUs : QWORD) : Nat := arrivalUs.toNat % timeWrapUs / baseTickUs

def ticksOf (arrivalUs : QWORD) : Nat := arrivalUs.toNat % timeWrapUs / tickUs

variable (field : TransportWideFeedbackField)

def setBase (seq : WORD) (arrivalUs : QWORD) : TransportWideFeedbackField :=
  { field with
    baseSeq := seq
    referenceTicks := .ofNat (referenceOf arrivalUs)
    lastArrivalTicks := referenceOf arrivalUs <<< 8
    packets := [] }

/-- The first number that is not covered yet. -/
def nextSeq : WORD :=
  match field.packets.getLast? with
  | none => field.baseSeq
  | some last => last.seq + 1

/-- Statuses of numbers that did not arrive. -/
def missing (next : WORD) (count : Nat) : List PacketStatus :=
  (List.range count).map (fun i => ⟨next + .ofNat i, false, 0⟩)

def addReceived (seq : WORD) (arrivalUs : QWORD) : TransportWideFeedbackField × Bool :=
  let gap := seq - field.nextSeq
  let delta : Int := ticksOf arrivalUs - field.lastArrivalTicks
  if gap > 0x7FFF then (field, false)
  else if delta < -32768 ∨ delta > 32767 then (field, false)
  else
    ({ field with
        packets := field.packets ++ missing field.nextSeq gap.toNat ++ [⟨seq, true, delta⟩]
        lastArrivalTicks := ticksOf arrivalUs },
      true)

def headerBytes : Nat := 8

def maxRunLength : Nat := 0x1FFF

def runLength (symbol : Symbol) : List Symbol → Nat → Nat
  | [], run => run
  | next :: rest, run =>
    if next = symbol ∧ run < maxRunLength then runLength symbol rest (run + 1) else run

def runChunk (symbol : Symbol) (run : Nat) : WORD := .ofNat (symbol.code <<< 13 ||| run)

/-- Seven symbols of two bits; places behind the end are zero. -/
def vectorChunk (symbols : List Symbol) : WORD :=
  .ofNat ((List.range 7).foldl
    (fun chunk i => chunk ||| (symbols.getD i .notReceived).code <<< (12 - 2 * i)) 0xC000)

/-- The chunks of all symbols behind the next `skip` ones, which are in the chunk before. -/
def encodeChunks (skip : Nat) : List Symbol → List WORD
  | [] => []
  | symbol :: rest =>
    match skip with
    | skip + 1 => encodeChunks skip rest
    | 0 =>
      let run := runLength symbol rest 1
      if run > 7 ∨ run = rest.length + 1 then
        runChunk symbol run :: encodeChunks (run - 1) rest
      else vectorChunk (symbol :: rest) :: encodeChunks 6 rest

def encode : Option (List WORD × List BYTE) :=
  (field.packets.mapM PacketStatus.symbol?).map
    (fun symbols => (encodeChunks 0 symbols, field.packets.flatMap PacketStatus.deltas))

/-- `(size + 3) & ~3`. -/
def pad4 (size : Nat) : Nat := (size + 3) / 4 * 4

def getSize : Nat :=
  match field.packets, field.encode with
  | _ :: _, some (chunks, deltas) => pad4 (headerBytes + 2 * chunks.length + deltas.length)
  | _, _ => 0

/-- The bytes that `Serialize` writes; it returns their number, and 0 when it refuses. -/
def serialize (medkit : Medkit) (field : TransportWideFeedbackField) (size : Nat) : List BYTE :=
  match field.packets, field.encode with
  | _ :: _, some (chunks, deltas) =>
    let needed := headerBytes + 2 * chunks.length + deltas.length
    if size < pad4 needed then []
    else
      put2 medkit field.baseSeq ++ put2 medkit (.ofNat field.packets.length)
        ++ put3 medkit (field.referenceTicks &&& 0x00FFFFFF) ++ [field.fbSeq]
        ++ chunks.flatMap (put2 medkit) ++ deltas ++ List.replicate (pad4 needed - needed) 0
  | _, _ => []

/-! Parsing. -/

/-- The symbols of a chunk, no more than `remaining` of them. -/
def chunkSymbols (chunk : WORD) (remaining : Nat) : List Symbol :=
  let chunk := chunk.toNat
  if chunk &&& 0x8000 = 0 then
    List.replicate (min (chunk &&& maxRunLength) remaining) (.ofBits (chunk >>> 13))
  else if chunk &&& 0x4000 = 0 then
    ((List.range 14).map (fun i =>
      if (chunk >>> (13 - i)) &&& 0x01 ≠ 0 then .small else .notReceived)).take remaining
  else ((List.range 7).map (fun i => .ofBits (chunk >>> (12 - 2 * i)))).take remaining

def readChunks (medkit : Medkit) (statusCount : Nat) (symbols : List Symbol)
    : List BYTE → Option (List Symbol × List BYTE)
  | high :: low :: rest =>
    if symbols.length < statusCount then
      let read := chunkSymbols (medkit.get2 high low) (statusCount - symbols.length)
      readChunks medkit statusCount (symbols ++ read) rest
    else some (symbols, high :: low :: rest)
  | data => if symbols.length < statusCount then none else some (symbols, data)

/-- `(short) word`. -/
def toShort (word : WORD) : Int :=
  if word.toNat < 0x8000 then word.toNat else word.toNat - 0x10000

def readStatuses (medkit : Medkit) (seq : WORD)
    : List Symbol → List BYTE → Option (List PacketStatus)
  | [], _ => some []
  | .notReceived :: symbols, data =>
    (readStatuses medkit (seq + 1) symbols data).map (⟨seq, false, 0⟩ :: ·)
  | .small :: symbols, delta :: data =>
    (readStatuses medkit (seq + 1) symbols data).map (⟨seq, true, delta.toNat⟩ :: ·)
  | .large :: symbols, high :: low :: data =>
    (readStatuses medkit (seq + 1) symbols data).map
      (⟨seq, true, toShort (medkit.get2 high low)⟩ :: ·)
  | _, _ => none

def bareStatuses (seq : WORD) : List Symbol → List PacketStatus
  | [] => []
  | symbol :: symbols => ⟨seq, symbol ≠ .notReceived, 0⟩ :: bareStatuses (seq + 1) symbols

/-- `Parse`, with the number it returns; a report that is refused may have set some fields. -/
def parse (medkit : Medkit) (field : TransportWideFeedbackField) (data : List BYTE)
    : TransportWideFeedbackField × Nat :=
  match data with
  | b0 :: b1 :: b2 :: b3 :: b4 :: b5 :: b6 :: b7 :: rest =>
    if data.length < headerBytes + 2 then (field, 0)
    else
      let statusCount := (medkit.get2 b2 b3).toNat
      let field :=
        { field with
          baseSeq := medkit.get2 b0 b1
          referenceTicks := medkit.get3 b4 b5 b6
          fbSeq := b7 }
      if statusCount = 0 then (field, 0)
      else
        let field := { field with packets := [], hasTimestamps := true }
        match readChunks medkit statusCount [] rest with
        | none => (field, 0)
        | some (symbols, deltas) =>
          if (symbols.map Symbol.deltaBytes).sum ≤ deltas.length then
            match readStatuses medkit field.baseSeq symbols deltas with
            | none => (field, 0)
            | some packets => ({ field with packets }, data.length)
          else
            let packets := bareStatuses field.baseSeq symbols
            ({ field with packets, hasTimestamps := false }, data.length)
  | _ => (field, 0)

end TransportWideFeedbackField

end MediaServer.TransportFeedback
