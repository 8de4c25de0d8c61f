import MediaServer.Foundation.OrderedMap
import MediaServer.Foundation.Runs
import MediaServer.Rtmp.Message

/-! The chunk reader of an RTMP connection: `ParseData` after the handshake. It takes the
bytes of a segment, collects chunks into messages, and hands the messages over.
-/

namespace MediaServer.Rtmp

open Foundation Amf

structure RTMPChunkInputStream where
  type : BYTE
  streamId : DWORD
  length : DWORD
  timestamp : DWORD
  timestampDelta : DWORD
  message : Option RTMPMessage

namespace RTMPChunkInputStream

def new (unset : BYTE) : RTMPChunkInputStream := ⟨unset, 0xFFFFFFFF, 0xFFFFFFFF, 0, 0, none⟩

variable (stream : RTMPChunkInputStream)

def increaseTimestampWithDelta : RTMPChunkInputStream :=
  { stream with timestamp := stream.timestamp + stream.timestampDelta }

def setTimestamp (timestamp : DWORD) : RTMPChunkInputStream :=
  { stream with timestamp := timestamp, timestampDelta := 0 }

def addDelta (delta : DWORD) : RTMPChunkInputStream :=
  { stream with timestampDelta := delta }.increaseTimestampWithDelta

/-- A message is opened unless one is open already. -/
def startChunkData : RTMPChunkInputStream :=
  match stream.message with
  | some _ => stream
  | none =>
    { stream with
      message := some (.new stream.streamId stream.timestamp stream.type stream.length.toNat) }

end RTMPChunkInputStream

inductive ReaderState
  | chunkHeaderWait
  | chunkTypeWait
  | chunkExtTimestampWait
  | chunkDataWait
  deriving DecidableEq

/-- The part of `RTMPConnection` that reads chunks, and the messages that it has handed over
so far with their chunk streams. The stream of the current chunk is the one of
`chunkStreamId`.
-/
structure RTMPConnection where
  state : ReaderState
  header : RTMPFormat
  type0 : RTMPFormat
  type1 : RTMPFormat
  type2 : RTMPFormat
  extts : RTMPFormat
  chunkInputStreams : OrderedMap Nat RTMPChunkInputStream
  chunkStreamId : Nat
  chunkLen : Nat
  maxChunkSize : Nat
  handed : List (Nat × RTMPMessage)

/-- Why a call does not come back: the messages it has handed over, and the failure. The limit
on new chunk streams is an exception of its own.
-/
inductive Stop
  | failed (handed : List (Nat × RTMPMessage)) (failure : Failure)
  | tooManyStreams (handed : List (Nat × RTMPMessage))

/-- What the handlers of messages do: whether the one that gets the last of these messages
throws an exception.
-/
structure Application where
  throws : List (Nat × RTMPMessage) → Bool

namespace RTMPConnection

/-- A connection behind its handshake. -/
def start (maxChunkSize : Nat) : RTMPConnection where
  state := .chunkHeaderWait
  header := RTMPChunkBasicHeader.new
  type0 := RTMPChunkType0.new
  type1 := RTMPChunkType1.new
  type2 := RTMPChunkType2.new
  extts := RTMPExtendedTimestamp.new
  chunkInputStreams := .empty
  chunkStreamId := 0
  chunkLen := 0
  maxChunkSize := maxChunkSize
  handed := []

abbrev Turned := Except Stop (Pass RTMPConnection BYTE)

/-! Headers. -/

/-- A complete basic header clears the other headers. -/
def headerRead (connection : RTMPConnection) (header : RTMPFormat) : RTMPConnection :=
  if header.isParsed then
    { connection with
      header := header, type0 := RTMPChunkType0.new, type1 := RTMPChunkType1.new,
      type2 := RTMPChunkType2.new, extts := RTMPExtendedTimestamp.new, state := .chunkTypeWait }
  else { connection with header := header }

def headerTurn (connection : RTMPConnection) (buffer : List BYTE) : Turned :=
  let (header, rest) := RTMPChunkBasicHeader.parse connection.header buffer
  .ok ⟨connection.headerRead header, rest, true⟩

variable (platform : Platform)

def named (connection : RTMPConnection) : RTMPChunkInputStream :=
  (connection.chunkInputStreams.find?
    (RTMPChunkBasicHeader.getStreamId connection.header)).getD (.new platform.unset)

def setStream (connection : RTMPConnection) (stream : RTMPChunkInputStream) : RTMPConnection :=
  { connection with
    chunkStreamId := RTMPChunkBasicHeader.getStreamId connection.header,
    chunkInputStreams := connection.chunkInputStreams.insert
      (RTMPChunkBasicHeader.getStreamId connection.header) stream }

def beginData (connection : RTMPConnection) (stream : RTMPChunkInputStream)
    (extended : Bool) : RTMPConnection :=
  { connection.setStream stream.startChunkData with
    state := if extended then .chunkExtTimestampWait else .chunkDataWait,
    chunkLen := 0 }

/-- The timestamp field of a header that says that the timestamp comes behind it. -/
def extendedMark : DWORD := 0xFFFFFF

def applyType0 (medkit : Medkit) (type0 : RTMPFormat) (stream : RTMPChunkInputStream)
    : RTMPChunkInputStream :=
  let stream :=
    { stream with
      length := RTMPChunkType0.getMessageLength medkit type0,
      type := RTMPChunkType0.getMessageTypeId type0,
      streamId := RTMPChunkType0.getMessageStreamId type0 }
  if RTMPChunkType0.getTimestamp medkit type0 = extendedMark then stream
  else stream.setTimestamp (RTMPChunkType0.getTimestamp medkit type0)

def applyType1 (medkit : Medkit) (type1 : RTMPFormat) (stream : RTMPChunkInputStream)
    : RTMPChunkInputStream :=
  let stream :=
    { stream with
      length := RTMPChunkType1.getMessageLength medkit type1,
      type := RTMPChunkType1.getMessageTypeId type1 }
  if RTMPChunkType1.getTimestampDelta medkit type1 = extendedMark then stream
  else stream.addDelta (RTMPChunkType1.getTimestampDelta medkit type1)

def applyType2 (medkit : Medkit) (type2 : RTMPFormat) (stream : RTMPChunkInputStream)
    : RTMPChunkInputStream :=
  if RTMPChunkType2.getTimestampDelta medkit type2 = extendedMark then stream
  else stream.addDelta (RTMPChunkType2.getTimestampDelta medkit type2)

def applyType3 (stream : RTMPChunkInputStream) : RTMPChunkInputStream :=
  if stream.message.isNone then stream.increaseTimestampWithDelta else stream

/-- A message header that is complete begins the data, an incomplete one waits. -/
def formatRead (connection : RTMPConnection) (stream begun : RTMPChunkInputStream)
    (extended parsed : Bool) : RTMPConnection :=
  if parsed then connection.beginData begun extended else connection.setStream stream

def typeTurn (connection : RTMPConnection) (buffer : List BYTE) : Turned :=
  let stream := connection.named platform
  let medkit := platform.medkit
  match RTMPChunkBasicHeader.getFmt connection.header with
  | 0 =>
    let (type0, rest) := connection.type0.parse fixedSize buffer
    .ok ⟨{ connection with type0 := type0 }.formatRead stream (applyType0 medkit type0 stream)
        (RTMPChunkType0.getTimestamp medkit type0 = extendedMark) type0.isParsed, rest, true⟩
  | 1 =>
    let (type1, rest) := connection.type1.parse fixedSize buffer
    .ok ⟨{ connection with type1 := type1 }.formatRead stream (applyType1 medkit type1 stream)
        (RTMPChunkType1.getTimestampDelta medkit type1 = extendedMark) type1.isParsed, rest,
      true⟩
  | 2 =>
    let (type2, rest) := connection.type2.parse fixedSize buffer
    .ok ⟨{ connection with type2 := type2 }.formatRead stream (applyType2 medkit type2 stream)
        (RTMPChunkType2.getTimestampDelta medkit type2 = extendedMark) type2.isParsed, rest,
      true⟩
  | _ => .ok ⟨connection.beginData (applyType3 stream) false, buffer, true⟩

def applyExtended (connection : RTMPConnection) (timestamp : DWORD)
    (stream : RTMPChunkInputStream) : RTMPChunkInputStream :=
  if RTMPChunkBasicHeader.getFmt connection.header = 1 then stream.setTimestamp timestamp
  else stream.addDelta timestamp

def current (connection : RTMPConnection) : RTMPChunkInputStream :=
  (connection.chunkInputStreams.find? connection.chunkStreamId).getD (.new platform.unset)

def setCurrent (connection : RTMPConnection) (stream : RTMPChunkInputStream) : RTMPConnection :=
  { connection with
    chunkInputStreams := connection.chunkInputStreams.insert connection.chunkStreamId stream }

def extTurn (connection : RTMPConnection) (buffer : List BYTE) : Turned :=
  let (extts, rest) := connection.extts.parse fixedSize buffer
  let connection := { connection with extts := extts }
  if extts.isParsed then
    let timestamp := RTMPExtendedTimestamp.getTimestamp platform.medkit extts
    .ok ⟨{ connection.setCurrent
        (connection.applyExtended timestamp (connection.current platform)) with
      state := .chunkDataWait }, rest, true⟩
  else .ok ⟨connection, rest, true⟩

/-! Data. -/

/-- How much of the buffer belongs to the current chunk. -/
def room (connection : RTMPConnection) (size : Nat) : Nat :=
  if connection.maxChunkSize ≠ 0 ∧ connection.chunkLen + size > connection.maxChunkSize
  then connection.maxChunkSize - connection.chunkLen
  else size

def chunkSizeAfter (connection : RTMPConnection) (message : RTMPMessage) : Nat :=
  match MessageType.ofId message.type, message.body with
  | .setChunkSize, .control _ ctrl => (ctrl.get4 platform.medkit 0).toNat
  | _, _ => connection.maxChunkSize

/-- The calls so far, with the one that hands over a complete message. A media message without
a frame is dropped.
-/
def handedWith (connection : RTMPConnection) (message : RTMPMessage) : List (Nat × RTMPMessage) :=
  match message.body with
  | .noMedia => connection.handed
  | _ => connection.handed ++ [(connection.chunkStreamId, message)]

def handlerThrows (application : Application) (connection : RTMPConnection)
    (message : RTMPMessage) : Bool :=
  match message.body with
  | .noMedia => false
  | _ => application.throws (connection.handedWith message)

def deliver (application : Application) (connection : RTMPConnection) (message : RTMPMessage)
    : Except Stop RTMPConnection :=
  if connection.handlerThrows application message then
    .error (.failed (connection.handedWith message) .exception)
  else
    .ok { connection.setCurrent { connection.current platform with message := none } with
      handed := connection.handedWith message,
      maxChunkSize := connection.chunkSizeAfter platform message,
      state := .chunkHeaderWait,
      header := RTMPChunkBasicHeader.new }

/-- `len` bytes of the chunk were read; a chunk that is full is followed by a header. -/
def chunkRead (connection : RTMPConnection) (len : Nat) : RTMPConnection :=
  if connection.maxChunkSize ≠ 0 ∧ connection.chunkLen + len ≥ connection.maxChunkSize then
    { connection with
      chunkLen := connection.chunkLen + len, state := .chunkHeaderWait,
      header := RTMPChunkBasicHeader.new }
  else { connection with chunkLen := connection.chunkLen + len }

def filled (application : Application) (connection : RTMPConnection) (message : RTMPMessage)
    (len : Nat) : Except Stop RTMPConnection :=
  if message.parsing then
    if len = 0 then .error (.failed connection.handed .exception)
    else
      .ok ((connection.setCurrent
        { connection.current platform with message := some message }).chunkRead len)
  else (connection.deliver platform application message).map (fun next => next.chunkRead len)

def dataTurn (application : Application) (connection : RTMPConnection) (buffer : List BYTE)
    : Turned :=
  let size := connection.room buffer.length
  if size = 0 then .ok ⟨connection, buffer, true⟩
  else
    match (connection.current platform).message with
    | none => .error (.failed connection.handed .exception)
    | some message =>
      match message.parse platform (buffer.take size) with
      | .error failure => .error (.failed connection.handed failure)
      | .ok next =>
        (connection.filled platform application next (message.takes size)).map
          (fun after => ⟨after, buffer.drop (message.takes size), true⟩)

/-! Segments. -/

def turn (application : Application) (connection : RTMPConnection) (buffer : List BYTE) : Turned :=
  match connection.state with
  | .chunkHeaderWait => connection.headerTurn buffer
  | .chunkTypeWait => connection.typeTurn platform buffer
  | .chunkExtTimestampWait => connection.extTurn platform buffer
  | .chunkDataWait => connection.dataTurn platform application buffer

/-- The turns between two headers that take nothing. -/
def rank (connection : RTMPConnection) : Nat :=
  match connection.state with
  | .chunkHeaderWait => 0
  | .chunkTypeWait => 2
  | .chunkExtTimestampWait => 2
  | .chunkDataWait => 1

/-- The loop without its limit on new chunk streams. -/
def loop (application : Application) : Loop RTMPConnection BYTE Stop where
  turn := turn platform application
  rank := rank
  pace := 3
  stuck connection := .failed connection.handed .crash

def opensStream (connection : RTMPConnection) : Bool :=
  connection.state = .chunkTypeWait
  ∧ (connection.chunkInputStreams.find?
      (RTMPChunkBasicHeader.getStreamId connection.header)).isNone

def countStreams (connection : RTMPConnection) (count : Nat) : Nat :=
  match connection.state with
  | .chunkTypeWait => if connection.opensStream then count + 1 else 0
  | _ => count

def countedTurn (application : Application) (counted : RTMPConnection × Nat) (buffer : List BYTE)
    : Except Stop (Pass (RTMPConnection × Nat) BYTE) :=
  let count := counted.1.countStreams counted.2
  if counted.1.opensStream ∧ count > 5 then .error (.tooManyStreams counted.1.handed)
  else (counted.1.turn platform application buffer).map
    (fun pass => ⟨(pass.state, count), pass.rest, pass.again⟩)

def countedLoop (application : Application) : Loop (RTMPConnection × Nat) BYTE Stop where
  turn := countedTurn platform application
  rank counted := counted.1.rank
  pace := 3
  stuck counted := .failed counted.1.handed .crash

/-- `ParseData` on one segment. The count of new chunk streams is a variable of the call. -/
def parseData (application : Application) (connection : RTMPConnection) (segment : List BYTE)
    : Except Stop RTMPConnection :=
  ((countedLoop platform application).run (connection, 0) segment).map
    (fun pass => pass.state.1)

/-- Segment after segment, until a call does not come back. -/
def receive (application : Application) (reached : Except Stop RTMPConnection) (segment : List BYTE)
    : Except Stop RTMPConnection :=
  reached >>= fun connection => connection.parseData platform application segment

end RTMPConnection

end MediaServer.Rtmp
