import MediaServer.Foundation.Runs
import MediaServer.Rtmp.Formats

/-! The chunk writer of an RTMP connection: messages are queued on chunk streams, and
`SerializeChunkData` fills a buffer with their chunks.
-/

namespace MediaServer.Rtmp

open Foundation

/-- A message that is to be sent, with the bytes that `RTMPMessage::Serialize` gives for it. -/
structure OutgoingMessage where
  type : BYTE
  streamId : DWORD
  timestamp : DWORD
  payload : List BYTE
  deriving DecidableEq

namespace OutgoingMessage

def length (message : OutgoingMessage) : DWORD := .ofNat message.payload.length

end OutgoingMessage

/-! Headers. -/

/-- A `DWORD` as it lies in memory. -/
def putHostOrder (value : DWORD) : List BYTE :=
  [value.toUInt8, (value >>> 8).toUInt8, (value >>> 16).toUInt8, (value >>> 24).toUInt8]

/-- `RTMPChunkBasicHeader` with the values of `SetFmt` and `SetStreamId`. -/
def RTMPChunkBasicHeader.serialize (fmt : BYTE) (csid : Nat) : List BYTE :=
  if csid < 64 then [fmt <<< 6 ||| .ofNat csid]
  else if csid < 320 then [fmt <<< 6, .ofNat (csid - 64)]
  else [fmt <<< 6 ||| 1, .ofNat (csid - 64), .ofNat ((csid - 64) / 256)]

def RTMPChunkType0.serialize (medkit : Medkit) (timestamp length : DWORD) (typeId : BYTE)
    (streamId : DWORD) : List BYTE :=
  put3 medkit timestamp ++ put3 medkit length ++ [typeId] ++ putHostOrder streamId

def RTMPChunkType1.serialize (medkit : Medkit) (delta length : DWORD) (typeId : BYTE) : List BYTE :=
  put3 medkit delta ++ put3 medkit length ++ [typeId]

def RTMPChunkType2.serialize (medkit : Medkit) (delta : DWORD) : List BYTE := put3 medkit delta

def RTMPExtendedTimestamp.serialize (medkit : Medkit) (timestamp : DWORD) : List BYTE :=
  put4 medkit timestamp

/-! Chunk streams. -/

/-- `RTMPChunkOutputStream`: the values of the last message, the messages in the queue, and
what was serialized of the message that is being sent.
-/
structure RTMPChunkOutputStream where
  type : BYTE
  streamId : DWORD
  length : DWORD
  timestamp : DWORD
  timestampDelta : DWORD
  messages : List OutgoingMessage
  msgBuffer : Option (List BYTE)
  pos : Nat

namespace RTMPChunkOutputStream

def new (unset : BYTE) : RTMPChunkOutputStream :=
  ⟨unset, 0xFFFFFFFF, 0xFFFFFFFF, 0, 0, [], none, 0⟩

variable (stream : RTMPChunkOutputStream)

def sendMessage (message : OutgoingMessage) : RTMPChunkOutputStream :=
  { stream with messages := stream.messages ++ [message] }

def hasData : Bool :=
  stream.msgBuffer.isSome || !stream.messages.isEmpty

/-- The kinds of headers that a first chunk can have. -/
inductive Fmt
  | type0
  | type1
  | type2
  | type3
  deriving DecidableEq

def Fmt.code : Fmt → BYTE
  | .type0 => 0
  | .type1 => 1
  | .type2 => 2
  | .type3 => 3

/-- Which header a message gets. The last test of the first line is for time that goes
backward.
-/
def selectHeader (message : OutgoingMessage) : Fmt :=
  if message.streamId = 0 ∨ message.streamId ≠ stream.streamId
      ∨ message.timestamp < stream.timestamp then .type0
  else if message.length ≠ stream.length ∨ message.type ≠ stream.type then .type1
  else if message.timestamp - stream.timestamp ≠ stream.timestampDelta then .type2
  else .type3

def chunkHeader (medkit : Medkit) (stream : RTMPChunkOutputStream) (message : OutgoingMessage)
    : List BYTE :=
  match stream.selectHeader message with
  | .type0 =>
    if message.timestamp ≥ 0xFFFFFF then
      RTMPChunkType0.serialize medkit 0xFFFFFF message.length message.type message.streamId
        ++ RTMPExtendedTimestamp.serialize medkit message.timestamp
    else
      RTMPChunkType0.serialize medkit message.timestamp message.length message.type
        message.streamId
  | .type1 =>
    RTMPChunkType1.serialize medkit (message.timestamp - stream.timestamp) message.length
      message.type
  | .type2 => RTMPChunkType2.serialize medkit (message.timestamp - stream.timestamp)
  | .type3 => []

def startMessage (message : OutgoingMessage) (rest : List OutgoingMessage)
    : RTMPChunkOutputStream where
  type := message.type
  streamId := message.streamId
  length := message.length
  timestamp := message.timestamp
  timestampDelta :=
    if stream.selectHeader message = .type0 then 0 else message.timestamp - stream.timestamp
  messages := rest
  msgBuffer := some message.payload
  pos := 0

def payloadLen (headersLen size maxChunkSize : Nat) : Nat :=
  min (min maxChunkSize (stream.length.toNat - stream.pos)) (size - headersLen)

def copyPayload (buffer headers : List BYTE) (size maxChunkSize : Nat)
    : List BYTE × RTMPChunkOutputStream :=
  let len := stream.payloadLen headers.length size maxChunkSize
  let sent := headers ++ (buffer.drop stream.pos).take len
  if stream.pos + len = stream.length.toNat then
    (sent, { stream with msgBuffer := none, pos := stream.pos + len })
  else (sent, { stream with pos := stream.pos + len })

def getNextChunk (medkit : Medkit) (csid : Nat) (stream : RTMPChunkOutputStream)
    (size maxChunkSize : Nat) : List BYTE × RTMPChunkOutputStream :=
  match stream.msgBuffer, stream.messages with
  | some buffer, _ =>
    stream.copyPayload buffer (RTMPChunkBasicHeader.serialize Fmt.type3.code csid) size
      maxChunkSize
  | none, message :: rest =>
    let headers := RTMPChunkBasicHeader.serialize (stream.selectHeader message).code csid
      ++ stream.chunkHeader medkit message
    (stream.startMessage message rest).copyPayload message.payload headers size maxChunkSize
  | none, [] => ([], stream)

end RTMPChunkOutputStream

/-! Buffers. -/

/-- The sending side of a connection: its chunk streams in the order of their ids, and the
bytes that the calls of `SerializeChunkData` have given so far.
-/
structure ChunkOutput where
  chunkOutputStreams : List (Nat × RTMPChunkOutputStream)
  wire : List BYTE

/-- What one chunk stream adds to a buffer: its bytes, what becomes of it, and whether the
buffer has no space for another chunk.
-/
structure StreamOutput where
  bytes : List BYTE
  stream : RTMPChunkOutputStream
  full : Bool

namespace ChunkOutput

/-- The loop over the chunks of one stream. Streams 4 and above give up after six chunks. Each
turn writes at least a header, so the loop ends before `fuel` does that counts the buffer.
-/
def writeStream (medkit : Medkit) (maxOutChunkSize csid : Nat)
    : Nat → Nat → Nat → RTMPChunkOutputStream → StreamOutput
  | 0, _, _, stream => ⟨[], stream, true⟩
  | fuel + 1, count, space, stream =>
    if stream.hasData then
      if space < maxOutChunkSize + 12 then ⟨[], stream, true⟩
      else
        let (chunk, next) := stream.getNextChunk medkit csid space maxOutChunkSize
        if csid ≥ 4 ∧ count + 1 > 5 then ⟨chunk, next, false⟩
        else
          let rest := writeStream medkit maxOutChunkSize csid fuel (count + 1)
            (space - chunk.length) next
          { rest with bytes := chunk ++ rest.bytes }
    else ⟨[], stream, false⟩

def writeStreams (medkit : Medkit) (maxOutChunkSize : Nat)
    : Nat → List (Nat × RTMPChunkOutputStream)
      → List BYTE × List (Nat × RTMPChunkOutputStream)
  | _, [] => ([], [])
  | space, (csid, stream) :: rest =>
    let output := writeStream medkit maxOutChunkSize csid (space + 1) 0 space stream
    if output.full then (output.bytes, (csid, output.stream) :: rest)
    else
      let (bytes, streams) :=
        writeStreams medkit maxOutChunkSize (space - output.bytes.length) rest
      (output.bytes ++ bytes, (csid, output.stream) :: streams)

def serializeChunkData (medkit : Medkit) (maxOutChunkSize size : Nat) (output : ChunkOutput)
    : ChunkOutput :=
  let (bytes, streams) := writeStreams medkit maxOutChunkSize size output.chunkOutputStreams
  ⟨streams, output.wire ++ bytes⟩

def send (output : ChunkOutput) (csid : Nat) (message : OutgoingMessage) : ChunkOutput :=
  { output with
    chunkOutputStreams := output.chunkOutputStreams.map (fun (id, stream) =>
      (id, if id = csid then stream.sendMessage message else stream)) }

def hasData (output : ChunkOutput) : Bool :=
  output.chunkOutputStreams.any (fun entry => entry.2.hasData)

def start (unset : BYTE) : ChunkOutput :=
  ⟨[2, 3, 4, 5].map (fun csid => (csid, .new unset)), []⟩

/-- What happens on the sending side. -/
inductive Event
  | send (csid : Nat) (message : OutgoingMessage)
  | serializeChunkData

def step (medkit : Medkit) (maxOutChunkSize size : Nat) (output : ChunkOutput)
    : Event → ChunkOutput
  | .send csid message => output.send csid message
  | .serializeChunkData => output.serializeChunkData medkit maxOutChunkSize size

end ChunkOutput

end MediaServer.Rtmp
