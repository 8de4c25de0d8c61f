import MediaServer.Amf.Values
import MediaServer.Rtmp.Formats

/-! RTMP messages while they are received: control messages, commands and metadata, audio and
video frames. A message is given its bytes segment by segment.
-/

namespace MediaServer.Rtmp

open Foundation Amf

/-- What the reader gets from outside of this repository: the byte access and the text reader of
the media toolkit, the calls that the stack holds, and what stands in the type of a chunk stream
before a header gives it one.
-/
structure Platform where
  medkit : Medkit
  toolkit : TextToolkit
  stack : Nat
  unset : BYTE

/-! Media frames. -/

/-- `RTMPMediaFrame::Parse`: the media read so far and what follows it. -/
def parseMedia (bufferSize : Nat) (media data : List BYTE) : Except Failure (List BYTE) :=
  if media.length + data.length > bufferSize then .error .exception else .ok (media ++ data)

/-- `RTMPVideoFrame`. The number of media bytes is the position in its buffer. -/
structure RTMPVideoFrame where
  bufferSize : Nat
  codec : BYTE
  frameType : BYTE
  extraData : List BYTE
  headerPos : Nat
  media : List BYTE
  deriving DecidableEq

namespace RTMPVideoFrame

def avc : BYTE := 7

def new (size : Nat) : RTMPVideoFrame := ⟨size, 0, 0, [0, 0, 0, 0], 0, []⟩

variable (frame : RTMPVideoFrame)

def parseType (buffer : List BYTE) : RTMPVideoFrame × List BYTE :=
  match frame.headerPos, buffer with
  | 0, byte :: rest =>
    ({ frame with
        codec := byte &&& 0x0f, frameType := (byte &&& 0xf0) >>> 4, headerPos := 1 }, rest)
  | _, _ => (frame, buffer)

/-- The four bytes of an AVC header. What there is of them is copied to the start of
`extraData`, whatever was copied before.
-/
def parseHeader (buffer : List BYTE) : RTMPVideoFrame × List BYTE :=
  if frame.headerPos < 5 ∧ frame.codec = avc then
    let len := min (5 - frame.headerPos) buffer.length
    ({ frame with
        extraData := buffer.take len ++ frame.extraData.drop len,
        headerPos := frame.headerPos + len },
      buffer.drop len)
  else (frame, buffer)

def parse (data : List BYTE) : Except Failure RTMPVideoFrame :=
  if data.isEmpty then .ok frame
  else
    let (frame, buffer) := frame.parseType data
    let (frame, buffer) := frame.parseHeader buffer
    if buffer.isEmpty then .ok frame
    else (parseMedia frame.bufferSize frame.media buffer).map
      (fun media => { frame with media := media })

/-- `RTMPVideoFrame::Serialize` into a buffer of `GetSize` bytes. -/
def serialize : List BYTE :=
  (frame.frameType <<< 4 ||| frame.codec &&& 0x0f)
    :: ((if frame.codec = avc then frame.extraData else []) ++ frame.media)

end RTMPVideoFrame

/-- `RTMPAudioFrame`. The position in its buffer is the number of media bytes. -/
structure RTMPAudioFrame where
  bufferSize : Nat
  codec : BYTE
  rate : BYTE
  sample16bits : BYTE
  stereo : BYTE
  headerPos : Nat
  extraData : BYTE
  media : List BYTE
  deriving DecidableEq

namespace RTMPAudioFrame

def aac : BYTE := 10

def new (size : Nat) : RTMPAudioFrame := ⟨size, 0, 0, 0, 0, 0, 0, []⟩

variable (frame : RTMPAudioFrame)

def parseType (buffer : List BYTE) : RTMPAudioFrame × List BYTE :=
  match frame.media, buffer with
  | [], byte :: rest =>
    ({ frame with
        codec := byte >>> 4, rate := (byte >>> 2) &&& 0x03, sample16bits := (byte >>> 1) &&& 0x01,
        stereo := byte &&& 0x01 }, rest)
  | _, _ => (frame, buffer)

def parseHeader (buffer : List BYTE) : RTMPAudioFrame × List BYTE :=
  match buffer with
  | byte :: rest =>
    if frame.codec = aac ∧ frame.headerPos = 0 then
      ({ frame with extraData := byte, headerPos := 1 }, rest)
    else (frame, buffer)
  | [] => (frame, [])

def parse (data : List BYTE) : Except Failure RTMPAudioFrame :=
  if data.isEmpty then .ok frame
  else
    let (frame, buffer) := frame.parseType data
    if buffer.isEmpty then .ok frame
    else
      let (frame, buffer) := frame.parseHeader buffer
      (parseMedia frame.bufferSize frame.media buffer).map
        (fun media => { frame with media := media })

/-- `RTMPAudioFrame::Serialize` into a buffer of `GetSize` bytes. -/
def serialize : List BYTE :=
  (frame.codec <<< 4 ||| frame.rate <<< 2 ||| frame.sample16bits <<< 1 ||| frame.stereo)
    :: ((if frame.codec = aac then [frame.extraData] else []) ++ frame.media)

end RTMPAudioFrame

/-! Commands and metadata. -/

/-- Values that are read one after the other: the one that is open, and what was made of those
before it.
-/
structure Values (S : Type) where
  parser : Option AMFData
  stored : S

namespace Values

variable {S : Type}

def turn (platform : Platform) (store : S → AMFData → Except Failure S) (values : Values S)
    (buffer : List BYTE) : Except Failure (Pass (Values S) BYTE) := do
  let (value, rest) ←
    AMFParser.parse (AMFData.parse platform.toolkit platform.stack) values.parser buffer
  if value.isParsed platform.toolkit then
    let stored ← store values.stored value
    .ok ⟨⟨none, stored⟩, rest, true⟩
  else .ok ⟨⟨some value, values.stored⟩, rest, true⟩

def loop (platform : Platform) (store : S → AMFData → Except Failure S)
    : Loop (Values S) BYTE Failure where
  turn := turn platform store
  rank values := if values.parser.isSome then 1 else 0
  pace := 2
  stuck _ := .crash

def parse (platform : Platform) (store : S → AMFData → Except Failure S) (values : Values S)
    (buffer : List BYTE) : Except Failure (Values S) :=
  ((loop platform store).run values buffer).map Pass.state

end Values

structure RTMPCommandMessage where
  name : Option SizedText
  transId : Option WordParser
  params : Option AMFData
  extra : List AMFData

namespace RTMPCommandMessage

def new : RTMPCommandMessage := ⟨none, none, none, []⟩

/-- A complete value goes to the first place that is free. The name is a string and the
transaction a number (`AssertType`).
-/
def store (command : RTMPCommandMessage) (value : AMFData) : Except Failure RTMPCommandMessage :=
  match command.name, command.transId, command.params with
  | none, _, _ =>
    match value with
    | .string text => .ok { command with name := some text }
    | _ => .error (.castException .string value.getType)
  | some _, none, _ =>
    match value with
    | .number word => .ok { command with transId := some word }
    | _ => .error (.castException .number value.getType)
  | some _, some _, none => .ok { command with params := some value }
  | some _, some _, some _ => .ok { command with extra := command.extra ++ [value] }

end RTMPCommandMessage

def RTMPMetaData.store (params : List AMFData) (value : AMFData) : Except Failure (List AMFData) :=
  .ok (params ++ [value])

/-! Messages. -/

/-- `RTMPMessage::Type`, with the type ids that stand for none of them. -/
inductive MessageType
  | setChunkSize
  | abortMessage
  | acknowledgement
  | userControlMessage
  | windowAcknowledgementSize
  | setPeerBandwidth
  | audio
  | video
  | dataAMF3
  | sharedObject
  | commandAMF3
  | data
  | sharedObjectAMF3
  | command
  | other
  deriving DecidableEq

def MessageType.ofId (id : BYTE) : MessageType :=
  match id with
  | 1 => .setChunkSize
  | 2 => .abortMessage
  | 3 => .acknowledgement
  | 4 => .userControlMessage
  | 5 => .windowAcknowledgementSize
  | 6 => .setPeerBandwidth
  | 8 => .audio
  | 9 => .video
  | 15 => .dataAMF3
  | 16 => .sharedObject
  | 17 => .commandAMF3
  | 18 => .data
  | 19 => .sharedObjectAMF3
  | 20 => .command
  | _ => .other

/-- The object that a message fills: `ctrl`, `cmd`, `meta` or `media`. A media message of no
length has none, shared objects are skipped, and other types are not read.
-/
inductive Body
  | control (preParse : PreParse) (ctrl : RTMPFormat)
  | command (cmd : Values RTMPCommandMessage)
  | metaData (metaData : Values (List AMFData))
  | audio (frame : RTMPAudioFrame)
  | video (frame : RTMPVideoFrame)
  | noMedia
  | sharedObject
  | unsupported

structure RTMPMessage where
  streamId : DWORD
  timestamp : DWORD
  type : BYTE
  length : Nat
  body : Body
  skip : Bool
  parsing : Bool
  pos : Nat

namespace RTMPMessage

def newBody (type : MessageType) (length : Nat) : Body :=
  match type with
  | .setChunkSize => .control fixedSize (.new 4)
  | .abortMessage => .control fixedSize (.new 4)
  | .acknowledgement => .control fixedSize (.new 4)
  | .userControlMessage => .control RTMPUserControlMessage.preParse (.new 10)
  | .windowAcknowledgementSize => .control fixedSize (.new 4)
  | .setPeerBandwidth => .control fixedSize (.new 5)
  | .commandAMF3 => .command ⟨none, .new⟩
  | .command => .command ⟨none, .new⟩
  | .dataAMF3 => .metaData ⟨none, []⟩
  | .data => .metaData ⟨none, []⟩
  | .sharedObject => .sharedObject
  | .sharedObjectAMF3 => .sharedObject
  | .audio => if length = 0 then .noMedia else .audio (.new length)
  | .video => if length = 0 then .noMedia else .video (.new length)
  | .other => .unsupported

def new (streamId timestamp : DWORD) (type : BYTE) (length : Nat) : RTMPMessage where
  streamId := streamId
  timestamp := timestamp
  type := type
  length := length
  body := newBody (.ofId type) length
  skip := MessageType.ofId type = .commandAMF3 ∨ MessageType.ofId type = .dataAMF3
  parsing := true
  pos := 0

def advance (message : RTMPMessage) (body : Body) (count : Nat) : RTMPMessage :=
  { message with
    body := body, pos := message.pos + count,
    parsing := message.pos + count ≠ message.length }

/-- An AMF3 message may begin with a zero, which is skipped. -/
def skips (message : RTMPMessage) (data : List BYTE) : Bool :=
  message.skip && data.head? == some 0

def fill (platform : Platform) (message : RTMPMessage) (data : List BYTE)
    : Except Failure RTMPMessage :=
  match message.body with
  | .control preParse ctrl =>
    let (ctrl, rest) := ctrl.parse preParse data
    .ok { message with
      body := .control preParse ctrl, pos := message.pos + (data.length - rest.length),
      parsing := !ctrl.isParsed }
  | .command cmd =>
    if message.skips data then
      (cmd.parse platform RTMPCommandMessage.store data.tail).map
        (fun cmd => { message.advance (.command cmd) data.length with skip := false })
    else
      (cmd.parse platform RTMPCommandMessage.store data).map
        (fun cmd => message.advance (.command cmd) data.length)
  | .metaData metaData =>
    if message.skips data then
      (metaData.parse platform RTMPMetaData.store data.tail).map
        (fun metaData => { message.advance (.metaData metaData) data.length with skip := false })
    else
      (metaData.parse platform RTMPMetaData.store data).map
        (fun metaData => message.advance (.metaData metaData) data.length)
  | .audio frame =>
    (frame.parse data).map (fun frame => message.advance (.audio frame) data.length)
  | .video frame =>
    (frame.parse data).map (fun frame => message.advance (.video frame) data.length)
  | .noMedia => .ok (message.advance .noMedia 0)
  | .sharedObject => .ok (message.advance .sharedObject data.length)
  | .unsupported => .error .exception

def takes (message : RTMPMessage) (size : Nat) : Nat := min size (message.length - message.pos)

def parse (platform : Platform) (message : RTMPMessage) (data : List BYTE)
    : Except Failure RTMPMessage :=
  message.fill platform (data.take (message.takes data.length))

end RTMPMessage

end MediaServer.Rtmp
