import MediaServer.Rtmp.Payloads
import MediaServer.Rtmp.Segmentation

/-! The chunk reader on the chunks that a chunk writer makes: it reads their headers, and what
the headers tell is what the writer keeps of its stream.
-/

namespace MediaServer.Rtmp

open Foundation Amf RTMPFormat RTMPChunkBasicHeader RTMPChunkOutputStream RTMPChunkInputStream List

/-! Headers. -/

namespace RTMPChunkBasicHeader

open RTMPChunkOutputStream (Fmt)

variable {fmt : Fmt} {csid : Nat}

theorem serialize_small (small : csid < 64)
    : serialize fmt.code csid = [fmt.code <<< 6 ||| .ofNat csid] :=
  if_pos small

/-- The two fields of the first byte. -/
theorem byte_fields (fmt : Fmt) (small : csid < 64)
    : (fmt.code <<< 6 ||| UInt8.ofNat csid).toNat / 64 = fmt.code.toNat
      ∧ ((fmt.code <<< 6 ||| UInt8.ofNat csid) &&& 0x3F) = UInt8.ofNat csid := by
  have all : ∀ (fmt : Fmt) (csid : Fin 64),
      (fmt.code <<< 6 ||| UInt8.ofNat csid).toNat / 64 = fmt.code.toNat
      ∧ ((fmt.code <<< 6 ||| UInt8.ofNat csid) &&& 0x3F) = UInt8.ofNat csid := by
    intro fmt
    cases fmt <;> decide +kernel
  exact all fmt ⟨csid, small⟩

/-- A header of one byte as it is read. -/
def small (fmt : Fmt) (csid : Nat) : RTMPFormat := ⟨[fmt.code <<< 6 ||| .ofNat csid], 1⟩

theorem getFmt_small (fmt : Fmt) (below : csid < 64) : getFmt (small fmt csid) = fmt.code.toNat :=
  (byte_fields fmt below).1

theorem getStreamId_small (fmt : Fmt) (below : csid < 64)
    : getStreamId (small fmt csid) = csid := by
  have bits := congrArg UInt8.toNat (byte_fields fmt below).2
  rw [UInt8.toNat_ofNat', Nat.mod_eq_of_lt (by omega)] at bits
  exact bits

theorem parse_serialize (below : csid < 64) (above : 2 ≤ csid) (rest : List BYTE)
    : parse new (serialize fmt.code csid ++ rest) = (small fmt csid, rest) := by
  have bits := (byte_fields fmt below).2
  have size : preParse new (serialize fmt.code csid ++ rest) = 1 := by
    have nonzero : UInt8.ofNat csid ≠ 0 ∧ UInt8.ofNat csid ≠ 1 := by
      refine ⟨fun same => ?_, fun same => ?_⟩
      all_goals
        have value := congrArg UInt8.toNat same
        rw [UInt8.toNat_ofNat', Nat.mod_eq_of_lt (by omega)] at value
        simp at value
        omega
    rw [serialize_small below]
    simp only [preParse, new, RTMPFormat.new, cons_append, bits]
    rw [if_neg nonzero.1, if_neg nonzero.2]
  rw [parse, parse_of_ne_nil (by rw [serialize_small below]; exact cons_ne_nil _ _),
    size, serialize_small below]
  rfl

end RTMPChunkBasicHeader

theorem hostOrder_putHostOrder (value : DWORD)
    : hostOrder value.toUInt8 (value >>> 8).toUInt8 (value >>> 16).toUInt8
        (value >>> 24).toUInt8
      = value := by
  have bound := value.toNat_lt
  apply UInt32.toNat_inj.mp
  simp only [hostOrder, UInt32.toNat_ofNat', UInt32.toNat_toUInt8, UInt32.toNat_shiftRight,
    Nat.shiftRight_eq_div_pow]
  simp
  omega

/-- A header of a fixed size is read at once. -/
theorem RTMPFormat.parse_whole {size : Nat} {bytes : List BYTE} (whole : bytes.length = size)
    (some : bytes ≠ []) (rest : List BYTE)
    : RTMPFormat.parse fixedSize (.new size) (bytes ++ rest) = (⟨bytes, size⟩, rest) := by
  rw [parse_of_ne_nil (by simp [some])]
  simp only [fixedSize, RTMPFormat.new, length_nil, Nat.sub_zero, nil_append, ← whole,
    take_left, drop_left]

section Values

variable {medkit : Medkit} {timestamp length : DWORD} {type : BYTE} {streamId : DWORD}
  (order : medkit.NetworkOrder) (early : timestamp.toNat < 2 ^ 24)
include order early

theorem RTMPChunkType0.parse_serialize (short : length.toNat < 2 ^ 24)
    : ∃ type0, (∀ rest, new.parse fixedSize
          (RTMPChunkType0.serialize medkit timestamp length type streamId ++ rest) = (type0, rest))
      ∧ type0.isParsed = true ∧ getTimestamp medkit type0 = timestamp
      ∧ getMessageLength medkit type0 = length ∧ getMessageTypeId type0 = type
      ∧ getMessageStreamId type0 = streamId :=
  ⟨_, parse_whole rfl (cons_ne_nil _ _), rfl, order.get3_set3 timestamp early,
    order.get3_set3 length short, rfl, hostOrder_putHostOrder streamId⟩

theorem RTMPChunkType1.parse_serialize (short : length.toNat < 2 ^ 24)
    : ∃ type1, (∀ rest, new.parse fixedSize
          (RTMPChunkType1.serialize medkit timestamp length type ++ rest) = (type1, rest))
      ∧ type1.isParsed = true ∧ getTimestampDelta medkit type1 = timestamp
      ∧ getMessageLength medkit type1 = length ∧ getMessageTypeId type1 = type :=
  ⟨_, parse_whole rfl (cons_ne_nil _ _), rfl, order.get3_set3 timestamp early,
    order.get3_set3 length short, rfl⟩

theorem RTMPChunkType2.parse_serialize
    : ∃ type2, (∀ rest, new.parse fixedSize
          (RTMPChunkType2.serialize medkit timestamp ++ rest) = (type2, rest))
      ∧ type2.isParsed = true ∧ getTimestampDelta medkit type2 = timestamp :=
  ⟨_, parse_whole rfl (cons_ne_nil _ _), rfl, order.get3_set3 timestamp early⟩

end Values

/-! Reading a chunk. -/

/-- The chunk stream of a reader that has seen the same messages as a writer. -/
def RTMPChunkOutputStream.described (output : RTMPChunkOutputStream)
    (message : Option RTMPMessage) : RTMPChunkInputStream :=
  ⟨output.type, output.streamId, output.length, output.timestamp, output.timestampDelta, message⟩

/-- Reader and writer agree on the values of a chunk stream. Before the first message they
need not agree on a type.
-/
structure Agrees (output : RTMPChunkOutputStream) (input : RTMPChunkInputStream) : Prop where
  streamId : input.streamId = output.streamId
  length : input.length = output.length
  timestamp : input.timestamp = output.timestamp
  timestampDelta : input.timestampDelta = output.timestampDelta
  type : output.length ≠ 0xFFFFFFFF → input.type = output.type

/-- A message whose header says when it was sent: neither its timestamp nor the time since the
last message needs more than 24 bits.
-/
def RTMPChunkOutputStream.Announces (output : RTMPChunkOutputStream) (sent : OutgoingMessage)
    : Prop :=
  if output.selectHeader sent = .type0 then sent.timestamp < 0xFFFFFF
  else sent.timestamp - output.timestamp < 0xFFFFFF

namespace RTMPConnection

variable {platform : Platform} {application : Application} {connection : RTMPConnection}
  {count csid : Nat}

def streamOf (platform : Platform) (connection : RTMPConnection) (csid : Nat)
    : RTMPChunkInputStream :=
  (connection.chunkInputStreams.find? csid).getD (.new platform.unset)

structure AtHeader (connection : RTMPConnection) : Prop where
  state : connection.state = .chunkHeaderWait
  header : connection.header = RTMPChunkBasicHeader.new

/-- One turn of the loop that counts new chunk streams. -/
theorem counted_again {buffer : List BYTE} (nonempty : buffer ≠ [])
    {pass : Pass RTMPConnection BYTE}
    (success : connection.turn platform application buffer = .ok pass)
    (allowed : connection.countStreams count ≤ 5)
    (falls
      : (loop platform application).measure pass.state pass.rest
        < (loop platform application).measure connection buffer)
    : (countedLoop platform application).run (connection, count) buffer
      = (countedLoop platform application).run
        (pass.state, connection.countStreams count) pass.rest := by
  have turn : (countedLoop platform application).turn (connection, count) buffer
      = .ok ⟨(pass.state, connection.countStreams count), pass.rest, pass.again⟩ := by
    refine (if_neg (fun limit => ?_)).trans ?_
    · exact absurd limit.2 (Nat.not_lt.mpr allowed)
    · rw [success]
      rfl
  exact Loop.run_again nonempty turn (turn_again success) falls

def headed (connection : RTMPConnection) (fmt : RTMPChunkOutputStream.Fmt) (csid : Nat)
    : RTMPConnection :=
  { connection with
    header := RTMPChunkBasicHeader.small fmt csid, type0 := RTMPChunkType0.new,
    type1 := RTMPChunkType1.new, type2 := RTMPChunkType2.new, extts := RTMPExtendedTimestamp.new,
    state := .chunkTypeWait }

theorem run_basicHeader (waits : connection.AtHeader) (below : csid < 64) (above : 2 ≤ csid)
    (allowed : count ≤ 5) (fmt : RTMPChunkOutputStream.Fmt) (rest : List BYTE)
    : (countedLoop platform application).run (connection, count)
        (RTMPChunkBasicHeader.serialize fmt.code csid ++ rest)
      = (countedLoop platform application).run (connection.headed fmt csid, count) rest := by
  have turn : connection.turn platform application
      (RTMPChunkBasicHeader.serialize fmt.code csid ++ rest)
      = .ok ⟨connection.headed fmt csid, rest, true⟩ := by
    simp only [turn, waits.state, headerTurn, waits.header, parse_serialize below above]
    rfl
  have same : connection.countStreams count = count := by
    simp only [countStreams, waits.state]
  rw [serialize_small below] at turn ⊢
  refine (counted_again (cons_ne_nil _ _) turn (by rw [same]; exact allowed) ?_).trans ?_
  · exact measure_lt (Nat.lt_succ_self _)
  · rw [same]

structure Begun (connection after : RTMPConnection) (csid : Nat)
    (stream : RTMPChunkInputStream) : Prop where
  state : after.state = .chunkDataWait
  chunkLen : after.chunkLen = 0
  chunkStreamId : after.chunkStreamId = csid
  streams : after.chunkInputStreams = connection.chunkInputStreams.insert csid stream
  maxChunkSize : after.maxChunkSize = connection.maxChunkSize
  handed : after.handed = connection.handed

theorem named_headed (fmt : RTMPChunkOutputStream.Fmt) (below : csid < 64)
    : (connection.headed fmt csid).named platform = connection.streamOf platform csid := by
  simp only [named, headed, getStreamId_small fmt below, streamOf]

variable {before : RTMPConnection}

/-- The data begin behind a message header, whichever one it was. -/
theorem begun_of_headed {fmt : RTMPChunkOutputStream.Fmt} {stream : RTMPChunkInputStream}
    (below : csid < 64) (header : before.header = RTMPChunkBasicHeader.small fmt csid)
    (streams : before.chunkInputStreams = connection.chunkInputStreams)
    (maxChunkSize : before.maxChunkSize = connection.maxChunkSize)
    (handed : before.handed = connection.handed)
    : Begun connection (before.beginData stream false) csid stream.startChunkData := by
  have id : getStreamId before.header = csid := by
    rw [header]
    exact getStreamId_small fmt below
  refine ⟨rfl, rfl, id, ?_, maxChunkSize, handed⟩
  simp only [beginData, setStream, id, streams]

/-- The data begin without a byte of a message header. -/
theorem Begun.falls {after : RTMPConnection} {stream : RTMPChunkInputStream}
    (begun : Begun connection after csid stream) (fmt : RTMPChunkOutputStream.Fmt)
    (rest : List BYTE)
    : (loop platform application).measure after rest
      < (loop platform application).measure (connection.headed fmt csid) rest := by
  have low : after.rank = 1 := by simp only [rank, begun.state]
  have high : (connection.headed fmt csid).rank = 2 := rfl
  simp only [Loop.measure, loop]
  omega

theorem Begun.current {after : RTMPConnection} {stream : RTMPChunkInputStream}
    (begun : Begun connection after csid stream)
    : after.current platform = stream := by
  rw [RTMPConnection.current, begun.chunkStreamId, begun.streams, OrderedMap.find?_insert,
    if_pos rfl]
  rfl

section MessageHeader

variable {output : RTMPChunkOutputStream} {sent : OutgoingMessage}
  {input : RTMPChunkInputStream}

theorem length_toNat (short : sent.payload.length < 2 ^ 24)
    : sent.length.toNat = sent.payload.length := by
  rw [OutgoingMessage.length, UInt32.toNat_ofNat', Nat.mod_eq_of_lt (by omega)]

theorem unmarked_of_early {timestamp : DWORD} (early : timestamp.toNat < 0xFFFFFF)
    : timestamp ≠ extendedMark := by
  intro same
  rw [same] at early
  exact absurd early (by decide)

theorem add_difference (earlier later : DWORD) : earlier + (later - earlier) = later := by
  rw [UInt32.add_comm, UInt32.sub_add_cancel]

/-- The delta of a header, if it is not one of type 0. -/
private theorem announced_delta (select : output.selectHeader sent ≠ .type0)
    (announces : output.Announces sent)
    : sent.streamId = output.streamId
      ∧ (sent.timestamp - output.timestamp).toNat < 0xFFFFFF := by
  rw [RTMPChunkOutputStream.Announces, if_neg select] at announces
  refine ⟨?_, UInt32.lt_iff_toNat_lt.mp announces⟩
  by_cases same : sent.streamId = output.streamId
  · exact same
  · exact absurd (if_pos (.inr (.inl same))) select

/-- Without a new length and type both are those of the last message. -/
private theorem same_length_type (agrees : Agrees output input)
    (other : output.selectHeader sent ≠ .type0) (another : output.selectHeader sent ≠ .type1)
    (short : sent.payload.length < 2 ^ 24)
    : input.length = sent.length ∧ input.type = sent.type := by
  obtain ⟨sameLength, sameType⟩ : sent.length = output.length ∧ sent.type = output.type := by
    by_cases differs : sent.length ≠ output.length ∨ sent.type ≠ output.type
    · unfold selectHeader at other another
      rw [if_pos differs] at other another
      split_ifs at other another
      · exact absurd rfl other
      · exact absurd rfl another
    · simpa only [not_or, ne_eq, Classical.not_not] using differs
  refine ⟨agrees.length.trans sameLength.symm, ?_⟩
  rw [sameType]
  refine agrees.type (fun unset => ?_)
  have value := length_toNat short
  rw [sameLength, unset] at value
  have : sent.payload.length = 4294967295 := value.symm
  omega

theorem typeTurn_type3 (fmt : getFmt before.header = 3) (rest : List BYTE)
    : before.typeTurn platform rest
      = .ok ⟨before.beginData (applyType3 (before.named platform)) false, rest, true⟩ := by
  simp only [typeTurn, fmt]

/-- What the writer keeps of a message. -/
private theorem described_startMessage (queue : List OutgoingMessage)
    : (output.startMessage sent queue).described none
      = ⟨sent.type, sent.streamId, sent.length, sent.timestamp,
          if output.selectHeader sent = .type0 then 0 else sent.timestamp - output.timestamp,
          none⟩ :=
  rfl

private def Begins (platform : Platform) (connection : RTMPConnection) (csid : Nat)
    (output : RTMPChunkOutputStream) (sent : OutgoingMessage) (queue : List OutgoingMessage)
    (rest : List BYTE) (fmt : RTMPChunkOutputStream.Fmt) : Prop :=
  ∃ after, Begun connection after csid
      ((output.startMessage sent queue).described none).startChunkData
    ∧ (connection.headed fmt csid).typeTurn platform
        (output.chunkHeader platform.medkit sent ++ rest)
      = .ok ⟨after, rest, true⟩

section

variable (below : csid < 64) (none : (connection.streamOf platform csid).message = none)
  (announces : output.Announces sent) (short : sent.payload.length < 2 ^ 24)
  (queue : List OutgoingMessage) (rest : List BYTE)
include below none announces short

/-- What a header of type 0 tells is what the writer keeps. -/
private theorem typeTurn_type0 (order : platform.medkit.NetworkOrder)
    (select : output.selectHeader sent = .type0)
    : Begins platform connection csid output sent queue rest .type0 := by
  rw [RTMPChunkOutputStream.Announces, if_pos select] at announces
  have early : sent.timestamp.toNat < 0xFFFFFF := UInt32.lt_iff_toNat_lt.mp announces
  obtain ⟨type0, read, parsed, timestamp, length, type, streamId⟩ :=
    @RTMPChunkType0.parse_serialize platform.medkit sent.timestamp sent.length sent.type
      sent.streamId order (by omega) (by rw [length_toNat short]; exact short)
  have fmt : getFmt (connection.headed .type0 csid).header = 0 :=
    getFmt_small .type0 below
  have fresh : (connection.headed .type0 csid).type0 = RTMPChunkType0.new := rfl
  refine ⟨_, @begun_of_headed _ _ { connection.headed .type0 csid with type0 } _ _ below rfl rfl
    rfl rfl, ?_⟩
  rw [described_startMessage, if_pos select]
  simp only [typeTurn, fmt, fresh, chunkHeader, select,
    if_neg (UInt32.not_le.mpr announces), read, formatRead, parsed, applyType0, timestamp,
    unmarked_of_early early, named_headed .type0 below]
  simp only [setTimestamp, length, type, streamId, none, decide_false, if_true, if_false]

variable (agrees : Agrees output (connection.streamOf platform csid))
include agrees

private theorem typeTurn_type1 (order : platform.medkit.NetworkOrder)
    (select : output.selectHeader sent = .type1)
    : Begins platform connection csid output sent queue rest .type1 := by
  have other : output.selectHeader sent ≠ .type0 := by simp [select]
  obtain ⟨sameId, early⟩ := announced_delta other announces
  obtain ⟨type1, read, parsed, delta, length, type⟩ :=
    @RTMPChunkType1.parse_serialize platform.medkit (sent.timestamp - output.timestamp)
      sent.length sent.type order (by omega) (by rw [length_toNat short]; exact short)
  have fmt : getFmt (connection.headed .type1 csid).header = 1 :=
    getFmt_small .type1 below
  have fresh : (connection.headed .type1 csid).type1 = RTMPChunkType1.new := rfl
  refine ⟨_, @begun_of_headed _ _ { connection.headed .type1 csid with type1 } _ _ below rfl rfl
    rfl rfl, ?_⟩
  rw [described_startMessage, if_neg other]
  simp only [typeTurn, fmt, fresh, chunkHeader, select, read, formatRead,
    parsed, applyType1, delta, unmarked_of_early early, named_headed .type1 below]
  simp only [addDelta, increaseTimestampWithDelta,
    length, type, none, agrees.streamId, agrees.timestamp, add_difference, sameId, decide_false,
    if_true, if_false]

private theorem typeTurn_type2 (order : platform.medkit.NetworkOrder)
    (select : output.selectHeader sent = .type2)
    : Begins platform connection csid output sent queue rest .type2 := by
  have other : output.selectHeader sent ≠ .type0 := by simp [select]
  obtain ⟨sameId, early⟩ := announced_delta other announces
  obtain ⟨length, type⟩ := same_length_type agrees other (by simp [select]) short
  obtain ⟨type2, read, parsed, delta⟩ := @RTMPChunkType2.parse_serialize platform.medkit
    (sent.timestamp - output.timestamp) order (by omega)
  have fmt : getFmt (connection.headed .type2 csid).header = 2 :=
    getFmt_small .type2 below
  have fresh : (connection.headed .type2 csid).type2 = RTMPChunkType2.new := rfl
  refine ⟨_, @begun_of_headed _ _ { connection.headed .type2 csid with type2 } _ _ below rfl rfl
    rfl rfl, ?_⟩
  rw [described_startMessage, if_neg other]
  simp only [typeTurn, fmt, fresh, chunkHeader, select, read, formatRead,
    parsed, applyType2, delta, unmarked_of_early early, named_headed .type2 below]
  simp only [addDelta, increaseTimestampWithDelta,
    length, type, none, agrees.streamId, agrees.timestamp, add_difference, sameId, decide_false,
    if_true, if_false]

private theorem typeTurn_first_type3 (select : output.selectHeader sent = .type3)
    : Begins platform connection csid output sent queue rest .type3 := by
  have other : output.selectHeader sent ≠ .type0 := by simp [select]
  obtain ⟨sameId, -⟩ := announced_delta other announces
  obtain ⟨length, type⟩ := same_length_type agrees other (by simp [select]) short
  have sameDelta : sent.timestamp - output.timestamp = output.timestampDelta := by
    unfold selectHeader at select
    split_ifs at select with _ _ third
    exact Classical.not_not.mp third
  refine ⟨_, @begun_of_headed _ _ (connection.headed .type3 csid) _ _ below rfl rfl rfl rfl, ?_⟩
  rw [described_startMessage, if_neg other,
    typeTurn_type3 (getFmt_small .type3 below), named_headed .type3 below,
    applyType3, if_pos (by rw [none]; rfl)]
  simp only [chunkHeader, select, nil_append,
    increaseTimestampWithDelta, length, type, none, agrees.streamId,
    agrees.timestamp, agrees.timestampDelta, ← sameDelta, add_difference, sameId]

private theorem typeTurn_begins (order : platform.medkit.NetworkOrder)
    : Begins platform connection csid output sent queue rest (output.selectHeader sent) := by
  cases select : output.selectHeader sent with
  | type0 => exact typeTurn_type0 below none announces short queue rest order select
  | type1 => exact typeTurn_type1 below none announces short queue rest agrees order select
  | type2 => exact typeTurn_type2 below none announces short queue rest agrees order select
  | type3 => exact typeTurn_first_type3 below none announces short queue rest agrees select

end

theorem chunkHeader_length (medkit : Medkit) (select : output.selectHeader sent ≠ .type3)
    : 0 < (output.chunkHeader medkit sent).length := by
  unfold chunkHeader
  cases kind : output.selectHeader sent with
  | type0 =>
    simp only
    split_ifs
    · exact Nat.succ_pos _
    · exact Nat.succ_pos _
  | type1 | type2 => exact Nat.succ_pos _
  | type3 => exact absurd kind select

/-- The header of a message is read and its data begin. -/
theorem run_messageHeader (order : platform.medkit.NetworkOrder) (below : csid < 64)
    (agrees : Agrees output (connection.streamOf platform csid))
    (none : (connection.streamOf platform csid).message = none)
    (announces : output.Announces sent) (short : sent.payload.length < 2 ^ 24)
    (queue : List OutgoingMessage)
    (allowed : (connection.headed (output.selectHeader sent) csid).countStreams count ≤ 5)
    {rest : List BYTE} (more : rest ≠ [])
    : ∃ after, Begun connection after csid
        ((output.startMessage sent queue).described Option.none).startChunkData
      ∧ (countedLoop platform application).run
          (connection.headed (output.selectHeader sent) csid, count)
          (output.chunkHeader platform.medkit sent ++ rest)
        = (countedLoop platform application).run
          (after, (connection.headed (output.selectHeader sent) csid).countStreams count) rest := by
  obtain ⟨after, begun, turn⟩ :=
    typeTurn_begins below none announces short queue rest agrees order
  refine ⟨after, begun, @counted_again platform application _ _ _ (by simp [more])
    ⟨after, rest, true⟩ turn allowed ?_⟩
  by_cases select : output.selectHeader sent = .type3
  · have bytes : output.chunkHeader platform.medkit sent = [] := by
      simp only [chunkHeader, select]
    rw [bytes]
    exact begun.falls _ rest
  · refine measure_lt ?_
    have := chunkHeader_length platform.medkit select
    simp only [length_append]
    omega

/-- The chunk goes on with a message that is open. -/
theorem run_continued (below : csid < 64)
    (isOpen : (connection.streamOf platform csid).message.isSome)
    (allowed : (connection.headed .type3 csid).countStreams count ≤ 5)
    {rest : List BYTE} (more : rest ≠ [])
    : ∃ after, Begun connection after csid (connection.streamOf platform csid)
      ∧ (countedLoop platform application).run (connection.headed .type3 csid, count) rest
        = (countedLoop platform application).run
          (after, (connection.headed .type3 csid).countStreams count) rest := by
  have turn : (connection.headed .type3 csid).turn platform application rest = _ :=
    typeTurn_type3 (getFmt_small .type3 below) rest
  obtain ⟨message, stored⟩ := Option.isSome_iff_exists.mp isOpen
  have begun := @begun_of_headed connection csid (connection.headed .type3 csid) .type3
    (connection.streamOf platform csid) below rfl rfl rfl rfl
  have started : (connection.streamOf platform csid).startChunkData
      = connection.streamOf platform csid := by
    simp only [startChunkData, stored]
  have applied : applyType3 (connection.streamOf platform csid)
      = connection.streamOf platform csid := by
    rw [applyType3, stored]
    rfl
  rw [named_headed .type3 below, applied] at turn
  rw [started] at begun
  exact ⟨_, begun, counted_again more turn allowed (begun.falls .type3 rest)⟩

end MessageHeader

section Data

variable {after : RTMPConnection} {stream : RTMPChunkInputStream} {message next : RTMPMessage}
  {piece : List BYTE}

/-- A chunk has ended: what was stored for its stream, and what was handed over. -/
structure Ended (connection last : RTMPConnection) (csid : Nat) (stream : RTMPChunkInputStream)
    (handed : List (Nat × RTMPMessage)) : Prop where
  waits : last.AtHeader
  streams : last.chunkInputStreams = connection.chunkInputStreams.insert csid stream
  maxChunkSize : last.maxChunkSize = connection.maxChunkSize
  handed : last.handed = connection.handed ++ handed

theorem ended_chunkRead {handed : List (Nat × RTMPMessage)} {len : Nat}
    (ends
      : before.AtHeader
        ∨ before.maxChunkSize ≠ 0 ∧ before.chunkLen + len ≥ before.maxChunkSize)
    (streams : before.chunkInputStreams = connection.chunkInputStreams.insert csid stream)
    (maxChunkSize : before.maxChunkSize = connection.maxChunkSize)
    (handedOver : before.handed = connection.handed ++ handed)
    : Ended connection (before.chunkRead len) csid stream handed := by
  unfold chunkRead
  split_ifs with full
  · exact ⟨⟨rfl, rfl⟩, streams, maxChunkSize, handedOver⟩
  · rcases ends with waits | full'
    · exact ⟨⟨waits.state, waits.header⟩, streams, maxChunkSize, handedOver⟩
    · exact absurd full' full

section

variable (begun : Begun connection after csid stream) (stored : stream.message = some message)
  (size : piece.length = min connection.maxChunkSize (message.length - message.pos))
  (positive : 0 < connection.maxChunkSize) (nonempty : piece ≠ [])
  (filled : message.fill platform piece = .ok next) (allowed : count ≤ 5) (rest : List BYTE)
include begun stored size positive nonempty filled allowed

/-- The piece of a message that a chunk holds is what the reader takes. -/
private theorem run_piece {last : RTMPConnection}
    (reached : after.filled platform application next piece.length = .ok last)
    : (countedLoop platform application).run (after, count) (piece ++ rest)
      = (countedLoop platform application).run (last, count) rest := by
  have length := length_pos_iff.mpr nonempty
  have current : (after.current platform).message = some message := by
    rw [begun.current]
    exact stored
  have room : after.room (piece ++ rest).length ≠ 0 := by
    simp only [RTMPConnection.room, begun.maxChunkSize, begun.chunkLen, length_append]
    split_ifs <;> omega
  have taken : after.taken message (piece ++ rest).length = piece.length := by
    simp only [taken, RTMPMessage.takes, RTMPConnection.room, begun.maxChunkSize, begun.chunkLen,
      length_append]
    split_ifs <;> omega
  have turn : after.turn platform application (piece ++ rest) = .ok ⟨last, rest, true⟩ := by
    rw [turn_dataWait begun.state, dataTurn_some room current, taken, take_left,
      drop_left, give_of_filled filled, reached]
    rfl
  have same : after.countStreams count = count := by
    simp only [countStreams, begun.state]
  refine (counted_again (by simp [nonempty]) turn (by rw [same]; exact allowed)
    (measure_lt ?_)).trans (by rw [same])
  simp only [length_append]
  omega

/-- The last piece of a message. -/
theorem run_last (quiet : ∀ handed, application.throws handed = false)
    (complete : next.parsing = false) (media : next.body ≠ .noMedia)
    (sameSize
      : MessageType.ofId next.type = .setChunkSize
        → ∀ preParse ctrl, next.body = .control preParse ctrl
          → (ctrl.get4 platform.medkit 0).toNat = connection.maxChunkSize)
    : ∃ last, Ended connection last csid { stream with message := none } [(csid, next)]
      ∧ (countedLoop platform application).run (after, count) (piece ++ rest)
        = (countedLoop platform application).run (last, count) rest := by
  have handed : after.handedWith next = connection.handed ++ [(csid, next)] := by
    unfold handedWith
    split
    · rename_i none
      exact absurd none media
    · rw [begun.handed, begun.chunkStreamId]
  have chunkSize : after.chunkSizeAfter platform next = connection.maxChunkSize := by
    unfold chunkSizeAfter
    split
    · rename_i isSet isControl
      exact sameSize isSet _ _ isControl
    · exact begun.maxChunkSize
  have silent : after.handlerThrows application next = false := by
    unfold handlerThrows
    split
    · rfl
    · exact quiet _
  have reached : after.filled platform application next piece.length
      = .ok (({ after.setCurrent { stream with message := none } with
          handed := connection.handed ++ [(csid, next)],
          maxChunkSize := connection.maxChunkSize,
          state := .chunkHeaderWait,
          header := RTMPChunkBasicHeader.new } : RTMPConnection).chunkRead piece.length) := by
    rw [RTMPConnection.filled, complete, deliver, silent, handed, chunkSize, begun.current]
    rfl
  refine ⟨_, ?_, run_piece begun stored size positive nonempty filled allowed rest reached⟩
  refine ended_chunkRead (.inl ⟨rfl, rfl⟩) ?_ rfl rfl
  simp only [setCurrent, begun.chunkStreamId, begun.streams, OrderedMap.insert_insert]

/-- A piece of a message that fills its chunk. -/
theorem run_more (full : piece.length = connection.maxChunkSize) (isOpen : next.parsing = true)
    : ∃ last, Ended connection last csid { stream with message := some next } []
      ∧ (countedLoop platform application).run (after, count) (piece ++ rest)
        = (countedLoop platform application).run (last, count) rest := by
  have reached : after.filled platform application next piece.length
      = .ok ((after.setCurrent { stream with message := some next }).chunkRead
        piece.length) := by
    rw [RTMPConnection.filled, isOpen, if_pos rfl, if_neg (by omega), begun.current]
  refine ⟨_, ?_, run_piece begun stored size positive nonempty filled allowed rest reached⟩
  refine ended_chunkRead (.inr ?_) ?_ begun.maxChunkSize (begun.handed.trans (append_nil _).symm)
  · simp only [setCurrent, begun.maxChunkSize, begun.chunkLen]
    omega
  · simp only [setCurrent, begun.chunkStreamId, begun.streams, OrderedMap.insert_insert]

end

end Data

end RTMPConnection

end MediaServer.Rtmp
