import MediaServer.Rtmp.ChunkReader
import MediaServer.Rtmp.MessageResumption

/-! Reception from a TCP connection does not depend on how the bytes were cut into segments,
as long as no cut falls where the reader forgets something.
-/

namespace MediaServer.Rtmp

open Foundation Amf RTMPMessage RTMPChunkBasicHeader OrderedMap List

namespace RTMPConnection

variable {platform : Platform} {application : Application} {connection : RTMPConnection}
  {message next : RTMPMessage}

def MessagesValid (streams : OrderedMap Nat RTMPChunkInputStream) : Prop :=
  ∀ id stream, streams.find? id = some stream → ∀ message ∈ stream.message, message.Valid

/-- A connection as the reader leaves it between two turns. -/
structure Valid (connection : RTMPConnection) : Prop where
  header : connection.state = .chunkHeaderWait → connection.header.Open
  types
    : connection.state = .chunkTypeWait
      → connection.type0.Open ∧ connection.type1.Open ∧ connection.type2.Open
        ∧ connection.extts.Open
  extts : connection.state = .chunkExtTimestampWait → connection.extts.Open
  messages : MessagesValid connection.chunkInputStreams

/-- A connection that can be cut off: no control message was longer than its format, and a frame
in the middle of a chunk can be cut off.
-/
@[mk_iff] structure Ready (platform : Platform) (connection : RTMPConnection) : Prop where
  handed : ∀ entry ∈ connection.handed, ¬ entry.2.Overlong
  message
    : connection.state = .chunkDataWait → 0 < connection.chunkLen
      → ∀ message ∈ (connection.current platform).message, message.Resumable

/-- How much of a message the current chunk still brings. -/
def share (connection : RTMPConnection) (message : RTMPMessage) : Nat :=
  if connection.maxChunkSize = 0 then message.length - message.pos
  else min (connection.maxChunkSize - connection.chunkLen) (message.length - message.pos)

/-- A turn that reads a command or metadata finds all of it that the chunk brings. -/
def Uncut (platform : Platform) (connection : RTMPConnection) (buffer : List BYTE) : Prop :=
  connection.state = .chunkDataWait
    → ∀ message ∈ (connection.current platform).message, message.hasValues = true
      → connection.share message ≤ buffer.length

/-! Headers. -/

def collect (preParse : PreParse) (done waits : RTMPFormat → RTMPConnection)
    (format : RTMPFormat) (buffer : List BYTE) : Turned :=
  let (format, rest) := format.parse preParse buffer
  .ok ⟨if format.isParsed then done format else waits format, rest, true⟩

/-- The header is complete, or it waits for the next segment. -/
theorem collect_cases {preParse : PreParse} (steady : preParse.Steady)
    (done waits : RTMPFormat → RTMPConnection) {format : RTMPFormat} (isOpen : format.Open)
    {first : List BYTE} (nonempty : first ≠ [])
    : (∃ complete rest, rest.length < first.length
        ∧ collect preParse done waits format first = .ok ⟨done complete, rest, true⟩
        ∧ ∀ second, collect preParse done waits format (first ++ second)
          = .ok ⟨done complete, rest ++ second, true⟩)
      ∨ ∃ later : RTMPFormat, later.Open
        ∧ collect preParse done waits format first = .ok ⟨waits later, [], true⟩
        ∧ ∀ second, second ≠ [] → collect preParse done waits format (first ++ second)
          = collect preParse done waits later second := by
  rcases RTMPFormat.parse_cases steady isOpen nonempty
    with ⟨complete, shorter, same⟩ | ⟨incomplete, stillOpen, used, resumes⟩
  · refine .inl ⟨(format.parse preParse first).1, _, shorter, ?_, fun second => ?_⟩
    · simp only [collect, complete, if_true]
    · simp only [collect, same second, complete, if_true]
  · refine .inr ⟨_, stillOpen, ?_, fun second more => ?_⟩
    · simp only [collect, incomplete, used, Bool.false_eq_true, if_false]
    · simp only [collect, resumes second more]

/-- The turns of a connection that collects a header: what it does when the header is complete,
and how it waits.
-/
structure Collects (platform : Platform) (application : Application)
    (connection : RTMPConnection) (preParse : PreParse) (format : RTMPFormat)
    (done waits : RTMPFormat → RTMPConnection) : Prop where
  steady : preParse.Steady
  isOpen : format.Open
  turn
    : ∀ buffer, connection.turn platform application buffer
      = collect preParse done waits format buffer
  again
    : ∀ later buffer, (waits later).turn platform application buffer
      = collect preParse done waits later buffer
  done : ∀ complete, (done complete).Valid
  waits : ∀ later, later.Open → (waits later).Valid

variable {after : RTMPConnection}

section Collects

variable {preParse : PreParse} {format : RTMPFormat} {done waits : RTMPFormat → RTMPConnection}

theorem rank_le (connection : RTMPConnection) : connection.rank ≤ 2 := by
  unfold rank
  split <;> decide

/-- A turn that takes something makes progress. -/
theorem measure_lt {rest buffer : List BYTE}
    (shorter : rest.length < buffer.length)
    : (loop platform application).measure after rest
      < (loop platform application).measure connection buffer := by
  have rank := after.rank_le
  simp only [Loop.measure, loop]
  omega

/-- A turn takes something and leaves a valid connection. -/
theorem Collects.turn_ok
    (collects : Collects platform application connection preParse format done waits)
    {buffer : List BYTE} (nonempty : buffer ≠ []) {pass : Pass RTMPConnection BYTE}
    (success : connection.turn platform application buffer = .ok pass)
    : pass.rest.length < buffer.length ∧ pass.state.Valid := by
  have result := (collects.turn buffer).symm.trans success
  rcases collect_cases collects.steady done waits collects.isOpen nonempty
    with ⟨complete, rest, shorter, first, -⟩ | ⟨later, stillOpen, first, -⟩
  · cases first.symm.trans result
    exact ⟨shorter, collects.done complete⟩
  · cases first.symm.trans result
    exact ⟨length_pos_iff.mpr nonempty, collects.waits later stillOpen⟩

theorem Collects.resumes
    (collects : Collects platform application connection preParse format done waits)
    (ready : RTMPConnection → List BYTE → Prop) {first second : List BYTE}
    (nonempty : first ≠ []) (more : second ≠ [])
    : (loop platform application).TurnResumes ready connection first second := by
  have turns : ∀ buffer, (loop platform application).turn connection buffer
      = collect preParse done waits format buffer := collects.turn
  rw [Loop.TurnResumes, turns, turns]
  rcases collect_cases collects.steady done waits collects.isOpen nonempty
    with ⟨complete, rest, -, once, both⟩ | ⟨later, -, once, both⟩
  · rw [once, both]
    exact fun _ => .inl rfl
  · rw [once, both second more]
    exact fun _ => .inr ⟨rfl, (collects.again later second).symm⟩

end Collects

variable {stream : RTMPChunkInputStream}

/-- Valid messages stay valid when a stream is stored whose message is. -/
theorem MessagesValid.insert {streams : OrderedMap Nat RTMPChunkInputStream}
    (valid : MessagesValid streams) {id : Nat} (isValid : ∀ message ∈ stream.message, message.Valid)
    : MessagesValid (streams.insert id stream) :=
  forall_insert valid isValid

theorem MessagesValid.getD {streams : OrderedMap Nat RTMPChunkInputStream}
    (valid : MessagesValid streams) (id : Nat) (unset : BYTE)
    : ∀ message ∈ ((streams.find? id).getD (.new unset)).message, message.Valid := by
  cases found : streams.find? id with
  | none => exact nofun
  | some stream => exact valid id stream found

theorem startChunkData_valid (valid : ∀ message ∈ stream.message, message.Valid)
    : ∀ message ∈ stream.startChunkData.message, message.Valid := by
  unfold RTMPChunkInputStream.startChunkData
  cases stored : stream.message with
  | none =>
    intro message same
    cases same
    exact new_valid _ _ _ _
  | some found =>
    intro message same
    exact valid message same

theorem headerWait_collects (valid : connection.Valid) (waits : connection.state = .chunkHeaderWait)
    : Collects platform application connection preParse connection.header (fun header =>
          { connection with
            header := header, type0 := RTMPChunkType0.new, type1 := RTMPChunkType1.new,
            type2 := RTMPChunkType2.new, extts := RTMPExtendedTimestamp.new,
            state := .chunkTypeWait })
        (fun header => { connection with header := header }) where
  steady := preParse_steady
  isOpen := valid.header waits
  turn buffer := by
    simp only [turn, waits, headerTurn, headerRead, RTMPChunkBasicHeader.parse, collect]
  again later buffer := by
    simp only [turn, waits, headerTurn, headerRead, RTMPChunkBasicHeader.parse, collect]
  done complete := by
    refine ⟨nofun, fun _ => ?_, nofun, valid.messages⟩
    simp only [RTMPFormat.Open]
    decide
  waits later isOpen :=
    ⟨fun _ => isOpen, by simp [waits], by simp [waits], valid.messages⟩

theorem beginData_valid (messages : MessagesValid connection.chunkInputStreams)
    (isOpen : connection.extts.Open) (isValid : ∀ message ∈ stream.message, message.Valid)
    (extended : Bool)
    : (connection.beginData stream extended).Valid where
  header := by cases extended <;> nofun
  types := by cases extended <;> nofun
  extts _ := isOpen
  messages := messages.insert (startChunkData_valid isValid)

private def withTypes (connection : RTMPConnection) (types : RTMPFormat × RTMPFormat × RTMPFormat)
    : RTMPConnection :=
  { connection with type0 := types.1, type1 := types.2.1, type2 := types.2.2 }

/-- The turns on a message header. The three kinds of headers are read alike: `types` are the
formats when one of them has got further, and `begun` is what a complete header makes of the
stream.
-/
private theorem messageHeader_collects (valid : connection.Valid)
    (waits : connection.state = .chunkTypeWait)
    (types : RTMPFormat → RTMPFormat × RTMPFormat × RTMPFormat)
    (begun : RTMPFormat → RTMPChunkInputStream → RTMPChunkInputStream)
    (extended : RTMPFormat → Bool) {format : RTMPFormat} (isOpen : format.Open)
    (turns
      : ∀ before : RTMPConnection, before.state = .chunkTypeWait
        → before.header = connection.header
        → ∀ later buffer, (before.withTypes (types later)).turn platform application buffer
          = .ok ⟨(before.withTypes (types (later.parse fixedSize buffer).1)).formatRead
              (before.named platform)
              (begun (later.parse fixedSize buffer).1 (before.named platform))
              (extended (later.parse fixedSize buffer).1)
              (later.parse fixedSize buffer).1.isParsed,
            (later.parse fixedSize buffer).2, true⟩)
    (self : connection.withTypes (types format) = connection)
    (opens
      : ∀ later : RTMPFormat, later.Open
        → (types later).1.Open ∧ (types later).2.1.Open ∧ (types later).2.2.Open)
    (kept : ∀ later stream, (begun later stream).message = stream.message)
    : ∃ done waits, Collects platform application connection fixedSize format done waits := by
  have openExtended := (valid.types waits).2.2.2
  refine ⟨fun later => (connection.withTypes (types later)).beginData
      (begun later (connection.named platform)) (extended later),
    fun later => (connection.withTypes (types later)).setStream (connection.named platform),
    fixedSize_steady, isOpen, fun buffer => ?_, fun later buffer => ?_, fun complete => ?_,
    fun later laterOpen => ?_⟩
  · have once := turns connection waits rfl format buffer
    rw [self] at once
    exact once
  · refine (turns (connection.setStream _) waits rfl later buffer).trans ?_
    -- waiting for the rest of a header changes only the map of the streams
    simp only [formatRead, beginData, named, setStream, withTypes, find?_insert,
      insert_insert, if_true, Option.getD_some]
    rfl
  · refine @beginData_valid (connection.withTypes _) _ valid.messages openExtended ?_ _
    rw [kept]
    exact valid.messages.getD _ _
  · obtain ⟨open0, open1, open2⟩ := opens later laterOpen
    refine ⟨fun isHeader => ?_, fun _ => ⟨open0, open1, open2, openExtended⟩, fun _ => openExtended,
      valid.messages.insert (valid.messages.getD _ _)⟩
    cases waits.symm.trans isHeader

/-- A message header is collected, or there is none and the data begin. -/
theorem typeWait_cases (valid : connection.Valid) (waits : connection.state = .chunkTypeWait)
    : (∃ format done waits,
        Collects platform application connection fixedSize format done waits)
      ∨ ∀ buffer, connection.turn platform application buffer
        = .ok ⟨connection.beginData (applyType3 (connection.named platform)) false, buffer,
          true⟩ := by
  obtain ⟨open0, open1, open2, -⟩ := valid.types waits
  rcases fmt : getFmt connection.header with _ | _ | _ | other
  · refine .inl ⟨connection.type0, messageHeader_collects valid waits
      (⟨·, connection.type1, connection.type2⟩) (applyType0 platform.medkit)
      (fun type0 => RTMPChunkType0.getTimestamp platform.medkit type0 = extendedMark) open0
      (fun before typeWait header later buffer => ?_) rfl
      (fun _ laterOpen => ⟨laterOpen, open1, open2⟩) (fun later stream => ?_)⟩
    · simp only [turn, withTypes, typeWait, typeTurn, named, header, fmt]
    · simp only [applyType0]
      split_ifs <;> rfl
  · refine .inl ⟨connection.type1, messageHeader_collects valid waits
      (⟨connection.type0, ·, connection.type2⟩) (applyType1 platform.medkit)
      (fun type1 => RTMPChunkType1.getTimestampDelta platform.medkit type1 = extendedMark) open1
      (fun before typeWait header later buffer => ?_) rfl
      (fun _ laterOpen => ⟨open0, laterOpen, open2⟩) (fun later stream => ?_)⟩
    · simp only [turn, withTypes, typeWait, typeTurn, named, header, fmt]
    · simp only [applyType1]
      split_ifs <;> rfl
  · refine .inl ⟨connection.type2, messageHeader_collects valid waits
      (⟨connection.type0, connection.type1, ·⟩) (applyType2 platform.medkit)
      (fun type2 => RTMPChunkType2.getTimestampDelta platform.medkit type2 = extendedMark) open2
      (fun before typeWait header later buffer => ?_) rfl
      (fun _ laterOpen => ⟨open0, open1, laterOpen⟩) (fun later stream => ?_)⟩
    · simp only [turn, withTypes, typeWait, typeTurn, named, header, fmt]
    · simp only [applyType2]
      split_ifs <;> rfl
  · refine .inr fun buffer => ?_
    simp only [turn, waits, typeTurn, fmt]

theorem current_setCurrent (connection : RTMPConnection) (stream : RTMPChunkInputStream)
    : (connection.setCurrent stream).current platform = stream := by
  simp only [current, setCurrent, find?_insert, if_true, Option.getD_some]

theorem applyType3_message (stream : RTMPChunkInputStream)
    : (applyType3 stream).message = stream.message := by
  simp only [applyType3]
  split_ifs <;> rfl

theorem extWait_collects (valid : connection.Valid)
    (waits : connection.state = .chunkExtTimestampWait)
    : Collects platform application connection fixedSize connection.extts
        (fun extts =>
          { { connection with extts := extts }.setCurrent
              (connection.applyExtended
                (RTMPExtendedTimestamp.getTimestamp platform.medkit extts)
                (connection.current platform)) with
            state := .chunkDataWait })
        (fun extts => { connection with extts := extts }) where
  steady := fixedSize_steady
  isOpen := valid.extts waits
  turn buffer := by
    simp only [turn, waits, extTurn, collect, current, applyExtended]
    split_ifs <;> rfl
  again later buffer := by
    simp only [turn, waits, extTurn, collect, current, applyExtended]
    split_ifs <;> rfl
  done complete := by
    refine ⟨nofun, nofun, nofun, valid.messages.insert ?_⟩
    simp only [applyExtended]
    split_ifs <;> exact valid.messages.getD _ _
  waits later isOpen :=
    ⟨by simp [waits], by simp [waits], fun _ => isOpen, valid.messages⟩

/-! Data. -/

def taken (connection : RTMPConnection) (message : RTMPMessage) (size : Nat) : Nat :=
  message.takes (connection.room size)

theorem room_le (connection : RTMPConnection) (size : Nat) : connection.room size ≤ size := by
  simp only [room]
  split_ifs
  · omega
  · exact Nat.le_refl _

theorem room_mono (connection : RTMPConnection) {size more : Nat} (longer : size ≤ more)
    : connection.room size ≤ connection.room more := by
  simp only [room]
  split_ifs <;> omega

/-- No room for something means no room for more. -/
theorem room_full {size : Nat} (nonempty : 0 < size) (full : connection.room size = 0) (more : Nat)
    : connection.room (size + more) = 0 := by
  simp only [room] at full ⊢
  split_ifs at full ⊢ <;> omega

theorem taken_le (connection : RTMPConnection) (message : RTMPMessage) (size : Nat)
    : connection.taken message size ≤ size :=
  Nat.le_trans (Nat.min_le_left _ _) (connection.room_le size)

theorem taken_mono (connection : RTMPConnection) (message : RTMPMessage) {size more : Nat}
    (longer : size ≤ more)
    : connection.taken message size ≤ connection.taken message more := by
  have := connection.room_mono longer
  simp only [taken, takes]
  omega

/-- A message that leaves something leaves more as well. -/
theorem taken_left {size : Nat} (left : connection.taken message size < size) (more : Nat)
    : connection.taken message (size + more) = connection.taken message size := by
  simp only [taken, takes, room] at left ⊢
  split_ifs at left ⊢ <;> omega

/-- A message that took everything takes what a longer buffer has for it. -/
theorem taken_all {size : Nat} (all : connection.taken message size = size)
    (sameMax : after.maxChunkSize = connection.maxChunkSize)
    (chunkLen : after.chunkLen = connection.chunkLen + size)
    (sameLength : next.length = message.length) (pos : next.pos = message.pos + size) (more : Nat)
    : connection.taken message (size + more) = size + after.taken next more := by
  simp only [taken, takes, room, sameMax, chunkLen, sameLength, pos] at all ⊢
  split_ifs at all ⊢ <;> omega

/-- What the chunk brings to a message is taken, whatever follows it. -/
theorem taken_of_share {size : Nat} (whole : connection.share message ≤ size) (more : Nat)
    : connection.taken message (size + more) = connection.taken message size := by
  simp only [share, taken, takes, room] at whole ⊢
  split_ifs at whole ⊢ <;> omega

def give (platform : Platform) (application : Application) (connection : RTMPConnection)
    (message : RTMPMessage) (bytes rest : List BYTE) : Turned :=
  match message.fill platform bytes with
  | .error failure => .error (.failed connection.handed failure)
  | .ok next =>
    (connection.filled platform application next bytes.length).map
      (fun after => ⟨after, rest, true⟩)

variable {buffer : List BYTE}

theorem dataTurn_full (full : connection.room buffer.length = 0)
    : connection.dataTurn platform application buffer = .ok ⟨connection, buffer, true⟩ :=
  if_pos full

theorem dataTurn_none (room : connection.room buffer.length ≠ 0)
    (none : (connection.current platform).message = none)
    : connection.dataTurn platform application buffer
      = .error (.failed connection.handed .exception) := by
  simp only [dataTurn, if_neg room, none]

theorem dataTurn_some (room : connection.room buffer.length ≠ 0)
    (some : (connection.current platform).message = some message)
    : connection.dataTurn platform application buffer
      = connection.give platform application message
        (buffer.take (connection.taken message buffer.length))
        (buffer.drop (connection.taken message buffer.length)) := by
  have inside := connection.room_le buffer.length
  have length : (buffer.take (connection.room buffer.length)).length
      = connection.room buffer.length := by
    rw [length_take, Nat.min_eq_left inside]
  have bytes : (buffer.take (connection.room buffer.length)).take
      (message.takes (connection.room buffer.length))
      = buffer.take (message.takes (connection.room buffer.length)) := by
    rw [take_take]
    exact congrArg (buffer.take ·) (Nat.min_eq_left (Nat.min_le_left _ _))
  have count : (buffer.take (message.takes (connection.room buffer.length))).length
      = message.takes (connection.room buffer.length) := by
    rw [length_take]
    exact Nat.min_eq_left (connection.taken_le message buffer.length)
  cases read : message.fill platform
      (buffer.take (message.takes (connection.room buffer.length))) with
  | error failure =>
    simp only [dataTurn, if_neg room, some, RTMPMessage.parse, length, bytes, give, taken, read]
  | ok next =>
    simp only [dataTurn, if_neg room, some, RTMPMessage.parse, length, bytes, give, taken, read,
      count]

/-- How a message that was filled leaves the connection: it is still open, or it was handed
over and a header follows.
-/
theorem filled_ok {len : Nat}
    (success : connection.filled platform application next len = .ok after)
    : next.parsing = true ∧ len ≠ 0
        ∧ after = (connection.setCurrent
          { connection.current platform with message := some next }).chunkRead len
      ∨ next.parsing = false
        ∧ after.state = .chunkHeaderWait ∧ after.header = RTMPChunkBasicHeader.new
        ∧ after.handed = connection.handedWith next
        ∧ after.chunkInputStreams = connection.chunkInputStreams.insert connection.chunkStreamId
          { connection.current platform with message := none } := by
  unfold filled at success
  split_ifs at success with isOpen empty
  · cases success
    exact .inl ⟨isOpen, empty, rfl⟩
  · obtain ⟨delivered, given, rfl⟩ := map_ok success
    unfold deliver at given
    split_ifs at given
    cases given
    refine .inr ⟨by simpa using isOpen, ?_⟩
    simp only [chunkRead]
    split_ifs
    · exact ⟨rfl, rfl, rfl, rfl⟩
    · exact ⟨rfl, rfl, rfl, rfl⟩

/-- Only a handler that throws makes a message fail that has taken something. -/
theorem filled_error {stop : Stop} {len : Nat} (some : len ≠ 0)
    (fails : connection.filled platform application next len = .error stop)
    : next.parsing = false
      ∧ ∀ more, connection.filled platform application next more = .error stop := by
  unfold filled at fails ⊢
  split_ifs at fails ⊢ with isOpen
  refine ⟨by simpa using isOpen, fun more => ?_⟩
  rw [map_error fails]
  rfl

def within (platform : Platform) (connection : RTMPConnection) (next : RTMPMessage)
    (count : Nat) : RTMPConnection :=
  { connection.setCurrent { connection.current platform with message := some next } with
    chunkLen := connection.chunkLen + count }

theorem setCurrent_within (connection : RTMPConnection) (next : RTMPMessage) (count : Nat)
    (last : Option RTMPMessage)
    : (connection.within platform next count).setCurrent
        { (connection.within platform next count).current platform with message := last }
      = { connection.setCurrent { connection.current platform with message := last } with
        chunkLen := connection.chunkLen + count } := by
  have stream : (connection.within platform next count).current platform
      = { connection.current platform with message := some next } :=
    connection.current_setCurrent _
  rw [stream]
  simp only [within, setCurrent, insert_insert]

theorem chunkRead_add (connection : RTMPConnection) (count more : Nat)
    : ({ connection with chunkLen := connection.chunkLen + count } : RTMPConnection).chunkRead more
      = connection.chunkRead (count + more) := by
  have sum : connection.chunkLen + count + more = connection.chunkLen + (count + more) :=
    Nat.add_assoc _ _ _
  by_cases full : connection.maxChunkSize ≠ 0
      ∧ connection.chunkLen + (count + more) ≥ connection.maxChunkSize
  · rw [chunkRead, chunkRead, if_pos full, if_pos (sum ▸ full)]
    simp only [sum]
  · rw [chunkRead, chunkRead, if_neg full, if_neg (sum ▸ full)]
    simp only [sum]

theorem deliver_within (next last : RTMPMessage) (count : Nat)
    : (connection.within platform next count).deliver platform application last
      = (connection.deliver platform application last).map
        (fun after => { after with chunkLen := after.chunkLen + count }) := by
  unfold deliver
  rw [setCurrent_within]
  change (if connection.handlerThrows application last then _ else _) = _
  split_ifs
  · rfl
  · rfl

/-- A message that goes on in the same chunk. -/
theorem filled_within (next last : RTMPMessage) {count more : Nat} (nonzero : more ≠ 0)
    : (connection.within platform next count).filled platform application last more
      = connection.filled platform application last (count + more) := by
  have sum : count + more ≠ 0 := by omega
  unfold filled
  rw [if_neg nonzero, if_neg sum, setCurrent_within, deliver_within]
  split_ifs with isOpen
  · exact congrArg Except.ok (chunkRead_add _ count more)
  · cases connection.deliver platform application last with
    | error stop => rfl
    | ok after => exact congrArg Except.ok (chunkRead_add after count more)

variable {pass : Pass RTMPConnection BYTE}

theorem give_ok {bytes rest : List BYTE}
    (success : connection.give platform application message bytes rest = .ok pass)
    : ∃ next after, message.fill platform bytes = .ok next
      ∧ connection.filled platform application next bytes.length = .ok after
      ∧ pass = ⟨after, rest, true⟩ := by
  unfold give at success
  split at success
  · cases success
  · rename_i next filled
    obtain ⟨after, done, same⟩ := map_ok success
    exact ⟨next, after, filled, done, same⟩

theorem give_of_filled {bytes : List BYTE} (filled : message.fill platform bytes = .ok next)
    (rest : List BYTE)
    : connection.give platform application message bytes rest
      = (connection.filled platform application next bytes.length).map
        (fun after => ⟨after, rest, true⟩) := by
  simp only [give, filled]

theorem give_of_failed {bytes : List BYTE} {failure : Failure}
    (failed : message.fill platform bytes = .error failure) (rest : List BYTE)
    : connection.give platform application message bytes rest
      = .error (.failed connection.handed failure) := by
  simp only [give, failed]

/-- The bytes are given to the message whatever follows them. -/
theorem give_rest (bytes rest other : List BYTE)
    : connection.give platform application message bytes other
      = (connection.give platform application message bytes rest).map
        (fun pass => { pass with rest := other }) := by
  cases filled : message.fill platform bytes with
  | error failure =>
    rw [give_of_failed filled, give_of_failed filled]
    rfl
  | ok next =>
    rw [give_of_filled filled, give_of_filled filled]
    cases connection.filled platform application next bytes.length with
    | error stop => rfl
    | ok after => rfl

/-- A message that takes `count` bytes has as many left, and so has its chunk. -/
theorem taken_bounds {size count : Nat} (takes : connection.taken message size = count)
    (some : count ≠ 0)
    : message.pos + count ≤ message.length
      ∧ (connection.maxChunkSize ≠ 0
        → connection.chunkLen + count ≤ connection.maxChunkSize) := by
  simp only [taken, RTMPMessage.takes, room] at takes
  split_ifs at takes <;> omega

section Given

-- a message that took all of the first segment, and would have taken more
variable {first second : List BYTE} {extra : Nat}

/-- The message gets all of the first segment and, where both come at once, some of the second. -/
private theorem give_resumes (waits : connection.state = .chunkDataWait) (valid : message.Valid)
    (bytes : message.hasValues = false) (nonempty : first ≠ []) (some : extra ≠ 0)
    (reached : second.take extra ≠ []) (all : connection.taken message first.length = first.length)
    (both : connection.taken message (first.length + second.length) = first.length + extra)
    : Carries (connection.give platform application message first [])
        (connection.give platform application message (first ++ second.take extra)
          (second.drop extra)) fun pass =>
        Ready platform pass.state
          → connection.give platform application message (first ++ second.take extra)
              (second.drop extra)
            = pass.state.turn platform application second := by
  obtain ⟨below, chunk⟩ := taken_bounds both (by omega)
  have cut := @fill_resumes _ _ platform _ valid nonempty bytes reached
  cases filled : message.fill platform first with
  | error failure =>
    rw [give_of_failed filled]
    exact give_of_failed (cut.of_error filled) _
  | ok next =>
    have length : first.length ≠ 0 := Nat.ne_of_gt (length_pos_iff.mpr nonempty)
    rw [give_of_filled filled]
    cases done : connection.filled platform application next first.length with
    | error stop =>
      obtain ⟨complete, always⟩ := filled_error length done
      rcases fill_complete valid nonempty bytes (by omega) filled complete with whole | ⟨-, same⟩
      · omega
      · rw [give_of_filled (same _), always]
        rfl
    | ok after =>
      intro ready
      simp only at ready
      rcases filled_ok done with ⟨isOpen, -, rfl⟩ | ⟨complete, -, -, handed, -⟩
      · -- the chunk is not full, so the message goes on in it
        have inside : (connection.setCurrent
            { connection.current platform with message := Option.some next }).chunkRead
              first.length
            = connection.within platform next first.length := if_neg (by
          intro full
          have := chunk full.1
          have := full.2
          simp only [setCurrent] at this
          omega)
        rw [inside] at ready ⊢
        obtain ⟨-, position, sameLength⟩ := fill_open valid nonempty filled isOpen
        set middle := connection.within platform next first.length with isMiddle
        have stream : (middle.current platform).message = Option.some next := by
          rw [isMiddle, within]
          exact congrArg RTMPChunkInputStream.message (connection.current_setCurrent _)
        have later : middle.taken next second.length = extra := by
          have sum := @taken_all connection message next middle _ all rfl rfl sameLength position
            second.length
          omega
        have room : middle.room second.length ≠ 0 := by
          intro full
          rw [taken, full] at later
          exact some (later.symm.trans (Nat.zero_min _))
        have short : extra ≤ second.length := by
          rw [← later]
          exact taken_le _ _ _
        have fills := cut.of_ok filled isOpen
          (ready.message waits (by simp only [isMiddle, within]; omega) next stream)
        have same : middle.turn platform application second
            = middle.dataTurn platform application second := by
          rw [turn, show middle.state = .chunkDataWait from waits]
        rw [same, dataTurn_some room stream, later]
        cases last : next.fill platform (second.take extra) with
        | error failure =>
          rw [give_of_failed (fills.trans last), give_of_failed last]
          rfl
        | ok final =>
          rw [give_of_filled (fills.trans last), give_of_filled last, length_append,
            length_take, Nat.min_eq_left short, filled_within next final some]
      · -- a complete message would have been announced with less, or it is a control message
        rcases fill_complete valid nonempty bytes (by omega) filled complete
          with whole | ⟨overlong, -⟩
        · omega
        · refine absurd overlong (ready.handed (connection.chunkStreamId, next) ?_)
          rw [handed]
          unfold RTMPMessage.Overlong at overlong
          unfold handedWith
          split at overlong
          · rename_i isControl
            rw [isControl]
            exact mem_append_right _ mem_cons_self
          · cases overlong

end Given

theorem turn_dataWait (waits : connection.state = .chunkDataWait) (buffer : List BYTE)
    : connection.turn platform application buffer
      = connection.dataTurn platform application buffer := by
  simp only [turn, waits]

theorem dataWait_resumes (valid : connection.Valid) (waits : connection.state = .chunkDataWait)
    {first second : List BYTE} (nonempty : first ≠ []) (more : second ≠ [])
    (uncut : connection.Uncut platform first)
    : (loop platform application).TurnResumes (fun after _ => Ready platform after) connection
        first second := by
  have turns : ∀ buffer, (loop platform application).turn connection buffer
      = connection.dataTurn platform application buffer := turn_dataWait waits
  have length := length_pos_iff.mpr nonempty
  have total : (first ++ second).length = first.length + second.length := length_append
  rw [Loop.TurnResumes, turns, turns]
  by_cases full : connection.room first.length = 0
  · rw [dataTurn_full full, dataTurn_full (total ▸ room_full length full second.length)]
    exact fun _ => .inl rfl
  have room : connection.room (first ++ second).length ≠ 0 := by
    have := connection.room_mono (Nat.le_add_right first.length second.length)
    rw [total]
    omega
  cases stored : (connection.current platform).message with
  | none =>
    rw [dataTurn_none full stored, dataTurn_none room stored]
    rfl
  | some message =>
    rw [dataTurn_some full stored, dataTurn_some room stored]
    have isValid := valid.messages.getD _ _ message stored
    -- what follows does not reach the message
    have same : ∀ bytes rest : List BYTE,
        Carries (connection.give platform application message bytes rest)
          (connection.give platform application message bytes (rest ++ second)) fun pass =>
          connection.give platform application message bytes (rest ++ second)
            = .ok { pass with rest := pass.rest ++ second } := by
      intro bytes rest
      rw [give_rest bytes rest (rest ++ second)]
      cases given : connection.give platform application message bytes rest with
      | error stop => rfl
      | ok pass =>
        obtain ⟨next, after, -, -, rfl⟩ := give_ok given
        rfl
    by_cases left : connection.taken message first.length < first.length
    · rw [total, taken_left left, take_append_of_le_length (Nat.le_of_lt left),
        drop_append_of_le_length (Nat.le_of_lt left)]
      exact (same _ _).imp fun pass _ whole _ => .inl whole
    · have all : connection.taken message first.length = first.length :=
        Nat.le_antisymm (taken_le _ _ _) (Nat.not_lt.mp left)
      obtain ⟨extra, sum⟩ : ∃ extra, connection.taken message
          (first.length + second.length) = first.length + extra := by
        refine Nat.exists_eq_add_of_le (Nat.le_trans (Nat.le_of_eq all.symm) ?_)
        exact taken_mono _ _ (Nat.le_add_right _ _)
      rw [total, sum, take_length_add_append, drop_length_add_append, all, take_length, drop_length]
      by_cases some : extra = 0
      · rw [some, take_zero, append_nil, drop_zero]
        exact (same first []).imp fun pass _ whole _ => .inl whole
      · have reached : second.take extra ≠ [] := by
          simpa only [ne_eq, take_eq_nil_iff, not_or] using ⟨some, more⟩
        -- values have got all of their chunk
        have bytes : message.hasValues = false := by
          refine Bool.eq_false_iff.mpr fun values => some ?_
          have whole := taken_of_share (uncut waits message stored values) second.length
          omega
        refine (give_resumes waits isValid bytes nonempty some reached all sum).imp
          fun pass given goesOn ready => ?_
        obtain ⟨next, after, -, -, rfl⟩ := give_ok given
        exact .inr ⟨rfl, goesOn (ready rfl)⟩

/-- What a data turn comes to. -/
theorem dataTurn_ok (success : connection.dataTurn platform application buffer = .ok pass)
    : pass = ⟨connection, buffer, true⟩
      ∨ ∃ message next after, (connection.current platform).message = some message
        ∧ message.fill platform (buffer.take (connection.taken message buffer.length)) = .ok next
        ∧ connection.filled platform application next (connection.taken message buffer.length)
          = .ok after
        ∧ pass = ⟨after, buffer.drop (connection.taken message buffer.length), true⟩ := by
  by_cases full : connection.room buffer.length = 0
  · cases (dataTurn_full full).symm.trans success
    exact .inl rfl
  · cases stored : (connection.current platform).message with
    | none => cases (dataTurn_none full stored).symm.trans success
    | some message =>
      obtain ⟨next, after, filled, done, same⟩ :=
        give_ok ((dataTurn_some full stored).symm.trans success)
      rw [length_take, Nat.min_eq_left (taken_le _ _ _)] at done
      exact .inr ⟨message, next, after, rfl, filled, done, same⟩

theorem header_new_open : RTMPChunkBasicHeader.new.Open := by
  simp only [RTMPFormat.Open]
  decide

theorem chunkRead_valid (waits : connection.state = .chunkDataWait)
    (messages : MessagesValid connection.chunkInputStreams) (len : Nat)
    : (connection.chunkRead len).Valid := by
  unfold chunkRead
  split_ifs
  · exact ⟨fun _ => header_new_open, nofun, nofun, messages⟩
  · exact ⟨by simp [waits], by simp [waits], by simp [waits], messages⟩

theorem dataWait_steps (valid : connection.Valid) (waits : connection.state = .chunkDataWait)
    (success : connection.dataTurn platform application buffer = .ok pass)
    : ((loop platform application).measure pass.state pass.rest
          < (loop platform application).measure connection buffer
        ∨ pass.state = connection ∧ pass.rest = buffer)
      ∧ pass.state.Valid := by
  rcases dataTurn_ok success with rfl | ⟨message, next, after, stored, filled, done, rfl⟩
  · exact ⟨.inr ⟨rfl, rfl⟩, valid⟩
  · have isValid := valid.messages.getD _ _ message stored
    have short := connection.taken_le message buffer.length
    rcases filled_ok done with ⟨isOpen, some, rfl⟩ | ⟨-, state, header, -, streams⟩
    · refine ⟨.inl (measure_lt ?_),
        @chunkRead_valid (connection.setCurrent _) waits (valid.messages.insert ?_) _⟩
      · rw [length_drop]
        omega
      · intro open' same
        cases same
        have bytes : buffer.take (connection.taken message buffer.length) ≠ [] := by
          intro none
          have length := congrArg List.length none
          rw [length_take, Nat.min_eq_left short] at length
          exact some length
        exact (fill_open isValid bytes filled isOpen).1
    · refine ⟨.inl ?_, fun _ => ?_, by simp [state], by simp [state], ?_⟩
      · simp only [Loop.measure, loop, rank, state, waits, length_drop]
        omega
      · rw [header]
        exact header_new_open
      · rw [streams]
        exact valid.messages.insert (by simp)

/-! Segments. -/

theorem turn_steps (valid : connection.Valid) (nonempty : buffer ≠ [])
    (success : connection.turn platform application buffer = .ok pass)
    : ((loop platform application).measure pass.state pass.rest
          < (loop platform application).measure connection buffer
        ∨ pass.state = connection ∧ pass.rest = buffer)
      ∧ pass.state.Valid := by
  cases waits : connection.state with
  | chunkHeaderWait =>
    obtain ⟨shorter, next⟩ := (headerWait_collects valid waits).turn_ok nonempty success
    exact ⟨.inl (measure_lt shorter), next⟩
  | chunkTypeWait =>
    rcases typeWait_cases valid waits with ⟨_, _, _, collects⟩ | begins
    · obtain ⟨shorter, next⟩ := collects.turn_ok nonempty success
      exact ⟨.inl (measure_lt shorter), next⟩
    · cases (begins buffer).symm.trans success
      refine ⟨.inl ?_, beginData_valid valid.messages (valid.types waits).2.2.2 ?_ _⟩
      · simp only [Loop.measure, loop, rank, waits, beginData, Bool.false_eq_true, if_false]
        omega
      · rw [applyType3_message]
        exact valid.messages.getD _ _
  | chunkExtTimestampWait =>
    obtain ⟨shorter, next⟩ := (extWait_collects valid waits).turn_ok nonempty success
    exact ⟨.inl (measure_lt shorter), next⟩
  | chunkDataWait =>
    exact dataWait_steps valid waits ((turn_dataWait waits buffer).symm.trans success)

theorem turn_again (success : connection.turn platform application buffer = .ok pass)
    : pass.again = true := by
  unfold turn at success
  split at success
  · cases success
    rfl
  · unfold typeTurn at success
    split at success
    all_goals
      cases success
      rfl
  · simp only [extTurn] at success
    split_ifs at success
    all_goals
      cases success
      rfl
  · rcases dataTurn_ok success with rfl | ⟨_, _, _, _, _, _, rfl⟩
    · rfl
    · rfl

theorem loop_resumes (platform : Platform) (application : Application)
    : (loop platform application).Resumes Valid (Uncut platform)
        (fun connection _ => Ready platform connection) where
  steps connection buffer pass valid nonempty success :=
    (turn_steps valid nonempty success).imp_right fun next => ⟨turn_again success, next⟩
  turns connection first second valid nonempty more uncut := by
    cases waits : connection.state with
    | chunkHeaderWait => exact (headerWait_collects valid waits).resumes _ nonempty more
    | chunkTypeWait =>
      rcases typeWait_cases valid waits with ⟨_, _, _, collects⟩ | begins
      · exact collects.resumes _ nonempty more
      · have turns : ∀ buffer, (loop platform application).turn connection buffer = _ := begins
        rw [Loop.TurnResumes, turns, turns]
        exact fun _ => .inl rfl
    | chunkExtTimestampWait => exact (extWait_collects valid waits).resumes _ nonempty more
    | chunkDataWait => exact dataWait_resumes valid waits nonempty more uncut

variable {segment : List BYTE}

/-- What can be seen of a reception: the messages that were handed over, and the failure that
ended it.
-/
def outcome : Except Stop RTMPConnection → List (Nat × RTMPMessage) × Option Failure
  | .ok connection => (connection.handed, none)
  | .error (.failed handed failure) => (handed, some failure)
  | .error (.tooManyStreams handed) => (handed, some .exception)

/-- What each turn of a call has to begin with: values are not cut, and the chunk stream is not the
sixth new one in a row.
-/
def TurnPermits (platform : Platform) (counted : RTMPConnection × Nat) (buffer : List BYTE)
    : Prop :=
  counted.1.Uncut platform buffer
  ∧ ¬ (counted.1.opensStream ∧ counted.1.countStreams counted.2 > 5)

/-- A segment that may follow what was received so far. -/
def Permits (platform : Platform) (application : Application)
    (reached : Except Stop RTMPConnection) (segment : List BYTE) : Prop :=
  match reached with
  | .error _ => True
  | .ok connection =>
    connection.Ready platform
    ∧ (countedLoop platform application).EachTurn (TurnPermits platform) (connection, 0) segment

instance (platform : Platform) (connection : RTMPConnection)
    : Decidable (Ready platform connection) :=
  decidable_of_iff' _ (ready_iff platform connection)

instance (platform : Platform) (connection : RTMPConnection) (buffer : List BYTE)
    : Decidable (Uncut platform connection buffer) :=
  inferInstanceAs (Decidable (_ → ∀ message ∈ (connection.current platform).message, _ → _))

instance (platform : Platform) (counted : RTMPConnection × Nat) (buffer : List BYTE)
    : Decidable (TurnPermits platform counted buffer) :=
  inferInstanceAs (Decidable (_ ∧ _))

instance (platform : Platform) (application : Application)
    : ∀ reached segment, Decidable (Permits platform application reached segment)
  | .error _, _ => .isTrue trivial
  | .ok _, _ => inferInstanceAs (Decidable (_ ∧ _))

/-- A permitted segment is read by the loop without a limit. -/
theorem parseData_of_permits (permitted : Permits platform application (.ok connection) segment)
    : connection.parseData platform application segment
        = ((loop platform application).run connection segment).map Pass.state
      ∧ (loop platform application).EachTurn (Uncut platform) connection segment := by
  have turns : ∀ counted buffer, TurnPermits platform counted buffer
      → ((countedLoop platform application).turn counted buffer).map
          (fun pass => (⟨pass.state.1, pass.rest, pass.again⟩ : Pass RTMPConnection BYTE))
        = (loop platform application).turn counted.1 buffer := by
    intro counted buffer allowed
    have turn : (countedLoop platform application).turn counted buffer = _ := if_neg allowed.2
    rw [turn]
    cases found : counted.1.turn platform application buffer with
    | error stop | ok pass => exact found.symm
  have each := permitted.2
  refine ⟨?_, @Loop.EachTurn.project _ _ _ _ (loop platform application) _ Prod.fst _
    (fun _ _ => rfl) turns _ _ each _ fun _ _ both => both.1⟩
  rw [← @Loop.run_project _ _ _ _ (loop platform application) _ Prod.fst _ (fun _ _ => rfl) turns
    _ _ each (fun _ => rfl), parseData]
  cases (countedLoop platform application).run (connection, 0) segment with
  | error stop | ok pass => rfl

/-- Reception segment by segment comes to the same as the loop on all bytes at once, by
induction on the segments.
-/
theorem run_receive (valid : connection.Valid) {segments : List (List BYTE)}
    (permitted
      : EachStep (receive platform application) (Permits platform application) (.ok connection)
        segments)
    : (loop platform application).run connection segments.flatten
      = (run (receive platform application) (.ok connection) segments).map (⟨·, [], true⟩) := by
  induction segments generalizing connection with
  | nil => rfl
  | cons segment rest ih =>
    obtain ⟨here, later⟩ := permitted
    obtain ⟨parsed, uncut⟩ := parseData_of_permits here
    have step : receive platform application (.ok connection) segment
        = ((loop platform application).run connection segment).map Pass.state := parsed
    rw [run_cons, flatten_cons]
    have resumes := @Loop.run_resumes _ _ _ (loop platform application) _ _ _ _
      (loop_resumes platform application) valid segment uncut rest.flatten
    cases ran : (loop platform application).run connection segment with
    | error stop =>
      have ends : run (receive platform application)
          (receive platform application (.ok connection) segment) rest = .error stop := by
        rw [step, ran]
        exact foldl_fixed' (fun _ => rfl) rest
      rw [ends]
      by_cases none : rest.flatten = []
      · rw [none, append_nil]
        exact ran
      · exact (resumes none).of_error ran
    | ok pass =>
      rw [ran] at step
      rw [step] at later ⊢
      obtain ⟨nextValid, used⟩ := Loop.run_ok (loop_resumes platform application) valid ran
      have both : (loop platform application).run connection (segment ++ rest.flatten)
          = (loop platform application).run pass.state rest.flatten := by
        by_cases none : rest.flatten = []
        · rw [none, append_nil, ran, Loop.run_nil]
          exact congrArg Except.ok used
        · have ready : Ready platform pass.state := by
            cases rest with
            | nil => exact absurd rfl none
            | cons next others => exact later.1.1
          exact (resumes none).of_ok ran ready
      rw [both]
      exact ih nextValid later

theorem start_valid (maxChunkSize : Nat) : (start maxChunkSize).Valid := by
  refine ⟨fun _ => header_new_open, nofun, nofun, ?_⟩
  intro id stream impossible
  cases impossible

def received (platform : Platform) (application : Application) (maxChunkSize : Nat)
    (segments : List (List BYTE)) : Except Stop RTMPConnection :=
  run (receive platform application) (.ok (start maxChunkSize)) segments

/-- Segments of which each one may follow the ones before it. -/
def Smooth (platform : Platform) (application : Application) (maxChunkSize : Nat)
    (segments : List (List BYTE)) : Prop :=
  EachStep (receive platform application) (Permits platform application)
    (.ok (start maxChunkSize)) segments

instance (platform : Platform) (application : Application) (maxChunkSize : Nat)
    (segments : List (List BYTE))
    : Decidable (Smooth platform application maxChunkSize segments) :=
  inferInstanceAs (Decidable (EachStep _ _ _ segments))

section Example

/-- A text reader that takes as many bytes as it was told, and makes characters of bytes. -/
def sampleToolkit : TextToolkit where
  takes text buffer := min (text.size.getD 0 - text.given.flatten.length) buffer.length
  isParsed text := text.size.any (· ≤ text.given.flatten.length)
  getWString text := (text.given.flatten.take (text.size.getD 0)).map UInt8.toNat

def samplePlatform : Platform := ⟨Medkit.bigEndian, sampleToolkit, 16, 0⟩

/-- Handlers that never throw. -/
def quiet : Application := ⟨fun _ => false⟩

/-- The chunk of a video message, as far as its first byte: an AVC key frame. -/
def avcStart : List BYTE := [4, 0, 0, 0, 0, 0, 7, 9, 1, 0, 0, 0, 0x17]

/-- The chunk of a command with a name of two letters, a number and nothing else. -/
def commandChunk : List BYTE :=
  [3, 0, 0, 0, 0, 0, 15, 20, 0, 0, 0, 0, 2, 0, 2, 111, 107, 0, 0x40, 0, 0, 0, 0, 0, 0, 0, 5]

def avcHeader (seen : List (Nat × RTMPMessage) × Option Failure) : List BYTE :=
  match seen.1 with
  | (_, ⟨_, _, _, _, .video frame, _, _, _⟩) :: _ => frame.extraData
  | _ => []

end Example

end RTMPConnection

end MediaServer.Rtmp
