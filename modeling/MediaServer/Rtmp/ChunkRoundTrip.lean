import Mathlib.Data.List.Forall2
import MediaServer.Rtmp.ChunkReading

/-! What the chunk writer of a connection writes, the chunk reader reads: the messages of each
chunk stream arrive as they were queued.
-/

namespace MediaServer.Rtmp

open Foundation RTMPChunkOutputStream List

structure Sendable (platform : Platform) (maxChunkSize : Nat) (streamId timestamp : DWORD)
    (sent : OutgoingMessage) : Prop where
  positive : 0 < sent.payload.length
  short : sent.payload.length < 2 ^ 24
  announced
    : if sent.streamId = 0 ∨ sent.streamId ≠ streamId ∨ sent.timestamp < timestamp
      then sent.timestamp < 0xFFFFFF
      else sent.timestamp - timestamp < 0xFFFFFF
  readable : sent.Readable platform maxChunkSize

def AllSendable (platform : Platform) (maxChunkSize : Nat)
    : DWORD → DWORD → List OutgoingMessage → Prop
  | _, _, [] => True
  | streamId, timestamp, sent :: rest =>
    Sendable platform maxChunkSize streamId timestamp sent
    ∧ AllSendable platform maxChunkSize sent.streamId sent.timestamp rest

def RTMPChunkOutputStream.sending (output : RTMPChunkOutputStream) (payload : List BYTE)
    : OutgoingMessage :=
  ⟨output.type, output.streamId, output.timestamp, payload⟩

/-- A message that is sent and received at the same time. -/
structure Halfway (platform : Platform) (maxChunkSize : Nat) (output : RTMPChunkOutputStream)
    (payload : List BYTE) (message : RTMPMessage) : Prop where
  pos : message.pos = output.pos
  length : message.length = payload.length
  sameLength : output.length.toNat = payload.length
  below : output.pos < payload.length
  valid : message.Valid
  delivers
    : ∃ final, Feeds platform maxChunkSize message (payload.drop output.pos) final
      ∧ Delivers platform maxChunkSize (output.sending payload) final

/-- One chunk stream on both sides: what was queued on it is done and handed over, under way,
or still in the queue.
-/
structure Linked (platform : Platform) (maxChunkSize : Nat) (queued : List OutgoingMessage)
    (output : RTMPChunkOutputStream) (input : RTMPChunkInputStream) (handed : List RTMPMessage)
    : Prop where
  agrees : Agrees output input
  queue : AllSendable platform maxChunkSize output.streamId output.timestamp output.messages
  messages
    : (output.msgBuffer = none ∧ input.message = none
        ∧ ∃ done, queued = done ++ output.messages
          ∧ List.Forall₂ (Received platform) done handed)
      ∨ ∃ payload message, output.msgBuffer = some payload ∧ input.message = some message
        ∧ Halfway platform maxChunkSize output payload message
        ∧ ∃ done, queued = done ++ output.sending payload :: output.messages
          ∧ List.Forall₂ (Received platform) done handed

namespace RTMPConnection

/-- The messages that were handed over from one chunk stream. -/
def handedOn (connection : RTMPConnection) (csid : Nat) : List RTMPMessage :=
  connection.handed.filterMap (fun entry => if entry.1 = csid then some entry.2 else none)

def known (connection : RTMPConnection) (id : Nat) : Bool :=
  (connection.chunkInputStreams.find? id).isSome

structure Between (ids : List Nat) (maxChunkSize : Nat) (connection : RTMPConnection)
    (count : Nat) : Prop where
  waits : connection.AtHeader
  maxChunkSize : connection.maxChunkSize = maxChunkSize
  count : count ≤ ids.countP connection.known

/-- The other chunk streams stay as they are. -/
structure Keeps (platform : Platform) (csid : Nat) (connection last : RTMPConnection)
    : Prop where
  streams
    : ∀ other, other ≠ csid → last.streamOf platform other = connection.streamOf platform other
  handed : ∀ other, other ≠ csid → last.handedOn other = connection.handedOn other

variable {platform : Platform} {application : Application} {connection last : RTMPConnection}
  {csid count : Nat} {stream : RTMPChunkInputStream} {handed : List (Nat × RTMPMessage)}

section

variable (ended : Ended connection last csid stream handed)
include ended

theorem Ended.streamOf : last.streamOf platform csid = stream := by
  rw [RTMPConnection.streamOf, ended.streams, OrderedMap.find?_insert, if_pos rfl]
  rfl

theorem handedOn_append (other : Nat)
    : last.handedOn other
      = connection.handedOn other
        ++ handed.filterMap (fun entry => if entry.1 = other then some entry.2 else none) := by
  rw [handedOn, ended.handed, filterMap_append]
  rfl

theorem Ended.keeps (own : ∀ entry ∈ handed, entry.1 = csid)
    : Keeps platform csid connection last := by
  refine ⟨fun other different => ?_, fun other different => ?_⟩
  · rw [RTMPConnection.streamOf, ended.streams, OrderedMap.find?_insert, if_neg different]
    rfl
  · rw [handedOn_append ended other]
    refine (congrArg _ ?_).trans (append_nil _)
    rw [filterMap_eq_nil_iff]
    intro entry member
    exact if_neg (fun same : entry.1 = other => different (same.symm.trans (own entry member)))

end

/-- The count of new chunk streams behind a chunk. -/
theorem countStreams_headed (fmt : RTMPChunkOutputStream.Fmt) (below : csid < 64)
    : (connection.headed fmt csid).countStreams count
      = if connection.known csid then 0 else count + 1 := by
  have id := RTMPChunkBasicHeader.getStreamId_small fmt below
  have opens : (connection.headed fmt csid).opensStream = !connection.known csid := by
    simp only [opensStream, headed, id, known]
    cases connection.chunkInputStreams.find? csid with
    | none => rfl
    | some stream => rfl
  unfold countStreams
  rw [opens]
  simp only [headed]
  cases connection.known csid with
  | false => rfl
  | true => rfl

theorem Ended.known (ended : Ended connection last csid stream handed) (id : Nat)
    : last.known id = (decide (id = csid) || connection.known id) := by
  rw [RTMPConnection.known, ended.streams, OrderedMap.find?_insert]
  by_cases same : id = csid
  · simp [same]
  · simp [same, RTMPConnection.known]

/-- A chunk stream is counted when it is met for the first time, by induction on `ids`. -/
theorem countP_known {ids : List Nat} (member : csid ∈ ids)
    (unknown : connection.known csid = false) (ended : Ended connection last csid stream handed)
    : ids.countP connection.known + 1 ≤ ids.countP last.known := by
  induction ids with
  | nil => cases member
  | cons id rest ih =>
    have grows : rest.countP connection.known ≤ rest.countP last.known := by
      refine countP_mono_left (fun other _ isKnown => ?_)
      rw [ended.known, isKnown, Bool.or_true]
    rw [countP_cons, countP_cons]
    by_cases same : id = csid
    · have now : last.known id = true := by
        rw [ended.known, same]
        simp
      rw [now, same, unknown]
      simp
      exact grows
    · have later := ih ((mem_cons.mp member).resolve_left (fun found => same found.symm))
      have unchanged : last.known id = connection.known id := by
        rw [ended.known]
        simp [same]
      rw [unchanged]
      omega

section Chunk

variable {maxChunkSize : Nat} {output : RTMPChunkOutputStream} {payload : List BYTE}
  {message : RTMPMessage} {queued : List OutgoingMessage} {after : RTMPConnection}

def piece (output : RTMPChunkOutputStream) (payload : List BYTE) (maxChunkSize : Nat) : List BYTE :=
  (payload.drop output.pos).take maxChunkSize

theorem length_piece (output : RTMPChunkOutputStream) (payload : List BYTE) (maxChunkSize : Nat)
    : (piece output payload maxChunkSize).length
      = min maxChunkSize (payload.length - output.pos) := by
  rw [piece, length_take, length_drop]

variable {headers : List BYTE} {size : Nat}

/-- The buffer has space for what the chunk holds. -/
theorem copyPayload_eq (halfway : Halfway platform maxChunkSize output payload message)
    (space : headers.length + maxChunkSize ≤ size)
    : output.copyPayload payload headers size maxChunkSize
      = (headers ++ piece output payload maxChunkSize,
        if output.pos + (piece output payload maxChunkSize).length = payload.length
        then { output with
          msgBuffer := none, pos := output.pos + (piece output payload maxChunkSize).length }
        else { output with pos := output.pos + (piece output payload maxChunkSize).length }) := by
  have len : output.payloadLen headers.length size maxChunkSize
      = (piece output payload maxChunkSize).length := by
    rw [length_piece, payloadLen, halfway.sameLength]
    omega
  have bytes : (payload.drop output.pos).take (piece output payload maxChunkSize).length
      = piece output payload maxChunkSize := by
    rw [piece, length_take, take_eq_take_iff]
    omega
  simp only [copyPayload, len, bytes, halfway.sameLength]
  split_ifs
  · rfl
  · rfl

variable {sent : OutgoingMessage}

theorem Sendable.announces
    (sendable : Sendable platform maxChunkSize output.streamId output.timestamp sent)
    : output.Announces sent := by
  have announced := sendable.announced
  unfold RTMPChunkOutputStream.Announces
  by_cases first : sent.streamId = 0 ∨ sent.streamId ≠ output.streamId
      ∨ sent.timestamp < output.timestamp
  · have select : output.selectHeader sent = .type0 := if_pos first
    rw [if_pos first] at announced
    rwa [if_pos select]
  · have select : output.selectHeader sent ≠ .type0 := by
      unfold selectHeader
      rw [if_neg first]
      split_ifs <;> decide
    rw [if_neg first] at announced
    rwa [if_neg select]

/-- A message that has just been opened on both sides. -/
theorem halfway_opened (long : 10 ≤ maxChunkSize)
    (sendable : Sendable platform maxChunkSize output.streamId output.timestamp sent)
    (rest : List OutgoingMessage)
    : Halfway platform maxChunkSize (output.startMessage sent rest) sent.payload sent.opened := by
  obtain ⟨final, delivers⟩ := sendable.readable.delivers sendable.positive long
  exact ⟨rfl, rfl, length_toNat sendable.short, sendable.positive,
    RTMPMessage.new_valid _ _ _ _, final, delivers.fed, delivers⟩

/-- The count of new chunk streams behind the headers of a chunk. -/
def counted (connection : RTMPConnection) (count csid : Nat) : Nat :=
  if connection.known csid then 0 else count + 1

theorem chunkHeader_length_le (medkit : Medkit) (announces : output.Announces sent)
    : (output.chunkHeader medkit sent).length ≤ 11 := by
  unfold chunkHeader
  cases select : output.selectHeader sent with
  | type0 =>
    rw [RTMPChunkOutputStream.Announces, if_pos select] at announces
    simp only
    rw [if_neg (UInt32.not_le.mpr announces)]
    exact Nat.le_refl 11
  | type1 => exact Nat.le_add_left 7 4
  | type2 => exact Nat.le_add_left 3 8
  | type3 => exact Nat.zero_le _

section Met

variable {ids : List Nat} (between : Between ids maxChunkSize connection count)
  (member : csid ∈ ids)
include between member

theorem Between.counted_le : connection.counted count csid ≤ ids.length := by
  unfold counted
  split_ifs with known
  · exact Nat.zero_le _
  · have fewer : ids.countP connection.known ≠ ids.length :=
      fun all => known (countP_eq_length.mp all csid member)
    have : ids.countP connection.known ≤ ids.length := countP_le_length
    have := between.count
    omega

theorem Between.ended (ended : Ended connection last csid stream handed)
    : Between ids maxChunkSize last (connection.counted count csid) := by
  refine ⟨ended.waits, ended.maxChunkSize.trans between.maxChunkSize, ?_⟩
  unfold counted
  split_ifs with known
  · exact Nat.zero_le _
  · have := countP_known member (Bool.eq_false_iff.mpr known) ended
    have := between.count
    omega

def HeadersRead (platform : Platform) (application : Application) (connection : RTMPConnection)
    (count csid : Nat) (headers : List BYTE) (stream : RTMPChunkInputStream) : Prop :=
  ∀ rest, rest ≠ [] → ∃ after, Begun connection after csid stream
    ∧ (countedLoop platform application).run (connection, count) (headers ++ rest)
      = (countedLoop platform application).run (after, connection.counted count csid) rest

section Headers

variable (few : ids.length ≤ 5) (below : csid < 64) (above : 2 ≤ csid)
include few below above

theorem headersRead_continued
    (isOpen : (connection.streamOf platform csid).message.isSome)
    : HeadersRead platform application connection count csid
      (RTMPChunkBasicHeader.serialize RTMPChunkOutputStream.Fmt.type3.code csid)
      (connection.streamOf platform csid) := by
  intro rest more
  have counts := @countStreams_headed connection csid count .type3 below
  have allowed := (between.counted_le member).trans few
  have small := (between.count.trans countP_le_length).trans few
  obtain ⟨after, begun, runs⟩ := run_continued below isOpen (counts.trans_le allowed) more
  refine ⟨after, begun, ?_⟩
  rw [run_basicHeader between.waits below above small .type3 rest, runs, counts]
  rfl

theorem headersRead_message (order : platform.medkit.NetworkOrder)
    (agrees : Agrees output (connection.streamOf platform csid))
    (none : (connection.streamOf platform csid).message = none)
    (sendable : Sendable platform maxChunkSize output.streamId output.timestamp sent)
    (queue : List OutgoingMessage)
    : HeadersRead platform application connection count csid
      (RTMPChunkBasicHeader.serialize (output.selectHeader sent).code csid
        ++ output.chunkHeader platform.medkit sent)
      ((output.startMessage sent queue).described Option.none).startChunkData := by
  intro rest more
  have counts := @countStreams_headed connection csid count (output.selectHeader sent) below
  have allowed := (between.counted_le member).trans few
  have small := (between.count.trans countP_le_length).trans few
  obtain ⟨after, begun, runs⟩ := run_messageHeader order below agrees none
    (Sendable.announces sendable) sendable.short queue (counts.trans_le allowed) more
  refine ⟨after, begun, ?_⟩
  rw [append_assoc, run_basicHeader between.waits below above small, runs, counts]
  rfl

end Headers

/-- What one chunk does: the reader has taken it, and both sides still agree. -/
def ChunkRead (platform : Platform) (application : Application) (ids : List Nat)
    (maxChunkSize csid : Nat) (queued : List OutgoingMessage) (chunk : List BYTE)
    (next : RTMPChunkOutputStream) (connection : RTMPConnection) (count : Nat) : Prop :=
  ∀ rest, ∃ last count', Between ids maxChunkSize last count'
    ∧ Keeps platform csid connection last
    ∧ Linked platform maxChunkSize queued next (last.streamOf platform csid)
      (last.handedOn csid)
    ∧ (countedLoop platform application).run (connection, count) (chunk ++ rest)
      = (countedLoop platform application).run (last, count') rest

section Payload

variable (quiet : ∀ handed, application.throws handed = false) (positive : 0 < maxChunkSize)
  (agrees : Agrees output stream) (stored : stream.message = some message)
  (buffer : output.msgBuffer = some payload)
  (halfway : Halfway platform maxChunkSize output payload message)
  (queue : AllSendable platform maxChunkSize output.streamId output.timestamp output.messages)
  {done : List OutgoingMessage} (split : queued = done ++ output.sending payload :: output.messages)
  (received : List.Forall₂ (Received platform) done (connection.handedOn csid))
  (space : headers.length + maxChunkSize ≤ size)
include quiet positive agrees stored buffer halfway queue split received space

omit between member in
/-- The message goes on by one chunk on both sides. -/
theorem run_payload (sameMax : connection.maxChunkSize = maxChunkSize)
    (begun : Begun connection after csid stream) (allowed : count ≤ 5) (rest : List BYTE)
    : ∃ last stream handed, Ended connection last csid stream handed
      ∧ (∀ entry ∈ handed, entry.1 = csid)
      ∧ Linked platform maxChunkSize queued
        (output.copyPayload payload headers size maxChunkSize).2 (last.streamOf platform csid)
        (last.handedOn csid)
      ∧ (countedLoop platform application).run (after, count)
          (piece output payload maxChunkSize ++ rest)
        = (countedLoop platform application).run (last, count) rest := by
  have left : (payload.drop output.pos).length = payload.length - output.pos := length_drop
  have size' : (piece output payload maxChunkSize).length
      = min connection.maxChunkSize (message.length - message.pos) := by
    rw [length_piece, sameMax, halfway.length, halfway.pos]
  have below := halfway.below
  have nonempty : piece output payload maxChunkSize ≠ [] :=
    length_pos_iff.mp (by rw [length_piece]; omega)
  rw [copyPayload_eq halfway space]
  obtain ⟨final, feeds, delivers⟩ := halfway.delivers
  cases feeds with
  | last _ fits filled complete =>
    -- the message is complete on both sides
    have whole : piece output payload maxChunkSize = payload.drop output.pos :=
      take_of_length_le fits
    rw [← whole] at filled
    obtain ⟨last, ended, runs⟩ := run_last begun stored size' (by omega) nonempty filled
      allowed rest quiet complete delivers.media (fun isSet preParse ctrl isControl =>
        (delivers.chunkSize isSet preParse ctrl isControl).trans sameMax.symm)
    refine ⟨last, _, _, ended, by simp, ?_, runs⟩
    rw [if_pos (by rw [length_piece]; omega), ended.streamOf, handedOn_append ended csid]
    refine ⟨{ agrees with }, queue, .inl ⟨rfl, rfl, done ++ [output.sending payload], ?_, ?_⟩⟩
    · rw [split, append_assoc]
      rfl
    · refine rel_append received ?_
      simp only [filterMap_cons, if_true, filterMap_nil]
      exact .cons delivers.received .nil
  | more longer filled isOpen feeds =>
    obtain ⟨last, ended, runs⟩ := run_more begun stored size' (by omega) nonempty filled
      allowed rest (by rw [length_piece, sameMax]; omega) isOpen
    obtain ⟨valid, pos, length⟩ :=
      RTMPMessage.fill_open halfway.valid nonempty filled isOpen
    refine ⟨last, _, _, ended, by simp, ?_, runs⟩
    rw [if_neg (by rw [length_piece]; omega), ended.streamOf, handedOn_append ended csid]
    refine ⟨{ agrees with }, queue, .inr ⟨payload, _, buffer, rfl, ?_, done, split, ?_⟩⟩
    · refine ⟨?_, length.trans halfway.length, halfway.sameLength, ?_, valid, final, ?_, delivers⟩
      · rw [pos, halfway.pos]
      · simp only [length_piece]
        omega
      · have rest' : (payload.drop output.pos).drop maxChunkSize
            = payload.drop (output.pos + (piece output payload maxChunkSize).length) := by
          rw [drop_drop, length_piece]
          congr 1
          omega
        rw [rest'] at feeds
        exact feeds
    · simpa using received

/-- Behind the headers the payload follows. -/
theorem chunkRead_of_headers (few : ids.length ≤ 5)
    (reads : HeadersRead platform application connection count csid headers stream)
    : ChunkRead platform application ids maxChunkSize csid queued
      (output.copyPayload payload headers size maxChunkSize).1
      (output.copyPayload payload headers size maxChunkSize).2 connection count := by
  intro rest
  have below := halfway.below
  have nonempty : piece output payload maxChunkSize ≠ [] :=
    length_pos_iff.mp (by rw [length_piece]; omega)
  obtain ⟨after, begun, headersRun⟩ := reads (piece output payload maxChunkSize ++ rest)
    (by simp [nonempty])
  obtain ⟨last, _, _, ended, own, linked, runs⟩ := run_payload quiet positive agrees stored buffer
    halfway queue split received space between.maxChunkSize begun
    ((between.counted_le member).trans few) rest
  refine ⟨last, _, between.ended member ended, ended.keeps own, linked, ?_⟩
  rw [copyPayload_eq halfway space, append_assoc, headersRun, runs]

end Payload

/-- One chunk is written and read. -/
theorem chunkRead_getNextChunk (order : platform.medkit.NetworkOrder)
    (quiet : ∀ handed, application.throws handed = false) (long : 10 ≤ maxChunkSize)
    (few : ids.length ≤ 5) (below : csid < 64) (above : 2 ≤ csid)
    (linked
      : Linked platform maxChunkSize queued output (connection.streamOf platform csid)
        (connection.handedOn csid)) (hasData : output.hasData = true)
    (space : maxChunkSize + 12 ≤ size)
    : ChunkRead platform application ids maxChunkSize csid queued
      (output.getNextChunk platform.medkit csid size maxChunkSize).1
      (output.getNextChunk platform.medkit csid size maxChunkSize).2 connection count := by
  obtain ⟨agrees, queue, messages⟩ := linked
  have one : ∀ fmt, (RTMPChunkBasicHeader.serialize fmt csid).length = 1 :=
    fun fmt => congrArg List.length (if_pos below)
  rcases messages with ⟨buffer, none, done, split, received⟩
    | ⟨payload, message, buffer, stored, halfway, done, split, received⟩
  · cases messages : output.messages with
    | nil =>
      rw [RTMPChunkOutputStream.hasData, buffer, messages] at hasData
      cases hasData
    | cons sent rest =>
      rw [messages] at queue split
      have headers := chunkHeader_length_le platform.medkit (Sendable.announces queue.1)
      have opened
          : ((output.startMessage sent rest).described Option.none).startChunkData.message
            = some sent.opened :=
        congrArg (fun length => some (RTMPMessage.new sent.streamId sent.timestamp sent.type
          length)) (length_toNat queue.1.short)
      rw [getNextChunk, buffer, messages]
      refine chunkRead_of_headers between member quiet (by omega)
        ⟨rfl, rfl, rfl, rfl, fun _ => rfl⟩ opened rfl (halfway_opened long queue.1 rest)
        queue.2 split received ?_ few
        (headersRead_message between member few below above order agrees none queue.1 rest)
      rw [length_append, one]
      omega
  · rw [getNextChunk, buffer]
    refine chunkRead_of_headers between member quiet (by omega) agrees stored buffer halfway queue
      split received ?_ few
      (headersRead_continued between member few below above (by rw [stored]; rfl))
    rw [one]
    omega

end Met

end Chunk

end RTMPConnection

end MediaServer.Rtmp
