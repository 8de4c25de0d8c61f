import Mathlib.Algebra.Order.BigOperators.Group.List
import Mathlib.Algebra.Order.Ring.Nat
import Mathlib.Data.List.Nodup
import MediaServer.Rtmp.ChunkRoundTrip

/-! Messages that are queued on the chunk streams of a connection and drained into buffers
arrive at a chunk reader as they were queued.
-/

namespace MediaServer.Rtmp

open Foundation RTMPChunkOutputStream ChunkOutput List

/-! What is still to be sent. -/

namespace RTMPChunkOutputStream

variable {medkit : Medkit} {stream : RTMPChunkOutputStream} {csid size maxChunkSize : Nat}

/-- The payload that a stream has not sent, and one more for each message in its queue. -/
def pending (stream : RTMPChunkOutputStream) : Nat :=
  (if stream.msgBuffer.isSome then stream.length.toNat - stream.pos else 0)
    + (stream.messages.map (fun message => message.payload.length + 1)).sum

/-- A message that is being sent has something left. -/
def Going (stream : RTMPChunkOutputStream) : Prop :=
  stream.msgBuffer.isSome → stream.pos < stream.length.toNat

theorem pending_copyPayload_le (stream : RTMPChunkOutputStream) (buffer headers : List BYTE)
    (size maxChunkSize : Nat)
    : (stream.copyPayload buffer headers size maxChunkSize).2.pending ≤ stream.pending := by
  simp only [copyPayload]
  split_ifs with whole
  · simp only [pending, Option.isSome_none]
    split_ifs <;> omega
  · simp only [pending]
    split_ifs <;> omega

theorem pending_copyPayload_lt {buffer headers : List BYTE} (isOpen : stream.msgBuffer.isSome)
    (going : stream.pos < stream.length.toNat) (positive : 0 < maxChunkSize)
    (space : headers.length < size)
    : (stream.copyPayload buffer headers size maxChunkSize).2.pending < stream.pending := by
  have some : 0 < stream.payloadLen headers.length size maxChunkSize := by
    simp only [payloadLen]
    omega
  simp only [copyPayload]
  split_ifs with whole
  · simp only [pending, Option.isSome_none, isOpen, if_true, Bool.false_eq_true, if_false]
    omega
  · simp only [pending, isOpen, if_true]
    omega

theorem pending_startMessage_lt (stream : RTMPChunkOutputStream) (message : OutgoingMessage)
    {rest : List OutgoingMessage} (queue : stream.messages = message :: rest)
    (closed : stream.msgBuffer = none)
    : (stream.startMessage message rest).pending < stream.pending := by
  have short : message.length.toNat ≤ message.payload.length := by
    rw [OutgoingMessage.length, UInt32.toNat_ofNat']
    exact Nat.mod_le _ _
  simp only [pending, startMessage, closed, queue, Option.isSome_some, Option.isSome_none,
    if_true, Bool.false_eq_true, if_false, map_cons, sum_cons]
  omega

/-- Each chunk brings a stream forward. -/
theorem pending_getNextChunk (below : csid < 64) (positive : 0 < maxChunkSize) (space : 1 < size)
    (stream : RTMPChunkOutputStream)
    : (stream.getNextChunk medkit csid size maxChunkSize).2.pending ≤ stream.pending
      ∧ (stream.Going → stream.hasData = true
        → (stream.getNextChunk medkit csid size maxChunkSize).2.pending < stream.pending) := by
  cases buffer : stream.msgBuffer with
  | none =>
    cases queue : stream.messages with
    | nil =>
      simp only [getNextChunk, hasData, buffer, queue]
      exact ⟨Nat.le_refl _, by simp⟩
    | cons message rest =>
      simp only [getNextChunk, buffer, queue]
      refine ⟨Nat.le_of_lt ?_, fun _ _ => ?_⟩
      all_goals
        exact Nat.lt_of_le_of_lt (pending_copyPayload_le _ _ _ _ _)
          (pending_startMessage_lt stream message queue buffer)
  | some payload =>
    have isOpen : stream.msgBuffer.isSome := by
      rw [buffer]
      rfl
    have one : (RTMPChunkBasicHeader.serialize Fmt.type3.code csid).length = 1 :=
      congrArg List.length (if_pos below)
    simp only [getNextChunk, buffer]
    refine ⟨pending_copyPayload_le _ _ _ _ _, fun going _ => ?_⟩
    exact pending_copyPayload_lt isOpen (going isOpen) positive (by rw [one]; exact space)

theorem hasData_eq_false
    : stream.hasData = false ↔ stream.msgBuffer = none ∧ stream.messages = [] := by
  simp [hasData]

theorem pending_pos (going : stream.Going) (hasData : stream.hasData = true)
    : 0 < stream.pending := by
  unfold pending
  rcases Bool.or_eq_true_iff.mp hasData with isOpen | queued
  · have := going isOpen
    rw [if_pos isOpen]
    omega
  · cases queue : stream.messages with
    | nil =>
      rw [queue] at queued
      cases queued
    | cons message rest =>
      rw [map_cons, sum_cons]
      omega

end RTMPChunkOutputStream

namespace ChunkOutput

variable {medkit : Medkit} {maxChunkSize : Nat}

def pending (streams : List (Nat × RTMPChunkOutputStream)) : Nat :=
  (streams.map (fun entry => entry.2.pending)).sum

/-- Writing chunks of one stream, by induction on the turns of the loop. -/
theorem pending_writeStream {csid : Nat} (below : csid < 64) (positive : 0 < maxChunkSize)
    (fuel count space : Nat) (stream : RTMPChunkOutputStream)
    : (writeStream medkit maxChunkSize csid fuel count space stream).stream.pending
        ≤ stream.pending
      ∧ (0 < fuel → stream.Going → stream.hasData = true → maxChunkSize + 12 ≤ space
        → (writeStream medkit maxChunkSize csid fuel count space stream).stream.pending
          < stream.pending) := by
  induction fuel generalizing count space stream with
  | zero => exact ⟨Nat.le_refl _, nofun⟩
  | succ fuel ih =>
    have chunk (enough : ¬ space < maxChunkSize + 12) :=
      @pending_getNextChunk medkit csid space maxChunkSize below positive (by omega) stream
    simp only [writeStream]
    split_ifs with hasData full
    · exact ⟨Nat.le_refl _, fun _ _ _ room => absurd full (Nat.not_lt.mpr room)⟩
    · exact (chunk full).imp_right (fun falls _ going some _ => falls going some)
    · have later := (ih (count + 1) (space - (stream.getNextChunk medkit csid space
        maxChunkSize).1.length) (stream.getNextChunk medkit csid space maxChunkSize).2).1
      exact (chunk full).imp later.trans
        (fun falls _ going some _ => later.trans_lt (falls going some))
    · exact ⟨Nat.le_refl _, fun _ _ some => absurd some hasData⟩

theorem writeStream_idle (csid fuel count space : Nat) {stream : RTMPChunkOutputStream}
    (idle : stream.hasData = false)
    : writeStream medkit maxChunkSize csid (fuel + 1) count space stream
      = ⟨[], stream, false⟩ := by
  rw [writeStream, if_neg (by rw [idle]; exact Bool.false_ne_true)]

/-- The first stream with data writes a chunk. -/
theorem pending_writeStreams {streams : List (Nat × RTMPChunkOutputStream)}
    (below : ∀ entry ∈ streams, entry.1 < 64) (positive : 0 < maxChunkSize) (space : Nat)
    : pending (writeStreams medkit maxChunkSize space streams).2 ≤ pending streams
      ∧ ((∀ entry ∈ streams, entry.2.Going) → streams.any (fun entry => entry.2.hasData) = true
        → maxChunkSize + 12 ≤ space
        → pending (writeStreams medkit maxChunkSize space streams).2 < pending streams) := by
  induction streams generalizing space with
  | nil => exact ⟨Nat.le_refl _, by simp⟩
  | cons entry rest ih =>
    have tails := ih (fun other member => below other (mem_cons_of_mem _ member))
    have head := @pending_writeStream medkit maxChunkSize entry.1 (below entry mem_cons_self)
      positive (space + 1) 0 space entry.2
    cases here : entry.2.hasData with
    | true =>
      simp only [writeStreams]
      split_ifs
      · simp only [pending, map_cons, sum_cons]
        refine ⟨Nat.add_le_add_right head.1 _, fun going _ room => Nat.add_lt_add_right ?_ _⟩
        exact head.2 (Nat.succ_pos _) (going entry mem_cons_self) here room
      · have tail := (tails (space - (writeStream medkit maxChunkSize entry.1 (space + 1) 0 space
          entry.2).bytes.length)).1
        simp only [pending, map_cons, sum_cons] at tail ⊢
        refine ⟨Nat.add_le_add head.1 tail, fun going _ room => Nat.add_lt_add_of_lt_of_le ?_ tail⟩
        exact head.2 (Nat.succ_pos _) (going entry mem_cons_self) here room
    | false =>
      have tail := tails space
      simp only [writeStreams, writeStream_idle entry.1 space 0 space here,
        Bool.false_eq_true, if_false, length_nil, Nat.sub_zero, any_cons, here,
        Bool.false_or]
      simp only [pending, map_cons, sum_cons] at tail ⊢
      refine ⟨Nat.add_le_add_left tail.1 _, fun going some room => Nat.add_lt_add_left ?_ _⟩
      exact tail.2 (fun other member => going other (mem_cons_of_mem _ member)) some room

variable {streams : List (Nat × RTMPChunkOutputStream)}

theorem pending_pos (going : ∀ entry ∈ streams, entry.2.Going)
    (hasData : streams.any (fun entry => entry.2.hasData) = true)
    : 0 < pending streams := by
  obtain ⟨entry, member, here⟩ := any_eq_true.mp hasData
  have some := RTMPChunkOutputStream.pending_pos (going entry member) here
  exact Nat.lt_of_lt_of_le some (le_sum_of_mem (mem_map_of_mem member))

/-- Without data nothing is written. -/
theorem writeStreams_idle (space : Nat) (idle : streams.any (fun entry => entry.2.hasData) = false)
    : writeStreams medkit maxChunkSize space streams = ([], streams) := by
  induction streams with
  | nil => rfl
  | cons entry rest ih =>
    rw [any_cons, Bool.or_eq_false_iff] at idle
    simp only [writeStreams, writeStream_idle entry.1 space 0 space idle.1,
      Bool.false_eq_true, if_false, length_nil, Nat.sub_zero, ih idle.2, append_nil]

end ChunkOutput

/-! Both sides of a connection. -/

/-- What a session rests on: byte order as on the network, handlers that do not throw, chunks
that hold the header of a media message, and a few chunk streams with ids of one byte.
-/
structure Setting (platform : Platform) (application : Application) (ids : List Nat)
    (maxChunkSize : Nat) : Prop where
  order : platform.medkit.NetworkOrder
  quiet : ∀ handed, application.throws handed = false
  long : 10 ≤ maxChunkSize
  few : ids.length ≤ 5
  range : ∀ csid ∈ ids, 2 ≤ csid ∧ csid < 64
  distinct : ids.Nodup

open RTMPConnection in
/-- A reader that is given what was written so far agrees with the writer on every stream,
whatever comes then.
-/
structure Tracked (platform : Platform) (application : Application) (ids : List Nat)
    (maxChunkSize : Nat) (queued : Nat → List OutgoingMessage) (output : ChunkOutput) : Prop where
  names : output.chunkOutputStreams.map Prod.fst = ids
  reads
    : ∀ rest, ∃ connection count, Between ids maxChunkSize connection count
      ∧ (∀ entry ∈ output.chunkOutputStreams,
        Linked platform maxChunkSize (queued entry.1) entry.2
          (connection.streamOf platform entry.1) (connection.handedOn entry.1))
      ∧ (countedLoop platform application).run (.start maxChunkSize, 0) (output.wire ++ rest)
        = (countedLoop platform application).run (connection, count) rest

variable {platform : Platform} {application : Application} {ids : List Nat}
  {maxChunkSize csid : Nat} {queued : Nat → List OutgoingMessage} {output : ChunkOutput}
  {stream : RTMPChunkOutputStream} {front back : List (Nat × RTMPChunkOutputStream)}
  {wire : List BYTE}

section

variable (setting : Setting platform application ids maxChunkSize)
include setting

/-- A chunk of one of the streams. -/
theorem Tracked.chunk
    (tracked
      : Tracked platform application ids maxChunkSize queued
        ⟨front ++ (csid, stream) :: back, wire⟩) (hasData : stream.hasData = true) {size : Nat}
    (space : maxChunkSize + 12 ≤ size)
    : Tracked platform application ids maxChunkSize queued
      ⟨front ++ (csid, (stream.getNextChunk platform.medkit csid size maxChunkSize).2) :: back,
        wire ++ (stream.getNextChunk platform.medkit csid size maxChunkSize).1⟩ := by
  have names := tracked.names
  simp only [map_append, map_cons] at names
  have member : csid ∈ ids := by
    rw [← names]
    simp
  have apart : csid ∉ front.map Prod.fst ++ back.map Prod.fst := by
    have distinct := setting.distinct
    rw [← names, perm_middle.nodup_iff] at distinct
    exact (nodup_cons.mp distinct).1
  refine ⟨by simpa only [map_append, map_cons] using names, fun rest => ?_⟩
  obtain ⟨connection, count, between, linked, runs⟩ := tracked.reads
    ((stream.getNextChunk platform.medkit csid size maxChunkSize).1 ++ rest)
  obtain ⟨last, count', between', keeps, linked', runs'⟩ :=
    RTMPConnection.chunkRead_getNextChunk between member setting.order setting.quiet setting.long
      setting.few (setting.range csid member).2 (setting.range csid member).1
      (linked (csid, stream) (by simp)) hasData space rest
  refine ⟨last, count', between', ?_, ?_⟩
  · -- the chunk belongs to one stream, the reader keeps what it has of the others
    have others : ∀ entry, entry ∈ front ∨ entry ∈ back
        → Linked platform maxChunkSize (queued entry.1) entry.2
          (last.streamOf platform entry.1) (last.handedOn entry.1) := by
      intro entry isOther
      have different : entry.1 ≠ csid := by
        intro same
        rw [← same] at apart
        exact apart (mem_append.mpr (isOther.imp mem_map_of_mem mem_map_of_mem))
      rw [keeps.streams entry.1 different, keeps.handed entry.1 different]
      refine linked entry (mem_append.mpr ?_)
      exact isOther.imp id (mem_cons_of_mem _)
    intro entry isEntry
    rcases mem_append.mp isEntry with isFront | isRest
    · exact others entry (.inl isFront)
    · rcases mem_cons.mp isRest with rfl | isBack
      · exact linked'
      · exact others entry (.inr isBack)
  · rw [append_assoc, runs, runs']

/-- The chunks of one stream, by induction on the turns of the loop. -/
theorem Tracked.writeStream (fuel count space : Nat)
    (tracked
      : Tracked platform application ids maxChunkSize queued
        ⟨front ++ (csid, stream) :: back, wire⟩)
    : Tracked platform application ids maxChunkSize queued
      ⟨front ++ (csid, (writeStream platform.medkit maxChunkSize csid fuel count space
          stream).stream) :: back,
        wire ++ (writeStream platform.medkit maxChunkSize csid fuel count space stream).bytes⟩ := by
  induction fuel generalizing count space stream wire with
  | zero => simpa only [writeStream, append_nil] using tracked
  | succ fuel ih =>
    simp only [writeStream]
    split_ifs with hasData full
    · simpa only [append_nil] using tracked
    · exact tracked.chunk setting hasData (Nat.le_of_not_lt full)
    · rw [← append_assoc]
      exact ih _ _ (tracked.chunk setting hasData (Nat.le_of_not_lt full))
    · simpa only [append_nil] using tracked

/-- The chunks of all streams, by induction on those that have not had their turn. -/
theorem Tracked.writeStreams {streams : List (Nat × RTMPChunkOutputStream)} (space : Nat)
    (tracked
      : Tracked platform application ids maxChunkSize queued ⟨front ++ streams, wire⟩)
    : Tracked platform application ids maxChunkSize queued
      ⟨front ++ (writeStreams platform.medkit maxChunkSize space streams).2,
        wire ++ (writeStreams platform.medkit maxChunkSize space streams).1⟩ := by
  induction streams generalizing front wire space with
  | nil => simpa only [writeStreams, append_nil] using tracked
  | cons entry rest ih =>
    have here := tracked.writeStream setting (space + 1) 0 space
    simp only [writeStreams]
    split_ifs
    · exact here
    · rw [← append_assoc]
      rw [← singleton_append, ← append_assoc] at here ⊢
      exact ih _ here

theorem Tracked.serializeChunkData
    (tracked : Tracked platform application ids maxChunkSize queued output) (size : Nat)
    : Tracked platform application ids maxChunkSize queued
      (output.serializeChunkData platform.medkit maxChunkSize size) :=
  @Tracked.writeStreams platform application ids maxChunkSize queued [] output.wire setting
    output.chunkOutputStreams size tracked

end

/-! Runs. -/

def RTMPChunkOutputStream.latest (stream : RTMPChunkOutputStream) : DWORD × DWORD :=
  match stream.messages.getLast? with
  | some message => (message.streamId, message.timestamp)
  | none => (stream.streamId, stream.timestamp)

variable {message : OutgoingMessage}

/-- A message at the end of a queue, by induction on the queue. -/
theorem allSendable_concat {queue : List OutgoingMessage} {streamId timestamp : DWORD}
    (all : AllSendable platform maxChunkSize streamId timestamp queue)
    (last
      : match queue.getLast? with
        | some before =>
          Sendable platform maxChunkSize before.streamId before.timestamp message
        | none => Sendable platform maxChunkSize streamId timestamp message)
    : AllSendable platform maxChunkSize streamId timestamp (queue ++ [message]) := by
  induction queue generalizing streamId timestamp with
  | nil => exact ⟨last, trivial⟩
  | cons first rest ih =>
    refine ⟨all.1, ih all.2 ?_⟩
    cases rest with
    | nil => exact last
    | cons second rest => rwa [getLast?_cons_cons] at last

section

variable {messages : List OutgoingMessage} {input : RTMPChunkInputStream}
  {handed : List RTMPMessage} (linked : Linked platform maxChunkSize messages stream input handed)
include linked

theorem Linked.sendMessage
    (sendable : Sendable platform maxChunkSize stream.latest.1 stream.latest.2 message)
    : Linked platform maxChunkSize (messages ++ [message]) (stream.sendMessage message) input
      handed := by
  obtain ⟨agrees, queue, place⟩ := linked
  refine ⟨{ agrees with }, ?_, ?_⟩
  · refine allSendable_concat queue ?_
    unfold latest at sendable
    cases last : stream.messages.getLast? with
    | none =>
      simp only [last] at sendable ⊢
      exact sendable
    | some before => simpa only [last] using sendable
  · rcases place with ⟨closed, none, done, split, received⟩
      | ⟨payload, message, buffer, stored, halfway, done, split, received⟩
    · refine .inl ⟨closed, none, done, ?_, received⟩
      rw [split, append_assoc]
      rfl
    · refine .inr ⟨payload, message, buffer, stored, { halfway with }, done, ?_, received⟩
      rw [split, append_assoc]
      rfl

theorem Linked.going : stream.Going := by
  intro isOpen
  rcases linked.messages with ⟨closed, -⟩ | ⟨payload, message, -, -, halfway, -⟩
  · rw [closed] at isOpen
    cases isOpen
  · rw [halfway.sameLength]
    exact halfway.below

end

namespace ChunkOutput

/-- The events that a round trip asks for: a message is queued on one of the chunk streams,
and it can be sent behind the last one there.
-/
def Permits (platform : Platform) (maxChunkSize : Nat) (output : ChunkOutput) : Event → Prop
  | .send csid message =>
    ∃ stream, (csid, stream) ∈ output.chunkOutputStreams
      ∧ Sendable platform maxChunkSize stream.latest.1 stream.latest.2 message
  | .serializeChunkData => True

/-- The messages that were queued on a chunk stream. -/
def sentOn (csid : Nat) (events : List Event) : List OutgoingMessage :=
  events.filterMap (fun
    | .send id message => if id = csid then some message else none
    | .serializeChunkData => none)

end ChunkOutput

section Sessions

variable (tracked : Tracked platform application ids maxChunkSize queued output)
include tracked

theorem Tracked.going : ∀ entry ∈ output.chunkOutputStreams, entry.2.Going := by
  obtain ⟨connection, count, between, linked, runs⟩ := tracked.reads []
  exact fun entry member => (linked entry member).going

/-- What is handed over when nothing is left to be sent. -/
theorem Tracked.delivered (drained : output.hasData = false)
    : ∃ connection : RTMPConnection,
      (RTMPConnection.start maxChunkSize).parseData platform application output.wire
        = .ok connection
      ∧ ∀ csid ∈ ids, List.Forall₂ (Received platform) (queued csid)
        (connection.handedOn csid) := by
  obtain ⟨connection, count, -, linked, runs⟩ := tracked.reads []
  refine ⟨connection, ?_, fun csid member => ?_⟩
  · rw [append_nil, Loop.run_nil] at runs
    rw [RTMPConnection.parseData, runs]
    rfl
  · rw [← tracked.names] at member
    obtain ⟨entry, isEntry, rfl⟩ := mem_map.mp member
    have idle : entry.2.hasData = false :=
      Bool.eq_false_iff.mpr (any_eq_false.mp drained entry isEntry)
    obtain ⟨closed, empty⟩ := hasData_eq_false.mp idle
    rcases (linked entry isEntry).messages with ⟨-, -, done, split, received⟩
      | ⟨payload, message, buffer, -⟩
    · rw [split, empty, append_nil]
      exact received
    · rw [closed] at buffer
      cases buffer

variable (setting : Setting platform application ids maxChunkSize)
include setting

theorem Tracked.send
    (permitted : output.Permits platform maxChunkSize (.send csid message))
    : Tracked platform application ids maxChunkSize
      (fun id => queued id ++ if id = csid then [message] else []) (output.send csid message) := by
  obtain ⟨stream, member, sendable⟩ := permitted
  refine ⟨?_, fun rest => ?_⟩
  · rw [← tracked.names, ChunkOutput.send, map_map]
    rfl
  · obtain ⟨connection, count, between, linked, runs⟩ := tracked.reads rest
    refine ⟨connection, count, between, fun entry isEntry => ?_, runs⟩
    obtain ⟨before, isBefore, rfl⟩ := mem_map.mp isEntry
    by_cases same : before.1 = csid
    · have distinct := setting.distinct
      rw [← tracked.names] at distinct
      obtain rfl := inj_on_of_nodup_map distinct isBefore member same
      simp only [if_true]
      exact (linked _ member).sendMessage sendable
    · simp only [if_neg same, append_nil]
      exact linked before isBefore

/-- The events of a session, by induction on them. -/
theorem Tracked.run {size : Nat} {events : List ChunkOutput.Event}
    (permitted
      : EachStep (ChunkOutput.step platform.medkit maxChunkSize size)
        (ChunkOutput.Permits platform maxChunkSize) output events)
    : Tracked platform application ids maxChunkSize (fun id => queued id ++ sentOn id events)
      (run (ChunkOutput.step platform.medkit maxChunkSize size) output events) := by
  induction events generalizing output queued with
  | nil =>
    simp only [sentOn, filterMap_nil, append_nil]
    exact tracked
  | cons event rest ih =>
    cases event with
    | serializeChunkData => exact ih (tracked.serializeChunkData setting size) permitted.2
    | send csid message =>
      have split : ∀ id, sentOn id (.send csid message :: rest)
          = (if id = csid then [message] else []) ++ sentOn id rest := by
        intro id
        by_cases same : id = csid
        · simp [sentOn, same]
        · simp [sentOn, same, Ne.symm same]
      have later := ih (tracked.send setting permitted.1) permitted.2
      simp only [split, ← append_assoc]
      exact later

variable {size : Nat} (room : maxChunkSize + 12 ≤ size)
include room

/-- Each call of `SerializeChunkData` that finds data leaves less. -/
theorem Tracked.pending_serializeChunkData (hasData : output.hasData = true)
    : pending (output.serializeChunkData platform.medkit maxChunkSize size).chunkOutputStreams
      < pending output.chunkOutputStreams := by
  have below : ∀ entry ∈ output.chunkOutputStreams, entry.1 < 64 := by
    intro entry member
    have name := mem_map_of_mem (f := Prod.fst) member
    rw [tracked.names] at name
    exact (setting.range _ name).2
  exact (pending_writeStreams below (Nat.lt_of_lt_of_le (by decide) setting.long)
    size).2 tracked.going hasData room

/-- Calls of `SerializeChunkData` until nothing is left, by induction on their number. -/
theorem Tracked.drained {calls : Nat}
    (enough : pending output.chunkOutputStreams ≤ calls ∨ output.hasData = false)
    : Tracked platform application ids maxChunkSize queued
        (Foundation.run (ChunkOutput.step platform.medkit maxChunkSize size) output
          (List.replicate calls .serializeChunkData))
      ∧ (Foundation.run (ChunkOutput.step platform.medkit maxChunkSize size) output
          (List.replicate calls .serializeChunkData)).hasData = false := by
  induction calls generalizing output with
  | zero =>
    refine ⟨tracked, enough.elim (fun none => Bool.eq_false_iff.mpr (fun hasData => ?_)) id⟩
    exact absurd none (Nat.not_le.mpr (pending_pos tracked.going hasData))
  | succ calls ih =>
    rw [replicate_succ, run_cons]
    refine ih (tracked.serializeChunkData setting size) ?_
    cases hasData : output.hasData with
    | true =>
      have falls := tracked.pending_serializeChunkData setting room hasData
      rw [hasData] at enough
      exact .inl (Nat.le_of_lt_succ (falls.trans_le (enough.resolve_right nofun)))
    | false =>
      refine .inr (Eq.trans ?_ hasData)
      simp only [ChunkOutput.step, ChunkOutput.serializeChunkData,
        ChunkOutput.writeStreams_idle size hasData, ChunkOutput.hasData]

end Sessions

/-- Nothing was written and nothing was read. -/
theorem tracked_start (platform : Platform) (application : Application) (maxChunkSize : Nat)
    (unset : BYTE)
    : Tracked platform application [2, 3, 4, 5] maxChunkSize (fun _ => [])
      (ChunkOutput.start unset) := by
  refine ⟨rfl, fun rest => ⟨.start maxChunkSize, 0, ⟨⟨rfl, rfl⟩, rfl, Nat.zero_le _⟩, ?_, rfl⟩⟩
  intro entry member
  obtain ⟨csid, -, rfl⟩ := mem_map.mp member
  exact ⟨⟨rfl, rfl, rfl, rfl, fun set => absurd rfl set⟩, trivial,
    .inl ⟨rfl, rfl, [], rfl, .nil⟩⟩

section Example

open RTMPConnection (samplePlatform)

/-- A command with a name of two letters, a number and nothing else. -/
def sampleCommand : OutgoingMessage :=
  ⟨20, 0, 40, [2, 0, 2, 111, 107, 0, 0x40, 0, 0, 0, 0, 0, 0, 0, 5]⟩

def sampleAudio : OutgoingMessage := ⟨8, 1, 40, List.replicate 200 0xAF⟩

def sampleVideo : OutgoingMessage := ⟨9, 1, 60, [0x12, 1, 2, 3]⟩

def sampleEvents : List ChunkOutput.Event :=
  [.send 3 sampleCommand, .send 4 sampleAudio, .send 4 sampleVideo, .send 5 sampleVideo]

end Example

end MediaServer.Rtmp
