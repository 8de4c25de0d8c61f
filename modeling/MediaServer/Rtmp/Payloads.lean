import MediaServer.Foundation.Bits
import MediaServer.Rtmp.ChunkWriter
import MediaServer.Rtmp.MessageResumption

/-! Messages that are given their payload chunk by chunk, and what they hold in the end. -/

namespace MediaServer.Rtmp

open Foundation Amf RTMPMessage MessageType List

def OutgoingMessage.opened (sent : OutgoingMessage) : RTMPMessage :=
  .new sent.streamId sent.timestamp sent.type sent.payload.length

/-- A message is given what is left of its payload in pieces of the chunk size: it stays open
until the last piece completes it.
-/
inductive Feeds (platform : Platform) (maxChunkSize : Nat)
    : RTMPMessage → List BYTE → RTMPMessage → Prop
  | last {message final left}
      (nonempty : left ≠ []) (fits : left.length ≤ maxChunkSize)
      (filled : message.fill platform left = .ok final) (complete : final.parsing = false)
      : Feeds platform maxChunkSize message left final
  | more {message next final left}
      (longer : maxChunkSize < left.length)
      (filled : message.fill platform (left.take maxChunkSize) = .ok next)
      (isOpen : next.parsing = true)
      (rest : Feeds platform maxChunkSize next (left.drop maxChunkSize) final)
      : Feeds platform maxChunkSize message left final

/-- What the body of a message serializes to, if it keeps its bytes and has all of its headers. -/
def Body.serialized : Body → Option (List BYTE)
  | .control _ ctrl => some ctrl.data
  | .audio frame =>
    if frame.codec = RTMPAudioFrame.aac ∧ frame.headerPos = 0 then none
    else some frame.serialize
  | .video frame =>
    if frame.codec = RTMPVideoFrame.avc ∧ frame.headerPos < 5 then none
    else some frame.serialize
  | _ => none

/-- The message that is handed over is the one that `RTMPMessage::Parse` makes of the whole payload.
If its body keeps its bytes, these are the payload.
-/
structure Received (platform : Platform) (sent : OutgoingMessage) (handed : RTMPMessage)
    : Prop where
  type : handed.type = sent.type
  streamId : handed.streamId = sent.streamId
  timestamp : handed.timestamp = sent.timestamp
  length : handed.length = sent.payload.length
  parsed : sent.opened.fill platform sent.payload = .ok handed
  payload : ∀ bytes, handed.body.serialized = some bytes → bytes = sent.payload

/-! Media frames. -/

/-- A step of the parser of a frame that leaves the media alone. -/
def Spares {Frame : Type} (bufferSize : Frame → Nat) (media : Frame → List BYTE)
    (step : Frame → List BYTE → Frame × List BYTE) : Prop :=
  ∀ frame data, bufferSize (step frame data).1 = bufferSize frame
    ∧ media (step frame data).1 = media frame ∧ (step frame data).2.length ≤ data.length

namespace RTMPVideoFrame

variable {frame : RTMPVideoFrame} {data : List BYTE}

theorem serialize_other (other : frame.codec ≠ avc)
    : frame.serialize = (frame.frameType <<< 4 ||| frame.codec &&& 0x0f) :: frame.media := by
  rw [serialize, if_neg other, nil_append]

theorem parseRest_resumable {next : RTMPVideoFrame} (success : frame.parseRest data = .ok next)
    (long : 5 - frame.headerPos ≤ data.length)
    : next.Resumable := by
  by_cases inside : frame.InHeader
  · rw [parseRest, parseHeader_complete inside long] at success
    rw [addMedia_ok success]
    exact fun cut => absurd cut.2.2 (Nat.lt_irrefl 5)
  · rw [parseRest_of_not_inHeader inside] at success
    rw [addMedia_ok success]
    exact fun cut => inside ⟨cut.2.2, cut.1⟩

/-- Five bytes complete the header. -/
theorem parse_resumable {next : RTMPVideoFrame} (long : 5 ≤ data.length)
    (success : frame.parse data = .ok next)
    : next.Resumable := by
  obtain ⟨byte, rest, rfl⟩ := exists_cons_of_length_pos (Nat.lt_of_lt_of_le (by decide) long)
  by_cases fresh : frame.headerPos = 0
  · rw [parse_first fresh] at success
    exact parseRest_resumable success (Nat.le_of_succ_le_succ long)
  · rw [parse_later fresh (cons_ne_nil _ _)] at success
    exact parseRest_resumable success (by omega)

/-- The first byte of a frame, put together again. -/
theorem type_byte (byte : BYTE)
    : ((byte &&& 0xf0) >>> 4) <<< 4 ||| (byte &&& 0x0f) &&& 0x0f = byte := by
  revert byte
  refine forall_byte ?_
  decide +kernel

/-- A frame that was read at once. -/
theorem parse_new (frame : RTMPVideoFrame) {size : Nat} (nonempty : data ≠ [])
    (success : (new size).parse data = .ok frame)
    : frame.codec = avc ∧ frame.headerPos < 5 ∨ frame.serialize = data := by
  obtain ⟨byte, rest, rfl⟩ := exists_cons_of_ne_nil nonempty
  rw [parse_first rfl byte rest] at success
  by_cases inside : ((new size).typed byte).InHeader
  · have isAvc : byte &&& 0x0f = avc := inside.2
    by_cases enough : 4 ≤ rest.length
    · rw [parseRest, parseHeader_complete inside enough] at success
      rw [addMedia_ok success]
      have bytes : rest.take 4 ++ [] ++ ([] ++ rest.drop 4) = rest := by
        rw [append_nil, nil_append, take_append_drop]
      refine .inr ((congrArg (fun extra => _ :: (extra ++ _)) (if_pos isAvc)).trans ?_)
      exact congr (congrArg _ (type_byte byte)) bytes
    · rw [parseRest_short inside (Nat.lt_of_not_le enough)] at success
      cases success
      refine .inl ⟨isAvc, ?_⟩
      simp only [typed]
      omega
  · rw [parseRest_of_not_inHeader inside] at success
    rw [addMedia_ok success]
    have other : byte &&& 0x0f ≠ avc := fun same => inside ⟨by simp [typed], same⟩
    exact .inr ((serialize_other other).trans (congrArg (· :: rest) (type_byte byte)))

theorem parseType_spares : Spares bufferSize media parseType := by
  intro frame data
  unfold parseType
  split
  · exact ⟨rfl, rfl, Nat.le_succ _⟩
  · exact ⟨rfl, rfl, Nat.le_refl _⟩

theorem parseHeader_spares : Spares bufferSize media parseHeader := by
  intro frame data
  unfold parseHeader
  split_ifs
  · exact ⟨rfl, rfl, length_drop .. ▸ Nat.sub_le _ _⟩
  · exact ⟨rfl, rfl, Nat.le_refl _⟩

/-- A frame takes what its buffer has room for. -/
theorem parse_total (frame : RTMPVideoFrame) (data : List BYTE)
    (fits : frame.media.length + data.length ≤ frame.bufferSize)
    : ∃ next, frame.parse data = .ok next ∧ next.bufferSize = frame.bufferSize
      ∧ next.media.length ≤ frame.media.length + data.length := by
  obtain ⟨size, media, left⟩ := parseType_spares frame data
  obtain ⟨headerSize, headerMedia, headerLeft⟩ :=
    parseHeader_spares (frame.parseType data).1 (frame.parseType data).2
  simp only [parse]
  split_ifs
  · exact ⟨frame, rfl, rfl, Nat.le_add_right _ _⟩
  · exact ⟨_, rfl, headerSize.trans size, by rw [headerMedia, media]; exact Nat.le_add_right _ _⟩
  · rw [parseMedia, if_neg (by rw [headerMedia, headerSize, media, size]; omega)]
    refine ⟨_, rfl, headerSize.trans size, ?_⟩
    simp only [length_append, headerMedia, media]
    omega

end RTMPVideoFrame

namespace RTMPAudioFrame

variable {frame : RTMPAudioFrame} {data : List BYTE}

theorem serialize_other (other : frame.codec ≠ aac)
    : frame.serialize
      = (frame.codec <<< 4 ||| frame.rate <<< 2 ||| frame.sample16bits <<< 1 ||| frame.stereo)
        :: frame.media := by
  rw [serialize, if_neg other, nil_append]

theorem parseRest_resumable {next : RTMPAudioFrame} (long : 2 ≤ data.length)
    (success : frame.parseRest data = .ok next)
    : next.Resumable := by
  obtain ⟨byte, rest, rfl⟩ := exists_cons_of_length_pos (Nat.le_of_succ_le long)
  have some := length_pos_iff.mp (Nat.le_of_succ_le_succ long)
  rw [parseRest_cons] at success
  split_ifs at success
  all_goals
    obtain ⟨media, parsed, rfl⟩ := map_ok success
    simp [Resumable, parseMedia_ok parsed, some]

/-- Three bytes reach the media. -/
theorem parse_resumable {next : RTMPAudioFrame} (long : 3 ≤ data.length)
    (success : frame.parse data = .ok next)
    : next.Resumable := by
  obtain ⟨byte, rest, rfl⟩ := exists_cons_of_length_pos (Nat.lt_of_lt_of_le (by decide) long)
  by_cases fresh : frame.media = []
  · have some : ¬ rest.isEmpty := by
      rw [List.isEmpty_iff]
      exact length_pos_iff.mp (Nat.le_of_succ_le (Nat.le_of_succ_le_succ long))
    rw [parse_first fresh, if_neg some] at success
    exact parseRest_resumable (Nat.le_of_succ_le_succ long) success
  · rw [parse_later fresh (cons_ne_nil _ _)] at success
    exact parseRest_resumable (Nat.le_of_succ_le long) success

/-- The first byte of a frame, put together again. -/
theorem type_byte (byte : BYTE)
    : (byte >>> 4) <<< 4 ||| ((byte >>> 2) &&& 0x03) <<< 2 ||| ((byte >>> 1) &&& 0x01) <<< 1
        ||| (byte &&& 0x01)
      = byte := by
  revert byte
  refine forall_byte ?_
  decide +kernel

/-- A frame that was read at once. -/
theorem parse_new (frame : RTMPAudioFrame) {size : Nat} (nonempty : data ≠ [])
    (success : (new size).parse data = .ok frame)
    : frame.codec = aac ∧ frame.headerPos = 0 ∨ frame.serialize = data := by
  obtain ⟨byte, rest, rfl⟩ := exists_cons_of_ne_nil nonempty
  rw [parse_first rfl] at success
  cases rest with
  | nil =>
    cases success
    by_cases isAac : byte >>> 4 = aac
    · exact .inl ⟨isAac, rfl⟩
    · exact .inr ((serialize_other isAac).trans (congrArg (· :: []) (type_byte byte)))
  | cons head rest =>
    replace success : ((new size).typed byte).parseRest (head :: rest) = .ok frame := success
    rw [parseRest_cons] at success
    by_cases isAac : byte >>> 4 = aac
    · rw [if_pos ⟨isAac, rfl⟩] at success
      obtain ⟨media, parsed, rfl⟩ := map_ok success
      rw [parseMedia_ok parsed]
      refine .inr ((congrArg (fun extra => _ :: (extra ++ _)) (if_pos isAac)).trans ?_)
      exact congrArg (· :: head :: rest) (type_byte byte)
    · rw [if_neg (fun extra => isAac extra.1)] at success
      obtain ⟨media, parsed, rfl⟩ := map_ok success
      rw [parseMedia_ok parsed]
      exact .inr ((serialize_other isAac).trans (congrArg (· :: head :: rest) (type_byte byte)))

theorem parseType_spares : Spares bufferSize media parseType := by
  intro frame data
  unfold parseType
  split
  · exact ⟨rfl, rfl, Nat.le_succ _⟩
  · exact ⟨rfl, rfl, Nat.le_refl _⟩

theorem parseHeader_spares : Spares bufferSize media parseHeader := by
  intro frame data
  unfold parseHeader
  split
  · split_ifs
    · exact ⟨rfl, rfl, Nat.le_succ _⟩
    · exact ⟨rfl, rfl, Nat.le_refl _⟩
  · exact ⟨rfl, rfl, Nat.le_refl _⟩

/-- A frame takes what its buffer has room for. -/
theorem parse_total (frame : RTMPAudioFrame) (data : List BYTE)
    (fits : frame.media.length + data.length ≤ frame.bufferSize)
    : ∃ next, frame.parse data = .ok next ∧ next.bufferSize = frame.bufferSize
      ∧ next.media.length ≤ frame.media.length + data.length := by
  obtain ⟨size, media, left⟩ := parseType_spares frame data
  obtain ⟨headerSize, headerMedia, headerLeft⟩ :=
    parseHeader_spares (frame.parseType data).1 (frame.parseType data).2
  simp only [parse]
  split_ifs
  · exact ⟨frame, rfl, rfl, Nat.le_add_right _ _⟩
  · exact ⟨_, rfl, size, by rw [media]; exact Nat.le_add_right _ _⟩
  · rw [parseMedia, if_neg (by rw [headerMedia, headerSize, media, size]; omega)]
    refine ⟨_, rfl, headerSize.trans size, ?_⟩
    simp only [length_append, headerMedia, media]
    omega

end RTMPAudioFrame

/-! Messages. -/

namespace RTMPMessage

variable {platform : Platform} {message next : RTMPMessage} {data : List BYTE}

/-- What a message is about does not change while it is filled. -/
structure SameHeader (before after : RTMPMessage) : Prop where
  streamId : after.streamId = before.streamId
  timestamp : after.timestamp = before.timestamp
  type : after.type = before.type
  length : after.length = before.length
  media : before.body ≠ .noMedia → after.body ≠ .noMedia

theorem fill_sameHeader (success : message.fill platform data = .ok next)
    : SameHeader message next := by
  obtain ⟨streamId, timestamp, type, length, body, skip, parsing, pos⟩ := message
  cases body with
  | control _ _ | sharedObject =>
    cases success
    exact ⟨rfl, rfl, rfl, rfl, by simp [advance]⟩
  | command _ | metaData _ =>
    simp only [fill] at success
    split_ifs at success
    all_goals
      obtain ⟨_, -, rfl⟩ := map_ok success
      exact ⟨rfl, rfl, rfl, rfl, by simp [advance]⟩
  | audio _ | video _ =>
    obtain ⟨_, -, rfl⟩ := map_ok success
    exact ⟨rfl, rfl, rfl, rfl, by simp [advance]⟩
  | noMedia =>
    cases success
    exact ⟨rfl, rfl, rfl, rfl, fun some => absurd rfl some⟩
  | unsupported => cases success

def Flows (message : RTMPMessage) : Prop :=
  match message.body with
  | .audio frame => frame.bufferSize = message.length ∧ frame.media.length ≤ message.pos
  | .video frame => frame.bufferSize = message.length ∧ frame.media.length ≤ message.pos
  | _ => False

theorem Flows.fill (flows : message.Flows) (fits : message.pos + data.length ≤ message.length)
    : ∃ next, message.fill platform data = .ok next ∧ next.Flows
      ∧ next.pos = message.pos + data.length ∧ next.length = message.length
      ∧ next.parsing = decide (message.pos + data.length ≠ message.length) := by
  obtain ⟨streamId, timestamp, type, length, body, skip, parsing, pos⟩ := message
  cases body with
  | audio frame | video frame =>
    obtain ⟨size, media⟩ := flows
    obtain ⟨after, parsed, sameSize, room⟩ := frame.parse_total data (by
      simp only at size media fits
      omega)
    refine ⟨_, congrArg (Except.map _) parsed, ⟨sameSize.trans size, ?_⟩, rfl, rfl, rfl⟩
    simp only [advance] at media ⊢
    omega
  | _ => exact flows.elim

end RTMPMessage

open RTMPMessage.Flows

section Feeds

variable {platform : Platform} {maxChunkSize : Nat} {message final : RTMPMessage}
  {left : List BYTE}

theorem Feeds.sameHeader (feeds : Feeds platform maxChunkSize message left final)
    : RTMPMessage.SameHeader message final := by
  induction feeds with
  | last _ _ filled _ => exact fill_sameHeader filled
  | more _ filled _ _ ih =>
    have first := fill_sameHeader filled
    exact ⟨ih.streamId.trans first.streamId, ih.timestamp.trans first.timestamp,
      ih.type.trans first.type, ih.length.trans first.length, ih.media ∘ first.media⟩

/-- A full chunk leaves the rest of the payload to the message. -/
theorem RTMPMessage.Flows.chunk (flows : message.Flows) (longer : maxChunkSize < left.length)
    (whole : message.pos + left.length = message.length)
    : ∃ next, message.fill platform (left.take maxChunkSize) = .ok next ∧ next.Flows
      ∧ next.parsing = true ∧ next.pos + (left.drop maxChunkSize).length = next.length := by
  have length : (left.take maxChunkSize).length = maxChunkSize := by
    rw [length_take]
    omega
  obtain ⟨next, filled, nextFlows, pos, sameLength, parsing⟩ :=
    @fill platform message (left.take maxChunkSize) flows (by omega)
  refine ⟨next, filled, nextFlows, ?_, ?_⟩
  · rw [parsing, decide_eq_true_eq]
    omega
  · rw [pos, sameLength, length, length_drop]
    omega

/-- Frames take any payload, by induction on its length. -/
theorem RTMPMessage.Flows.feeds (flows : message.Flows) (positive : 0 < maxChunkSize)
    (nonempty : left ≠ []) (whole : message.pos + left.length = message.length)
    : ∃ final, Feeds platform maxChunkSize message left final := by
  generalize size : left.length = bound
  induction bound using Nat.strongRecOn generalizing message left with
  | ind bound ih =>
    by_cases fits : left.length ≤ maxChunkSize
    · obtain ⟨final, filled, -, -, -, parsing⟩ :=
        @fill platform message left flows (Nat.le_of_eq whole)
      exact ⟨final, .last nonempty fits filled (by simpa [whole] using parsing)⟩
    · have longer := Nat.lt_of_not_le fits
      obtain ⟨next, filled, nextFlows, isOpen, remains⟩ := flows.chunk longer whole
      have dropped : (left.drop maxChunkSize).length = left.length - maxChunkSize :=
        length_drop ..
      obtain ⟨final, rest⟩ := @ih (left.drop maxChunkSize).length (by omega) next
        (left.drop maxChunkSize) nextFlows (length_pos_iff.mp (by omega)) remains rfl
      exact ⟨final, .more longer filled isOpen rest⟩

theorem RTMPMessage.Flows.resumable {next : RTMPMessage} {data : List BYTE}
    (flows : message.Flows) (filled : message.fill platform data = .ok next)
    (long : 5 ≤ data.length)
    : message.Valid ∧ message.hasValues = false ∧ next.Resumable := by
  obtain ⟨streamId, timestamp, type, length, body, skip, parsing, pos⟩ := message
  cases body with
  | audio frame | video frame =>
    obtain ⟨after, parsed, rfl⟩ := map_ok filled
    exact ⟨trivial, rfl, frame.parse_resumable (by omega) parsed⟩
  | _ => exact flows.elim

/-- A payload in chunks makes the same message as the payload at once, since no chunk but the
last one ends in a header.
-/
theorem Feeds.fill (feeds : Feeds platform maxChunkSize message left final)
    (long : 5 ≤ maxChunkSize) (flows : message.Flows)
    (whole : message.pos + left.length = message.length)
    : message.fill platform left = .ok final := by
  induction feeds with
  | last _ _ filled _ => exact filled
  | @more message next final left longer filled isOpen _ ih =>
    have length := length_take (i := maxChunkSize) (l := left)
    have dropped := length_drop (i := maxChunkSize) (l := left)
    obtain ⟨found, again, nextFlows, -, remains⟩ := flows.chunk longer whole
    cases filled.symm.trans again
    obtain ⟨valid, bytes, resumable⟩ := flows.resumable filled (by omega)
    have nonempty : left.take maxChunkSize ≠ [] := length_pos_iff.mp (by omega)
    have more : left.drop maxChunkSize ≠ [] := length_pos_iff.mp (by omega)
    have resumes := (fill_resumes valid nonempty bytes more).of_ok filled isOpen resumable
    rw [take_append_drop] at resumes
    exact resumes.trans (ih nextFlows remains)

/-- A media frame that was opened and given its bytes. -/
theorem RTMPMessage.opened_fill {sent : OutgoingMessage} {next : RTMPMessage} {data : List BYTE}
    (isMedia
      : sent.opened.body = .audio (.new sent.payload.length)
        ∨ sent.opened.body = .video (.new sent.payload.length))
    (nonempty : data ≠ []) (filled : sent.opened.fill platform data = .ok next)
    {bytes : List BYTE} (same : next.body.serialized = some bytes)
    : bytes = data := by
  rcases isMedia with isMedia | isMedia
  all_goals
    simp only [fill, isMedia] at filled
    obtain ⟨frame, parsed, rfl⟩ := map_ok filled
    simp only [advance, Body.serialized] at same
    split_ifs at same with headless
    cases same
    exact (frame.parse_new nonempty parsed).resolve_left headless

end Feeds

/-! Payloads that can be read. -/

namespace OutgoingMessage

/-- A payload that the reader can make something of: a control message has the size of its
format, a new chunk size is the one that is used already, a command or metadata fits into one chunk
and is accepted by `RTMPMessage::Parse`, and media can be anything. The bytes of shared objects are
skipped.
-/
def Readable (platform : Platform) (maxChunkSize : Nat) (sent : OutgoingMessage) : Prop :=
  match MessageType.ofId sent.type with
  | .setChunkSize =>
    sent.payload.length = 4
    ∧ (RTMPFormat.get4 platform.medkit ⟨sent.payload, 4⟩ 0).toNat = maxChunkSize
  | .abortMessage => sent.payload.length = 4
  | .acknowledgement => sent.payload.length = 4
  | .windowAcknowledgementSize => sent.payload.length = 4
  | .setPeerBandwidth => sent.payload.length = 5
  | .userControlMessage => sent.payload.length = if sent.payload[1]? = some 3 then 10 else 6
  | .audio => True
  | .video => True
  | .sharedObject => False
  | .sharedObjectAMF3 => False
  | .other => False
  | _ =>
    sent.payload.length ≤ maxChunkSize
    ∧ (sent.opened.fill platform sent.payload).toOption.isSome = true

end OutgoingMessage

section Readable

variable {platform : Platform} {maxChunkSize : Nat} {sent : OutgoingMessage}

/-- What the reader makes of a message. -/
structure Delivers (platform : Platform) (maxChunkSize : Nat) (sent : OutgoingMessage)
    (final : RTMPMessage) : Prop where
  fed : Feeds platform maxChunkSize sent.opened sent.payload final
  received : Received platform sent final
  media : final.body ≠ .noMedia
  chunkSize
    : MessageType.ofId final.type = .setChunkSize
      → ∀ preParse ctrl, final.body = .control preParse ctrl
        → (ctrl.get4 platform.medkit 0).toNat = maxChunkSize

private theorem delivers_of_feeds {final : RTMPMessage}
    (feeds : Feeds platform maxChunkSize sent.opened sent.payload final)
    (parsed : sent.opened.fill platform sent.payload = .ok final)
    (media : sent.opened.body ≠ .noMedia)
    (payload : ∀ bytes, final.body.serialized = some bytes → bytes = sent.payload)
    (chunkSize
      : ofId sent.type = .setChunkSize
        → ∀ preParse ctrl, final.body = .control preParse ctrl
          → (ctrl.get4 platform.medkit 0).toNat = maxChunkSize)
    : Delivers platform maxChunkSize sent final := by
  have same := feeds.sameHeader
  refine ⟨feeds, ⟨same.type, same.streamId, same.timestamp, same.length, parsed, payload⟩,
    same.media media, fun isSet => chunkSize ?_⟩
  rwa [same.type] at isSet

private theorem delivers_control {preParse : PreParse} {size : Nat}
    (isControl : sent.opened.body = .control preParse (.new size)) (nonempty : sent.payload ≠ [])
    (exact' : preParse (.new size) sent.payload = sent.payload.length)
    (fits : sent.payload.length ≤ maxChunkSize)
    (chunkSize
      : ofId sent.type = .setChunkSize
        → (RTMPFormat.get4 platform.medkit ⟨sent.payload, sent.payload.length⟩ 0).toNat
          = maxChunkSize)
    : ∃ final, Delivers platform maxChunkSize sent final := by
  have parsed : RTMPFormat.parse preParse (.new size) sent.payload
      = (⟨sent.payload, sent.payload.length⟩, []) := by
    rw [RTMPFormat.parse_of_ne_nil nonempty, exact']
    simp only [RTMPFormat.new, length_nil, Nat.sub_zero, take_length, drop_length, nil_append]
  have filled := @fill_control platform _ _ _ isControl sent.payload
  rw [parsed] at filled
  refine ⟨_, delivers_of_feeds (.last nonempty fits filled ?_) filled ?_ ?_ ?_⟩
  · simp [RTMPFormat.isParsed]
  · rw [isControl]
    intro same
    cases same
  · intro bytes same
    cases same
    rfl
  · intro isSet _ _ same
    cases same
    exact chunkSize isSet

private theorem delivers_media (positive : 0 < sent.payload.length) (long : 5 ≤ maxChunkSize)
    (isMedia
      : sent.opened.body = .audio (.new sent.payload.length)
        ∨ sent.opened.body = .video (.new sent.payload.length))
    (notSet : ofId sent.type ≠ .setChunkSize)
    : ∃ final, Delivers platform maxChunkSize sent final := by
  have nonempty := length_pos_iff.mp positive
  have flows : sent.opened.Flows := by
    rcases isMedia with same | same
    all_goals
      simp only [RTMPMessage.Flows, same]
      exact ⟨rfl, Nat.zero_le _⟩
  have whole : sent.opened.pos + sent.payload.length = sent.opened.length := Nat.zero_add _
  obtain ⟨final, feeds⟩ := @feeds platform maxChunkSize _ _ flows (by omega) nonempty whole
  have filled := feeds.fill long flows whole
  refine ⟨final, delivers_of_feeds feeds filled ?_ (fun bytes => ?_)
    (fun isSet => absurd isSet notSet)⟩
  · rcases isMedia with same | same <;> simp [same]
  · exact opened_fill isMedia nonempty filled

/-- A command or metadata in one chunk is read at once. -/
private theorem delivers_values (values : sent.opened.hasValues = true)
    (nonempty : sent.payload ≠ []) (fits : sent.payload.length ≤ maxChunkSize)
    (accepted : (sent.opened.fill platform sent.payload).toOption.isSome = true)
    (notSet : ofId sent.type ≠ .setChunkSize)
    : ∃ final, Delivers platform maxChunkSize sent final := by
  cases filled : sent.opened.fill platform sent.payload with
  | error failure =>
    rw [filled] at accepted
    cases accepted
  | ok final =>
    obtain ⟨body, skip, eq, still⟩ := fill_values values filled
    have complete : final.parsing = false := by
      simp [eq, advance, OutgoingMessage.opened, RTMPMessage.new]
    refine ⟨final, delivers_of_feeds (.last nonempty fits filled complete) filled ?_ ?_
      (fun isSet => absurd isSet notSet)⟩
    · intro none
      simp [hasValues, none] at values
    · intro bytes same
      unfold hasValues at still
      split at still
      · rename_i isCommand
        simp [isCommand, Body.serialized] at same
      · rename_i isMetaData
        simp [isMetaData, Body.serialized] at same
      · cases still

theorem userControl_size {payload : List BYTE}
    (exact' : payload.length = if payload[1]? = some 3 then 10 else 6)
    : RTMPUserControlMessage.preParse (.new 10) payload = payload.length := by
  rcases payload with _ | ⟨byte, _ | ⟨event, rest⟩⟩
  · simp at exact'
  · simp at exact'
  · rw [exact']
    simp [RTMPUserControlMessage.preParse, RTMPFormat.new]

/-- Each payload that can be read is read. -/
theorem OutgoingMessage.Readable.delivers (readable : sent.Readable platform maxChunkSize)
    (positive : 0 < sent.payload.length) (long : 10 ≤ maxChunkSize)
    : ∃ final, Delivers platform maxChunkSize sent final := by
  have nonempty := length_pos_iff.mp positive
  have body : sent.opened.body
      = newBody (ofId sent.type) sent.payload.length := rfl
  unfold OutgoingMessage.Readable at readable
  cases kind : ofId sent.type with
  | setChunkSize =>
    simp only [kind] at readable body
    refine delivers_control body nonempty readable.1.symm (by omega) (fun _ => ?_)
    rw [readable.1]
    exact readable.2
  | abortMessage | acknowledgement | windowAcknowledgementSize | setPeerBandwidth =>
    simp only [kind] at readable body
    refine delivers_control body nonempty readable.symm (by omega) (fun isSet => ?_)
    cases kind.symm.trans isSet
  | userControlMessage =>
    simp only [kind] at readable body
    refine delivers_control body nonempty (userControl_size readable) ?_ (fun isSet => ?_)
    · split_ifs at readable <;> omega
    · cases kind.symm.trans isSet
  | audio =>
    rw [kind] at body
    refine delivers_media positive (by omega) (.inl (body.trans (if_neg (by omega)))) ?_
    simp [kind]
  | video =>
    rw [kind] at body
    refine delivers_media positive (by omega) (.inr (body.trans (if_neg (by omega)))) ?_
    simp [kind]
  | command | commandAMF3 | data | dataAMF3 =>
    simp only [kind] at readable body
    refine delivers_values ?_ nonempty readable.1 readable.2 (by simp [kind])
    simp [hasValues, body, newBody]
  | sharedObject | sharedObjectAMF3 | other => simp only [kind] at readable

end Readable

end MediaServer.Rtmp
