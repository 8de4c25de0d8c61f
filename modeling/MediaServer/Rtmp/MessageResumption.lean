import MediaServer.Rtmp.Message

/-! Messages that are given their bytes in two segments instead of one. Both come to the same
as long as the cut does not fall where the parser of the body forgets what it has read. Commands
and metadata are not cut here.
-/

namespace MediaServer.Rtmp

open Foundation Amf RTMPFormat List

/-! Frames. -/

theorem parseMedia_ok {bufferSize : Nat} {media data next : List BYTE}
    (success : parseMedia bufferSize media data = .ok next)
    : next = media ++ data := by
  simp only [parseMedia] at success
  split_ifs at success
  cases success
  rfl

theorem parseMedia_append (bufferSize : Nat) (media first second : List BYTE)
    : parseMedia bufferSize media (first ++ second)
      = parseMedia bufferSize media first >>= fun next => parseMedia bufferSize next second := by
  simp only [parseMedia, length_append]
  by_cases fits : media.length + first.length > bufferSize
  · rw [if_pos fits, if_pos (by omega)]
    rfl
  · rw [if_neg fits]
    change _ = if (media ++ first).length + second.length > bufferSize then _ else _
    rw [length_append, Nat.add_assoc, append_assoc]

variable {first second : List BYTE}

namespace RTMPVideoFrame

def addMedia (frame : RTMPVideoFrame) (buffer : List BYTE) : Except Failure RTMPVideoFrame :=
  if buffer.isEmpty then .ok frame
  else (parseMedia frame.bufferSize frame.media buffer).map
    (fun media => { frame with media := media })

def parseRest (frame : RTMPVideoFrame) (buffer : List BYTE) : Except Failure RTMPVideoFrame :=
  (frame.parseHeader buffer).1.addMedia (frame.parseHeader buffer).2

def InHeader (frame : RTMPVideoFrame) : Prop := frame.headerPos < 5 ∧ frame.codec = avc

def typed (frame : RTMPVideoFrame) (byte : BYTE) : RTMPVideoFrame :=
  { frame with codec := byte &&& 0x0f, frameType := (byte &&& 0xf0) >>> 4, headerPos := 1 }

variable {frame : RTMPVideoFrame}

theorem parse_first (fresh : frame.headerPos = 0) (byte : BYTE) (rest : List BYTE)
    : frame.parse (byte :: rest) = (frame.typed byte).parseRest rest := by
  obtain ⟨bufferSize, codec, frameType, extraData, headerPos, media⟩ := frame
  subst fresh
  rfl

variable {buffer : List BYTE}

theorem parse_later (begun : frame.headerPos ≠ 0) (nonempty : buffer ≠ [])
    : frame.parse buffer = frame.parseRest buffer := by
  obtain ⟨bufferSize, codec, frameType, extraData, headerPos, media⟩ := frame
  obtain ⟨byte, rest, rfl⟩ := exists_cons_of_ne_nil nonempty
  cases headerPos with
  | zero => exact absurd rfl begun
  | succ headerPos => rfl

theorem addMedia_append (frame : RTMPVideoFrame) (first second : List BYTE)
    : frame.addMedia (first ++ second)
      = frame.addMedia first >>= fun next => next.addMedia second := by
  cases first with
  | nil => rfl
  | cons byte rest =>
    cases second with
    | nil =>
      rw [append_nil]
      cases added : frame.addMedia (byte :: rest) with
      | error failure | ok next => rfl
    | cons other others =>
      have both := parseMedia_append frame.bufferSize frame.media (byte :: rest)
        (other :: others)
      simp only [addMedia, isEmpty_cons, cons_append, Bool.false_eq_true, if_false] at both ⊢
      rw [both]
      cases parseMedia frame.bufferSize frame.media (byte :: rest) with
      | error failure | ok media => rfl

/-- Adding media changes nothing else. -/
theorem addMedia_ok {frame next : RTMPVideoFrame} (success : frame.addMedia buffer = .ok next)
    : next = { frame with media := frame.media ++ buffer } := by
  simp only [addMedia] at success
  split_ifs at success with empty
  · cases success
    rw [List.isEmpty_iff.mp empty, append_nil]
  · obtain ⟨media, parsed, rfl⟩ := map_ok success
    rw [parseMedia_ok parsed]

theorem parseRest_of_not_inHeader (outside : ¬ frame.InHeader) (buffer : List BYTE)
    : frame.parseRest buffer = frame.addMedia buffer := by
  have same : frame.parseHeader buffer = (frame, buffer) := if_neg outside
  simp only [parseRest, same]

/-- A segment that completes the header. -/
theorem parseHeader_complete (inside : frame.InHeader)
    (enough : 5 - frame.headerPos ≤ buffer.length)
    : frame.parseHeader buffer
      = ({ frame with
            extraData := buffer.take (5 - frame.headerPos)
              ++ frame.extraData.drop (5 - frame.headerPos),
            headerPos := 5 },
        buffer.drop (5 - frame.headerPos)) := by
  have position : frame.headerPos + (5 - frame.headerPos) = 5 := by
    have := inside.1
    omega
  refine (if_pos inside).trans ?_
  simp only [Nat.min_eq_left enough, position]

/-- What follows the first byte, in two segments: the first one is empty, or it does not end
inside of the header.
-/
theorem parseRest_append (frame : RTMPVideoFrame) (first second : List BYTE)
    (whole : frame.InHeader → first = [] ∨ 5 - frame.headerPos ≤ first.length)
    : frame.parseRest (first ++ second)
      = frame.parseRest first >>= fun next => next.parseRest second := by
  by_cases inside : frame.InHeader
  · rcases whole inside with rfl | enough
    · have same : frame.parseHeader [] = (frame, []) := by
        refine (if_pos inside).trans ?_
        simp
      simp only [parseRest, same]
      rfl
    · have longer : 5 - frame.headerPos ≤ (first ++ second).length := by
        rw [length_append]
        omega
      have both := parseHeader_complete inside longer
      rw [take_append_of_le_length enough, drop_append_of_le_length enough] at both
      simp only [parseRest, both, parseHeader_complete inside enough]
      rw [addMedia_append]
      refine bind_congr_ok fun next added => ?_
      rw [addMedia_ok added]
      refine (parseRest_of_not_inHeader ?_ second).symm
      exact fun still => absurd still.1 (Nat.lt_irrefl 5)
  · rw [parseRest_of_not_inHeader inside, parseRest_of_not_inHeader inside, addMedia_append]
    refine bind_congr_ok fun next added => ?_
    rw [addMedia_ok added]
    have outside : ¬ InHeader { frame with media := frame.media ++ first } := inside
    exact (parseRest_of_not_inHeader outside second).symm

/-- A segment that ends inside of the header is copied. -/
theorem parseRest_short (inside : frame.InHeader) (short : buffer.length < 5 - frame.headerPos)
    : frame.parseRest buffer
      = .ok { frame with
        extraData := buffer ++ frame.extraData.drop buffer.length,
        headerPos := frame.headerPos + buffer.length } := by
  have copied : frame.parseHeader buffer
      = ({ frame with
          extraData := buffer ++ frame.extraData.drop buffer.length,
          headerPos := frame.headerPos + buffer.length }, []) := by
    refine (if_pos inside).trans ?_
    simp only [Nat.min_eq_right (Nat.le_of_lt short), take_length, drop_length]
  simp only [parseRest, copied]
  rfl

theorem parseRest_headerPos {frame next : RTMPVideoFrame}
    (success : frame.parseRest buffer = .ok next)
    : frame.headerPos ≤ next.headerPos := by
  rw [addMedia_ok success]
  simp only [parseHeader]
  split_ifs
  · exact Nat.le_add_right _ _
  · exact Nat.le_refl _

def Resumable (frame : RTMPVideoFrame) : Prop :=
  ¬ (frame.codec = avc ∧ 1 < frame.headerPos ∧ frame.headerPos < 5)

private theorem parseRest_resumes (begun : frame.headerPos ≠ 0)
    (first second : List BYTE)
    : Carries (frame.parseRest first) (frame.parseRest (first ++ second)) fun next =>
        next.Resumable → frame.parseRest (first ++ second) = next.parseRest second := by
  by_cases whole : frame.InHeader → first = [] ∨ 5 - frame.headerPos ≤ first.length
  · exact (Carries.of_bind (parseRest_append frame first second whole)).imp fun _ _ same _ => same
  · obtain ⟨inside, some, short⟩ : frame.InHeader ∧ first ≠ []
        ∧ first.length < 5 - frame.headerPos := by
      simpa only [Classical.not_imp, not_or, Nat.not_le] using whole
    rw [parseRest_short inside short]
    intro resumable
    have length := length_pos_iff.mpr some
    exact absurd ⟨inside.2, by simp only; omega, by simp only; omega⟩ resumable

/-- A video frame in two segments. -/
theorem parse_resumes (frame : RTMPVideoFrame) (nonempty : first ≠ [])
    (more : second ≠ [])
    : Carries (frame.parse first) (frame.parse (first ++ second)) fun next =>
        next.Resumable → frame.parse (first ++ second) = next.parse second := by
  have later : ∀ {before next : RTMPVideoFrame} {buffer}, before.headerPos ≠ 0
      → before.parseRest buffer = .ok next → next.parse second = next.parseRest second := by
    intro before next buffer begun success
    refine parse_later (fun fresh => begun ?_) more
    exact Nat.le_zero.mp (fresh ▸ parseRest_headerPos success)
  by_cases fresh : frame.headerPos = 0
  · obtain ⟨byte, rest, rfl⟩ := exists_cons_of_ne_nil nonempty
    rw [cons_append, parse_first fresh, parse_first fresh]
    refine (@parseRest_resumes (frame.typed byte) Nat.one_ne_zero rest second).imp
      fun next success same resumable => ?_
    rw [same resumable, @later (frame.typed byte) _ _ Nat.one_ne_zero success]
  · rw [parse_later fresh nonempty, parse_later fresh (by simp [nonempty])]
    refine (parseRest_resumes fresh first second).imp fun next success same resumable => ?_
    rw [same resumable, later fresh success]

end RTMPVideoFrame

namespace RTMPAudioFrame

def parseRest (frame : RTMPAudioFrame) (buffer : List BYTE) : Except Failure RTMPAudioFrame :=
  (parseMedia (frame.parseHeader buffer).1.bufferSize (frame.parseHeader buffer).1.media
    (frame.parseHeader buffer).2).map
    (fun media => { (frame.parseHeader buffer).1 with media := media })

def typed (frame : RTMPAudioFrame) (byte : BYTE) : RTMPAudioFrame :=
  { frame with
    codec := byte >>> 4, rate := (byte >>> 2) &&& 0x03, sample16bits := (byte >>> 1) &&& 0x01,
    stereo := byte &&& 0x01 }

theorem parse_first {frame : RTMPAudioFrame} (fresh : frame.media = []) (byte : BYTE)
    (rest : List BYTE)
    : frame.parse (byte :: rest)
      = if rest.isEmpty then .ok (frame.typed byte) else (frame.typed byte).parseRest rest := by
  obtain ⟨bufferSize, codec, rate, sample16bits, stereo, headerPos, extraData, media⟩ := frame
  cases fresh
  rfl

theorem parse_later {frame : RTMPAudioFrame} (begun : frame.media ≠ [])
    {buffer : List BYTE} (nonempty : buffer ≠ [])
    : frame.parse buffer = frame.parseRest buffer := by
  obtain ⟨bufferSize, codec, rate, sample16bits, stereo, headerPos, extraData, media⟩ := frame
  obtain ⟨byte, rest, rfl⟩ := exists_cons_of_ne_nil nonempty
  cases media with
  | nil => exact absurd rfl begun
  | cons head media => rfl

/-- The extra byte is read before the media. -/
theorem parseRest_cons (frame : RTMPAudioFrame) (byte : BYTE) (rest : List BYTE)
    : frame.parseRest (byte :: rest)
      = if frame.codec = aac ∧ frame.headerPos = 0 then
          (parseMedia frame.bufferSize frame.media rest).map
            (fun media => { frame with extraData := byte, headerPos := 1, media := media })
        else
          (parseMedia frame.bufferSize frame.media (byte :: rest)).map
            (fun media => { frame with media := media }) := by
  by_cases extra : frame.codec = aac ∧ frame.headerPos = 0
  · have header : frame.parseHeader (byte :: rest)
        = ({ frame with extraData := byte, headerPos := 1 }, rest) := if_pos extra
    rw [if_pos extra, parseRest, header]
  · have header : frame.parseHeader (byte :: rest) = (frame, byte :: rest) := if_neg extra
    rw [if_neg extra, parseRest, header]

theorem parseRest_append (frame : RTMPAudioFrame) (nonempty : first ≠ []) (more : second ≠ [])
    : frame.parseRest (first ++ second)
      = frame.parseRest first >>= fun next => next.parseRest second := by
  obtain ⟨byte, rest, rfl⟩ := exists_cons_of_ne_nil nonempty
  obtain ⟨other, others, rfl⟩ := exists_cons_of_ne_nil more
  rw [cons_append, parseRest_cons, parseRest_cons]
  by_cases extra : frame.codec = aac ∧ frame.headerPos = 0
  · rw [if_pos extra, if_pos extra, parseMedia_append]
    cases parseMedia frame.bufferSize frame.media rest with
    | error failure => rfl
    | ok media =>
      refine Eq.trans ?_ (parseRest_cons _ _ _).symm
      exact (if_neg (fun again => absurd again.2 Nat.one_ne_zero)).symm
  · rw [if_neg extra, if_neg extra, ← cons_append, parseMedia_append]
    cases parseMedia frame.bufferSize frame.media (byte :: rest) with
    | error failure => rfl
    | ok media =>
      refine Eq.trans ?_ (parseRest_cons _ _ _).symm
      exact (if_neg extra).symm

/-- A frame whose first byte is not read again. -/
def Resumable (frame : RTMPAudioFrame) : Prop := frame.media ≠ []

/-- An audio frame in two segments. -/
theorem parse_resumes (frame : RTMPAudioFrame) (nonempty : first ≠ [])
    (more : second ≠ [])
    : Carries (frame.parse first) (frame.parse (first ++ second)) fun next =>
        next.Resumable → frame.parse (first ++ second) = next.parse second := by
  -- what is left of the first segment behind the type of the frame
  have rests : ∀ (before : RTMPAudioFrame) (rest : List BYTE), rest ≠ []
      → Carries (before.parseRest rest) (before.parseRest (rest ++ second)) fun next =>
          next.Resumable → before.parseRest (rest ++ second) = next.parse second := by
    intro before rest some
    refine (Carries.of_bind (parseRest_append before some more)).imp
      fun next _ same resumable => ?_
    rw [same, parse_later resumable more]
  by_cases fresh : frame.media = []
  · obtain ⟨byte, rest, rfl⟩ := exists_cons_of_ne_nil nonempty
    cases rest with
    | nil =>
      rw [parse_first fresh]
      exact fun resumable => absurd fresh resumable
    | cons head rest =>
      rw [cons_append, parse_first fresh, parse_first fresh]
      exact rests (frame.typed byte) (head :: rest) (cons_ne_nil _ _)
  · rw [parse_later fresh nonempty, parse_later fresh (by simp [nonempty])]
    exact rests frame first nonempty

end RTMPAudioFrame

/-! Messages. -/

namespace RTMPMessage

variable {platform : Platform} {message next : RTMPMessage}

def Valid (message : RTMPMessage) : Prop :=
  match message.body with
  | .control preParse ctrl => preParse.Steady ∧ ctrl.Open
  | .noMedia => message.length = 0 ∧ message.pos = 0
  | _ => True

/-- The messages that consist of AMF values. -/
def hasValues (message : RTMPMessage) : Bool :=
  match message.body with
  | .command _ => true
  | .metaData _ => true
  | _ => false

def Resumable (message : RTMPMessage) : Prop :=
  match message.body with
  | .audio frame => frame.Resumable
  | .video frame => frame.Resumable
  | _ => True

def Overlong (message : RTMPMessage) : Prop :=
  match message.body with
  | .control _ _ => message.pos ≠ message.length
  | _ => False

instance (frame : RTMPAudioFrame) : Decidable frame.Resumable :=
  inferInstanceAs (Decidable (_ ≠ _))

instance (frame : RTMPVideoFrame) : Decidable frame.Resumable :=
  inferInstanceAs (Decidable (¬ _))

instance (message : RTMPMessage) : Decidable message.Resumable := by
  unfold Resumable
  split <;> infer_instance

instance (message : RTMPMessage) : Decidable message.Overlong := by
  unfold Overlong
  split <;> infer_instance

theorem new_valid (streamId timestamp : DWORD) (type : BYTE) (length : Nat)
    : (new streamId timestamp type length).Valid := by
  simp only [Valid, new]
  generalize MessageType.ofId type = kind
  cases kind with
  | audio | video =>
    by_cases empty : length = 0
    · simp only [newBody, if_pos empty]
      exact ⟨empty, trivial⟩
    · simp only [newBody, if_neg empty]
  | userControlMessage => exact ⟨RTMPUserControlMessage.preParse_steady, by decide, by decide⟩
  | command | commandAMF3 | data | dataAMF3 | sharedObject | sharedObjectAMF3 | other => trivial
  | setChunkSize | abortMessage | acknowledgement | windowAcknowledgementSize
    | setPeerBandwidth => exact ⟨fixedSize_steady, by decide, by decide⟩

theorem fill_control {preParse : PreParse} {ctrl : RTMPFormat}
    (isControl : message.body = .control preParse ctrl) (data : List BYTE)
    : message.fill platform data
      = .ok { message with
        body := .control preParse (ctrl.parse preParse data).1,
        pos := message.pos + (data.length - (ctrl.parse preParse data).2.length),
        parsing := !(ctrl.parse preParse data).1.isParsed } := by
  simp only [fill, isControl]

/-- Values take all that they are given. -/
theorem fill_values (values : message.hasValues = true)
    (success : message.fill platform first = .ok next)
    : ∃ body skip, next = { message.advance body first.length with skip := skip }
      ∧ next.hasValues = true := by
  obtain ⟨streamId, timestamp, type, length, body, skip, parsing, pos⟩ := message
  cases body with
  | command _ | metaData _ =>
    simp only [fill] at success
    split_ifs at success
    all_goals
      obtain ⟨after, -, rfl⟩ := map_ok success
      exact ⟨_, _, rfl, rfl⟩
  | _ => cases values

theorem Valid.of_values (values : message.hasValues = true) : message.Valid := by
  obtain ⟨streamId, timestamp, type, length, body, skip, parsing, pos⟩ := message
  cases body with
  | command _ | metaData _ => trivial
  | _ => cases values

section

variable (valid : message.Valid) (nonempty : first ≠ [])
include valid nonempty

/-- A message in two segments: one that stays open goes on with the next segment as if both had
come at once.
-/
theorem fill_resumes (bytes : message.hasValues = false) (more : second ≠ [])
    : Carries (message.fill platform first) (message.fill platform (first ++ second)) fun next =>
        next.parsing = true → next.Resumable
          → message.fill platform (first ++ second) = next.fill platform second := by
  obtain ⟨streamId, timestamp, type, length, body, skip, parsing, pos⟩ := message
  cases body with
  | control preParse ctrl =>
    rw [fill_control rfl, fill_control rfl]
    intro isOpen _
    rcases parse_cases valid.1 valid.2 nonempty with ⟨complete, -⟩ | ⟨-, -, used, resumes⟩
    · simp [complete] at isOpen
    · have shorter := parse_length (ctrl.parse preParse first).1 preParse second
      rw [fill_control rfl, resumes second more, used]
      simp only [length_append, length_nil, Nat.sub_zero, Nat.add_assoc, Nat.add_sub_assoc shorter]
  | command cmd | metaData metaData => cases bytes
  | audio frame | video frame =>
    have cut := frame.parse_resumes nonempty more
    cases read : frame.parse first with
    | error failure =>
      simp only [fill, read, cut.of_error read]
      rfl
    | ok after =>
      simp only [fill, read]
      intro _ ready
      simp only [advance, cut.of_ok read ready, length_append, Nat.add_assoc]
  | noMedia =>
    intro isOpen
    obtain ⟨none, start⟩ := valid
    simp only [advance] at none start isOpen
    subst none start
    cases isOpen
  | sharedObject =>
    intro _ _
    simp only [fill, advance, length_append, Nat.add_assoc]
  | unsupported => rfl

/-- A message that stays open has taken everything. -/
theorem fill_open (success : message.fill platform first = .ok next) (isOpen : next.parsing = true)
    : next.Valid ∧ next.pos = message.pos + first.length ∧ next.length = message.length := by
  by_cases values : message.hasValues
  · obtain ⟨body, skip, rfl, still⟩ := fill_values values success
    exact ⟨.of_values still, rfl, rfl⟩
  obtain ⟨streamId, timestamp, type, length, body, skip, parsing, pos⟩ := message
  cases body with
  | control preParse ctrl =>
    have after := Except.ok.inj (success.symm.trans (fill_control rfl first))
    rcases parse_cases valid.1 valid.2 nonempty with ⟨complete, -⟩ | ⟨-, stillOpen, used, -⟩
    · rw [after, complete] at isOpen
      cases isOpen
    · subst after
      exact ⟨⟨valid.1, stillOpen⟩, by simp only [used, length_nil, Nat.sub_zero], rfl⟩
  | command cmd | metaData metaData => exact absurd rfl values
  | audio frame | video frame =>
    obtain ⟨after, -, rfl⟩ := map_ok success
    exact ⟨trivial, rfl, rfl⟩
  | noMedia =>
    cases success
    obtain ⟨none, start⟩ := valid
    simp only [advance] at none start isOpen
    subst none start
    cases isOpen
  | sharedObject =>
    cases success
    exact ⟨trivial, rfl, rfl⟩
  | unsupported => cases success

/-- A message that is complete has taken everything that it was announced with, or it is a
control message to which more makes no difference.
-/
theorem fill_complete (bytes : message.hasValues = false)
    (fits : message.pos + first.length ≤ message.length)
    (success : message.fill platform first = .ok next) (complete : next.parsing = false)
    : message.pos + first.length = message.length
      ∨ next.Overlong ∧ ∀ second, message.fill platform (first ++ second) = .ok next := by
  obtain ⟨streamId, timestamp, type, length, body, skip, parsing, pos⟩ := message
  -- most bodies are complete when the announced number of bytes is reached
  have reached : ∀ {body : Body} {count : Nat},
      (advance ⟨streamId, timestamp, type, length, body, skip, parsing, pos⟩ body count).parsing
        = false → pos + count = length := by
    intro body count done
    simpa only [advance, decide_eq_false_iff_not, Classical.not_not] using done
  cases body with
  | control preParse ctrl =>
    have after := Except.ok.inj (success.symm.trans (fill_control rfl first))
    rcases parse_cases valid.1 valid.2 nonempty
      with ⟨-, shorter, same⟩ | ⟨incomplete, -⟩
    · subst after
      by_cases whole : pos + first.length = length
      · exact .inl whole
      · refine .inr ⟨?_, fun second => ?_⟩
        · simp only [Overlong] at fits ⊢
          omega
        · rw [fill_control rfl, same second]
          simp only [length_append, Nat.add_sub_add_right]
    · rw [after, incomplete] at complete
      cases complete
  | command cmd | metaData metaData => cases bytes
  | audio frame | video frame =>
    obtain ⟨after, -, rfl⟩ := map_ok success
    exact .inl (reached complete)
  | noMedia =>
    have length := length_pos_iff.mpr nonempty
    have none := valid.1
    simp only at none fits
    omega
  | sharedObject =>
    cases success
    exact .inl (reached complete)
  | unsupported => cases success

end

end RTMPMessage

end MediaServer.Rtmp
