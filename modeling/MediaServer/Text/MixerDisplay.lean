import MediaServer.Text.MixerAttribution

/-! What a reader sees on a display where U+0008 removes the last character. -/

namespace MediaServer.Text.TextMixerWorker

open Foundation TextReader OrderedMap

/-- A displayed character, with the turn in which its writer wrote it. -/
inductive Cell
  | mixer
  | own (writter turn : Nat)
  deriving DecidableEq

/-- The last cell comes first. Signs and labels are counted to tell turns apart. -/
structure Display where
  cells : List Cell := []
  turn : Nat := 0

namespace Display

def put (cell : Cell) (display : Display) (c : Nat) : Display :=
  if c = backspace then { display with cells := display.cells.tail }
  else if c = bell then display
  else { display with cells := cell :: display.cells }

def next (display : Display) : Sent → Display
  | .char writter _ sent => display.put (.own writter display.turn) sent
  | piece => piece.render.foldl (put .mixer) { display with turn := display.turn + 1 }

/-- The last characters are those that the turn counts. -/
def Follows (turn : Turn) (display : Display) : Prop :=
  ∀ writter, ∃ below,
    display.cells = List.replicate (turn.leftFor writter) (.own writter display.turn) ++ below

theorem Follows.next {turn : Turn} {display : Display} (follows : Follows turn display)
    {before : List Sent} {piece : Sent} (fits : piece.Fits before) (isTurn : turnOf before = turn)
    : Follows (turn.next piece) (display.next piece) := by
  intro reader
  cases piece with
  | control text | label id name => exact ⟨_, by simp [Turn.next, Turn.leftFor]; rfl⟩
  | char writter taken shown =>
    obtain ⟨-, rfl⟩ := fits
    by_cases own : writter = reader
    · obtain ⟨below, isTop⟩ := follows reader
      rw [own, isTurn, Display.next, Turn.next]
      change ∃ _, _ = List.replicate (if some reader = some reader then _ else 0) _ ++ _
      rw [if_pos rfl]
      by_cases erases : taken = backspace
      · cases left : turn.leftFor reader with
        | zero => exact ⟨_, by simp [erases]; rfl⟩
        | succ count =>
          rw [left] at isTop
          exact ⟨below, by simp [put, erases, isTop, List.replicate_succ]⟩
      · by_cases rings : taken = bell
        · exact ⟨below, by simp [put, rings, isTop, bell, backspace]⟩
        · exact ⟨below, by simp [put, erases, rings, isTop, List.replicate_succ]⟩
    · exact ⟨_, by simp [Turn.next, Turn.leftFor, own]; rfl⟩

end Display

def displayOf (sent : List Sent) : Display := sent.foldl Display.next {}

theorem Attributed.follows {sent : List Sent} (attributed : Attributed sent)
    : (displayOf sent).Follows (turnOf sent) := by
  induction sent using List.reverseRecOn with
  | nil => exact fun writter => ⟨[], rfl⟩
  | append_singleton before piece ih =>
    rw [turnOf_append, displayOf, List.foldl_append]
    exact (ih attributed.of_append).next (attributed before piece [] rfl) rfl

/-- What a label shows of a name erases nothing. -/
def Plain (name : List Nat) : Prop := backspace ∉ name.take maxLabelNameSize

/-- Every U+0008 is one of a writer, and removes what this writer has written in the turn. -/
def ErasesOwn (sent : List Sent) : Prop :=
  ∀ before piece after, sent = before ++ piece :: after → backspace ∈ piece.render →
    ∃ writter taken, piece = .char writter taken backspace
      ∧ (displayOf before).cells.head? = some (.own writter (displayOf before).turn)

theorem Complete.erasesOwn {taken : List (Nat × Nat)} {sent : List Sent}
    (complete : Complete taken sent)
    (plain : ∀ writter name, .label writter name ∈ sent → Plain name)
    : ErasesOwn sent := by
  rintro before piece after rfl erases
  have fits := complete.attributed before piece after rfl
  cases piece with
  | control text => exact absurd erases (complete.signs text (by simp))
  | label writter name =>
    refine absurd erases ?_
    simpa [Sent.render, backspace, Plain] using plain writter name (by simp)
  | char writter taken shown =>
    obtain rfl := List.mem_singleton.mp erases
    obtain ⟨below, isTop⟩ := complete.attributed.of_append.follows writter
    cases left : (turnOf before).leftFor writter with
    | zero =>
      have shown := fits.2
      simp only [left, and_true] at shown
      split_ifs at shown with both
      · cases shown
      · exact absurd shown.symm both
    | succ count => exact ⟨writter, taken, rfl, by rw [isTop, left]; rfl⟩

theorem ErasesOwn.char? {sent : List Sent} (own : ErasesOwn sent) {piece : Sent}
    (member : piece ∈ sent) (erases : backspace ∈ piece.render)
    : piece.char? ≠ none := by
  obtain ⟨before, after, isSent⟩ := List.append_of_mem member
  obtain ⟨writter, taken, rfl, -⟩ := own before piece after isSent erases
  nofun

/-- The pieces of a reader. -/
def Session.sentTo (session : Session) (id : Nat) : List Sent :=
  ((session.worker.readers.find? id).map (·.sent)).getD []

/-! The names in the labels are those that were given to the writers. -/

def Event.PlainName : Event → Prop
  | .addWritter _ name displayName realtime =>
    Plain (TextWritter.label { name, displayName, realtime })
  | _ => True

/-- No writer has a name that erases, and no reader got one. -/
structure Named (worker : TextMixerWorker) : Prop where
  writters : ∀ id writter, worker.writters.find? id = some writter → Plain writter.label
  sent : ∀ id reader, worker.readers.find? id = some reader →
    ∀ writter name, .label writter name ∈ reader.sent → Plain name

namespace Named

variable {worker : TextMixerWorker} (named : Named worker) {id : Nat} {writter : TextWritter}

theorem label_not_mem_processAll (id displayed : Nat) (text : List Nat) {other : Nat}
    {name : List Nat} : .label other name ∉ (processAll id displayed text).1 := by
  induction text generalizing displayed with
  | nil => exact List.not_mem_nil
  | cons c rest ih =>
    intro member
    simp only [processAll, List.mem_append] at member
    rcases member with first | later
    · unfold process at first
      split_ifs at first <;> simp at first
    · exact ih _ later

include named

theorem insert (id : Nat) (plain : Plain writter.label)
    : ∀ other text, (worker.writters.insert id writter).find? other = some text
      → Plain text.label :=
  forall_insert named.writters plain

theorem toReaders {change : TextReader → TextReader}
    (kept : ∀ (reader : TextReader) writter name, .label writter name ∈ (change reader).sent →
      .label writter name ∈ reader.sent ∨ Plain name)
    : Named (worker.toReaders change) := by
  refine ⟨named.writters, fun id reader found writter name member => ?_⟩
  obtain ⟨before, isBefore, rfl⟩ := of_toReaders found
  rcases kept before writter name member with old | plain
  · exact named.sent id before isBefore writter name old
  · exact plain

theorem searched (now : Clock) : Named (worker.searched now) := by
  refine ⟨fun id writter found => ?_, named.sent⟩
  obtain ⟨old, isOld, same⟩ := of_searched found
  have isLabel : old.untimed.label = writter.untimed.label := congrArg TextWritter.label same
  change Plain writter.untimed.label
  rw [← isLabel]
  exact named.writters id old isOld

theorem sendAll (plain : Plain writter.label) (id : Nat) (text : List Nat)
    : Named (worker.sendAll id writter text) := by
  refine named.toReaders (fun reader other name member => ?_)
  rcases List.mem_append.mp member with before | later
  · split_ifs at before
    · rcases List.mem_append.mp before with old | isLabel
      · exact .inl old
      · cases List.mem_singleton.mp isLabel
        exact .inr plain
    · exact .inl before
  · exact absurd later (label_not_mem_processAll _ _ _)

theorem endTurn (plain : Plain writter.label) (message : Bool) (next : Option Nat)
    : Named (worker.endTurn message id writter next) := by
  have ended : Named (worker.toReaders (fun reader =>
      (if message then reader else reader.writeControl [lineSeparator]).nextIsFirst)) := by
    refine named.toReaders (fun reader other name member => .inl ?_)
    cases message with
    | true => exact member
    | false => simpa [nextIsFirst, writeControl] using member
  exact ⟨named.insert id plain, ended.sent⟩

theorem give (found : worker.writters.find? id = some writter) (now : Clock) (searchWord : Bool)
    : Named (worker.give now searchWord id writter).worker := by
  have plain := named.writters id writter found
  unfold TextMixerWorker.give
  split_ifs
  · exact named
  · exact ⟨named.insert id plain, (named.sendAll plain id _).sent⟩

theorem processText (now : Clock) : Named (worker.processText now).1 := by
  have searched := named.searched now
  cases isCurrent : (worker.searched now).current with
  | none =>
    simp only [TextMixerWorker.processText, isCurrent]
    exact ⟨searched.writters, searched.sent⟩
  | some entry =>
    have given := searched.give (current_some isCurrent).2 now
    simp only [TextMixerWorker.processText, isCurrent]
    split
    next => exact given _
    next text found =>
      split_ifs
      · exact (given _).endTurn ((given _).writters entry.1 text found) _ _
      · exact given _

theorem removeWritter (id : Nat) : Named (worker.removeWritter id) := by
  have left : ∀ other text, (worker.writters.erase id).find? other = some text
      → Plain text.label :=
    fun other text found => named.writters other text (find?_erase_eq_some.mp found).2
  unfold TextMixerWorker.removeWritter
  split
  next => exact named
  next =>
    refine ⟨left, ?_⟩
    split_ifs
    · refine (named.toReaders (fun reader other name member => .inl ?_)).sent
      simpa [writeControl] using member
    · exact named.sent

theorem addReader (id : Nat) : Named (worker.addReader id) := by
  unfold TextMixerWorker.addReader
  split
  next => exact named
  next =>
    refine ⟨named.writters, forall_insert named.sent fun writter name member => ?_⟩
    simp [writeControl] at member

theorem writeText (id : Nat) (data : List Nat) : Named (worker.writeText id data) := by
  unfold TextMixerWorker.writeText
  split
  next => exact named
  next old found => exact ⟨named.insert id (named.writters id old found), named.sent⟩

end Named

theorem Session.named_step {session : Session} (named : Named session.worker) {event : Event}
    (plain : event.PlainName) : Named (session.step event).worker := by
  cases event with
  | addWritter id name displayName realtime =>
    simp only [step, addWritter]
    split
    next => exact named
    next => exact ⟨named.insert id plain, named.sent⟩
  | addReader id =>
    simp only [step]
    split
    next => exact named.addReader id
    next => exact named.addReader id
  | writeText id data =>
    simp only [step]
    split
    next => exact named.writeText id data
    next => exact named.writeText id data
  | removeWritter id => exact named.removeWritter id
  | processText now => exact named.processText now

/-- Writers erase their own text only, but the names in the labels are not filtered. -/
theorem Session.erasesOwn_iff (events : List Event) (id : Nat)
    : let session := Foundation.run Session.step {} events
      session.Counted
      ∧ (ErasesOwn (session.sentTo id)
        ↔ ∀ writter name, .label writter name ∈ session.sentTo id → Plain name)
      ∧ ((∀ event ∈ events, event.PlainName) → ErasesOwn (session.sentTo id)) := by
  intro session
  have exact : ErasesOwn (session.sentTo id)
      ↔ ∀ writter name, .label writter name ∈ session.sentTo id → Plain name := by
    constructor
    · intro own writter name member inside
      exact own.char? member (by simp [Sent.render, inside]) rfl
    · unfold sentTo
      cases found : session.worker.readers.find? id with
      | none => exact fun _ before piece after isSent => absurd isSent (by simp)
      | some reader => exact ((kept_run events).served id reader found).complete.erasesOwn
  refine ⟨(kept_run events).counted, exact, fun plain => exact.mpr ?_⟩
  have named : Named session.worker :=
    List.foldlRecOn (motive := fun session : Session => Named session.worker) events Session.step
      ⟨nofun, nofun⟩ (fun _ named event member => named_step named (plain event member))
  intro writter name member
  unfold sentTo at member
  cases found : session.worker.readers.find? id with
  | none =>
    rw [found] at member
    cases member
  | some reader =>
    rw [found] at member
    exact named.sent id reader found writter name member

def erasingName : List Event :=
  [.addReader 9, .addWritter 1 [0x41, 0x08] [] true, .writeText 1 [0x68],
    .processText (.reading 1000000), .processText (.reading 2000000)]

/-- The name in the label loses its last character. -/
theorem Session.label_erases
    : ((Foundation.run Session.step {} erasingName).sentTo 9).flatMap Sent.render
        = [bom, 0x5B, 0x41, 0x08, 0x5D, 0x20, 0x68]
      ∧ ¬ ErasesOwn ((Foundation.run Session.step {} erasingName).sentTo 9) := by
  refine ⟨by decide +kernel, fun own => ?_⟩
  have erases : ∃ piece ∈ (Foundation.run Session.step {} erasingName).sentTo 9,
      piece.char? = none ∧ backspace ∈ piece.render := by
    decide +kernel
  obtain ⟨piece, member, isSign, inside⟩ := erases
  exact own.char? member inside isSign

end MediaServer.Text.TextMixerWorker
