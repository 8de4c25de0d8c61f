import MediaServer.Foundation.Runs
import MediaServer.Text.MixerWorker

/-! What the readers of a text mixer get: the characters that are taken from the queues, each
in a turn of its writer.
-/

namespace MediaServer.Text.TextMixerWorker

open Foundation TextReader OrderedMap List

/-! Turns as a reader sees them. -/

def labelAfter (last : Option Nat) : Sent → Option Nat
  | .label writter _ => some writter
  | _ => last

def lastLabel (sent : List Sent) : Option Nat := sent.foldl labelAfter none

/-- A turn: whose it is, and how many characters are left that an erasure can remove. -/
structure Turn where
  holder : Option Nat := none
  left : Nat := 0

def Turn.leftFor (turn : Turn) (writter : Nat) : Nat :=
  if turn.holder = some writter then turn.left else 0

def Turn.next (turn : Turn) : Sent → Turn
  | .control _ => {}
  | .label writter _ => { holder := some writter }
  | .char writter taken _ =>
    { holder := some writter
      left :=
        if taken = backspace then turn.leftFor writter - 1
        else if taken = bell then turn.leftFor writter
        else turn.leftFor writter + 1 }

def turnOf (sent : List Sent) : Turn := sent.foldl Turn.next {}

def Sent.char? : Sent → Option (Nat × Nat)
  | .char writter taken _ => some (writter, taken)
  | _ => none

/-- The characters of the writers, as they were taken from the queues. -/
def charsOf (sent : List Sent) : List (Nat × Nat) := sent.filterMap Sent.char?

/-- A character stands behind a label of its writer, and an erasure with nothing left to erase
in the turn is replaced.
-/
def Sent.Fits (before : List Sent) : Sent → Prop
  | .char writter taken shown =>
    lastLabel before = some writter
      ∧ shown = if taken = backspace ∧ (turnOf before).leftFor writter = 0 then erasureRepl
          else taken
  | _ => True

def Attributed (sent : List Sent) : Prop :=
  ∀ before piece after, sent = before ++ piece :: after → piece.Fits before

variable {sent : List Sent}

theorem Attributed.append (attributed : Attributed sent) {piece : Sent} (fits : piece.Fits sent)
    : Attributed (sent ++ [piece]) := by
  intro before other after isSent
  rcases concat_split_cons isSent with ⟨rfl, rfl, -⟩ | ⟨front, -, isFront⟩
  · exact fits
  · exact attributed before other front isFront

theorem Attributed.of_append {sent more : List Sent} (attributed : Attributed (sent ++ more))
    : Attributed sent := by
  intro before piece after isSent
  exact attributed before piece (after ++ more) (by rw [isSent, append_assoc]; rfl)

theorem lastLabel_append (sent : List Sent) (piece : Sent)
    : lastLabel (sent ++ [piece]) = labelAfter (lastLabel sent) piece :=
  foldl_append

theorem turnOf_append (sent : List Sent) (piece : Sent)
    : turnOf (sent ++ [piece]) = (turnOf sent).next piece :=
  foldl_append

theorem charsOf_append (sent more : List Sent)
    : charsOf (sent ++ more) = charsOf sent ++ charsOf more :=
  filterMap_append

/-! A reader that gets what is taken. -/

/-- The pieces of a reader are the characters that were taken since it came, without BOMs. The
mixer itself erases nothing.
-/
structure Complete (taken : List (Nat × Nat)) (sent : List Sent) : Prop where
  chars : charsOf sent = taken.filter (fun char => char.2 ≠ bom)
  attributed : Attributed sent
  signs : ∀ text, .control text ∈ sent → backspace ∉ text

/-- The pieces end within a turn of the writer. -/
structure InTurn (id displayed : Nat) (sent : List Sent) : Prop where
  label : lastLabel sent = some id
  turn : turnOf sent = { holder := some id, left := displayed }

/-- What is shown of a character, and how many are displayed behind it. -/
theorem TextReader.process_visible {c : Nat} (visible : c ≠ bom) (id displayed : Nat)
    : TextReader.process id displayed c
      = ([.char id c (if c = backspace ∧ displayed = 0 then erasureRepl else c)],
        if c = backspace then displayed - 1 else if c = bell then displayed
          else displayed + 1) := by
  rw [TextReader.process, if_neg visible]
  by_cases erases : c = backspace
  · cases displayed with
    | zero => simp [erases]
    | succ left => simp [erases]
  · by_cases rings : c = bell
    · simp [rings, bell, backspace]
    · simp [erases, rings]

variable {taken : List (Nat × Nat)}

section

variable (complete : Complete taken sent)
include complete

theorem Complete.control {text : List Nat} (plain : backspace ∉ text)
    : Complete taken (sent ++ [.control text]) := by
  refine ⟨?_, complete.attributed.append trivial, fun other member => ?_⟩
  · rw [charsOf_append, complete.chars]
    exact append_nil _
  · rcases mem_append.mp member with before | isText
    · exact complete.signs other before
    · cases mem_singleton.mp isText
      exact plain

theorem Complete.label (id : Nat) (name : List Nat)
    : Complete taken (sent ++ [.label id name]) ∧ InTurn id 0 (sent ++ [.label id name]) := by
  refine ⟨⟨?_, complete.attributed.append trivial, ?_⟩, ?_, ?_⟩
  · rw [charsOf_append, complete.chars]
    exact append_nil _
  · simpa using complete.signs
  · rw [lastLabel_append]
    rfl
  · rw [turnOf_append]
    rfl

theorem Complete.process {id displayed : Nat} (inTurn : InTurn id displayed sent) (c : Nat)
    : Complete (taken ++ [(id, c)]) (sent ++ (TextReader.process id displayed c).1)
      ∧ InTurn id (TextReader.process id displayed c).2
        (sent ++ (TextReader.process id displayed c).1) := by
  by_cases hidden : c = bom
  · rw [TextReader.process, if_pos hidden, append_nil]
    have dropped : [(id, c)].filter (fun char => char.2 ≠ bom) = [] := by
      simp [hidden]
    refine ⟨⟨?_, complete.attributed, complete.signs⟩, inTurn⟩
    rw [complete.chars, filter_append, dropped, append_nil]
  · rw [process_visible hidden]
    have left : (turnOf sent).leftFor id = displayed := by
      rw [inTurn.turn]
      exact if_pos rfl
    have kept : [(id, c)].filter (fun char => char.2 ≠ bom) = [(id, c)] := by
      simp [hidden]
    refine ⟨⟨?_, complete.attributed.append ⟨inTurn.label, by rw [left]⟩, ?_⟩, ?_, ?_⟩
    · rw [charsOf_append, complete.chars, filter_append, kept]
      rfl
    · simpa using complete.signs
    · rw [lastLabel_append, inTurn.label]
      rfl
    · rw [turnOf_append]
      simp only [Turn.next, left]

theorem Complete.processAll {id displayed : Nat} (inTurn : InTurn id displayed sent)
    (text : List Nat)
    : Complete (taken ++ text.map (fun c => (id, c))) (sent ++ (processAll id displayed text).1)
      ∧ InTurn id (processAll id displayed text).2 (sent ++ (processAll id displayed text).1) := by
  induction text generalizing taken displayed sent with
  | nil =>
    rw [map_nil, append_nil]
    simp only [processAll, append_nil]
    exact ⟨complete, inTurn⟩
  | cons c rest ih =>
    obtain ⟨completeFirst, inTurnFirst⟩ := complete.process inTurn c
    have later := ih completeFirst inTurnFirst
    simp only [append_assoc] at later
    exact later

end

/-- A reader that is not at the beginning of a turn is in the turn of the current writer. -/
structure Served (current : Option Nat) (taken : List (Nat × Nat)) (reader : TextReader)
    : Prop where
  complete : Complete taken reader.sent
  inTurn : reader.isFirst = false → ∃ id, current = some id ∧ InTurn id reader.displayed reader.sent

variable {current : Option Nat} {reader : TextReader} {id : Nat}

theorem Served.send (served : Served current taken reader)
    (own : reader.isFirst = true ∨ current = some id) (label text : List Nat)
    : Served (some id) (taken ++ text.map (fun c => (id, c))) (reader.send id label text) := by
  unfold TextReader.send
  cases first : reader.isFirst with
  | true =>
    obtain ⟨complete, inTurn⟩ := served.complete.label id label
    obtain ⟨completeAll, inTurnAll⟩ := complete.processAll inTurn text
    exact ⟨completeAll, fun _ => ⟨id, rfl, inTurnAll⟩⟩
  | false =>
    obtain ⟨other, isOther, inTurn⟩ := served.inTurn first
    rcases own with isFirst | isCurrent
    · exact absurd isFirst (by rw [first]; decide)
    · cases isCurrent.symm.trans isOther
      obtain ⟨completeAll, inTurnAll⟩ := served.complete.processAll inTurn text
      exact ⟨completeAll, fun _ => ⟨id, rfl, inTurnAll⟩⟩

/-- At the beginning of a turn it does not matter who is the current writer. -/
theorem Served.of_isFirst (complete : Complete taken reader.sent) (first : reader.isFirst = true)
    : Served current taken reader :=
  ⟨complete, fun later => absurd (first.symm.trans later) (by decide)⟩

/-! Sessions. -/

def queueOf (worker : TextMixerWorker) (id : Nat) : List Nat :=
  ((worker.writters.find? id).map (·.textQueue)).getD []

/-- A worker, with the characters that were taken from the queues since a reader came, and what
each writer has written for a reader: what was in the queue when the reader came, and all that
was passed to `WriteText` since then, without BOMs.
-/
structure Session where
  worker : TextMixerWorker := {}
  taken : Nat → List (Nat × Nat) := fun _ => []
  due : Nat → Nat → List Nat := fun _ _ => []

inductive Event
  | addWritter (id : Nat) (name displayName : List Nat) (realtime : Bool)
  | addReader (id : Nat)
  | writeText (id : Nat) (data : List Nat)
  | removeWritter (id : Nat)
  | processText (now : Clock)

namespace Session

/-- The session after a call that takes characters from the queues. -/
def take (session : Session) (result : TextMixerWorker × List (Nat × Nat)) : Session :=
  { session with
    worker := result.1
    taken := fun id => session.taken id ++ result.2 }

/-- The session with a text behind what a writer has written. -/
def owe (session : Session) (writter : Nat) (text : List Nat) : Session :=
  { session with
    due := fun reader =>
      Function.update (session.due reader) writter (session.due reader writter ++ text) }

def step (session : Session) : Event → Session
  | .addWritter id name displayName realtime =>
    { session with worker := session.worker.addWritter id name displayName realtime }
  | .addReader id =>
    match session.worker.readers.find? id with
    | some _ => { session with worker := session.worker.addReader id }
    | none =>
      { worker := session.worker.addReader id
        taken := Function.update session.taken id []
        due := Function.update session.due id session.worker.queueOf }
  | .writeText id data =>
    match session.worker.writters.find? id with
    | none => { session with worker := session.worker.writeText id data }
    | some _ =>
      { session with worker := session.worker.writeText id data }.owe id (data.filter (· ≠ bom))
  | .removeWritter id => { session with worker := session.worker.removeWritter id }
  | .processText now => session.take (session.worker.processText now)

def flush (session : Session) (now : Clock) : Session :=
  session.take (session.worker.flushText now)

end Session

/-- Characters of one writer. -/
def onBehalfOf (writter : Nat) (chars : List (Nat × Nat)) : List Nat :=
  (chars.filter (fun char => char.1 = writter)).map Prod.snd

/-- Every reader got the characters of every writer in order and once each, and each of them
behind a label of that writer. What was taken from a queue and what is left in it is what the
writer has written.
-/
def Session.Faithful (session : Session) : Prop :=
  ∀ id reader, session.worker.readers.find? id = some reader →
    (∀ writter, onBehalfOf writter (charsOf reader.sent)
        = (onBehalfOf writter (session.taken id)).filter (· ≠ bom)
      ∧ onBehalfOf writter (session.taken id) ++ session.worker.queueOf writter
        = session.due id writter)
    ∧ Attributed reader.sent

theorem Complete.onBehalfOf (complete : Complete taken sent) (writter : Nat)
    : onBehalfOf writter (charsOf sent)
      = (TextMixerWorker.onBehalfOf writter taken).filter (· ≠ bom) := by
  simp only [TextMixerWorker.onBehalfOf, complete.chars, filter_map, filter_filter,
    Bool.and_comm, Function.comp_def]

structure Queues (current : Option Nat) (writters : OrderedMap Nat TextWritter) : Prop where
  present : ∀ id, current = some id → (writters.find? id).isSome
  clean : ∀ id writter, writters.find? id = some writter → bom ∉ writter.textQueue

variable {writter : TextWritter}

theorem Queues.insert {writters : OrderedMap Nat TextWritter} (queues : Queues current writters)
    (id : Nat) (clean : bom ∉ writter.textQueue) : Queues current (writters.insert id writter) := by
  refine ⟨fun other isCurrent => ?_, forall_insert queues.clean clean⟩
  rw [find?_insert]
  split_ifs
  · rfl
  · exact queues.present other isCurrent

structure Session.Kept (session : Session) : Prop where
  queues : Queues session.worker.currentWritter session.worker.writters
  served
    : ∀ id reader, session.worker.readers.find? id = some reader
      → Served session.worker.currentWritter (session.taken id) reader

variable {session : Session}

/-- What was taken from a queue since a reader came and what is left in it is what the writer
has written.
-/
def Session.Conserved (session : Session) : Prop :=
  ∀ id writter, onBehalfOf writter (session.taken id) ++ session.worker.queueOf writter
    = session.due id writter

theorem Session.Kept.faithful (kept : session.Kept) (conserved : session.Conserved)
    : session.Faithful := by
  intro id reader found
  have complete := (kept.served id reader found).complete
  exact ⟨fun writter => ⟨complete.onBehalfOf writter, conserved id writter⟩, complete.attributed⟩

/-! Writers and readers come and go. -/

theorem not_mem_pushText {c : Nat} {queue text : List Nat} (before : c ∉ queue) (new : c ∉ text)
    : c ∉ pushText queue text := by
  unfold pushText
  split_ifs
  · exact before
  · exact not_mem_append before new

theorem flatten_stretches (stretch data : List Nat)
    : (stretches stretch data).flatten = stretch ++ data.filter (· ≠ bom) := by
  induction data generalizing stretch with
  | nil => cases stretch <;> simp [stretches]
  | cons c rest ih =>
    simp only [stretches]
    by_cases marks : c = bom
    · by_cases empty : stretch = []
      · simp [marks, empty, ih]
      · simp [marks, empty, ih]
    · simp [marks, ih]

theorem bom_not_mem_stretches (data : List Nat) : ∀ part ∈ stretches [] data, bom ∉ part := by
  intro part member inside
  have written := mem_flatten.mpr ⟨part, member, inside⟩
  rw [flatten_stretches] at written
  simp at written

/-- All stretches go into a queue that has room for them. -/
theorem foldl_pushText {parts : List (List Nat)} {queue : List Nat}
    (fits : queue.length + parts.flatten.length ≤ queueSize)
    : parts.foldl pushText queue = queue ++ parts.flatten := by
  induction parts generalizing queue with
  | nil => exact (append_nil _).symm
  | cons part rest ih =>
    rw [flatten_cons, length_append, ← Nat.add_assoc] at fits
    have room : pushText queue part = queue ++ part := if_neg (by omega)
    rw [foldl_cons, room, ih (by rw [length_append]; exact fits), flatten_cons, append_assoc]

theorem bom_not_mem_foldl_pushText {parts : List (List Nat)} {queue : List Nat}
    (before : bom ∉ queue) (clean : ∀ part ∈ parts, bom ∉ part)
    : bom ∉ parts.foldl pushText queue := by
  induction parts generalizing queue with
  | nil => exact before
  | cons part rest ih =>
    exact ih (not_mem_pushText before (clean part (.head _)))
      (fun other member => clean other (.tail _ member))

variable {worker : TextMixerWorker}

theorem of_toReaders {change : TextReader → TextReader}
    (found : (worker.toReaders change).readers.find? id = some reader)
    : ∃ before, worker.readers.find? id = some before ∧ change before = reader := by
  rw [toReaders, find?_mapValues] at found
  exact Option.map_eq_some_iff.mp found

namespace Session.Kept

variable {session : Session}

section

variable (kept : session.Kept) (id : Nat)
include kept

theorem addWritter (name displayName : List Nat) (realtime : Bool)
    : (session.step (.addWritter id name displayName realtime)).Kept := by
  cases found : session.worker.writters.find? id with
  | some _ =>
    simp only [step, TextMixerWorker.addWritter, found]
    exact kept
  | none =>
    simp only [step, TextMixerWorker.addWritter, found]
    exact ⟨kept.queues.insert id not_mem_nil, kept.served⟩

theorem addReader : (session.step (.addReader id)).Kept := by
  cases found : session.worker.readers.find? id with
  | some _ =>
    simp only [step, TextMixerWorker.addReader, found]
    exact kept
  | none =>
    simp only [step, TextMixerWorker.addReader, found]
    refine ⟨kept.queues, fun other reader isReader => ?_⟩
    have isReader : (session.worker.readers.insert id
        (TextReader.writeControl {} [bom])).find? other = some reader := isReader
    show Served _ (Function.update session.taken id [] other) reader
    rw [OrderedMap.find?_insert] at isReader
    split_ifs at isReader with same
    · cases isReader
      rw [same, Function.update_self]
      have nothing : Complete [] [] :=
        ⟨rfl, fun before piece after isSent => absurd isSent.symm (by simp), nofun⟩
      exact .of_isFirst (nothing.control (by decide)) rfl
    · rw [Function.update_of_ne same]
      exact kept.served other reader isReader

theorem writeText (data : List Nat) : (session.step (.writeText id data)).Kept := by
  cases found : session.worker.writters.find? id with
  | none =>
    simp only [step, TextMixerWorker.writeText, found]
    exact kept
  | some old =>
    simp only [step, TextMixerWorker.writeText, found]
    have clean := bom_not_mem_foldl_pushText (kept.queues.clean id old found)
      (bom_not_mem_stretches data)
    exact ⟨kept.queues.insert id clean, kept.served⟩

theorem removeWritter : (session.step (.removeWritter id)).Kept := by
  cases found : session.worker.writters.find? id with
  | none =>
    simp only [step, TextMixerWorker.removeWritter, found]
    exact kept
  | some old =>
    simp only [step, TextMixerWorker.removeWritter, found]
    have clean : ∀ other writter, (session.worker.writters.erase id).find? other = some writter
        → bom ∉ writter.textQueue :=
      fun other writter isWritter =>
        kept.queues.clean other writter (find?_erase_eq_some.mp isWritter).2
    split_ifs with isCurrent
    · refine ⟨⟨fun other impossible => ?_, clean⟩, fun other reader isReader => ?_⟩
      · cases impossible
      · obtain ⟨before, isBefore, isAfter⟩ := of_toReaders isReader
        cases isAfter
        exact .of_isFirst ((kept.served other before isBefore).complete.control (by decide)) rfl
    · refine ⟨⟨fun other isOther => ?_, clean⟩, kept.served⟩
      have different : other ≠ id := fun same => isCurrent (by rw [← same]; exact isOther)
      rw [OrderedMap.find?_erase, if_neg different]
      exact kept.queues.present other isOther

end

end Session.Kept

/-! ProcessText. -/

variable {now : Clock}

/-- The next writer is one of them. -/
theorem search_next {entries : List (Nat × TextWritter)} {candidate : Candidate}
    (found : (search current now entries candidate).2.next = some id)
    : candidate.next = some id ∨ id ∈ entries.map Prod.fst := by
  induction entries generalizing candidate with
  | nil => exact .inl found
  | cons entry rest ih =>
    have later : ∀ {other : Candidate}, (search current now rest other).2.next = some id
        → (other.next = some id → candidate.next = some id ∨ id = entry.1)
        → candidate.next = some id ∨ id ∈ (entry :: rest).map Prod.fst := by
      intro other isFound early
      rcases ih isFound with start | member
      · rcases early start with before | isEntry
        · exact .inl before
        · exact .inr (by rw [isEntry]; exact .head _)
      · exact .inr (.tail _ member)
    have orElse : ∀ {start : Option Nat}, start.or (some entry.1) = some id
        → start = some id ∨ id = entry.1 := by
      intro start isFound
      rcases Option.or_eq_some_iff.mp isFound with before | ⟨-, isEntry⟩
      · exact .inl before
      · exact .inr (Option.some.inj isEntry).symm
    unfold search at found
    split_ifs at found
    · exact later found .inl
    · exact .inr (by cases found; exact .head _)
    · refine later found (fun isNext => .inr ?_)
      cases isNext
      rfl
    · exact later found orElse
    · exact later found orElse

theorem keys_searched (worker : TextMixerWorker) (now : Clock)
    : (worker.searched now).writters.keys = worker.writters.keys :=
  map_fst_search _ _ _ _

theorem untimed_searched (worker : TextMixerWorker) (now : Clock) (id : Nat)
    : ((worker.searched now).writters.find? id).map TextWritter.untimed
      = (worker.writters.find? id).map TextWritter.untimed := by
  have same : (worker.searched now).writters.mapValues (fun _ writter => writter.untimed)
      = worker.writters.mapValues (fun _ writter => writter.untimed) := by
    simp only [mapValues, searched, untimed_search]
  have found := congrArg (·.find? id) same
  simpa only [find?_mapValues] using found

theorem of_searched (found : (worker.searched now).writters.find? id = some writter)
    : ∃ old, worker.writters.find? id = some old ∧ old.untimed = writter.untimed := by
  have same := untimed_searched worker now id
  rw [found] at same
  exact Option.map_eq_some_iff.mp same.symm

theorem Session.Kept.searched (kept : session.Kept) (now : Clock)
    : Session.Kept { session with worker := session.worker.searched now } := by
  refine ⟨⟨fun id isCurrent => ?_, fun id writter found => ?_⟩, kept.served⟩
  · have member := kept.queues.present id isCurrent
    rw [← OrderedMap.mem_keys] at member ⊢
    rw [keys_searched]
    exact member
  · obtain ⟨old, isOld, same⟩ := of_searched found
    have isQueue : old.textQueue = writter.textQueue := (TextWritter.mk.inj same).2.2.2.1
    rw [← isQueue]
    exact kept.queues.clean id old isOld

theorem candidate_present (isNext : (worker.candidate now).next = some id)
    : ((worker.searched now).writters.find? id).isSome := by
  rw [← OrderedMap.mem_keys, keys_searched]
  rcases search_next isNext with impossible | member
  · cases impossible
  · exact member

theorem give_present {searchWord : Bool} {id other : Nat}
    (present : (worker.writters.find? other).isSome)
    : ((worker.give now searchWord id writter).worker.writters.find? other).isSome := by
  unfold give
  split_ifs with empty
  · exact present
  · simp only [find?_insert]
    split_ifs
    · rfl
    · exact present

section

variable {session : Session} (kept : session.Kept)
include kept

/-- What the current writer gives. -/
theorem Session.Kept.give (isCurrent : session.worker.current = some (id, writter)) (now : Clock)
    (searchWord : Bool)
    : (session.take ((session.worker.give now searchWord id writter).worker,
        (session.worker.give now searchWord id writter).taken)).Kept := by
  obtain ⟨isId, found⟩ := current_some isCurrent
  unfold TextMixerWorker.give
  split_ifs with empty
  · simp only [take, append_nil]
    exact kept
  · have clean := kept.queues.clean id writter found
    refine ⟨kept.queues.insert id (fun inside => clean (mem_of_mem_drop inside)),
      fun other reader isReader => ?_⟩
    obtain ⟨before, isBefore, isAfter⟩ := of_toReaders isReader
    have served := (kept.served other before isBefore).send (.inr isId)
    rw [← isId] at served
    cases isAfter
    exact served writter.label _

theorem Session.Kept.endTurn (found : session.worker.writters.find? id = some writter)
    (message : Bool) {next : Option Nat}
    (present : ∀ other, next = some other → (session.worker.writters.find? other).isSome)
    : Session.Kept
        { session with worker := session.worker.endTurn message id writter next } := by
  have queues : Queues next session.worker.writters := ⟨present, kept.queues.clean⟩
  refine ⟨queues.insert id (kept.queues.clean id writter found), fun other reader isReader => ?_⟩
  obtain ⟨before, isBefore, isAfter⟩ := of_toReaders isReader
  have complete := (kept.served other before isBefore).complete
  cases isAfter
  cases message with
  | true => exact .of_isFirst complete rfl
  | false => exact .of_isFirst (complete.control (by decide)) rfl

theorem Session.Kept.exists_current (isCurrent : session.worker.currentWritter = some id)
    : ∃ writter, session.worker.current = some (id, writter) := by
  obtain ⟨writter, found⟩ := Option.isSome_iff_exists.mp (kept.queues.present id isCurrent)
  exact ⟨writter, by rw [TextMixerWorker.current, isCurrent, Option.bind_some, found]; rfl⟩

/-- A reader in the middle of a turn has a current writer. -/
theorem Session.Kept.isFirst_of_current_none (nobody : session.worker.current = none)
    (found : session.worker.readers.find? id = some reader)
    : reader.isFirst = true := by
  cases first : reader.isFirst with
  | true => rfl
  | false =>
    obtain ⟨writter, isCurrent, -⟩ := (kept.served id reader found).inTurn first
    obtain ⟨text, isText⟩ := kept.exists_current isCurrent
    cases nobody.symm.trans isText

theorem Session.Kept.processText (now : Clock) : (session.step (.processText now)).Kept := by
  have searched := kept.searched now
  simp only [step, TextMixerWorker.processText]
  cases isCurrent : (session.worker.searched now).current with
  | none =>
    refine ⟨⟨fun id isNext => candidate_present isNext, searched.queues.clean⟩,
      fun id reader found => ?_⟩
    simp only [take, append_nil]
    exact .of_isFirst (searched.served id reader found).complete
      (searched.isFirst_of_current_none isCurrent found)
  | some entry =>
    obtain ⟨id, writter⟩ := entry
    have given := fun searchWord => searched.give isCurrent now searchWord
    simp only []
    split
    next => exact given _
    next text found =>
      split_ifs
      · exact (given _).endTurn found _
          (fun other isNext => give_present (candidate_present isNext))
      · exact given _

theorem Session.Kept.step (event : Event) : (session.step event).Kept := by
  cases event with
  | addWritter id name displayName realtime => exact kept.addWritter id name displayName realtime
  | addReader id => exact kept.addReader id
  | writeText id data => exact kept.writeText id data
  | removeWritter id => exact kept.removeWritter id
  | processText now => exact kept.processText now

end

theorem Session.kept_initial : Session.Kept {} :=
  ⟨⟨nofun, nofun⟩, nofun⟩

/-- All the time until the queues are flushed, every reader gets what is taken. -/
theorem Session.kept_run (events : List Event) : (Foundation.run Session.step {} events).Kept :=
  run_invariant (fun _ event kept => kept.step event) kept_initial events

/-! What is taken from the queues. -/

theorem queueOf_of_find? (found : worker.writters.find? id = some writter)
    : worker.queueOf id = writter.textQueue := by
  rw [queueOf, found]
  rfl

theorem queueOf_insert {after : TextMixerWorker}
    (isInsert : after.writters = worker.writters.insert id writter) (other : Nat)
    : after.queueOf other = if other = id then writter.textQueue else worker.queueOf other := by
  rw [queueOf, isInsert, find?_insert]
  split_ifs
  · rfl
  · rfl

theorem queueOf_searched (worker : TextMixerWorker) (now : Clock) (id : Nat)
    : (worker.searched now).queueOf id = worker.queueOf id := by
  have same := congrArg (Option.map TextWritter.textQueue) (untimed_searched worker now id)
  rw [Option.map_map, Option.map_map] at same
  exact congrArg (·.getD []) same

theorem onBehalfOf_map (other id : Nat) (text : List Nat)
    : onBehalfOf other (text.map (fun c => (id, c))) = if other = id then text else [] := by
  split_ifs with same
  · simp [onBehalfOf, filter_map, Function.comp_def, same]
  · simp [onBehalfOf, filter_map, Function.comp_def, Ne.symm same]

theorem onBehalfOf_append (writter : Nat) (chars more : List (Nat × Nat))
    : onBehalfOf writter (chars ++ more) = onBehalfOf writter chars ++ onBehalfOf writter more := by
  simp [onBehalfOf]

/-- What is taken from a queue was at its front. -/
def Takes (before after : TextMixerWorker) (taken : List (Nat × Nat)) : Prop :=
  ∀ writter, onBehalfOf writter taken ++ after.queueOf writter = before.queueOf writter

theorem Takes.of_insert {after : TextMixerWorker} {text : List Nat} {new : TextWritter}
    (found : worker.writters.find? id = some writter)
    (isInsert : after.writters = worker.writters.insert id new)
    (isQueue : text ++ new.textQueue = writter.textQueue)
    : Takes worker after (text.map (fun c => (id, c))) := by
  intro other
  rw [onBehalfOf_map, queueOf_insert isInsert]
  by_cases same : other = id
  · rw [if_pos same, if_pos same, isQueue, same, queueOf_of_find? found]
  · rw [if_neg same, if_neg same]
    rfl

theorem lastIndex_lt {test : Nat → Bool} {bound i : Nat} (found : lastIndex test bound = some i)
    : i < bound := by
  induction bound with
  | zero => cases found
  | succ bound ih =>
    unfold lastIndex at found
    split_ifs at found
    · cases found
      exact Nat.lt_succ_self _
    · exact Nat.lt_succ_of_lt (ih found)

theorem messageDelimiter_le {buffer : List Nat} {length : Nat}
    (found : messageDelimiter buffer = some length) : length ≤ buffer.length := by
  cases buffer with
  | nil => cases found
  | cons first rest =>
    simp only [messageDelimiter] at found
    split_ifs at found with _ _ both
    · cases found
      simp
    · cases found
      simp
    · cases found
      cases rest with
      | nil => cases both.2
      | cons => simp
    · cases found
      simp

theorem messageEnd_le {buffer : List Nat} {length : Nat} (found : messageEnd buffer = some length)
    : length ≤ buffer.length := by
  induction buffer generalizing length with
  | nil => cases found
  | cons first rest ih =>
    unfold messageEnd at found
    split at found
    next delimits =>
      cases found
      exact messageDelimiter_le delimits
    next =>
      obtain ⟨later, isLater, rfl⟩ := Option.map_eq_some_iff.mp found
      exact Nat.succ_le_succ (ih isLater)

theorem cutText_len_le (searchWord delimiterBefore : Bool) (buffer : List Nat)
    : (cutText searchWord delimiterBefore buffer).len ≤ buffer.length := by
  have word : (cutWord searchWord buffer).len ≤ buffer.length := by
    unfold cutWord
    split
    next found =>
      split_ifs at found
      exact (lastIndex_lt found).le
    next => exact Nat.le_refl _
  have sentence : (cutSentence delimiterBefore buffer (cutWord searchWord buffer)).len
      ≤ buffer.length := by
    unfold cutSentence
    split_ifs with _ isSpace
    · cases buffer with
      | nil => exact absurd isSpace (by decide)
      | cons => simp
    · exact word
    · split
      next found =>
        have := lastIndex_lt found
        simp only
        omega
      next => exact word
  unfold cutText cutMessage
  simp only
  split
  next found => exact (messageEnd_le found).trans ((length_take_le' _ _))
  next => exact sentence

theorem takes_give (found : worker.writters.find? id = some writter) (now : Clock)
    (searchWord : Bool)
    : Takes worker (worker.give now searchWord id writter).worker
        (worker.give now searchWord id writter).taken := by
  unfold give
  split_ifs with empty
  · exact fun _ => rfl
  · refine Takes.of_insert found rfl ?_
    have short := cutText_len_le searchWord writter.firstSentenceDelimiterCharFound
      (writter.textQueue.take (size - maxLabelSize))
    rw [length_take] at short
    rw [take_take, Nat.min_eq_left (short.trans (Nat.min_le_left _ _)), take_append_drop]

theorem queueOf_endTurn (found : worker.writters.find? id = some writter) (message : Bool)
    (next : Option Nat) (other : Nat)
    : (worker.endTurn message id writter next).queueOf other = worker.queueOf other := by
  rw [queueOf_insert rfl]
  split_ifs with same
  · rw [same, queueOf_of_find? found]
  · rfl

theorem takes_processText (worker : TextMixerWorker) (now : Clock)
    : Takes worker (worker.processText now).1 (worker.processText now).2 := by
  intro writter
  rw [← queueOf_searched worker now]
  cases isCurrent : (worker.searched now).current with
  | none =>
    simp only [processText, isCurrent]
    rfl
  | some entry =>
    have given := takes_give (current_some isCurrent).2 now
    simp only [processText, isCurrent]
    split
    next => exact given _ writter
    next text found =>
      split_ifs
      · rw [queueOf_endTurn found]
        exact given _ writter
      · exact given _ writter

theorem takes_flushWritter (found : worker.writters.find? id = some writter)
    : Takes worker (worker.flushWritter id writter).1 (worker.flushWritter id writter).2 := by
  unfold flushWritter
  split_ifs
  · exact fun _ => rfl
  · exact Takes.of_insert found rfl (prefix_iff_eq_append.mp <| take_prefix _ _)

namespace Session

theorem Conserved.take {result : TextMixerWorker × List (Nat × Nat)}
    (conserved : session.Conserved) (takes : Takes session.worker result.1 result.2)
    : (session.take result).Conserved := by
  intro id writter
  rw [Session.take, onBehalfOf_append, append_assoc, takes writter]
  exact conserved id writter

theorem Conserved.of_queueOf (conserved : session.Conserved)
    (same : ∀ writter, worker.queueOf writter = session.worker.queueOf writter)
    : Conserved { session with worker } := by
  intro id writter
  rw [same]
  exact conserved id writter

/-- A text that is written fits into the queue, and the queue of a writer that goes is empty. -/
def Fits (session : Session) : Event → Prop
  | .writeText id data =>
    (session.worker.queueOf id).length + (data.filter (· ≠ bom)).length ≤ queueSize
  | .removeWritter id => session.worker.queueOf id = []
  | _ => True

theorem Conserved.writeText (conserved : session.Conserved) {data : List Nat}
    (fits : session.Fits (.writeText id data)) : (session.step (.writeText id data)).Conserved := by
  cases found : session.worker.writters.find? id with
  | none =>
    simp only [step, TextMixerWorker.writeText, found]
    exact conserved
  | some old =>
    simp only [Fits, queueOf_of_find? found] at fits
    simp only [step, TextMixerWorker.writeText, found]
    intro reader writter
    have all := @foldl_pushText (stretches [] data) old.textQueue
      (by rw [flatten_stretches]; exact fits)
    rw [flatten_stretches, nil_append] at all
    simp only [owe, all]
    rw [queueOf_insert rfl]
    by_cases same : writter = id
    · have before := conserved reader id
      rw [queueOf_of_find? found] at before
      rw [if_pos same, same, Function.update_self, ← append_assoc, before]
    · rw [if_neg same, Function.update_of_ne same]
      exact conserved reader writter

theorem Conserved.addReader (conserved : session.Conserved)
    : (session.step (.addReader id)).Conserved := by
  cases found : session.worker.readers.find? id with
  | some _ =>
    simp only [step, TextMixerWorker.addReader, found]
    exact conserved
  | none =>
    simp only [step, TextMixerWorker.addReader, found]
    intro reader writter
    by_cases same : reader = id
    · simp only [same, Function.update_self]
      rfl
    · simp only [Function.update_of_ne same]
      exact conserved reader writter

theorem Conserved.step (conserved : session.Conserved) {event : Event}
    (fits : session.Fits event) : (session.step event).Conserved := by
  cases event with
  | addWritter id name displayName realtime =>
    refine conserved.of_queueOf (fun writter => ?_)
    unfold addWritter
    split
    next => rfl
    next absent =>
      rw [queueOf_insert rfl]
      split_ifs with same
      · rw [same, queueOf, absent]
        rfl
      · rfl
  | addReader id => exact conserved.addReader
  | writeText id data => exact conserved.writeText fits
  | removeWritter id =>
    refine conserved.of_queueOf (fun writter => ?_)
    unfold removeWritter
    split
    next => rfl
    next =>
      simp only [queueOf, find?_erase]
      split_ifs with same
      · rw [same]
        exact fits.symm
      · rfl
  | processText now => exact conserved.take (takes_processText _ now)

theorem conserved_run {events : List Event} (fits : EachStep Session.step Fits {} events)
    : (Foundation.run Session.step {} events).Conserved :=
  run_invariant_of_eachStep (fun _ _ conserved fits => conserved.step fits)
    (fun _ _ => rfl) fits

end Session

/-- At most as many characters are left as the writer has sent. -/
theorem leftFor_turnOf_le (writter : Nat) (sent : List Sent)
    : (turnOf sent).leftFor writter ≤ (onBehalfOf writter (charsOf sent)).length := by
  induction sent using List.reverseRecOn with
  | nil => exact Nat.zero_le _
  | append_singleton before piece ih =>
    rw [turnOf_append, charsOf_append, onBehalfOf_append, length_append]
    cases piece with
    | control text | label id name => simp [Turn.next, Turn.leftFor]
    | char id taken shown =>
      by_cases own : id = writter
      · have one : (onBehalfOf writter (charsOf [.char id taken shown])).length = 1 := by
          simp [onBehalfOf, charsOf, Sent.char?, own]
        rw [one]
        simp only [Turn.next, Turn.leftFor, own] at ih ⊢
        split_ifs <;> simp_all <;> omega
      · simp [Turn.next, Turn.leftFor, own]

/-- In the middle of a turn a reader counts no more characters than one writer has sent to it. -/
def Session.Counted (session : Session) : Prop :=
  ∀ id reader, session.worker.readers.find? id = some reader → reader.isFirst = false →
    ∃ writter, reader.displayed ≤ (onBehalfOf writter (charsOf reader.sent)).length

theorem Session.Kept.counted (kept : session.Kept) : session.Counted := by
  intro id reader found middle
  obtain ⟨writter, -, inTurn⟩ := (kept.served id reader found).inTurn middle
  have left := leftFor_turnOf_le writter reader.sent
  rw [inTurn.turn, Turn.leftFor, if_pos rfl] at left
  exact ⟨writter, left⟩

/-! FlushText. -/

theorem Queues.flushWritter (queues : Queues current worker.writters)
    (found : worker.writters.find? id = some writter)
    : Queues current (worker.flushWritter id writter).1.writters := by
  unfold TextMixerWorker.flushWritter
  split_ifs
  · exact queues
  · exact queues.insert id (fun inside => queues.clean id writter found (mem_of_mem_drop inside))

def AllFirst (worker : TextMixerWorker) : Prop :=
  ∀ id reader, worker.readers.find? id = some reader → reader.isFirst = true

/-- A round for the current writer. If it has text then all readers are at the beginning of a
turn behind it.
-/
theorem Session.Kept.flushWritter (kept : session.Kept)
    (isCurrent : session.worker.current = some (id, writter))
    : (session.take (session.worker.flushWritter id writter)).Kept
      ∧ (writter.textQueue ≠ [] → AllFirst (session.worker.flushWritter id writter).1) := by
  obtain ⟨isId, found⟩ := current_some isCurrent
  have queues := kept.queues.flushWritter found
  unfold TextMixerWorker.flushWritter at queues ⊢
  by_cases empty : writter.textQueue = []
  · simp only [if_pos empty, take, append_nil]
    exact ⟨kept, absurd empty⟩
  · simp only [if_neg empty] at queues ⊢
    refine ⟨⟨queues, fun other reader isReader => ?_⟩, fun _ other reader isReader => ?_⟩
    · obtain ⟨middle, isMiddle, isAfter⟩ := of_toReaders isReader
      obtain ⟨before, isBefore, isSent⟩ := of_toReaders isMiddle
      have served := (kept.served other before isBefore).send (.inr isId)
      cases isAfter
      cases isSent
      exact .of_isFirst ((served writter.label _).complete.control (by decide)) rfl
    · obtain ⟨middle, -, isAfter⟩ := of_toReaders isReader
      cases isAfter
      rfl

theorem Session.Kept.nextToFlush (kept : session.Kept)
    (first : AllFirst session.worker) (now : Clock)
    : Session.Kept { session with worker := session.worker.nextToFlush now } := by
  refine ⟨⟨fun id isChosen => ?_, kept.queues.clean⟩, fun id reader found =>
    .of_isFirst (kept.served id reader found).complete (first id reader found)⟩
  rcases chooseToFlush_some isChosen with impossible | ⟨writter, member, -⟩
  · cases impossible
  · exact Option.isSome_of_eq_some (find?_eq_some_iff.mpr member)

variable {rounds : Nat} {result : TextMixerWorker × List (Nat × Nat)}

theorem flushLoop_round (isCurrent : worker.current = some (id, writter))
    (ends : flushLoop now (rounds + 1) worker = some result)
    : ∃ more, flushLoop now rounds ((worker.flushWritter id writter).1.nextToFlush now)
        = some (result.1, more)
      ∧ result.2 = (worker.flushWritter id writter).2 ++ more := by
  rw [flushLoop, isCurrent] at ends
  obtain ⟨⟨last, more⟩, isLast, isResult⟩ := Option.map_eq_some_iff.mp ends
  cases isResult
  exact ⟨more, isLast, rfl⟩

theorem flushLoop_nobody (nobody : worker.current = none)
    (ends : flushLoop now rounds worker = some result) : result = (worker, []) := by
  cases rounds with
  | zero => cases ends
  | succ rounds =>
    rw [flushLoop, nobody] at ends
    exact (Option.some.inj ends).symm

theorem takes_flushLoop (ends : flushLoop now rounds worker = some result)
    : Takes worker result.1 result.2 := by
  induction rounds generalizing worker result with
  | zero => cases ends
  | succ rounds ih =>
    cases isCurrent : worker.current with
    | none =>
      rw [flushLoop_nobody isCurrent ends]
      exact fun _ => rfl
    | some entry =>
      obtain ⟨more, later, isTaken⟩ := flushLoop_round isCurrent ends
      intro id
      have rest : _ = (worker.flushWritter entry.1 entry.2).1.queueOf id := ih later id
      rw [isTaken, onBehalfOf_append, append_assoc, rest]
      exact takes_flushWritter (current_some isCurrent).2 id

/-- The loop, from a state in which all readers wait for a new turn. -/
theorem Session.Kept.flushLoop (kept : session.Kept)
    (first : AllFirst session.worker)
    (ends : TextMixerWorker.flushLoop now rounds session.worker = some result)
    : (session.take result).Kept := by
  induction rounds generalizing session result with
  | zero => cases ends
  | succ rounds ih =>
    cases isCurrent : session.worker.current with
    | none =>
      rw [flushLoop_nobody isCurrent ends]
      simp only [take, append_nil]
      exact kept
    | some entry =>
      obtain ⟨id, writter⟩ := entry
      obtain ⟨more, later, isTaken⟩ := flushLoop_round isCurrent ends
      have flushed := kept.flushWritter isCurrent
      have firstAfter : AllFirst (session.worker.flushWritter id writter).1 := by
        by_cases empty : writter.textQueue = []
        · rw [TextMixerWorker.flushWritter, if_pos empty]
          exact first
        · exact flushed.2 empty
      have all := ih (flushed.1.nextToFlush firstAfter now) firstAfter later
      simp only [take, append_assoc, ← isTaken] at all
      exact all

/-- The current writer does not lose its turn without a separator: it has text, or nobody has
text, or no reader is in the middle of a turn.
-/
def TurnEnds (worker : TextMixerWorker) : Prop :=
  worker.currentWritter = none
  ∨ worker.current.any (fun found => found.2.textQueue ≠ [])
  ∨ (∀ entry ∈ worker.writters.entries, entry.2.textQueue = [])
  ∨ ∀ entry ∈ worker.readers.entries, entry.2.isFirst = true

theorem flushLoop_flushText (now : Clock) (worker : TextMixerWorker)
    : flushLoop now worker.flushRounds worker = some (worker.flushText now) :=
  (Option.some_get _).symm

theorem flushWritter_empty (empty : writter.textQueue = [])
    : worker.flushWritter id writter = (worker, []) := by
  rw [flushWritter, if_pos empty]

theorem chooseToFlush_none {entries : List (Nat × TextWritter)} {chosen : Option Nat × Nat}
    (nobody : (chooseToFlush now entries chosen).1 = none)
    : chosen.1 = none ∧ ∀ entry ∈ entries, entry.2.textQueue = [] := by
  induction entries generalizing chosen with
  | nil => exact ⟨nobody, nofun⟩
  | cons entry rest ih =>
    obtain ⟨id, text⟩ := entry
    obtain ⟨current, maxWaitingTime⟩ := chosen
    unfold chooseToFlush at nobody
    split_ifs at nobody with empty
    · obtain ⟨start, others⟩ := ih nobody
      exact ⟨start, forall_mem_cons.mpr ⟨empty, others⟩⟩
    · cases (ih nobody).1
    · cases (Option.or_eq_none_iff.mp (ih nobody).1).2

/-- While somebody has text there is a next one. -/
theorem nextToFlush_current {entry : Nat × TextWritter} (member : entry ∈ worker.writters.entries)
    (waits : entry.2.textQueue ≠ []) (now : Clock)
    : ∃ id writter, (worker.nextToFlush now).current = some (id, writter) := by
  cases isChosen : (chooseToFlush now worker.writters.entries (none, 0)).1 with
  | none => exact absurd ((chooseToFlush_none isChosen).2 entry member) waits
  | some id =>
    rcases chooseToFlush_some isChosen with impossible | ⟨writter, isWritter, -⟩
    · cases impossible
    · refine ⟨id, writter, ?_⟩
      have found := find?_eq_some_iff.mpr isWritter
      simp only [current, nextToFlush, isChosen, Option.bind_some, found, Option.map_some]

theorem Session.Kept.flush_faithful (kept : session.Kept) (conserved : session.Conserved)
    (now : Clock) (turnEnds : TurnEnds session.worker) : (session.flush now).Faithful := by
  have ends := flushLoop_flushText now session.worker
  unfold flush
  generalize session.worker.flushText now = result at ends ⊢
  have after : (session.take result).Conserved := conserved.take (takes_flushLoop ends)
  rcases turnEnds with nobody | waits | empty | first
  · have isCurrent : session.worker.current = none := by rw [current, nobody]; rfl
    rw [flushLoop_nobody isCurrent ends] at after ⊢
    simp only [take, append_nil] at after ⊢
    exact kept.faithful after
  · obtain ⟨⟨id, writter⟩, isCurrent, isText⟩ := (Option.any_eq_true _ _).mp waits
    obtain ⟨flushed, first⟩ := kept.flushWritter isCurrent
    have first := first (of_decide_eq_true isText)
    obtain ⟨more, later, isTaken⟩ := flushLoop_round isCurrent ends
    have all := (flushed.nextToFlush first now).flushLoop first later
    simp only [take, append_assoc, ← isTaken] at all
    exact all.faithful after
  · have nobody : (session.worker.nextToFlush now).current = none := by
      cases isCurrent : (session.worker.nextToFlush now).current with
      | none => rfl
      | some found =>
        have member := find?_eq_some_iff.mp (current_some isCurrent).2
        exact absurd (empty found member) (nextToFlush_waits isCurrent)
    have taken : result.1.readers = session.worker.readers ∧ result.2 = [] := by
      cases isCurrent : session.worker.current with
      | none =>
        rw [flushLoop_nobody isCurrent ends]
        exact ⟨rfl, rfl⟩
      | some found =>
        obtain ⟨id, writter⟩ := found
        have isEmpty :=
          empty (id, writter) (find?_eq_some_iff.mp (current_some isCurrent).2)
        obtain ⟨more, later, isTaken⟩ := flushLoop_round isCurrent ends
        rw [flushWritter_empty isEmpty] at later isTaken
        obtain ⟨isLast, nothing⟩ := Prod.mk.inj (flushLoop_nobody nobody later)
        exact ⟨by rw [isLast]; rfl, by rw [isTaken, nothing]; rfl⟩
    intro id reader found
    have found : result.1.readers.find? id = some reader := found
    rw [taken.1] at found
    have complete := (kept.served id reader found).complete
    refine ⟨fun writter => ⟨?_, after id writter⟩, complete.attributed⟩
    simp only [take, taken.2, append_nil]
    exact complete.onBehalfOf writter
  · exact (kept.flushLoop (fun id reader found =>
      first (id, reader) (find?_eq_some_iff.mp found)) ends).faithful after

-- A round gives what is taken to a reader, and takes nothing back.

theorem charsOf_processAll {text : List Nat} (clean : bom ∉ text) (id displayed : Nat)
    : charsOf (processAll id displayed text).1 = text.map (fun c => (id, c)) := by
  induction text generalizing displayed with
  | nil => rfl
  | cons c rest ih =>
    obtain ⟨visible, clean⟩ := not_or.mp (mt mem_cons.mpr clean)
    simp only [processAll, charsOf_append, ih clean, process_visible (Ne.symm visible)]
    rfl

theorem TextReader.send_sent (id : Nat) (label : List Nat) {text : List Nat} (clean : bom ∉ text)
    (reader : TextReader)
    : ∃ more, (reader.send id label text).sent = reader.sent ++ more
      ∧ charsOf more = text.map (fun c => (id, c)) := by
  unfold TextReader.send
  cases reader.isFirst with
  | true => exact ⟨_, append_assoc _ _ _, charsOf_processAll clean _ _⟩
  | false => exact ⟨_, rfl, charsOf_processAll clean _ _⟩

theorem flushWritter_sent {key : Nat} (found : worker.readers.find? key = some reader) (id : Nat)
    (clean : bom ∉ writter.textQueue)
    : ∃ after more, (worker.flushWritter id writter).1.readers.find? key = some after
        ∧ after.sent = reader.sent ++ more
        ∧ charsOf more = (worker.flushWritter id writter).2 := by
  unfold flushWritter
  split_ifs with empty
  · exact ⟨reader, [], found, (append_nil _).symm, rfl⟩
  · simp only [sendAll, toReaders, find?_mapValues, found, Option.map_some]
    obtain ⟨more, isSent, chars⟩ := send_sent id writter.label
      (fun inside => clean (mem_of_mem_take inside)) reader
    refine ⟨_, more ++ [.control [lineSeparator]], rfl, ?_, ?_⟩
    · rw [← append_assoc, ← isSent]
      rfl
    · rw [charsOf_append, chars]
      exact append_nil _

theorem flushLoop_sent {key : Nat} (found : worker.readers.find? key = some reader)
    (queues : Queues none worker.writters)
    (ends : flushLoop now rounds worker = some result)
    : ∃ after more, result.1.readers.find? key = some after ∧ after.sent = reader.sent ++ more
        ∧ charsOf more = result.2 := by
  induction rounds generalizing worker reader result with
  | zero => cases ends
  | succ rounds ih =>
    cases isCurrent : worker.current with
    | none =>
      rw [flushLoop_nobody isCurrent ends]
      exact ⟨reader, [], found, (append_nil _).symm, rfl⟩
    | some entry =>
      obtain ⟨id, writter⟩ := entry
      have isWritter := (current_some isCurrent).2
      obtain ⟨more, later, isTaken⟩ := flushLoop_round isCurrent ends
      obtain ⟨middle, first, isMiddle, isFirst, charsFirst⟩ :=
        flushWritter_sent found id (queues.clean id writter isWritter)
      have isNext : ((worker.flushWritter id writter).1.nextToFlush now).readers.find? key
          = some middle := isMiddle
      obtain ⟨after, second, isAfter, isSecond, charsSecond⟩ :=
        ih isNext (queues.flushWritter isWritter) later
      refine ⟨after, first ++ second, isAfter, ?_, ?_⟩
      · rw [isSecond, isFirst, append_assoc]
      · rw [charsOf_append, charsFirst, charsSecond, isTaken]

/-- In the middle of a turn there is no label before the characters of a writer. -/
theorem TextReader.send_middle (middle : reader.isFirst = false) (id : Nat) (label : List Nat)
    {c : Nat} (visible : c ≠ bom) (rest : List Nat)
    : ∃ shown more, (reader.send id label (c :: rest)).sent
      = reader.sent ++ .char id c shown :: more := by
  refine ⟨if c = backspace ∧ reader.displayed = 0 then erasureRepl else c,
    (processAll id (TextReader.process id reader.displayed c).2 rest).1, ?_⟩
  simp only [TextReader.send, middle, Bool.false_eq_true, if_false, processAll,
    process_visible visible]
  rfl

theorem flushWritter_middle {key : Nat} (found : worker.readers.find? key = some reader)
    (middle : reader.isFirst = false) (id : Nat) (waits : writter.textQueue ≠ [])
    (clean : bom ∉ writter.textQueue)
    : ∃ after c shown more, (worker.flushWritter id writter).1.readers.find? key = some after
        ∧ after.sent = reader.sent ++ .char id c shown :: more := by
  obtain ⟨c, rest, isQueue⟩ := exists_cons_of_ne_nil waits
  have visible : c ≠ bom := fun same => clean (by rw [isQueue, ← same]; exact .head _)
  obtain ⟨shown, more, isSent⟩ := send_middle middle id writter.label visible
    (rest.take (size - maxLabelSize - 1))
  have isBuffer : writter.textQueue.take (size - maxLabelSize)
      = c :: rest.take (size - maxLabelSize - 1) := by
    rw [isQueue]
    rfl
  rw [flushWritter, if_neg waits]
  simp only [sendAll, toReaders, find?_mapValues, found, Option.map_some, isBuffer]
  refine ⟨_, c, shown, more ++ [.control [lineSeparator]], rfl, ?_⟩
  rw [← cons_append, ← append_assoc, ← isSent]
  rfl

/-- A writer that gets the turn from one without text speaks under the label of that one. -/
theorem Session.Kept.flush_unfaithful (kept : session.Kept) (now : Clock)
    (goesOn : ¬ TurnEnds session.worker) : ¬ (session.flush now).Faithful := by
  have ends := flushLoop_flushText now session.worker
  unfold flush
  generalize session.worker.flushText now = result at ends ⊢
  simp only [TurnEnds, not_or, not_forall] at goesOn
  obtain ⟨someone, waits, ⟨other, isOther, text⟩, ⟨key, reader⟩, isReader, middle⟩ := goesOn
  have isReader := find?_eq_some_iff.mpr isReader
  have middle : reader.isFirst = false := Bool.eq_false_iff.mpr middle
  obtain ⟨holder, isHolder, inTurn⟩ := (kept.served key reader isReader).inTurn middle
  obtain ⟨writter, isCurrent⟩ := kept.exists_current isHolder
  have isWritter := (current_some isCurrent).2
  have empty : writter.textQueue = [] := by
    by_contra some
    exact waits (by rw [isCurrent]; exact decide_eq_true some)
  -- The first round leaves the readers alone.
  obtain ⟨more, later, -⟩ := flushLoop_round isCurrent ends
  rw [flushWritter_empty empty] at later
  obtain ⟨next, nextWritter, isNext⟩ := nextToFlush_current isOther text now
  have nextWaits := nextToFlush_waits isNext
  have isNextWritter := (current_some isNext).2
  have different : next ≠ holder := by
    intro same
    rw [same] at isNextWritter
    cases isWritter.symm.trans isNextWritter
    exact nextWaits empty
  revert later
  cases session.worker.queued + _ with
  | zero => exact nofun
  | succ rounds =>
    intro later
    obtain ⟨rest, last, -⟩ := flushLoop_round isNext later
    have isReaderNext : (session.worker.nextToFlush now).readers.find? key = some reader :=
      isReader
    obtain ⟨misled, c, shown, behind, isMisled, isSent⟩ := flushWritter_middle isReaderNext
      middle next nextWaits (kept.queues.clean next nextWritter isNextWritter)
    have queues : Queues none (session.worker.nextToFlush now).writters :=
      ⟨nofun, kept.queues.clean⟩
    obtain ⟨after, tail, isAfter, isWhole, -⟩ :=
      flushLoop_sent (show (TextMixerWorker.nextToFlush _ now).readers.find? key = _ from isMisled)
        (queues.flushWritter isNextWritter) last
    intro faithful
    have attributed := (faithful key after isAfter).2
    rw [isWhole, isSent] at attributed
    have fits := attributed.of_append reader.sent _ behind rfl
    exact different (Option.some.inj (fits.1.symm.trans inTurn.label))

/-- After a run in which every text fits and no text goes with its writer, a flush keeps every
reader faithful if and only if the current writer does not lose its turn without a separator.
-/
theorem Session.flush_faithful_iff {events : List Event}
    (fits : EachStep Session.step Fits {} events) (now : Clock)
    : let session := Foundation.run Session.step {} events
      session.Counted ∧ ((session.flush now).Faithful ↔ TurnEnds session.worker) := by
  have kept := kept_run events
  refine ⟨kept.counted, fun faithful => ?_, kept.flush_faithful (conserved_run fits) now⟩
  by_contra goesOn
  exact kept.flush_unfaithful now goesOn faithful

instance (worker : TextMixerWorker) : Decidable (TurnEnds worker) := by
  unfold TurnEnds
  infer_instance

/-- A clock that counts microseconds. -/
def Clock.reading (time : QWORD) : Clock where
  time
  getDifTime since := time - since
  isZeroTime since := since = 0

/-- The first writer has said "hi" and has the turn when a writer writes "yo". -/
def heldTurn (writter : Nat) : List Event :=
  [.addReader 9, .addWritter 1 [0x41] [] true, .addWritter 2 [0x42] [] true,
    .writeText 1 [0x68, 0x69], .processText (.reading 1000000), .processText (.reading 2000000),
    .writeText writter [0x79, 0x6F]]

def interrupted : List Event := heldTurn 2

theorem Session.flush_faithful_iff_heldTurn
    : EachStep Session.step Fits {} (heldTurn 1)
      ∧ ((Foundation.run Session.step {} (heldTurn 1)).flush (.reading 3000000)).Faithful := by
  have fits : EachStep Session.step Fits {} (heldTurn 1) :=
    ⟨trivial, trivial, trivial, by unfold Fits; decide +kernel, trivial, trivial,
      by unfold Fits; decide +kernel, trivial⟩
  exact ⟨fits, (flush_faithful_iff fits (.reading 3000000)).2.mpr (by decide +kernel)⟩

/-- The reader sees "[A] hiyo" and no label of the second writer. -/
theorem Session.flush_interrupted
    : let session := (Foundation.run Session.step {} interrupted).flush (.reading 3000000)
      (session.worker.readers.find? 9).map (fun reader => reader.sent.flatMap Sent.render)
        = some [bom, 0x5B, 0x41, 0x5D, 0x20, 0x68, 0x69, 0x79, 0x6F, lineSeparator]
      ∧ ¬ session.Faithful := by
  refine ⟨by decide +kernel, ?_⟩
  have goesOn : ¬ TurnEnds (Foundation.run Session.step {} interrupted).worker := by decide +kernel
  exact (kept_run interrupted).flush_unfaithful (.reading 3000000) goesOn

end MediaServer.Text.TextMixerWorker
