import MediaServer.Foundation.Traversal
import MediaServer.Rtp.Packet

/-! `TextMixerWorker`: writers take turns, and what they write goes to all readers, with a
label at the beginning of each turn.
-/

namespace MediaServer.Text

open Foundation

namespace TextMixerWorker

def bom : Nat := 0xFEFF

def carriageReturn : Nat := 0x0D

def lineFeed : Nat := 0x0A

def bell : Nat := 0x07

def backspace : Nat := 0x08

def erasureRepl : Nat := 0x58

def lineSeparator : Nat := 0x2028

def paragraphSeparator : Nat := 0x2029

def space : Nat := 0x20

def maxLabelNameSize : Nat := 20

def maxLabelSize : Nat := maxLabelNameSize + 1 + 2

/-- The queue of a writer holds so many characters. -/
def queueSize : Nat := 1024

/-- The buffer for what is sent at once. -/
def size : Nat := 1024

def maxWaitingTimeLimit : Nat := 20000

def timeExtension : Nat := 7000

def maxCurrentParticipantInactiveLimit : Nat := 7000

structure TextWritter where
  name : List Nat
  displayName : List Nat
  realtime : Bool
  textQueue : List Nat := []
  waitingSince : QWORD := 0
  firstSentenceDelimiterCharFound : Bool := false

def TextWritter.label (writter : TextWritter) : List Nat :=
  if writter.displayName = [] then writter.name else writter.displayName

/-- What the time functions of the toolkit give at one moment. -/
structure Clock where
  time : QWORD
  getDifTime : QWORD → QWORD
  isZeroTime : QWORD → Bool

/-- Milliseconds since a time, in a word of 32 bits. -/
def waited (since : QWORD) (now : Clock) : Nat := (now.getDifTime since / 1000).toNat % 4294967296

/-- A writer, without the time since when it waits. -/
def TextWritter.untimed (writter : TextWritter) : TextWritter := { writter with waitingSince := 0 }

/-! Readers. -/

/-- What is sent to a reader: signs of the mixer itself, labels, and the characters of a
writer, each with the one that was taken from the queue.
-/
inductive Sent
  | control (text : List Nat)
  | label (writter : Nat) (name : List Nat)
  | char (writter taken sent : Nat)

def Sent.render : Sent → List Nat
  | .control text => text
  | .label _ name => 0x5B :: name.take maxLabelNameSize ++ [0x5D, 0x20]
  | .char _ _ sent => [sent]

structure TextReader where
  isFirst : Bool := true
  displayed : Nat := 0
  sent : List Sent := []

namespace TextReader

def writeControl (reader : TextReader) (text : List Nat) : TextReader :=
  { reader with sent := reader.sent ++ [.control text] }

def process (id displayed c : Nat) : List Sent × Nat :=
  if c = bom then ([], displayed)
  else if c = backspace then
    if displayed > 0 then ([.char id c backspace], displayed - 1)
    else ([.char id c erasureRepl], displayed)
  else if c = bell then ([.char id c bell], displayed)
  else ([.char id c c], displayed + 1)

def processAll (id : Nat) : Nat → List Nat → List Sent × Nat
  | displayed, [] => ([], displayed)
  | displayed, c :: rest =>
    let (first, after) := process id displayed c
    let (others, last) := processAll id after rest
    (first ++ others, last)

def send (id : Nat) (label : List Nat) (text : List Nat) (reader : TextReader) : TextReader :=
  let begun : TextReader :=
    if reader.isFirst then
      { isFirst := false, displayed := 0, sent := reader.sent ++ [.label id label] }
    else reader
  let (chars, displayed) := processAll id begun.displayed text
  { begun with displayed, sent := begun.sent ++ chars }

/-- The end of a turn. -/
def nextIsFirst (reader : TextReader) : TextReader :=
  { reader with isFirst := true, displayed := 0 }

end TextReader

/-! How much of a queue is taken. -/

def isSentenceDelimiter (c : Nat) : Bool := c = 0x3F ∨ c = 0x21 ∨ c = 0x2E

def lastIndex (test : Nat → Bool) : Nat → Option Nat
  | 0 => none
  | bound + 1 => if test bound then some bound else lastIndex test bound

def messageDelimiter : List Nat → Option Nat
  | [] => none
  | first :: rest =>
    if first = lineSeparator then some 1
    else if first = paragraphSeparator then some 1
    else if first = carriageReturn ∧ rest.head? = some lineFeed then some 2
    else if first = lineFeed then some 1
    else none

def messageEnd : List Nat → Option Nat
  | [] => none
  | first :: rest =>
    match messageDelimiter (first :: rest) with
    | some length => some length
    | none => (messageEnd rest).map (· + 1)

/-- What is taken of a text, and whether delimiters were found. -/
structure Cut where
  len : Nat
  word : Bool := false
  sentence : Bool := false
  message : Bool := false
  firstSentenceDelimiter : Bool := false

def cutWord (search : Bool) (buffer : List Nat) : Cut :=
  match if search then lastIndex (fun i => buffer.getD i 0 = space) buffer.length else none with
  | some i => { len := i, word := true }
  | none => { len := buffer.length }

def cutSentence (delimiterBefore : Bool) (buffer : List Nat) (cut : Cut) : Cut :=
  if delimiterBefore then
    if buffer.getD 0 0 = space then { cut with len := 1, sentence := true } else cut
  else
    match lastIndex
        (fun i => isSentenceDelimiter (buffer.getD i 0) ∧ buffer.getD (i + 1) 0 = space)
        (cut.len - 1) with
    | some i => { cut with len := i + 1, sentence := true }
    | none => cut

def cutMessage (buffer : List Nat) (cut : Cut) : Cut :=
  let cut := { cut with
    firstSentenceDelimiter := cut.len > 0 ∧ isSentenceDelimiter (buffer.getD (cut.len - 1) 0) }
  match messageEnd (buffer.take cut.len) with
  | some len => { cut with len, message := true }
  | none => cut

def cutText (searchWord delimiterBefore : Bool) (buffer : List Nat) : Cut :=
  cutMessage buffer (cutSentence delimiterBefore buffer (cutWord searchWord buffer))

end TextMixerWorker

open TextMixerWorker in
structure TextMixerWorker where
  writters : OrderedMap Nat TextWritter := .empty
  readers : OrderedMap Nat TextReader := .empty
  currentWritter : Option Nat := none

namespace TextMixerWorker

variable (worker : TextMixerWorker)

def current : Option (Nat × TextWritter) :=
  worker.currentWritter.bind (fun id => (worker.writters.find? id).map (id, ·))

def toReaders (change : TextReader → TextReader) : TextMixerWorker :=
  { worker with readers := worker.readers.mapValues (fun _ reader => change reader) }

/-! Writers and readers come and go. -/

def addWritter (id : Nat) (name displayName : List Nat) (realtime : Bool) : TextMixerWorker :=
  match worker.writters.find? id with
  | some _ => worker
  | none =>
    { worker with
      writters := worker.writters.insert id { name, displayName, realtime } }

def pushText (queue text : List Nat) : List Nat :=
  if queueSize < queue.length + text.length then queue else queue ++ text

def stretches : List Nat → List Nat → List (List Nat)
  | [], [] => []
  | stretch, [] => [stretch]
  | stretch, c :: rest =>
    if c = bom then if stretch = [] then stretches [] rest else stretch :: stretches [] rest
    else stretches (stretch ++ [c]) rest

def writeText (id : Nat) (data : List Nat) : TextMixerWorker :=
  match worker.writters.find? id with
  | none => worker
  | some writter =>
    { worker with
      writters := worker.writters.insert id
        { writter with textQueue := (stretches [] data).foldl pushText writter.textQueue } }

def removeWritter (id : Nat) : TextMixerWorker :=
  match worker.writters.find? id with
  | none => worker
  | some _ =>
    let left :=
      if worker.currentWritter = some id then
        { worker.toReaders (fun reader =>
            { reader.writeControl [carriageReturn, lineFeed] with isFirst := true }) with
          currentWritter := none }
      else worker
    { left with writters := worker.writters.erase id }

def addReader (id : Nat) : TextMixerWorker :=
  match worker.readers.find? id with
  | some _ => worker
  | none =>
    { worker with readers := worker.readers.insert id (TextReader.writeControl {} [bom]) }

/-! ProcessText. -/

/-- What the loop over the writers finds. -/
structure Candidate where
  next : Option Nat := none
  maxWaitingTime : Nat := 0
  switch : Bool := false

/-- The loop over the writers. It ends at a writer that is not to wait. -/
def search (current : Option Nat) (now : Clock)
    : List (Nat × TextWritter) → Candidate → List (Nat × TextWritter) × Candidate
  | [], candidate => ([], candidate)
  | (id, text) :: rest, candidate =>
    if current = some id ∨ text.textQueue = [] then
      let (others, found) := search current now rest candidate
      ((id, text) :: others, found)
    else if !text.realtime then
      ((id, text) :: rest, { candidate with next := some id, switch := true })
    else
      let (text, candidate) : TextWritter × Candidate :=
        if !now.isZeroTime text.waitingSince then
          if waited text.waitingSince now > candidate.maxWaitingTime then
            (text,
              { candidate with
                maxWaitingTime := waited text.waitingSince now
                next := some id })
          else (text, candidate)
        else ({ text with waitingSince := now.time }, candidate)
      let candidate := { candidate with next := candidate.next.or (some id) }
      let (others, found) := search current now rest candidate
      ((id, text) :: others, found)

/-- The loop over the writers changes nothing but since when they wait. -/
theorem untimed_search (current : Option Nat) (now : Clock) (entries : List (Nat × TextWritter))
    (candidate : Candidate)
    : (search current now entries candidate).1.map (fun entry => (entry.1, entry.2.untimed))
      = entries.map (fun entry => (entry.1, entry.2.untimed)) := by
  induction entries generalizing candidate with
  | nil => rfl
  | cons entry rest ih =>
    unfold search
    split_ifs
    · exact congrArg ((entry.1, entry.2.untimed) :: ·) (ih _)
    · rfl
    · exact congrArg ((entry.1, entry.2.untimed) :: ·) (ih _)
    · exact congrArg ((entry.1, entry.2.untimed) :: ·) (ih _)
    · exact congrArg ((entry.1, entry.2.untimed) :: ·) (ih _)

theorem map_fst_search (current : Option Nat) (now : Clock) (entries : List (Nat × TextWritter))
    (candidate : Candidate)
    : (search current now entries candidate).1.map Prod.fst = entries.map Prod.fst := by
  have same := congrArg (List.map Prod.fst) (untimed_search current now entries candidate)
  rw [List.map_map, List.map_map] at same
  exact same

def sendAll (id : Nat) (writter : TextWritter) (text : List Nat) : TextMixerWorker :=
  worker.toReaders (TextReader.send id writter.label text)

/-- What the current writer gives, with the characters that were taken from its queue, whether
it has to give up its turn, and whether a delimiter or a message delimiter was found.
-/
structure Given where
  worker : TextMixerWorker
  taken : List (Nat × Nat) := []
  switch : Bool
  delimiter : Bool := false
  message : Bool := false

variable (now : Clock)

def give (searchWord : Bool) (id : Nat) (writter : TextWritter) : Given :=
  let buffer := writter.textQueue.take (size - maxLabelSize)
  if writter.textQueue = [] then
    { worker
      switch := waited writter.waitingSince now > maxCurrentParticipantInactiveLimit }
  else
    let cut := cutText searchWord writter.firstSentenceDelimiterCharFound buffer
    let sent := worker.sendAll id writter (buffer.take cut.len)
    { worker :=
        { sent with
          writters := worker.writters.insert id
            { writter with
              textQueue := writter.textQueue.drop cut.len
              waitingSince := now.time
              firstSentenceDelimiterCharFound := cut.firstSentenceDelimiter } }
      taken := (buffer.take cut.len).map (fun c => (id, c))
      switch := !writter.realtime
      delimiter := cut.word || cut.sentence || cut.message
      message := cut.message }

def endTurn (message : Bool) (id : Nat) (writter : TextWritter) (next : Option Nat)
    : TextMixerWorker :=
  { worker.toReaders (fun reader =>
      (if message then reader else reader.writeControl [lineSeparator]).nextIsFirst) with
    writters := worker.writters.insert id { writter with waitingSince := 0 }
    currentWritter := next }

def candidate : Candidate :=
  (search worker.currentWritter now worker.writters.entries {}).2

def searched : TextMixerWorker :=
  { worker with
    writters :=
      ⟨(search worker.currentWritter now worker.writters.entries {}).1,
        OrderedMap.sorted_of_fst worker.writters.sorted (map_fst_search _ _ _ _)⟩ }

def processText : TextMixerWorker × List (Nat × Nat) :=
  let candidate := worker.candidate now
  let searched := worker.searched now
  let switch := candidate.switch || candidate.maxWaitingTime > maxWaitingTimeLimit + timeExtension
  let searchWord :=
    candidate.maxWaitingTime ≤ maxWaitingTimeLimit + timeExtension
      ∧ candidate.maxWaitingTime > maxWaitingTimeLimit
  match searched.current with
  | none => ({ searched with currentWritter := candidate.next }, [])
  | some (id, writter) =>
    let given := searched.give now searchWord id writter
    match given.worker.writters.find? id with
    | none => (given.worker, given.taken)
    | some writter =>
      if (switch || given.switch || given.delimiter) ∧ candidate.next ≠ some id
          ∧ (candidate.next.isSome ∨ !writter.realtime) then
        (given.worker.endTurn given.message id writter candidate.next, given.taken)
      else (given.worker, given.taken)

/-! FlushText. -/

def chooseToFlush (now : Clock) : List (Nat × TextWritter) → Option Nat × Nat → Option Nat × Nat
  | [], chosen => chosen
  | (id, text) :: rest, (current, maxWaitingTime) =>
    if text.textQueue = [] then chooseToFlush now rest (current, maxWaitingTime)
    else if !now.isZeroTime text.waitingSince ∧ waited text.waitingSince now > maxWaitingTime then
      chooseToFlush now rest (some id, waited text.waitingSince now)
    else chooseToFlush now rest (current.or (some id), maxWaitingTime)

/-- A round for a writer: its text goes to all readers with a separator behind it. A writer
without text leaves the readers as they are.
-/
def flushWritter (id : Nat) (writter : TextWritter) : TextMixerWorker × List (Nat × Nat) :=
  let buffer := writter.textQueue.take (size - maxLabelSize)
  if writter.textQueue = [] then (worker, [])
  else
    let sent := (worker.sendAll id writter buffer).toReaders
      (fun reader => (reader.writeControl [lineSeparator]).nextIsFirst)
    ({ sent with
        writters := worker.writters.insert id
          { writter with textQueue := writter.textQueue.drop buffer.length } },
      buffer.map (fun c => (id, c)))

def nextToFlush : TextMixerWorker :=
  { worker with currentWritter := (chooseToFlush now worker.writters.entries (none, 0)).1 }

def flushLoop (now : Clock) : Nat → TextMixerWorker → Option (TextMixerWorker × List (Nat × Nat))
  | 0, _ => none
  | rounds + 1, worker =>
    match worker.current with
    | none => some (worker, [])
    | some (id, writter) =>
      let (sent, taken) := worker.flushWritter id writter
      (flushLoop now rounds (sent.nextToFlush now)).map
        (fun (last, more) => (last, taken ++ more))

def queued (worker : TextMixerWorker) : Nat :=
  (worker.writters.entries.map (fun entry => entry.2.textQueue.length)).sum

/-- One who is chosen has text. -/
theorem chooseToFlush_some {now : Clock} {entries : List (Nat × TextWritter)}
    {chosen : Option Nat × Nat} {id : Nat} (found : (chooseToFlush now entries chosen).1 = some id)
    : chosen.1 = some id ∨ ∃ writter, (id, writter) ∈ entries ∧ writter.textQueue ≠ [] := by
  induction entries generalizing chosen with
  | nil => exact .inl found
  | cons entry rest ih =>
    obtain ⟨first, text⟩ := entry
    obtain ⟨current, maxWaitingTime⟩ := chosen
    have later : ∀ {candidate}, (chooseToFlush now rest candidate).1 = some id
        → candidate.1 = some id
          ∨ ∃ writter, (id, writter) ∈ (first, text) :: rest ∧ writter.textQueue ≠ [] := by
      intro candidate isFound
      rcases ih isFound with start | ⟨writter, member, waits⟩
      · exact .inl start
      · exact .inr ⟨writter, .tail _ member, waits⟩
    unfold chooseToFlush at found
    split_ifs at found with empty
    · exact later found
    · rcases later found with start | other
      · cases start
        exact .inr ⟨text, .head _, empty⟩
      · exact .inr other
    · rcases later found with start | other
      · rcases Option.or_eq_some_iff.mp start with before | ⟨-, isFirst⟩
        · exact .inl before
        · cases isFirst
          exact .inr ⟨text, .head _, empty⟩
      · exact .inr other

variable {worker : TextMixerWorker}

theorem current_some {id : Nat} {writter : TextWritter}
    (isCurrent : worker.current = some (id, writter))
    : worker.currentWritter = some id ∧ worker.writters.find? id = some writter := by
  obtain ⟨other, isOther, found⟩ := Option.bind_eq_some_iff.mp isCurrent
  obtain ⟨same, isWritter, pair⟩ := Option.map_eq_some_iff.mp found
  cases pair
  exact ⟨isOther, isWritter⟩

theorem nextToFlush_waits {now : Clock} {found : Nat × TextWritter}
    (isCurrent : (worker.nextToFlush now).current = some found) : found.2.textQueue ≠ [] := by
  obtain ⟨id, writter⟩ := found
  obtain ⟨isChosen, isWritter⟩ := current_some isCurrent
  rcases chooseToFlush_some isChosen with nobody | ⟨other, member, waits⟩
  · cases nobody
  · have same := OrderedMap.find?_eq_some_iff.mpr member
    cases same.symm.trans isWritter
    exact waits

theorem queued_flushWritter {id : Nat} {writter : TextWritter}
    (found : worker.writters.find? id = some writter)
    : (worker.flushWritter id writter).1.queued
      + min (size - maxLabelSize) writter.textQueue.length = worker.queued := by
  unfold flushWritter
  by_cases empty : writter.textQueue = []
  · rw [if_pos empty, empty, List.length_nil, Nat.min_zero, Nat.add_zero]
  · have total := OrderedMap.sum_insert (fun writter => writter.textQueue.length) found
      { writter with
        textQueue :=
          writter.textQueue.drop (writter.textQueue.take (size - maxLabelSize)).length }
    rw [if_neg empty]
    simp only [List.length_drop, List.length_take] at total
    simp only [queued, List.length_take]
    omega

/-- Rounds that are left: one for each character, and one more if the current writer has none. -/
def flushRounds (worker : TextMixerWorker) : Nat :=
  worker.queued + (if worker.current.any (fun found => found.2.textQueue = []) then 1 else 0) + 1

/-- The loop comes to its end: each round but the first one takes text from a queue. -/
theorem flushLoop_isSome {allowed : Nat} (enough : worker.flushRounds ≤ allowed)
    : (flushLoop now allowed worker).isSome := by
  induction allowed generalizing worker with
  | zero => exact absurd enough (by rw [flushRounds]; omega)
  | succ allowed ih =>
    unfold flushLoop
    cases isCurrent : worker.current with
    | none => rfl
    | some found =>
      obtain ⟨id, writter⟩ := found
      have total := queued_flushWritter (current_some isCurrent).2
      simp only [Option.isSome_map]
      apply ih
      have waits : ((worker.flushWritter id writter).1.nextToFlush now).current.any
          (fun found => found.2.textQueue = []) = false := by
        rw [Option.any_eq_false]
        intro next isNext
        exact decide_eq_false (nextToFlush_waits isNext)
      rw [flushRounds, waits]
      rw [flushRounds, isCurrent] at enough
      have same : ((worker.flushWritter id writter).1.nextToFlush now).queued
          = (worker.flushWritter id writter).1.queued := rfl
      rw [same]
      by_cases empty : writter.textQueue = []
      · simp only [Option.any_some, empty, decide_true, if_true] at enough
        simp only [Bool.false_eq_true, if_false]
        omega
      · have some := List.length_pos_iff.mpr empty
        have room : 0 < size - maxLabelSize := by decide
        simp only [Bool.false_eq_true, if_false]
        omega

def flushText (worker : TextMixerWorker) : TextMixerWorker × List (Nat × Nat) :=
  (flushLoop now worker.flushRounds worker).get (flushLoop_isSome now (Nat.le_refl _))

end TextMixerWorker

end MediaServer.Text
