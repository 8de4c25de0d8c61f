import MediaServer.Speech.PhraseSplitter
import MediaServer.Foundation.Runs

/-! `CompSession`: one check runs, one more may wait, and a newer one replaces it. A task answers
outside the lock and makes way for the next check under it, in two steps.
-/

namespace MediaServer.Speech

open List

namespace CompCheck

/-- A correction, in UTF-16 code units of the text sent. -/
structure Change where
  start : Nat
  end_ : Nat
  from_ : Text
  to_ : Text

structure Result where
  valid : Bool
  text : Text
  changes : List Change

end CompCheck

namespace CompSession

/-- A JSON value, as far as `OnText` tells values apart. -/
inductive Json
  | integer (value : Int)
  | string (value : Text)
  | other
  deriving DecidableEq

structure Message where
  type : String
  id : Option Json
  text : Option Json
  context : Option Json

/-- What a client can recognise the answer by. -/
def Message.checkId (message : Message) : Option Json :=
  if message.type = "check" then message.id.filter (· ≠ .other) else none

/-- `number` tells checks with the same identifier apart: it is that of the message. -/
structure Check where
  id : Json
  context : Text
  text : Text
  number : Nat

inductive Answer
  | error (reason : String)
  | failure (id : Json) (reason : String)
  | checked (id : Json) (text : Text) (changes : List CompCheck.Change)

def Answer.id : Answer → Option Json
  | error _ => none
  | failure id _ | checked id _ _ => some id

/-- What `MistralChat::Complete` returns. -/
structure Completion where
  error : Text
  content : Text

/-- A posted `Run`, before or after its answer. -/
structure Task where
  check : Check
  answered : Bool := false

def maxChars : Nat := 500

def countChars (utf8 : Text) : Nat := utf8.countP (!Text.isContinuation ·)

def Check.answer (apply : Text → Text → CompCheck.Result) (check : Check) (result : Completion)
    : Answer :=
  if check.text.all (· ∈ [Text.space, Text.tab, Text.carriageReturn, Text.lineFeed]) then
    .checked check.id check.text []
  else if result.error ≠ [] then .failure check.id "backend unavailable"
  else
    let corrected := apply check.text result.content
    if !corrected.valid then .failure check.id "unreadable answer"
    else .checked check.id corrected.text corrected.changes

end CompSession

open CompSession in
/-- `tasks` are those posted and not ended. Each answer stands with the number of its message. -/
structure CompSession where
  running : Bool := false
  waiting : Option Check := none
  tasks : List Task := []
  received : List Message := []
  sent : List (Nat × Answer) := []

namespace CompSession

inductive Event
  | text (message : Message)
  | answer (task : Nat) (result : Completion)
  | makeWay (task : Nat)

variable (apply : Text → Text → CompCheck.Result) (session : CompSession)

def send (number : Nat) (answer : Answer) : CompSession :=
  { session with sent := session.sent ++ [(number, answer)] }

def start (check : Check) : CompSession :=
  { session with running := true, tasks := session.tasks ++ [{ check }] }

/-- The part of `OnText` under the lock. -/
def take (check : Check) : CompSession :=
  if !session.running then session.start check
  else
    let session :=
      match session.waiting with
      | some older => session.send older.number (.failure older.id "superseded")
      | none => session
    { session with waiting := some check }

def onText (message : Message) : CompSession :=
  let number := session.received.length
  let session := { session with received := session.received ++ [message] }
  if message.type ≠ "check" then session.send number (.error "unexpected message")
  else
    match message.id with
    | none | some .other => session.send number (.error "check needs an id, number or string")
    | some id =>
      match message.text, message.context.getD (.string []) with
      | some (.string text), .string context =>
        if countChars text > maxChars ∨ countChars context > maxChars then
          session.send number (.failure id "too long")
        else session.take { id, context, text, number }
      | _, _ => session.send number (.failure id "text and context must be strings")

def step : Event → CompSession
  | .text message => session.onText message
  | .answer task result =>
    match session.tasks[task]? with
    | some ⟨check, false⟩ =>
      { session.send check.number (check.answer apply result) with
        tasks := session.tasks.set task ⟨check, true⟩ }
    | _ => session
  | .makeWay task =>
    match session.tasks[task]? with
    | some ⟨_, true⟩ =>
      let session := { session with running := false, tasks := session.tasks.eraseIdx task }
      match session.waiting with
      | some next => start { session with waiting := none } next
      | none => session
    | _ => session

/-- The messages, and how their answers are recognised. -/
def asked (received : List Message) : List (Nat × Option Json) :=
  received.mapIdx fun number message => (number, message.checkId)

def settled : List (Nat × Option Json) :=
  session.sent.map fun (number, answer) => (number, answer.id)

def due : List (Nat × Option Json) :=
  ((session.tasks.filter (!·.answered)).map (·.check) ++ session.waiting.toList).map fun check =>
    (check.number, some check.id)

/-- One task at most, while `running`, and each message is answered, due to be, or among those
that the current step still owes an answer.
-/
structure Steady (owed : List (Nat × Option Json)) : Prop where
  shape
    : session.tasks = [] ∧ session.running = false ∧ session.waiting = none
      ∨ (∃ task, session.tasks = [task]) ∧ session.running = true
  once : (session.settled ++ session.due ++ owed).Perm (asked session.received)

variable {session}

theorem Check.answer_id (check : Check) (result : Completion)
    : (check.answer apply result).id = some check.id := by
  unfold Check.answer
  dsimp only
  split_ifs <;> rfl

theorem settled_send (number : Nat) (answer : Answer)
    : (session.send number answer).settled = session.settled ++ [(number, answer.id)] :=
  map_append

namespace Steady

theorem send {number : Nat} {answer : Answer} (steady : session.Steady [(number, answer.id)])
    : (session.send number answer).Steady [] := by
  refine ⟨steady.shape, List.Perm.trans ?_ steady.once⟩
  rw [settled_send, append_nil, append_assoc, append_assoc]
  exact perm_append_comm.append_left _

theorem start {check : Check} (steady : session.Steady [(check.number, some check.id)])
    (idle : session.running = false)
    : (session.start check).Steady [] := by
  obtain ⟨noTask, -, free⟩ := steady.shape.resolve_right (by simp [idle])
  refine ⟨.inr ⟨⟨_, by rw [CompSession.start, noTask]; rfl⟩, rfl⟩, ?_⟩
  simpa [CompSession.start, settled, due, noTask, free] using steady.once

theorem take {check : Check} (steady : session.Steady [(check.number, some check.id)])
    : (session.take check).Steady [] := by
  unfold CompSession.take
  split_ifs with idle
  · exact steady.start (by simpa using idle)
  · have busy := steady.shape.resolve_left (by simp_all)
    cases waiting : session.waiting with
    | none =>
      refine ⟨.inr busy, ?_⟩
      simpa [settled, due, waiting] using steady.once
    | some older =>
      refine ⟨.inr busy, List.Perm.trans ?_ steady.once⟩
      change ((session.send _ _).settled ++ _ ++ []).Perm _
      simp only [settled_send, due, waiting, Option.toList_some, map_append, append_nil,
        append_assoc]
      exact (perm_append_comm_assoc _ _ _).append_left _

theorem onText (steady : session.Steady []) (message : Message)
    : (session.onText message).Steady [] := by
  have asks : Steady { session with received := session.received ++ [message] }
      [(session.received.length, message.checkId)] := by
    refine ⟨steady.shape, ?_⟩
    rw [asked, mapIdx_concat]
    exact (append_nil (session.settled ++ session.due) ▸ steady.once).append_right _
  unfold CompSession.onText
  dsimp only
  unfold Message.checkId at asks
  split_ifs with known
  · rw [if_neg known] at asks
    exact send asks
  · rw [if_pos (not_not.mp known)] at asks
    split
    · next none => exact send (by rwa [none] at asks)
    · next other => exact send (by rwa [other] at asks)
    · next id isId usable =>
      rw [usable, Option.filter_some_pos (by simpa using isId)] at asks
      split
      · split_ifs
        · exact send asks
        · exact take asks
      · exact send asks

theorem onlyTask (steady : session.Steady []) {place : Nat} {task : Task}
    (found : session.tasks[place]? = some task)
    : place = 0 ∧ session.tasks = [task] ∧ session.running = true := by
  rcases steady.shape with ⟨noTask, -⟩ | ⟨⟨only, isOnly⟩, busy⟩
  · simp [noTask] at found
  · simp_all [getElem?_singleton]

theorem step (steady : session.Steady []) (event : Event)
    : (session.step apply event).Steady [] := by
  have once := steady.once
  cases event with
  | text message => exact steady.onText message
  | answer place result =>
    unfold CompSession.step
    dsimp only
    split
    · next check found =>
      obtain ⟨rfl, tasks, busy⟩ := steady.onlyTask found
      refine ⟨.inr ⟨⟨_, by simp only [tasks]; rfl⟩, busy⟩, ?_⟩
      change ((session.send _ _).settled ++ _ ++ []).Perm _
      rw [settled_send, Check.answer_id]
      simpa [due, tasks, CompSession.send] using once
    · exact steady
  | makeWay place =>
    unfold CompSession.step
    dsimp only
    split
    · next check found =>
      obtain ⟨rfl, tasks, -⟩ := steady.onlyTask found
      cases waiting : session.waiting with
      | none => exact ⟨.inl ⟨by simp [tasks], rfl, rfl⟩, by
          simpa [settled, due, tasks, waiting] using once⟩
      | some next => exact start ⟨.inl ⟨by simp [tasks], rfl, rfl⟩, by
          simpa [settled, due, tasks, waiting] using once⟩ rfl
    · exact steady

end Steady

def Event.message? : Event → Option Message
  | .text message => some message
  | _ => none

theorem received_step (session : CompSession) (event : Event)
    : (session.step apply event).received = session.received ++ event.message?.toList := by
  cases event with
  | text message =>
    have kept (session : CompSession) (check)
        : (session.take check).received = session.received := by
      unfold take
      cases session.running <;> cases session.waiting <;> rfl
    unfold step onText
    dsimp only
    repeat' split
    all_goals first
      | rfl
      | exact kept _ _
  | answer | makeWay =>
    unfold step
    dsimp only
    repeat' split
    all_goals exact (append_nil _).symm

/-- The messages that came in are those of the run. -/
theorem received_run (events : List Event)
    : (Foundation.run (step apply) {} events).received = events.filterMap Event.message? := by
  induction events using reverseRecOn with
  | nil => rfl
  | append_singleton before event ih =>
    rw [Foundation.run_append, filterMap_append, ← ih]
    exact received_step apply _ event

/-- Every message is answered at most once, a check by an answer with its identifier, and when no
task is left each has got its answer.
-/
theorem answered_once (events : List Event)
    : let session := Foundation.run (step apply) {} events
      let messages := events.filterMap Event.message?
      session.tasks.length ≤ 1 ∧ (session.sent.map (·.1)).Nodup
      ∧ (∀ number answer, (number, answer) ∈ session.sent → ∃ message,
          messages[number]? = some message ∧ answer.id = message.checkId)
      ∧ (session.tasks = [] → ∀ number < messages.length,
          ∃ answer, (number, answer) ∈ session.sent) := by
  intro session messages
  have steady : session.Steady [] :=
    @Foundation.run_invariant _ _ (step apply) (·.Steady [])
      (fun _ event steady => steady.step apply event) {} ⟨.inl ⟨rfl, rfl, rfl⟩, .nil⟩ events
  have once := steady.once
  rw [append_nil, show session.received = messages from received_run apply events] at once
  refine ⟨?_, ?_, fun number answer isSent => ?_, fun noTask number bound => ?_⟩
  · rcases steady.shape with ⟨noTask, -⟩ | ⟨⟨task, isTask⟩, -⟩
    · simp [noTask]
    · simp [isTask]
  · have numbers : (asked messages).map Prod.fst = List.range messages.length :=
      ext_getElem (by simp [asked]) (by simp [asked])
    have distinct := (once.map Prod.fst).nodup_iff.mpr (numbers ▸ nodup_range)
    rw [map_append, settled, map_map] at distinct
    exact distinct.of_append_left
  · have isAsked := once.subset (mem_append_left _ (mem_map_of_mem isSent))
    obtain ⟨place, bound, same⟩ := mem_mapIdx.mp isAsked
    obtain ⟨rfl, sameId⟩ := Prod.mk.inj same
    exact ⟨_, getElem?_eq_getElem bound, sameId.symm⟩
  · have isAsked := once.symm.subset (mem_mapIdx.mpr ⟨number, bound, rfl⟩)
    obtain ⟨-, -, free⟩ := steady.shape.resolve_right (by simp [noTask])
    simp [settled, due, noTask, free] at isAsked
    obtain ⟨answer, isSent, -⟩ := isAsked
    exact ⟨answer, isSent⟩

/-- The second check is superseded by the third one while the first one runs. -/
def threeChecks : List Event :=
  let check (id : Int) : Event :=
    .text ⟨"check", some (.integer id), some (.string [0x61]), none⟩
  let run : List Event := [.answer 0 ⟨[], [0x62]⟩, .makeWay 0]
  [check 7, check 8, check 8] ++ run ++ run

theorem answered_once_threeChecks
    : let session := Foundation.run (step (fun _ content => ⟨true, content, []⟩)) {} threeChecks
      session.settled = [(1, some (.integer 8)), (0, some (.integer 7)), (2, some (.integer 8))]
      ∧ ∀ number < 3, ∃ answer, (number, answer) ∈ session.sent :=
  ⟨by decide, (answered_once _ threeChecks).2.2.2 rfl⟩

end CompSession

end MediaServer.Speech
