import MediaServer.Text.MixerAttribution

/-! What `FlushText` leaves in the queues: nothing if somebody has the turn, and everything if
nobody has.
-/

namespace MediaServer.Text.TextMixerWorker

open Foundation

def removeReader (worker : TextMixerWorker) (id : Nat) : TextMixerWorker :=
  { worker with readers := worker.readers.erase id }

inductive Call
  | event (event : Event)
  | removeReader (id : Nat)

def Session.call (session : Session) : Call → Session
  | .event event => session.step event
  | .removeReader id => { session with worker := session.worker.removeReader id }

theorem Session.Kept.call {session : Session} (kept : session.Kept) (call : Call)
    : (session.call call).Kept := by
  cases call with
  | event event => exact kept.step event
  | removeReader id =>
    refine ⟨kept.queues, fun other reader found => ?_⟩
    exact kept.served other reader (OrderedMap.find?_erase_eq_some.mp found).2

def AllEmpty (worker : TextMixerWorker) : Prop :=
  ∀ entry ∈ worker.writters.entries, entry.2.textQueue = []

variable {worker : TextMixerWorker} {now : Clock} {rounds : Nat}
  {result : TextMixerWorker × List (Nat × Nat)}

theorem nextToFlush_idle (idle : (worker.nextToFlush now).current = none) : AllEmpty worker := by
  intro entry member
  by_contra waits
  obtain ⟨_, _, isCurrent⟩ := nextToFlush_current member waits now
  cases idle.symm.trans isCurrent

/-- The loop goes on until nobody has text. -/
theorem flushLoop_empties (someone : worker.current ≠ none)
    (ends : flushLoop now rounds worker = some result) : AllEmpty result.1 := by
  induction rounds generalizing worker result with
  | zero => cases ends
  | succ rounds ih =>
    obtain ⟨⟨id, writter⟩, isCurrent⟩ := Option.ne_none_iff_exists'.mp someone
    obtain ⟨more, later, -⟩ := flushLoop_round isCurrent ends
    by_cases idle : ((worker.flushWritter id writter).1.nextToFlush now).current = none
    · rw [(Prod.mk.inj (flushLoop_nobody idle later)).1]
      exact nextToFlush_idle idle
    · have empty := ih idle later
      exact empty

theorem AllEmpty.queueOf (empty : AllEmpty worker) (id : Nat) : worker.queueOf id = [] := by
  cases found : worker.writters.find? id with
  | none => rw [TextMixerWorker.queueOf, found]; rfl
  | some writter =>
    rw [queueOf_of_find? found]
    exact empty (id, writter) (OrderedMap.find?_eq_some_iff.mp found)

/-- After any run `FlushText` comes to its end, and it empties all queues if and only if
somebody has the turn or there is no text. What is in the queues then goes to all readers.
-/
theorem Session.flushText_empties_iff (calls : List Call) (now : Clock)
    : let worker := (Foundation.run Session.call {} calls).worker
      flushLoop now worker.flushRounds worker = some (worker.flushText now)
      ∧ (AllEmpty (worker.flushText now).1 ↔ worker.currentWritter.isSome ∨ AllEmpty worker)
      ∧ (AllEmpty (worker.flushText now).1 → ∀ key reader,
        worker.readers.find? key = some reader → ∃ after more,
          (worker.flushText now).1.readers.find? key = some after
          ∧ after.sent = reader.sent ++ more
          ∧ ∀ id text, worker.writters.find? id = some text
            → onBehalfOf id (charsOf more) = text.textQueue) := by
  have kept : (Foundation.run Session.call {} calls).Kept :=
    run_invariant (fun _ call kept => kept.call call) kept_initial calls
  intro worker
  have ends := flushLoop_flushText now worker
  refine ⟨ends, ⟨fun empty => ?_, fun holds => ?_⟩, fun empty key reader isReader => ?_⟩
  · cases isCurrent : worker.currentWritter with
    | some id => exact .inl rfl
    | none =>
      have nobody : worker.current = none := by rw [current, isCurrent]; rfl
      rw [flushLoop_nobody nobody ends] at empty
      exact .inr empty
  · by_cases nobody : worker.current = none
    · rw [flushLoop_nobody nobody ends]
      refine holds.resolve_left (fun someone => ?_)
      obtain ⟨id, isId⟩ := Option.isSome_iff_exists.mp someone
      obtain ⟨text, isText⟩ := kept.exists_current isId
      cases nobody.symm.trans isText
    · exact flushLoop_empties nobody ends
  · obtain ⟨after, more, isAfter, isSent, chars⟩ :=
      flushLoop_sent isReader ⟨by simp, kept.queues.clean⟩ ends
    refine ⟨after, more, isAfter, isSent, fun id text isText => ?_⟩
    have taken := takes_flushLoop ends id
    rw [empty.queueOf, List.append_nil, queueOf_of_find? isText] at taken
    rw [chars, taken]

/-- Somebody writes and the conference ends before the mixer has given a turn. -/
theorem Session.flushText_nobody
    : let worker := (Foundation.run Session.call {}
        [.event (.addReader 9), .event (.addWritter 1 [0x41] [] true),
          .event (.writeText 1 [0x68, 0x69])]).worker
      let after := (worker.flushText (.reading 1000000)).1
      (after.writters.find? 1).map (·.textQueue) = some [0x68, 0x69]
      ∧ (after.readers.find? 9).map (fun reader => charsOf reader.sent) = some [] := by
  decide +kernel

end MediaServer.Text.TextMixerWorker
