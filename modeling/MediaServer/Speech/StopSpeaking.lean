import MediaServer.Speech.SayLifecycle

/-! A stop silences the says that a tick has taken up, and none that is still in the queue. -/

namespace MediaServer.Speech

open Foundation Desk OrderedMap List

variable {φ : Type}

def FlowCalls.logged (calls : FlowCalls φ) : FlowCalls (φ × List Nat) where
  sendText flow sayId text := (calls.sendText flow.1 sayId text).map id (·, flow.2 ++ [sayId])
  flush flow := (calls.flush flow.1).map id (·, flow.2)
  stopSpeaking flow := (calls.stopSpeaking flow.1).map id (·, flow.2)

namespace Desk

variable {calls : FlowCalls φ} {sayId : Nat} {text : Text} {desk after : Desk φ} {dealt : Bool}

theorem sendPhrases_others (result : sendPhrases calls sayId text desk = (dealt, after))
    : after.flow = (sendEach calls sayId (splitPhrases text) desk.flow).2
      ∧ after.synth.held = desk.synth.held ∧ desk.posted ⊆ after.posted := by
  have owned := (own_others sayId (splitPhrases text).length desk.synth).1
  unfold sendPhrases count at result
  dsimp only at result
  split_ifs at result
  all_goals cases result
  · exact ⟨rfl, rfl, List.Subset.refl _⟩
  · exact ⟨rfl, owned, List.Subset.refl _⟩
  · exact ⟨rfl, owned, List.Subset.refl _⟩
  · exact ⟨rfl, rfl, List.Subset.refl _⟩
  · exact ⟨rfl, rfl, subset_append_left _ _⟩
  · exact ⟨rfl, rfl, subset_append_left _ _⟩

/-- A stop comes before everything that a tick sends. -/
theorem Steady.synthesize_of_stop {holds : List Notice → List (Nat × Text) → Desk φ → Prop}
    (steady : Steady calls holds) (stop : desk.synth.stopRequested)
    (stopped
      : holds [] desk.synth.sayQueue
          (stopSynthesizer calls (desk.synth.notices.foldl Desk.hear desk.take)))
    (nowMs : QWORD) : holds [] [] (desk.synthesize calls nowMs) := by
  unfold Desk.synthesize
  dsimp only
  rw [if_pos stop]
  exact steady.finish (steady.actAll (steady.other _ _ (steady.sendHeld (steady.hold stopped))) _)

theorem posted_steady (calls : FlowCalls φ) (event : Posted)
    : Steady calls (fun _ _ desk => event ∈ desk.posted) where
  hear {notice _ _ desk} told := (desk.hear_keeps notice).2.2.2 told
  stop told := mem_append_left _ (mem_append_left _ told)
  hold told := told
  typed _ told := told
  sent told _ result := (sendPhrases_others result).2.2 told
  stuck told _ result := (sendPhrases_others result).2.2 told
  drop told := mem_append_left _ told
  other _ _ told := told

/-- Nothing of the say has gone out, and nothing of it is left. -/
structure Silent (id : Nat) (queue : List (Nat × Text)) (desk : Desk (φ × List Nat)) : Prop where
  queue : id ∉ queue.map Prod.fst
  held : id ∉ desk.synth.held.map Prod.fst
  log : id ∉ desk.flow.2

variable {id : Nat}

theorem sendEach_log (other : id ≠ sayId) (phrases : List Text) {flow : φ × List Nat}
    (silent : id ∉ flow.2) : id ∉ (sendEach calls.logged sayId phrases flow).2.2 := by
  induction phrases generalizing flow with
  | nil => exact silent
  | cons phrase rest ih =>
    have given : id ∉ (calls.logged.sendText flow sayId phrase).2.2 :=
      not_mem_append silent (fun member => other (mem_singleton.mp member))
    unfold sendEach
    split
    next result => rwa [result] at given
    next sent result =>
      rw [result] at given
      have flushed : id ∉ (calls.logged.flush sent).2.2 := given
      split
      next result => rwa [result] at flushed
      next result =>
        rw [result] at flushed
        exact ih flushed

theorem silent_steady (calls : FlowCalls φ) (real : id ≠ 0)
    : Steady calls.logged (fun _ => Silent id) where
  hear {notice _ _ desk} silent := by
    obtain ⟨flow, -, held, -⟩ := desk.hear_keeps notice
    exact ⟨silent.queue, fun member => silent.held (map_subset _ held member), flow ▸ silent.log⟩
  stop silent := ⟨silent.queue, not_mem_nil, silent.log⟩
  hold silent := ⟨not_mem_nil, by
    simp only [hold, map_append]
    exact not_mem_append silent.held silent.queue, silent.log⟩
  typed text silent := ⟨not_mem_nil, by
    simp only [hold, map_append]
    exact not_mem_append silent.held (fun member => real (mem_singleton.mp member)),
    silent.log⟩
  sent silent front result := by
    have absent := silent.held
    rw [front, map_cons, mem_cons, not_or] at absent
    refine ⟨silent.queue, absent.2, ?_⟩
    rw [(sendPhrases_others result).1]
    exact sendEach_log absent.1 _ silent.log
  stuck silent front result := by
    obtain ⟨flow, held, -⟩ := sendPhrases_others result
    have absent := silent.held
    rw [front, map_cons, mem_cons, not_or] at absent
    refine ⟨silent.queue, held ▸ silent.held, ?_⟩
    rw [flow]
    exact sendEach_log absent.1 _ silent.log
  drop silent := ⟨silent.queue, not_mem_nil, silent.log⟩
  other _ _ silent := ⟨silent.queue, silent.held, silent.log⟩

end Desk

/-! What ends by itself. -/

/-- The say has come to its own end. -/
def Ended (id : Nat) (posted : List Posted) : Prop := ∃ cause, .done id false cause ∈ posted

theorem ended_append {id : Nat} {posted more : List Posted}
    (others : ∀ cause, .done id false cause ∉ more)
    : Ended id (posted ++ more) ↔ Ended id posted :=
  exists_congr fun cause => mem_append.trans (or_iff_left (others cause))

/-- Whether the phrases at the server keep their numbers. -/
def Notice.keepsPhrases : Notice → Bool
  | .ready _ | .state false _ => false
  | _ => true

/-- Every phrase of the say has its end among the notices, before one that puts an end to all
phrases.
-/
def EndedBy (notices : List Notice) (owners : OrderedMap Int Nat) (id : Nat) : Prop :=
  (∃ number, owners.find? number = some id)
    ∧ ∀ number, owners.find? number = some id
      → ∃ link, .done link number ∈ notices.takeWhile Notice.keepsPhrases

section EndedBy

variable {id : Nat} {notice : Notice} {rest : List Notice} {owners : OrderedMap Int Nat}

theorem not_endedBy_empty : ¬ EndedBy rest .empty id :=
  fun ended => nomatch ended.1.choose_spec

theorem not_endedBy_of_drops (drops : notice.keepsPhrases = false)
    : ¬ EndedBy (notice :: rest) owners id := by
  rintro ⟨⟨number, owner⟩, all⟩
  obtain ⟨link, told⟩ := all number owner
  rw [takeWhile_cons_of_neg (Bool.eq_false_iff.mp drops)] at told
  exact not_mem_nil told

theorem endedBy_other (keeps : notice.keepsPhrases = true)
    (other : ∀ link id, notice ≠ .done link id)
    : EndedBy (notice :: rest) owners id ↔ EndedBy rest owners id := by
  simp only [EndedBy, takeWhile_cons_of_pos keeps, mem_cons, (other _ _).symm, false_or]

/-- A phrase is done, and it is not the last one of the say. -/
theorem endedBy_done {left : OrderedMap Int Nat} {link : Nat} {number : Int}
    (erased : ∀ other, left.find? other = some id ↔ other ≠ number ∧ owners.find? other = some id)
    (others : owners.find? number = some id → ∃ other, left.find? other = some id)
    : EndedBy (.done link number :: rest) owners id ↔ EndedBy rest left id := by
  simp only [EndedBy, takeWhile_cons_of_pos (rfl : Notice.keepsPhrases (.done link number) = true),
    mem_cons, Notice.done.injEq]
  refine and_congr ⟨?_, ?_⟩ (forall_congr' fun other => ?_)
  · rintro ⟨first, owner⟩
    by_cases same : first = number
    · exact others (same ▸ owner)
    · exact ⟨first, (erased first).mpr ⟨same, owner⟩⟩
  · rintro ⟨first, owner⟩
    exact ⟨first, ((erased first).mp owner).2⟩
  · rw [erased]
    by_cases same : other = number <;> simp [same]

end EndedBy

section

variable {id : Nat} {queue : List (Nat × Text)} {desk : Desk φ}
  (life : Life id 1 queue desk.synth desk.posted) (real : id ≠ 0)
include life real

/-- A phrase of the say is done, the last one or another. -/
theorem ended_onDone_own {number : Int} (owner : desk.synth.owners.find? number = some id)
    (link : Nat) (rest : List Notice)
    : Ended id (desk.onDone link number).posted
        ∨ EndedBy rest (desk.onDone link number).synth.owners id
      ↔ Ended id desk.posted ∨ EndedBy (.done link number :: rest) desk.synth.owners id := by
  have phrases := life.phrases
  have count := countP_erase owner (fun entry => entry.2 = id)
  rw [if_pos (decide_eq_true rfl)] at count
  simp only [Desk.onDone, owner, if_neg real]
  split_ifs with more
  · have others : ∃ other, (desk.synth.owners.erase number).find? other = some id := by
      have some : 0 < (desk.synth.owners.erase number).entries.countP
          (fun entry => entry.2 = id) := by omega
      obtain ⟨entry, inside, isId⟩ := countP_pos_iff.mp some
      refine ⟨entry.1, find?_eq_some_iff.mpr ?_⟩
      rwa [← of_decide_eq_true isId]
    rw [endedBy_done (fun _ => find?_erase_eq_some) fun _ => others]
  · have last : (desk.synth.owners.erase number).entries.countP
        (fun entry => entry.2 = id) = 0 := by omega
    refine iff_of_true (.inl ⟨_, mem_append_right _ mem_cons_self⟩)
      (.inr ⟨⟨number, owner⟩, fun other isOther => ⟨link, ?_⟩⟩)
    have same : other = number := by
      by_contra differs
      have left := find?_eq_some_iff.mp (find?_erase_eq_some.mpr ⟨differs, isOther⟩)
      exact countP_eq_zero.mp last _ left (decide_eq_true rfl)
    rw [same]
    exact mem_cons_self

theorem ended_onDone (link : Nat) (number : Int) (rest : List Notice)
    : Ended id (desk.onDone link number).posted
        ∨ EndedBy rest (desk.onDone link number).synth.owners id
      ↔ Ended id desk.posted ∨ EndedBy (.done link number :: rest) desk.synth.owners id := by
  by_cases own : desk.synth.owners.find? number = some id
  · exact ended_onDone_own life real own link rest
  · unfold Desk.onDone
    split
    next absent =>
      have kept (other : Int) : desk.synth.owners.find? other = some id
          ↔ other ≠ number ∧ desk.synth.owners.find? other = some id :=
        (and_iff_right_of_imp fun found (same : other = number) => own (same ▸ found)).symm
      rw [endedBy_done kept fun owner => absurd owner own]
    next sayId owner =>
      have differs : id ≠ sayId := fun same => own (same ▸ owner)
      rw [endedBy_done (fun _ => find?_erase_eq_some) fun owner => absurd owner own]
      dsimp only
      split_ifs with typed
      · rw [ended_append (by simp [real])]
      · rfl
      · rw [ended_append (by simp [differs])]

theorem ended_hear (notice : Notice) (rest : List Notice)
    : Ended id (desk.hear notice).posted ∨ EndedBy rest (desk.hear notice).synth.owners id
      ↔ Ended id desk.posted ∨ EndedBy (notice :: rest) desk.synth.owners id := by
  cases notice with
  | ready link =>
    exact or_congr (ended_append (by simp))
      (iff_of_false not_endedBy_empty (not_endedBy_of_drops rfl))
  | say link number =>
    rw [endedBy_other rfl (by simp)]
    simp only [hear, onSay]
    split
    next => rfl
    next =>
      split_ifs
      · rw [ended_append (by simp)]
      · rfl
      · rw [ended_append (by simp)]
  | done link number => exact ended_onDone life real link number rest
  | state up reason =>
    cases up with
    | true =>
      rw [endedBy_other rfl (by simp)]
      exact or_congr (ended_append (by simp)) Iff.rfl
    | false =>
      refine or_congr ?_ (iff_of_false not_endedBy_empty (not_endedBy_of_drops rfl))
      simp only [hear, onState, Bool.false_eq_true, if_false, interruptAll, dropHeld]
      rw [ended_append (by simp), ended_append (by simp), ended_append (by simp)]

end

namespace Port

def desk (flow : φ) (port : Port) : Desk φ := ⟨port.synth, flow, port.posted⟩

def heard (flow : φ) (port : Port) : Desk φ :=
  port.synth.notices.foldl Desk.hear (port.desk flow).take

/-- Whose texts go out in a tick. -/
def spoken (calls : FlowCalls φ) (nowMs : QWORD) (flow : φ) (port : Port) : List Nat :=
  ((port.desk (flow, [])).synthesize calls.logged nowMs).flow.2

variable {calls : FlowCalls φ} {id : Nat} {port : Port} {event : Posted}

theorem mem_posted_step (told : event ∈ port.posted) (next : PortEvent φ)
    : event ∈ (port.step calls next).posted := by
  cases next with
  | say text =>
    show event ∈ (port.say text).posted
    unfold say
    split_ifs <;> exact told
  | tick nowMs flow => exact (posted_steady calls event).synthesize (port.desk flow) told nowMs
  | sayElsewhere | stopSpeaking | typed text | notice notice => exact told

/-- Nothing of a say that has ended goes out. -/
theorem Kept.not_spoken (kept : port.Kept) (real : id ≠ 0) (told : event ∈ port.posted)
    (isDone : event.isDone id) (calls : FlowCalls φ) (nowMs : QWORD) (flow : φ)
    : id ∉ port.spoken calls nowMs flow := by
  have total := (kept.lives id real).single
  have once := nodup_iff_count_le_one.mp kept.nodup id
  have ended := countP_pos_iff.mpr ⟨event, told, isDone⟩
  have queued : waiting id port.synth.sayQueue = 0 := by omega
  have held : waiting id port.synth.held = 0 := by omega
  rw [waiting_eq_zero_iff] at queued held
  exact ((silent_steady calls real).synthesize (port.desk (flow, []))
    ⟨queued, held, not_mem_nil⟩ nowMs).log

/-- Nor does anything of a say that a stop finds outside of the queue. -/
theorem not_spoken_of_stop (real : id ≠ 0) (stop : port.synth.stopRequested)
    (unqueued : id ∉ port.synth.sayQueue.map Prod.fst) (calls : FlowCalls φ) (nowMs : QWORD)
    (flow : φ) : id ∉ port.spoken calls nowMs flow := by
  have log : id ∉ (port.heard (flow, ([] : List Nat))).flow.2 := by
    refine @List.foldlRecOn _ _ (fun desk : Desk (φ × List Nat) => id ∉ desk.flow.2) _
      hear _ not_mem_nil ?_
    intro desk silent notice _
    rw [(desk.hear_keeps notice).1]
    exact silent
  exact (@Desk.Steady.synthesize_of_stop _ _ (port.desk (flow, [])) _
    (silent_steady calls real) stop ⟨unqueued, not_mem_nil, log⟩ nowMs).log

theorem ended_hearAll {desk : Desk φ} {queue : List (Nat × Text)}
    (life : Life id 1 queue desk.synth desk.posted) (real : id ≠ 0) (notices : List Notice)
    : Ended id (notices.foldl hear desk).posted
      ↔ Ended id desk.posted ∨ EndedBy notices desk.synth.owners id := by
  induction notices generalizing desk with
  | nil => simp [EndedBy]
  | cons notice rest ih =>
    exact (ih (life.hear real le_rfl notice)).trans (ended_hear life real notice rest)

theorem not_ended_of_interrupted {posted : List Posted}
    (once : posted.countP (Posted.isDone id) ≤ 1) {cause : Option (Nat × Int)}
    (interrupted : .done id true cause ∈ posted) : ¬ Ended id posted := by
  rintro ⟨other, ended⟩
  obtain ⟨before, after, rfl⟩ := append_of_mem interrupted
  have second : 0 < (before ++ after).countP (Posted.isDone id) :=
    countP_pos_iff.mpr ⟨_, by simpa using ended, Posted.isDone_self ..⟩
  rw [countP_append] at once second
  rw [countP_cons_of_pos (Posted.isDone_self ..)] at once
  omega

section

variable {desk : Desk φ} {queue : List (Nat × Text)}
  (life : Life id 1 queue desk.synth desk.posted) (real : id ≠ 0)
include life real

theorem waiting_add_done (calls : FlowCalls φ)
    : waiting id queue + (desk.stopSynthesizer calls).posted.countP (Posted.isDone id) = 1 :=
  (life.stopSynthesizer real calls).single

/-- The stop ends a say that is not in the queue, unless it had come to its own end. -/
theorem done_of_stop (calls : FlowCalls φ) (unqueued : id ∉ queue.map Prod.fst)
    : ∃ interrupted cause, .done id interrupted cause ∈ (desk.stopSynthesizer calls).posted
      ∧ (interrupted = false → Ended id desk.posted) := by
  have total := waiting_add_done life real calls
  rw [waiting_eq_zero_iff.mpr unqueued, Nat.zero_add] at total
  obtain ⟨event, isPosted, isDone⟩ := countP_pos_iff.mp (total ▸ Nat.zero_lt_one)
  cases event with
  | started sayId cause | service up reason => cases isDone
  | done sayId interrupted cause =>
    cases of_decide_eq_true isDone
    refine ⟨interrupted, cause, isPosted, fun natural => ⟨cause, ?_⟩⟩
    rw [natural] at isPosted
    simpa [stopSynthesizer, interruptAll, dropHeld] using isPosted

end

/-- A stop ends the says that a tick has taken up, as interrupted unless they have come to their own
end or the waiting notices end all their phrases, and none of their texts goes out again. Those in
the queue go on, whenever they were said.
-/
theorem stopSpeaking_silences (calls : FlowCalls φ) (announceCorrections : Bool)
    (events : List (PortEvent φ)) {port ticked : Port}
    (isPort : port = run (step calls) { synth := .new announceCorrections } events)
    (few : events.countP PortEvent.isSay < 2147483648)
    (stop : port.synth.stopRequested) (nowMs : QWORD) (flow : φ)
    (isTicked : ticked = port.step calls (.tick nowMs flow))
    : (∀ id ∈ port.returned, id ∉ port.synth.sayQueue.map Prod.fst
        → ((∃ cause, .done id true cause ∈ ticked.posted)
            ↔ ¬ Ended id port.posted ∧ ¬ EndedBy port.synth.notices port.synth.owners id)
          ∧ id ∉ port.spoken calls nowMs flow
          ∧ ∀ later laterMs laterFlow, (events ++ later).countP PortEvent.isSay < 2147483648
              → id ∉ (run (step calls) ticked later).spoken calls laterMs laterFlow)
      ∧ (∀ id ∈ port.returned, id ∈ port.synth.sayQueue.map Prod.fst
        → ((port.heard flow).stopSynthesizer calls).posted.countP (Posted.isDone id) = 0)
      ∧ ticked.synth.stopRequested = false := by
  have kept : port.Kept := by
    rw [isPort]
    exact (kept_initial announceCorrections).run calls (by rw [Nat.add_comm]; exact few)
  have real : ∀ id ∈ port.returned, id ≠ 0 :=
    fun id member => Nat.ne_of_gt (kept.increasing id member).1
  have taken : ∀ id ∈ port.returned,
      Life id 1 port.synth.sayQueue (port.desk flow).take.synth port.posted := by
    intro id member
    have life := kept.lives id (real id member)
    rw [count_eq_one_of_mem kept.nodup member] at life
    exact life.of_same rfl rfl rfl Iff.rfl life.numbers
  have heard : ∀ id ∈ port.returned,
      Life id 1 port.synth.sayQueue (port.heard flow).synth (port.heard flow).posted :=
    fun id member => (Life.steady calls le_rfl (real id member)).hearAll (taken id member)
  rw [isTicked]
  refine ⟨fun id member unqueued => ?_, fun id member queued => ?_, ?_⟩
  · have stays {event : Posted} (told : event ∈ ((port.heard flow).stopSynthesizer calls).posted)
        : event ∈ (port.step calls (.tick nowMs flow)).posted :=
      @Desk.Steady.synthesize_of_stop _ _ (port.desk flow) _ (posted_steady calls _) stop
        told nowMs
    obtain ⟨interrupted, cause, isDone, natural⟩ :=
      done_of_stop (heard id member) (real id member) calls unqueued
    have ends : Ended id (port.heard flow).posted
        ↔ Ended id port.posted ∨ EndedBy port.synth.notices port.synth.owners id :=
      ended_hearAll (taken id member) (real id member) port.synth.notices
    rw [← not_or, ← ends]
    refine ⟨⟨?_, fun notEnded => ?_⟩, ?_, fun later laterMs laterFlow fewer => ?_⟩
    -- a say has one end, so that one the notices ended is not interrupted
    · rintro ⟨_, told⟩ ⟨other, ended⟩
      have after := kept.step calls (.tick nowMs flow) nofun
      have total := (after.lives id (real id member)).single
      have once := nodup_iff_count_le_one.mp after.nodup id
      refine not_ended_of_interrupted (by omega) told ⟨other, stays ?_⟩
      simp [stopSynthesizer, interruptAll, dropHeld, ended]
    · cases interrupted with
      | true => exact ⟨cause, stays isDone⟩
      | false => exact absurd (natural rfl) notEnded
    · exact not_spoken_of_stop (real id member) stop unqueued calls nowMs flow
    · have told : .done id interrupted cause
          ∈ (run (step calls) (port.step calls (.tick nowMs flow)) later).posted :=
        @run_invariant _ _ (step calls) (fun port => .done id interrupted cause ∈ port.posted)
          (fun _ next told => mem_posted_step told next) _ (stays isDone) later
      have whole : run (step calls) (port.step calls (.tick nowMs flow)) later
          = run (step calls) { synth := .new announceCorrections }
              (events ++ .tick nowMs flow :: later) := by
        rw [run_append, run_cons, isPort]
      have keptLater : (run (step calls) (port.step calls (.tick nowMs flow)) later).Kept := by
        rw [whole]
        refine (kept_initial announceCorrections).run calls ?_
        rw [countP_append, countP_cons_of_neg Bool.false_ne_true, ← countP_append, Nat.add_comm]
        exact fewer
      exact keptLater.not_spoken (real id member) told (Posted.isDone_self ..) calls laterMs
        laterFlow
  · have total := waiting_add_done (heard id member) (real id member) calls
    have waits := mt waiting_eq_zero_iff.mp (not_not_intro queued)
    omega
  · exact congrArg (fun queues => queues.2.1) (queues_synthesize calls nowMs _)

/-- Of the two phrases of "a. b" the first is done when the stop comes. -/
def takenBefore : List (PortEvent Unit) :=
  [.notice (.ready 0), .say [0x61, 0x2E, 0x20, 0x62], .tick 20 (), .notice (.done 0 1),
    .stopSpeaking]

theorem stopSpeaking_silences_taken
    : let port := run (step obedient) { synth := .new false } takenBefore
      (∃ cause, .done 1 true cause ∈ (port.step obedient (.tick 40 ())).posted)
      ∧ 1 ∉ port.spoken obedient 40 () := by
  have silenced := (stopSpeaking_silences obedient false takenBefore rfl (by decide)
    (by decide +kernel) 40 () rfl).1 1 (by decide +kernel) (by decide +kernel)
  refine ⟨silenced.1.mpr ⟨?_, ?_⟩, silenced.2.1⟩
  · rintro ⟨cause, ended⟩
    exact not_mem_nil ended
  · rintro ⟨-, all⟩
    obtain ⟨link, told⟩ := all 2 (by decide +kernel)
    exact nomatch mem_singleton.mp told

/-- "a" is still in the queue when the stop comes: it does not end, and it goes out. -/
theorem stopSpeaking_passes_queued
    : let port := run (step obedient) { synth := .new false }
        [.notice (.ready 0), .say [0x61], .stopSpeaking]
      1 ∈ port.returned ∧ port.synth.stopRequested
      ∧ (port.step obedient (.tick 20 ())).posted.countP (Posted.isDone 1) = 0
      ∧ port.spoken obedient 20 () = [1] := by
  decide +kernel

end Port

end MediaServer.Speech
