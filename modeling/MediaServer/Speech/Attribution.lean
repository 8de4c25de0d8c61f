import MediaServer.Speech.SayLifecycle
import MediaServer.Speech.StreamPhrases

/-! The events of a synthesizer tell the right say, as long as no message of the retiring stream
comes in and no stream takes over in the middle of a tick.
-/

namespace MediaServer.Speech

open Foundation SpeechFlow Desk List

/-! Streams and what is told of them. -/

def SpeechFlow.phraseAt (flow : SpeechFlow) (link : Nat) (id : Int) : Option Nat :=
  if 0 < id then (flow.phrases link)[id.toNat - 1]? else none

def Grows (before after : SpeechFlow) : Prop :=
  ∀ link, ∃ more, after.phrases link = before.phrases link ++ more

variable {before after : SpeechFlow}

theorem Grows.of_same (same : ∀ link, after.phrases link = before.phrases link)
    : Grows before after :=
  fun link => ⟨[], by rw [same, append_nil]⟩

variable {link : Nat}

theorem Grows.phraseAt (grows : Grows before after) {id : Int} {owner : Nat}
    (found : before.phraseAt link id = some owner)
    : after.phraseAt link id = some owner := by
  unfold SpeechFlow.phraseAt at found ⊢
  obtain ⟨more, isAfter⟩ := grows link
  split_ifs at found ⊢ with positive
  rw [isAfter, getElem?_append_left (List.getElem?_eq_some_iff.mp found).1]
  exact found

def Posted.cause? : Posted → Option (Nat × Nat × Int)
  | .started sayId (link, id) => some (sayId, link, id)
  | .done sayId false (some (link, id)) => some (sayId, link, id)
  | _ => none

def Attributed (flow : SpeechFlow) (posted : List Posted) : Prop :=
  ∀ event ∈ posted, ∀ sayId link id, event.cause? = some (sayId, link, id)
    → flow.phraseAt link id = some sayId

variable {posted : List Posted}

theorem Attributed.grow (attributed : Attributed before posted) (grows : Grows before after)
    : Attributed after posted :=
  fun event member sayId link id cause =>
    grows.phraseAt (attributed event member sayId link id cause)

variable {flow : SpeechFlow}

theorem Attributed.append (attributed : Attributed flow posted)
    {more : List Posted} (new : Attributed flow more)
    : Attributed flow (posted ++ more) := by
  intro event member
  rcases mem_append.mp member with old | isNew
  · exact attributed event old
  · exact new event isNew

theorem attributed_of_none (noCause : ∀ event ∈ posted, event.cause? = none)
    : Attributed flow posted := by
  intro event member sayId link id cause
  rw [noCause event member] at cause
  cases cause

/-! Notices. -/

def Notice.isReady : Notice → Bool
  | .ready _ => true
  | _ => false

def streamAfter (stream : Nat) : Notice → Nat
  | .ready link => link
  | _ => stream

/-- The notices of phrases come from the stream that was announced last. -/
def Follows (stream : Nat) : List Notice → Prop
  | [] => True
  | notice :: rest =>
    (match notice with
      | .say link _ => link = stream
      | .done link _ => link = stream
      | _ => True)
    ∧ Follows (streamAfter stream notice) rest

def lastStream (stream : Nat) (notices : List Notice) : Nat := notices.foldl streamAfter stream

theorem follows_append {stream : Nat} {first second : List Notice}
    (early : Follows stream first) (late : Follows (lastStream stream first) second)
    : Follows stream (first ++ second) := by
  induction first generalizing stream with
  | nil => exact late
  | cons notice rest ih => exact ⟨early.1, ih early.2 late⟩

theorem lastStream_append (stream : Nat) (first second : List Notice)
    : lastStream stream (first ++ second) = lastStream (lastStream stream first) second :=
  foldl_append

theorem follows_of_append {stream : Nat} {first second : List Notice}
    (follows : Follows stream (first ++ second))
    : Follows stream first ∧ Follows (lastStream stream first) second := by
  induction first generalizing stream with
  | nil => exact ⟨trivial, follows⟩
  | cons notice rest ih =>
    obtain ⟨early, late⟩ := ih follows.2
    exact ⟨⟨follows.1, early⟩, late⟩

theorem lastStream_of_noReady {notices : List Notice}
    (noReady : notices.any Notice.isReady = false) (stream : Nat)
    : lastStream stream notices = stream := by
  induction notices with
  | nil => rfl
  | cons notice rest ih =>
    obtain ⟨first, later⟩ := Bool.or_eq_false_iff.mp noReady
    cases notice with
    | ready link => cases first
    | say link id | done link id | state up reason => exact ih later

def SpeechFlow.Call.notice? : Call → Option Notice
  | .ready link => some (.ready link)
  | .say link id _ => some (.say link id)
  | .done link id => some (.done link id)
  | .rejected link id => some (.done link id)
  | .state up reason => some (.state up reason)
  | _ => none

/-- A call of the listener leaves at most a notice. -/
theorem Synthesizer.listen_spec (synth : Synthesizer) (call : Call)
    : (synth.listen call).notices = synth.notices ++ call.notice?.toList
      ∧ (synth.listen call).owners = synth.owners
      ∧ (synth.listen call).nextPhraseId = synth.nextPhraseId := by
  cases call with
  | pcm data =>
    unfold listen onPcm
    split_ifs
    · exact ⟨(append_nil _).symm, rfl, rfl⟩
    · exact ⟨(append_nil _).symm, rfl, rfl⟩
  | text text | stopped ids => exact ⟨(append_nil _).symm, rfl, rfl⟩
  | ready link | say link id text | done link id | rejected link id | state up reason =>
    exact ⟨rfl, rfl, rfl⟩

/-- The notices that the reactor thread will leave. -/
def SpeechFlow.Wire.coming (wire : Wire) : List Notice := wire.untold.filterMap Call.notice?

def SpeechFlow.Call.FitsStream (stream : Nat) : Call → Prop
  | .ready _ => False
  | .say link _ _ => link = stream
  | .done link _ => link = stream
  | .rejected link _ => link = stream
  | _ => True

theorem follows_of_fits {stream : Nat} {calls : List Call}
    (fits : ∀ call ∈ calls, call.FitsStream stream)
    : Follows stream (calls.filterMap Call.notice?)
      ∧ (calls.filterMap Call.notice?).any Notice.isReady = false := by
  induction calls with
  | nil => exact ⟨trivial, rfl⟩
  | cons call rest ih =>
    obtain ⟨first, later⟩ := forall_mem_cons.mp fits
    obtain ⟨follows, noReady⟩ := ih later
    cases call with
    | ready link => exact first.elim
    | text text | pcm data | stopped ids => exact ⟨follows, noReady⟩
    | say link id text | done link id | rejected link id => exact ⟨⟨first, follows⟩, noReady⟩
    | state up reason => exact ⟨⟨trivial, follows⟩, noReady⟩

/-! Parts of a run in which no stream takes over. -/

/-- Phrases of these owners go out on one stream only, and what is told of phrases meanwhile
comes from that stream.
-/
structure Drift (stream : Nat) (owners : List Nat) (before after : Wire) : Prop where
  fresh : before.flow.Fresh → after.flow.Fresh
  current : ∀ link, after.flow.current = some link → before.flow.current = some link
  phrases
    : ∀ link, after.flow.phrases link
      = before.flow.phrases link ++ if link = stream then owners else []
  retiring : after.flow.retiring = before.flow.retiring ∨ after.flow.retiring = none
  coming
    : ∃ more, after.coming = before.coming ++ more ∧ Follows stream more
      ∧ more.any Notice.isReady = false
  elsewhere : StatesOnly before.elsewhere → StatesOnly after.elsewhere

namespace Drift

variable {stream : Nat} {wire first second third : Wire} {owners more : List Nat}

theorem trans (early : Drift stream owners first second) (late : Drift stream more second third)
    : Drift stream (owners ++ more) first third := by
  obtain ⟨told, isSecond, follows, noReady⟩ := early.coming
  obtain ⟨later, isThird, followsLater, noReadyLater⟩ := late.coming
  refine ⟨fun fresh => late.fresh (early.fresh fresh),
    fun link isCurrent => early.current link (late.current link isCurrent), fun link => ?_, ?_,
    ⟨told ++ later, by rw [isThird, isSecond, append_assoc], follows_append follows ?_,
      by rw [any_append, noReady, noReadyLater]; rfl⟩,
    fun states => late.elsewhere (early.elsewhere states)⟩
  · rw [late.phrases, early.phrases, append_assoc]
    split_ifs <;> rfl
  · rcases late.retiring with same | gone
    · rw [same]
      exact early.retiring
    · exact .inr gone
  · rw [lastStream_of_noReady noReady]
    exact followsLater

theorem noReady (drift : Drift stream owners first second)
    (before : first.coming.any Notice.isReady = false)
    : second.coming.any Notice.isReady = false := by
  obtain ⟨more, isSecond, -, noReady⟩ := drift.coming
  rw [isSecond, any_append, before, noReady]
  rfl

theorem of_calm {after : Wire} (calm : Calm wire.flow after.flow) {told elsewhere : List Call}
    (untold : after.untold = wire.untold ++ told) (fits : ∀ call ∈ told, call.FitsStream stream)
    (others : after.elsewhere = wire.elsewhere ++ elsewhere) (states : StatesOnly elsewhere)
    : Drift stream [] wire after := by
  obtain ⟨follows, noReady⟩ := follows_of_fits fits
  refine ⟨fun fresh => fresh.of_calm calm, calm.current, fun link => ?_, calm.retiring,
    ⟨_, ?_, follows, noReady⟩, fun before => ?_⟩
  · rw [ite_self, append_nil]
    exact calm.phrases link
  · rw [Wire.coming, untold]
    exact filterMap_append
  · rw [others]
    exact forall_mem_append.mpr ⟨before, states⟩

/-- Nothing is told. -/
theorem silent (calm : Calm wire.flow flow) (asking : List QWORD)
    : Drift stream [] wire { wire with flow, asking } :=
  of_calm calm (append_nil _).symm nofun (append_nil _).symm nofun

theorem byOther {result : SpeechFlow × List Call} (quiet : Quiet wire.flow result)
    (asking : List QWORD)
    : Drift stream [] wire { wire.byOther result with asking } :=
  of_calm quiet.calm (append_nil _).symm nofun rfl quiet.states

theorem byReactor {result : SpeechFlow × List Call} (calm : Calm wire.flow result.1)
    (fits : ∀ call ∈ result.2, call.FitsStream stream)
    : Drift stream [] wire (wire.byReactor result) :=
  of_calm calm rfl fits (append_nil _).symm nofun

end Drift

theorem fits_of_states {stream : Nat} {calls : List Call} (states : StatesOnly calls)
    : ∀ call ∈ calls, call.FitsStream stream := by
  intro call member
  obtain ⟨up, reason, rfl⟩ := states call member
  trivial

/-- A message of a phrase on the stream that is retiring. -/
def SpeechFlow.fromRetiring (flow : SpeechFlow) : SpeechFlow.Event → Bool
  | .message link (.say _ _) _ => flow.retiring = some link
  | .message link (.done _) _ => flow.retiring = some link
  | .message link (.error _ _ (some _)) _ => flow.retiring = some link
  | _ => false

def SpeechFlow.Event.isReady : SpeechFlow.Event → Bool
  | .message _ .ready _ => true
  | _ => false

/-- What serves the flow and does not retire is the current stream. -/
theorem onLinkMessage_fits {stream : Nat} {message : Incoming} {nowMs : QWORD}
    (notReady : (Event.message link message nowMs).isReady = false)
    (own : flow.fromRetiring (.message link message nowMs) = false)
    (last : ∀ other, flow.current = some other → stream = other)
    : Calm flow (flow.onLinkMessage link message nowMs).1
      ∧ ∀ call ∈ (flow.onLinkMessage link message nowMs).2, call.FitsStream stream := by
  have silent : Calm flow (flow, ([] : List Call)).1
      ∧ ∀ call ∈ (flow, ([] : List Call)).2, call.FitsStream stream := ⟨.refl _, nofun⟩
  have current : flow.isServing link = true → decide (flow.retiring = some link) = false
      → link = stream := by
    intro serves notRetiring
    rcases of_decide_eq_true serves with isCurrent | retires
    · exact (last link isCurrent).symm
    · exact absurd retires (of_decide_eq_false notRetiring)
  unfold onLinkMessage
  split
  · exact silent
  · cases message with
    | ready => cases notReady
    | error reason fatal id =>
      have calm : Calm flow (if fatal then flow.noteFatal link reason else flow) := by
        split_ifs
        · exact Calm.noteFatal _ link reason
        · exact Calm.refl _
      cases id with
      | none => exact ⟨calm, nofun⟩
      | some id =>
        dsimp only
        split
        · rename_i serves
          exact ⟨calm, forall_mem_singleton.mpr (current serves own)⟩
        · exact ⟨calm, nofun⟩
    | text text | stopped ids =>
      dsimp only
      split_ifs
      · exact ⟨.refl _, forall_mem_singleton.mpr trivial⟩
      · exact silent
    | say id text | done id =>
      dsimp only
      split_ifs with serves
      · exact ⟨.refl _, forall_mem_singleton.mpr (current serves own)⟩
      · exact silent
    | other => exact silent

theorem SpeechFlow.Wire.step_drift {wire : Wire} {event : SpeechFlow.Event} {stream : Nat}
    (notReady : event.isReady = false) (own : wire.flow.fromRetiring event = false)
    (last : ∀ link, wire.flow.current = some link → stream = link)
    : Drift stream [] wire (wire.step event) := by
  cases event with
  | start nowMs => exact .silent (.start _ nowMs) _
  | stop => exact .silent (.stop _) _
  | tick nowMs => exact .byOther (.tick wire.flow nowMs) _
  | rotate canRotate =>
    unfold Wire.step
    cases isAsking : wire.asking with
    | nil =>
      have same : Drift stream [] wire wire := .silent (.refl _) _
      exact same
    | cons nowMs rest =>
      refine .silent ?_ rest
      split_ifs
      · exact .rotate _ nowMs
      · exact .refl _
  | token mine refusal nowMs => exact .byOther (.onToken _ nowMs mine refusal) _
  | connectFailed link nowMs => exact .byOther (.onConnectFailed _ nowMs link) _
  | message link message nowMs =>
    obtain ⟨calm, fits⟩ := onLinkMessage_fits notReady own last
    exact .byReactor calm fits
  | binary link data =>
    refine .byReactor (.refl _) ?_
    unfold onLinkBinary
    split_ifs
    · exact forall_mem_singleton.mpr trivial
    · exact nofun
  | closed link nowMs =>
    have quiet := Quiet.onLinkClosed wire.flow nowMs link
    exact .byReactor quiet.calm (fits_of_states quiet.states)

/-- The numbers of a synthesizer are those of a stream, once it has heard the notices that
wait. The next number is right for the current stream, or that stream has no phrases yet and its
announcement waits.
-/
structure Tuned (stream : Nat) (notices : List Notice) (synth : Synthesizer) (flow : SpeechFlow)
    : Prop where
  owned
    : ∀ id owner, synth.owners.find? id = some owner → flow.phraseAt stream id = some owner
  follows : Follows stream notices
  last : ∀ link, flow.current = some link → lastStream stream notices = link
  announced
    : ∀ link, flow.current = some link → notices.any Notice.isReady → flow.phrases link = []
  numbered
    : ∀ link, flow.current = some link → notices.any Notice.isReady = false
      → synth.nextPhraseId = (flow.phrases link).length + 1

namespace Tuned

variable {stream : Nat} {notices : List Notice} {synth : Synthesizer} {flow : SpeechFlow}

section

variable (tuned : Tuned stream notices synth flow)
include tuned

/-- Other parts of the synthesizer do not matter. -/
theorem of_same {other : Synthesizer}
    (owners : ∀ id owner, other.owners.find? id = some owner → synth.owners.find? id = some owner)
    (number : other.nextPhraseId = synth.nextPhraseId) : Tuned stream notices other flow :=
  ⟨fun id owner found => tuned.owned id owner (owners id owner found), tuned.follows, tuned.last,
    tuned.announced, fun link isCurrent heard => number.trans (tuned.numbered link isCurrent heard)⟩

/-- No stream takes over and no phrase goes out. -/
theorem drift {before after : Wire} (isFlow : flow = before.flow) {front : List Notice}
    (isNotices : notices = front ++ before.coming)
    (drift : Drift (lastStream stream notices) [] before after)
    : Tuned stream (front ++ after.coming) synth after.flow := by
  subst isFlow
  have phrases : ∀ link, after.flow.phrases link = before.flow.phrases link := by
    intro link
    rw [drift.phrases, ite_self, append_nil]
  obtain ⟨more, isAfter, follows, noReady⟩ := drift.coming
  rw [isAfter, ← append_assoc, ← isNotices]
  have any : (notices ++ more).any Notice.isReady = notices.any Notice.isReady := by
    rw [any_append, noReady, Bool.or_false]
  refine ⟨fun id owner found => (Grows.of_same phrases).phraseAt (tuned.owned id owner found),
    follows_append tuned.follows follows, fun link isCurrent => ?_,
    fun link isCurrent waits => ?_, fun link isCurrent heard => ?_⟩
  · rw [lastStream_append, lastStream_of_noReady noReady]
    exact tuned.last link (drift.current link isCurrent)
  · rw [phrases]
    rw [any] at waits
    exact tuned.announced link (drift.current link isCurrent) waits
  · rw [phrases]
    rw [any] at heard
    exact tuned.numbered link (drift.current link isCurrent) heard

/-- A notice of another thread comes between others. -/
theorem insertState {front coming : List Notice} (isNotices : notices = front ++ coming)
    (up : Bool) (reason : String)
    : Tuned stream (front ++ [.state up reason] ++ coming) synth flow := by
  subst isNotices
  obtain ⟨early, late⟩ := follows_of_append tuned.follows
  have same : lastStream stream (front ++ [.state up reason] ++ coming)
      = lastStream stream (front ++ coming) := by
    rw [lastStream_append, lastStream_append, lastStream_append]
    rfl
  have any : (front ++ [Notice.state up reason] ++ coming).any Notice.isReady
      = (front ++ coming).any Notice.isReady := by
    simp [any_append, Notice.isReady]
  refine ⟨tuned.owned, ?_, ?_, ?_, ?_⟩
  · rw [append_assoc]
    exact follows_append early ⟨trivial, late⟩
  · rw [same]
    exact tuned.last
  · rw [any]
    exact tuned.announced
  · rw [any]
    exact tuned.numbered

variable {after : SpeechFlow}

/-- A new stream without phrases is announced. -/
theorem pushReady (phrases : ∀ other, after.phrases other = flow.phrases other)
    (current : after.current = some link) (none : after.phrases link = [])
    : Tuned stream (notices ++ [.ready link]) synth after := by
  have any : (notices ++ [Notice.ready link]).any Notice.isReady = true := by
    rw [any_append, any_cons]
    exact Bool.or_true _
  refine ⟨fun id owner found => (Grows.of_same phrases).phraseAt (tuned.owned id owner found),
    follows_append tuned.follows ⟨trivial, trivial⟩, fun other isCurrent => ?_,
    fun other isCurrent _ => ?_, fun other _ heard => ?_⟩
  · cases current.symm.trans isCurrent
    rw [lastStream_append]
    rfl
  · cases current.symm.trans isCurrent
    exact none
  · cases any.symm.trans heard

end

end Tuned

/-! The tick. -/

structure InTune (stream : Nat) (notices : List Notice) (desk : Desk Shared) : Prop where
  fresh : desk.flow.wire.flow.Fresh
  tuned : Tuned stream (notices ++ desk.flow.wire.coming) desk.synth desk.flow.wire.flow
  attributed : Attributed desk.flow.wire.flow desk.posted
  states : StatesOnly desk.flow.wire.elsewhere

namespace InTune

variable {stream : Nat} {notices : List Notice} {desk : Desk Shared}

section

variable (inTune : InTune stream notices desk)
include inTune

theorem of_same {other : Synthesizer}
    (owners
      : ∀ id owner, other.owners.find? id = some owner → desk.synth.owners.find? id = some owner)
    (number : other.nextPhraseId = desk.synth.nextPhraseId)
    : InTune stream notices { desk with synth := other } :=
  ⟨inTune.fresh, inTune.tuned.of_same owners number, inTune.attributed, inTune.states⟩

theorem post {more : List Posted} (new : Attributed desk.flow.wire.flow more)
    : InTune stream notices { desk with posted := desk.posted ++ more } :=
  ⟨inTune.fresh, inTune.tuned, inTune.attributed.append new, inTune.states⟩

theorem drift {after : Shared}
    (drift : Drift (lastStream stream (notices ++ desk.flow.wire.coming)) [] desk.flow.wire
      after.wire)
    : InTune stream notices { desk with flow := after } := by
  have grows : Grows desk.flow.wire.flow after.wire.flow := fun link => ⟨_, drift.phrases link⟩
  exact ⟨drift.fresh inTune.fresh, inTune.tuned.drift rfl rfl drift,
    inTune.attributed.grow grows, drift.elsewhere inTune.states⟩

/-- An event of a phrase is told for its owner. -/
theorem tells {id : Int} {sayId : Nat} (owner : desk.synth.owners.find? id = some sayId)
    {event : Posted} (cause : event.cause? = some (sayId, stream, id))
    : InTune stream notices { desk with posted := desk.posted ++ [event] } := by
  refine inTune.post (forall_mem_singleton.mpr (fun _ _ _ same => ?_))
  cases cause.symm.trans same
  exact inTune.tuned.owned id sayId owner

theorem interruptAll : InTune stream notices desk.interruptAll := by
  have forgets : InTune stream notices { desk with synth := desk.interruptAll.synth } :=
    inTune.of_same nofun rfl
  exact forgets.post (attributed_of_none (forall_mem_map.mpr fun _ _ => rfl))

theorem dropHeld : InTune stream notices desk.dropHeld := by
  have drops : InTune stream notices { desk with synth := desk.dropHeld.synth } :=
    inTune.of_same (fun _ _ => id) rfl
  exact drops.post (attributed_of_none (forall_mem_map.mpr fun _ _ => rfl))

end

/-- A notice that tells of no new stream is heard. -/
theorem tail {notice : Notice} (inTune : InTune stream (notice :: notices) desk)
    (notReady : notice.isReady = false) : InTune stream notices desk := by
  obtain ⟨fresh, ⟨owned, follows, last, announced, numbered⟩, attributed, states⟩ := inTune
  cases notice with
  | ready link => cases notReady
  | say _ _ | done _ _ | state _ _ =>
    exact ⟨fresh, ⟨owned, follows.2, last, announced, numbered⟩, attributed, states⟩

theorem onSay {id : Int} (inTune : InTune stream (.say link id :: notices) desk)
    : InTune stream notices (desk.onSay link id) := by
  have heard := inTune.tail rfl
  cases inTune.tuned.follows.1
  unfold onSay
  cases owner : desk.synth.owners.find? id with
  | none => exact heard
  | some sayId =>
    dsimp only
    split_ifs with typed
    · exact heard.tells (typed ▸ owner) rfl
    · exact heard
    · exact (heard.tells owner rfl).of_same (fun _ _ same => same) rfl

theorem onDone {id : Int} (inTune : InTune stream (.done link id :: notices) desk)
    : InTune stream notices (desk.onDone link id) := by
  have heard := inTune.tail rfl
  cases inTune.tuned.follows.1
  have erased : ∀ key owner, (desk.synth.owners.erase id).find? key = some owner
      → desk.synth.owners.find? key = some owner :=
    fun _ _ found => (OrderedMap.find?_erase_eq_some.mp found).2
  unfold onDone
  cases owner : desk.synth.owners.find? id with
  | none => exact heard
  | some sayId =>
    dsimp only
    split_ifs with typed
    · exact (heard.tells (typed ▸ owner) rfl).of_same erased rfl
    · exact heard.of_same erased rfl
    · exact (heard.tells owner rfl).of_same erased rfl

theorem onReady (inTune : InTune stream (.ready link :: notices) desk)
    : InTune link notices desk.onReady := by
  obtain ⟨fresh, tuned, attributed, states⟩ := inTune.interruptAll
  refine ⟨fresh, ⟨nofun, tuned.follows.2, tuned.last, fun other isCurrent _ => ?_,
    fun other isCurrent _ => ?_⟩, attributed, states⟩
  · exact tuned.announced other isCurrent rfl
  · have empty : desk.flow.wire.flow.phrases other = [] := tuned.announced other isCurrent rfl
    show (1 : Int) = (desk.flow.wire.flow.phrases other).length + 1
    rw [empty]
    rfl

theorem onState {up : Bool} {reason : String}
    (inTune : InTune stream (.state up reason :: notices) desk)
    : InTune stream notices (desk.onState up reason) := by
  have heard := inTune.tail rfl
  have told : ∀ {after : Desk Shared}, InTune stream notices after
      → InTune stream notices { after with posted := after.posted ++ [.service up reason] } :=
    fun kept => kept.post (attributed_of_none (forall_mem_singleton.mpr rfl))
  unfold Desk.onState
  cases up with
  | true => exact told heard
  | false =>
    have down : InTune stream notices
        { desk with synth := { desk.synth with streamReady := false, streamDown := true } } :=
      heard.of_same (fun _ _ => id) rfl
    exact told down.interruptAll.dropHeld

theorem hear {notice : Notice} (inTune : InTune stream (notice :: notices) desk)
    : InTune (streamAfter stream notice) notices (desk.hear notice) := by
  cases notice with
  | ready link => exact inTune.onReady
  | say link id => exact inTune.onSay
  | done link id => exact inTune.onDone
  | state up reason => exact inTune.onState

end InTune

/-- During a tick no stream takes over, and none has done so that is not announced. -/
structure Undisturbed (shared : Shared) : Prop where
  events
    : ∀ event ∈ shared.during.flatten,
      event.isReady = false ∧ shared.wire.flow.fromRetiring event = false
  noReady : shared.wire.coming.any Notice.isReady = false

theorem fromRetiring_of_shrinks (shrinks : after.retiring = before.retiring ∨ after.retiring = none)
    {event : SpeechFlow.Event} (own : before.fromRetiring event = false)
    : after.fromRetiring event = false := by
  unfold fromRetiring at own ⊢
  split at own
  all_goals simp_all
  all_goals rcases shrinks with same | gone <;> simp_all

namespace Undisturbed

variable {stream : Nat} {shared : Shared}

theorem drift {owners : List Nat} (undisturbed : Undisturbed shared) {wire : Wire}
    (drift : Drift stream owners shared.wire wire) : Undisturbed { shared with wire } := by
  refine ⟨fun event member => ?_, drift.noReady undisturbed.noReady⟩
  obtain ⟨notReady, own⟩ := undisturbed.events event member
  exact ⟨notReady, fromRetiring_of_shrinks drift.retiring own⟩

variable (last : ∀ link, shared.wire.flow.current = some link → stream = link)
include last

/-- What other threads do before a call. -/
theorem awaited (undisturbed : Undisturbed shared)
    : Drift stream [] shared.wire shared.awaited.wire ∧ Undisturbed shared.awaited := by
  obtain ⟨wire, during⟩ := shared
  cases during with
  | nil => exact ⟨.silent (.refl _) _, undisturbed⟩
  | cons events rest =>
    induction events generalizing wire with
    | nil => exact ⟨.silent (.refl _) _, undisturbed.events, undisturbed.noReady⟩
    | cons event more ih =>
      obtain ⟨notReady, own⟩ := undisturbed.events event (by simp)
      have first := wire.step_drift notReady own last
      have left : Undisturbed ⟨wire, more :: rest⟩ :=
        ⟨fun other member => undisturbed.events other (by simp at member ⊢; tauto),
          undisturbed.noReady⟩
      obtain ⟨later, after⟩ := ih (wire.step event)
        (fun link isCurrent => last link (first.current link isCurrent)) (left.drift first)
      exact ⟨first.trans later, after⟩

/-- A message goes out on the stream, or there is none any more. -/
theorem send (undisturbed : Undisturbed shared) (nowMs : QWORD) (message : Outgoing)
    : ∃ owners, Drift stream owners shared.wire (shared.send nowMs message).2.wire
        ∧ Undisturbed (shared.send nowMs message).2
        ∧ ((shared.send nowMs message).1 = true ∧ owners = message.owner?.toList
            ∧ shared.wire.flow.current = some stream
          ∨ (shared.send nowMs message).1 = false ∧ owners = []
            ∧ (shared.send nowMs message).2.wire.flow.current = none) := by
  obtain ⟨drift, after⟩ := undisturbed.awaited last
  cases isCurrent : shared.awaited.wire.flow.current with
  | none =>
    have isSent : shared.send nowMs message = (false, shared.awaited) := by
      simp only [Shared.send, sendJson, isCurrent]
    rw [isSent]
    exact ⟨[], drift, after, .inr ⟨rfl, rfl, isCurrent⟩⟩
  | some link =>
    have before := drift.current link isCurrent
    cases last link before
    have sends : Drift stream message.owner?.toList shared.awaited.wire
        { shared.awaited.wire with
          flow := (shared.awaited.wire.flow.sendJson message nowMs).2 } := by
      refine ⟨fun fresh => fresh.sendJson message nowMs, ?_, fun other => ?_, ?_,
        ⟨[], (append_nil _).symm, trivial, rfl⟩, id⟩
      · simp only [sendJson, isCurrent, sendOn]
        exact fun _ => id
      · simp only [sendJson, isCurrent]
        exact phrases_sendOn _ stream other message
      · simp only [sendJson, isCurrent]
        exact .inl rfl
    have isSent : (shared.send nowMs message).1 = true := by
      simp only [Shared.send, sendJson, isCurrent]
    exact ⟨_, drift.trans sends, after.drift sends, .inl ⟨isSent, rfl, before⟩⟩

/-- All phrases go out on the stream, or it is lost on the way. -/
theorem sendEach (undisturbed : Undisturbed shared) (nowMs : QWORD) (sayId : Nat)
    (texts : List Text)
    : ∃ owners,
        Drift stream owners shared.wire (sendEach (Shared.calls nowMs) sayId texts shared).2.wire
        ∧ Undisturbed (sendEach (Shared.calls nowMs) sayId texts shared).2
        ∧ ((sendEach (Shared.calls nowMs) sayId texts shared).1 = texts.length
            ∧ owners = List.replicate texts.length sayId
            ∧ (0 < texts.length → shared.wire.flow.current = some stream)
          ∨ (sendEach (Shared.calls nowMs) sayId texts shared).1 < texts.length
            ∧ (sendEach (Shared.calls nowMs) sayId texts shared).2.wire.flow.current = none) := by
  induction texts generalizing shared with
  | nil => exact ⟨[], .silent (.refl _) _, undisturbed, .inl ⟨rfl, rfl, nofun⟩⟩
  | cons text rest ih =>
    obtain ⟨told, drift, after, result⟩ := undisturbed.send last nowMs (.text sayId text)
    have lastTold := fun link isCurrent => last link (drift.current link isCurrent)
    unfold Desk.sendEach
    simp only [Shared.calls] at ih ⊢
    generalize shared.send nowMs (.text sayId text) = sent at drift after result lastTold
    obtain ⟨ok, shared⟩ := sent
    rcases result with ⟨isTold, rfl, isCurrent⟩ | ⟨fails, -, gone⟩
    · cases isTold
      dsimp only
      obtain ⟨none, flushes, flushed, result⟩ := after.send lastTold nowMs .flush
      have lastFlushed := fun link isCurrent => lastTold link (flushes.current link isCurrent)
      have both := drift.trans flushes
      generalize shared.send nowMs .flush = sent at flushes flushed result lastFlushed both
      obtain ⟨ok, shared⟩ := sent
      rcases result with ⟨isFlushed, rfl, -⟩ | ⟨fails, -, gone⟩
      · cases isFlushed
        obtain ⟨others, later, calm, result⟩ := ih lastFlushed flushed
        refine ⟨_, both.trans later, calm, ?_⟩
        rcases result with ⟨all, rfl, -⟩ | ⟨some, gone⟩
        · exact .inl ⟨congrArg (· + 1) all, rfl, fun _ => isCurrent⟩
        · exact .inr ⟨Nat.succ_lt_succ some, gone⟩
      · cases fails
        exact ⟨_, both, flushed, .inr ⟨Nat.succ_pos _, gone⟩⟩
    · cases fails
      exact ⟨_, drift, after, .inr ⟨Nat.succ_pos _, gone⟩⟩

end Undisturbed

/-- The numbers that a say gets follow those that are given. -/
theorem Desk.own_owners (sayId count : Nat) (synth : Synthesizer)
    : (Desk.own sayId count synth).nextPhraseId = synth.nextPhraseId + count
      ∧ ∀ id owner, (Desk.own sayId count synth).owners.find? id = some owner
        → synth.owners.find? id = some owner
          ∨ owner = sayId ∧ synth.nextPhraseId ≤ id ∧ id < synth.nextPhraseId + count := by
  induction count generalizing synth with
  | zero => exact ⟨(Int.add_zero _).symm, fun _ _ => .inl⟩
  | succ count ih =>
    obtain ⟨next, owners⟩ := ih
      { synth with
        owners := synth.owners.insert synth.nextPhraseId sayId
        nextPhraseId := synth.nextPhraseId + 1 }
    refine ⟨?_, fun id owner found => ?_⟩
    · rw [Desk.own, next]
      show synth.nextPhraseId + 1 + (count : Int) = synth.nextPhraseId + ((count + 1 : Nat) : Int)
      omega
    · rcases owners id owner found with early | ⟨isOwner, above, below⟩
      · have early : (synth.owners.insert synth.nextPhraseId sayId).find? id = some owner := early
        rw [OrderedMap.find?_insert] at early
        split_ifs at early with same
        · cases early
          exact .inr ⟨rfl, by omega, by omega⟩
        · exact .inl early
      · have above : synth.nextPhraseId + 1 ≤ id := above
        have below : id < synth.nextPhraseId + 1 + (count : Int) := below
        exact .inr ⟨isOwner, by omega, by omega⟩

namespace InTune

variable {stream : Nat} {desk : Desk Shared} (inTune : InTune stream [] desk)
  (undisturbed : Undisturbed desk.flow)
include inTune undisturbed

theorem last : ∀ link, desk.flow.wire.flow.current = some link → stream = link := by
  intro link isCurrent
  rw [← inTune.tuned.last link isCurrent, nil_append, lastStream_of_noReady undisturbed.noReady]

theorem stopSynthesizer (nowMs : QWORD)
    : InTune stream [] (stopSynthesizer (Shared.calls nowMs) desk)
      ∧ Undisturbed (Desk.stopSynthesizer (Shared.calls nowMs) desk).flow := by
  obtain ⟨owners, drift, after, result⟩ :=
    undisturbed.send (inTune.last undisturbed) nowMs .stop
  have nobody : owners = [] := by
    rcases result with ⟨-, rfl, -⟩ | ⟨-, rfl, -⟩
    · rfl
    · rfl
  rw [nobody] at drift
  refine ⟨InTune.dropHeld (InTune.interruptAll (InTune.of_same (inTune.drift ?_)
    (fun _ _ => id) rfl)), after⟩
  rw [nil_append, lastStream_of_noReady undisturbed.noReady]
  exact drift

/-- Phrases go out. If the stream is still there they have the numbers that the server will give
them.
-/
theorem sent {shared : Shared} {owners : List Nat}
    (drift : Drift stream owners desk.flow.wire shared.wire) {synth : Synthesizer}
    (owned : ∀ id owner, synth.owners.find? id = some owner
      → shared.wire.flow.phraseAt stream id = some owner)
    (numbered : ∀ link, shared.wire.flow.current = some link
      → synth.nextPhraseId = (shared.wire.flow.phrases link).length + 1)
    : InTune stream [] { desk with synth, flow := shared } := by
  have grows : Grows desk.flow.wire.flow shared.wire.flow := fun link => ⟨_, drift.phrases link⟩
  have noReady := drift.noReady undisturbed.noReady
  refine ⟨drift.fresh inTune.fresh, ⟨owned, ?_, fun link isCurrent => ?_, fun link _ waits => ?_,
    fun link isCurrent _ => numbered link isCurrent⟩, inTune.attributed.grow grows,
    drift.elsewhere inTune.states⟩
  · obtain ⟨more, isAfter, follows, -⟩ := drift.coming
    rw [nil_append, isAfter]
    refine follows_append inTune.tuned.follows ?_
    rw [lastStream_of_noReady undisturbed.noReady]
    exact follows
  · rw [nil_append, lastStream_of_noReady noReady]
    exact inTune.last undisturbed link (drift.current link isCurrent)
  · cases noReady.symm.trans waits

/-- Phrases that go out get the numbers that the server will give them. -/
theorem own {shared : Shared} {sayId count : Nat}
    (drift : Drift stream (List.replicate count sayId) desk.flow.wire shared.wire)
    (isCurrent : 0 < count → desk.flow.wire.flow.current = some stream)
    : InTune stream [] { desk with synth := Desk.own sayId count desk.synth, flow := shared } := by
  have number : ∀ link, desk.flow.wire.flow.current = some link
      → desk.synth.nextPhraseId = (desk.flow.wire.flow.phrases link).length + 1 :=
    fun link isCurrent => inTune.tuned.numbered link isCurrent undisturbed.noReady
  have new := drift.phrases stream
  rw [if_pos rfl] at new
  obtain ⟨next, owners⟩ := own_owners sayId count desk.synth
  have grows : Grows desk.flow.wire.flow shared.wire.flow := fun link => ⟨_, drift.phrases link⟩
  refine inTune.sent undisturbed drift (fun id owner found => ?_) (fun link isCurrent => ?_)
  · rcases owners id owner found with early | ⟨isOwner, above, below⟩
    · exact grows.phraseAt (inTune.tuned.owned id owner early)
    · have positive : 0 < count := by omega
      rw [number stream (isCurrent positive)] at above below
      rw [phraseAt, if_pos (by omega), new, getElem?_append_right (by omega), isOwner,
        getElem?_replicate, if_pos (by omega)]
  · have before := drift.current link isCurrent
    cases inTune.last undisturbed link before
    rw [next, number stream before, new, length_append, length_replicate]
    omega

theorem sendPhrases (nowMs : QWORD) (sayId : Nat) (text : Text)
    : InTune stream [] (Desk.sendPhrases (Shared.calls nowMs) sayId text desk).2
      ∧ Undisturbed (Desk.sendPhrases (Shared.calls nowMs) sayId text desk).2.flow := by
  obtain ⟨owners, drift, after, result⟩ :=
    undisturbed.sendEach (inTune.last undisturbed) nowMs sayId (splitPhrases text)
  unfold Desk.sendPhrases
  dsimp only
  generalize Desk.sendEach (Shared.calls nowMs) sayId (splitPhrases text) desk.flow = outcome
    at drift after result ⊢
  obtain ⟨count, shared⟩ := outcome
  rcases result with ⟨all, rfl, isCurrent⟩ | ⟨some, gone⟩
  · rw [if_pos all]
    refine ⟨?_, after⟩
    have owned := inTune.own undisturbed drift isCurrent
    split_ifs with empty
    · rw [empty] at owned
      exact owned
    · refine owned.of_same (fun id owner found => ?_) ?_
      · unfold Desk.count at found
        split_ifs at found <;> exact found
      · unfold Desk.count
        split_ifs <;> rfl
  · have grows : Grows desk.flow.wire.flow shared.wire.flow := fun link => ⟨_, drift.phrases link⟩
    have stays : InTune stream [] { desk with flow := shared } :=
      inTune.sent undisturbed drift
        (fun id owner found => grows.phraseAt (inTune.tuned.owned id owner found))
        (fun link isCurrent => by cases gone.symm.trans isCurrent)
    rw [if_neg some.ne]
    split
    · exact ⟨stays, after⟩
    · refine ⟨stays.post (attributed_of_none ?_), after⟩
      split_ifs
      · exact forall_mem_nil _
      · exact forall_mem_singleton.mpr rfl

end InTune

/-- The parts of a tick leave the desk in tune with some stream. -/
theorem InTune.steady (nowMs : QWORD)
    : Desk.Steady (Shared.calls nowMs) (fun notices _ desk =>
        (∃ stream, InTune stream notices desk) ∧ Undisturbed desk.flow) where
  hear := fun {notice _ _ desk} ⟨⟨_, inTune⟩, undisturbed⟩ =>
    ⟨⟨_, inTune.hear⟩, by rw [(desk.hear_keeps notice).1]; exact undisturbed⟩
  stop := fun ⟨⟨stream, inTune⟩, undisturbed⟩ =>
    have stops := inTune.stopSynthesizer undisturbed nowMs
    ⟨⟨stream, stops.1⟩, stops.2⟩
  hold := fun ⟨⟨stream, inTune⟩, undisturbed⟩ =>
    ⟨⟨stream, inTune.of_same (fun _ _ => id) rfl⟩, undisturbed⟩
  typed text := fun ⟨⟨stream, inTune⟩, undisturbed⟩ =>
    ⟨⟨stream, inTune.of_same (fun _ _ => id) rfl⟩, undisturbed⟩
  sent := fun {_ say _ _} ⟨⟨stream, inTune⟩, undisturbed⟩ _ result => by
    have sent := inTune.sendPhrases undisturbed nowMs say.1 say.2
    rw [result] at sent
    exact ⟨⟨stream, sent.1.of_same (fun _ _ => id) rfl⟩, sent.2⟩
  stuck := fun {_ say _ _} ⟨⟨stream, inTune⟩, undisturbed⟩ _ result => by
    have sent := inTune.sendPhrases undisturbed nowMs say.1 say.2
    rw [result] at sent
    exact ⟨⟨stream, sent.1.of_same (fun _ _ => id) rfl⟩, sent.2⟩
  drop := fun ⟨⟨stream, inTune⟩, undisturbed⟩ => ⟨⟨stream, inTune.dropHeld⟩, undisturbed⟩
  other _ _ := fun ⟨⟨stream, inTune⟩, undisturbed⟩ =>
    ⟨⟨stream, inTune.of_same (fun _ _ => id) rfl⟩, undisturbed⟩

/-! Runs. -/

structure Line where
  port : Port
  wire : Wire

inductive LineEvent
  | say (text : Text)
  | sayElsewhere
  | stopSpeaking
  | typed (text : Text)
  | tick (nowMs : QWORD) (during : List (List SpeechFlow.Event))
  | flow (event : SpeechFlow.Event)
  | tell
  | tellElsewhere (index : Nat)

namespace Line

variable (line : Line)

/-- A tick of the processor: the synthesizer does its part, then samples go out. What is told
meanwhile is heard by the next tick only.
-/
def tick (nowMs : QWORD) (during : List (List SpeechFlow.Event)) : Line :=
  let desk := Desk.synthesize (Shared.calls nowMs) nowMs
    ⟨line.port.synth, ⟨line.wire, during⟩, line.port.posted⟩
  { port := { line.port with synth := desk.synth.mix, posted := desk.posted }
    wire := desk.flow.wire }

def listen (call : Call) : Line :=
  { line with port := { line.port with synth := line.port.synth.listen call } }

def step : LineEvent → Line
  | .say text => { line with port := line.port.say text }
  | .sayElsewhere => { line with port := line.port.countSay }
  | .stopSpeaking =>
    { line with port := { line.port with synth := line.port.synth.pushStopSpeaking } }
  | .typed text => { line with port := { line.port with synth := line.port.synth.pushTyped text } }
  | .tick nowMs during => line.tick nowMs during
  | .flow event => { line with wire := line.wire.step event }
  | .tell =>
    match line.wire.untold with
    | [] => line
    | call :: rest => { line.listen call with wire := { line.wire with untold := rest } }
  | .tellElsewhere index =>
    match line.wire.elsewhere[index]? with
    | none => line
    | some call =>
      { line.listen call with
        wire := { line.wire with elsewhere := line.wire.elsewhere.eraseIdx index } }

/-- No message of a phrase comes in on the retiring stream. No tick begins before the stream that
has taken over is announced, and no stream takes over during a tick.
-/
def permits : LineEvent → Bool
  | .flow event => !line.wire.flow.fromRetiring event
  | .tick _ during =>
    !line.wire.coming.any Notice.isReady
      && during.flatten.all (fun event => !event.isReady && !line.wire.flow.fromRetiring event)
  | _ => true

def Kept : Prop :=
  ∃ stream, InTune stream line.port.synth.notices
    ⟨line.port.synth, ⟨line.wire, []⟩, line.port.posted⟩

end Line

namespace Line.Kept

variable {line : Line} (kept : line.Kept)
include kept

/-- The synthesizer gets something into its queues. -/
theorem of_same {port : Port} (owners : port.synth.owners = line.port.synth.owners)
    (number : port.synth.nextPhraseId = line.port.synth.nextPhraseId)
    (notices : port.synth.notices = line.port.synth.notices)
    (posted : port.posted = line.port.posted) : Kept { line with port } := by
  obtain ⟨stream, inTune⟩ := kept
  refine ⟨stream, inTune.fresh, ?_, ?_, inTune.states⟩
  · show Tuned stream (port.synth.notices ++ line.wire.coming) port.synth line.wire.flow
    rw [notices]
    exact inTune.tuned.of_same (fun id owner found => by rw [owners] at found; exact found) number
  · show Attributed line.wire.flow port.posted
    rw [posted]
    exact inTune.attributed

theorem tick {nowMs : QWORD} {during : List (List SpeechFlow.Event)}
    (permitted : line.permits (.tick nowMs during) = true) : (line.tick nowMs during).Kept := by
  obtain ⟨stream, inTune⟩ := kept
  have undisturbed : Undisturbed ⟨line.wire, during⟩ := by
    obtain ⟨noReady, events⟩ := (Bool.and_eq_true _ _).mp permitted
    refine ⟨fun event member => ?_, by simpa using noReady⟩
    simpa using all_eq_true.mp events event member
  let desk : Desk Shared := ⟨line.port.synth, ⟨line.wire, during⟩, line.port.posted⟩
  obtain ⟨⟨last, after⟩, -⟩ := (InTune.steady nowMs).synthesize desk
    ⟨⟨stream, inTune.fresh, inTune.tuned.of_same (fun _ _ => id) rfl, inTune.attributed,
      inTune.states⟩, undisturbed⟩ nowMs
  have empty : (synthesize (Shared.calls nowMs) nowMs desk).synth.notices = [] :=
    congrArg (fun queues => queues.2.2.2) (queues_synthesize (Shared.calls nowMs) nowMs desk)
  rw [← empty] at after
  unfold Line.tick
  generalize synthesize (Shared.calls nowMs) nowMs desk = result at after
  have mixed : InTune last result.synth.notices { result with synth := result.synth.mix } :=
    after.of_same (fun _ _ => id) rfl
  exact ⟨last, mixed.fresh, mixed.tuned, mixed.attributed, mixed.states⟩

/-- A new stream takes over. -/
theorem promote (isOpening : line.wire.flow.openingLink = some link) (nowMs : QWORD)
    : Kept { line with wire := line.wire.byReactor (line.wire.flow.promote link nowMs) } := by
  obtain ⟨stream, inTune⟩ := kept
  obtain ⟨fresh, current, phrases⟩ := promote_spec inTune.fresh isOpening nowMs
  have none : (line.wire.flow.promote link nowMs).1.phrases link = [] :=
    (phrases link).trans (inTune.fresh.opening link isOpening).1
  have ready := inTune.tuned.pushReady phrases current none
  let promoted : Wire :=
    { line.wire with
      flow := (line.wire.flow.promote link nowMs).1
      untold := line.wire.untold ++ [.ready link] }
  have announced : InTune stream line.port.synth.notices
      ⟨line.port.synth, ⟨promoted, []⟩, line.port.posted⟩ := by
    refine ⟨fresh, ?_, inTune.attributed.grow (Grows.of_same phrases), inTune.states⟩
    simp only [promoted, Wire.coming, filterMap_append]
    rw [← append_assoc]
    exact ready
  let states : List Call := if line.wire.flow.reported = some true then [] else [.state true ""]
  have isStates : StatesOnly states := by
    unfold states
    split_ifs
    · exact forall_mem_nil _
    · exact forall_mem_singleton.mpr ⟨true, "", rfl⟩
  have told : InTune stream line.port.synth.notices
      ⟨line.port.synth, ⟨promoted.byReactor (promoted.flow, states), []⟩, line.port.posted⟩ :=
    announced.drift (.byReactor (.refl _) (fits_of_states isStates))
  simp only [promoted, Wire.byReactor, append_assoc] at told
  exact ⟨stream, told⟩

theorem ofFlow {event : SpeechFlow.Event} (permitted : line.permits (.flow event) = true)
    : (line.step (.flow event)).Kept := by
  have own : line.wire.flow.fromRetiring event = false := by simpa [permits] using permitted
  have drifts : event.isReady = false → (line.step (.flow event)).Kept := by
    intro notReady
    obtain ⟨stream, inTune⟩ := kept
    exact ⟨stream, inTune.drift (Wire.step_drift notReady own inTune.tuned.last)⟩
  unfold Event.isReady at drifts
  split at drifts
  next link nowMs =>
    by_cases opens : line.wire.flow.stopped = false ∧ line.wire.flow.openingLink = some link
    · have promoted := kept.promote opens.2 nowMs
      simp only [Line.step, Wire.step, onLinkMessage, opens.1, opens.2]
      exact promoted
    · have same : line.wire.flow.onLinkMessage link .ready nowMs = (line.wire.flow, []) := by
        unfold onLinkMessage
        split_ifs <;> simp_all
      simp only [Line.step, Wire.step, same, Wire.byReactor, append_nil]
      exact kept
  next => exact drifts rfl

theorem tell : (line.step .tell).Kept := by
  cases isUntold : line.wire.untold with
  | nil =>
    simp only [Line.step, isUntold]
    exact kept
  | cons call rest =>
    obtain ⟨stream, inTune⟩ := kept
    obtain ⟨notices, owners, number⟩ := line.port.synth.listen_spec call
    simp only [Line.step, isUntold]
    have coming : line.wire.coming = call.notice?.toList ++ rest.filterMap Call.notice? := by
      rw [Wire.coming, isUntold, filterMap_cons]
      cases call.notice? <;> rfl
    have tuned := inTune.tuned
    simp only [coming, ← append_assoc, ← notices] at tuned
    refine ⟨stream, inTune.fresh, tuned.of_same (fun id owner found => ?_) number,
      inTune.attributed, inTune.states⟩
    rw [← owners]
    exact found

theorem tellElsewhere (index : Nat) : (line.step (.tellElsewhere index)).Kept := by
  cases found : line.wire.elsewhere[index]? with
  | none =>
    simp only [Line.step, found]
    exact kept
  | some call =>
    obtain ⟨stream, inTune⟩ := kept
    obtain ⟨up, reason, rfl⟩ := inTune.states call (mem_of_getElem? found)
    have states : StatesOnly (line.wire.elsewhere.eraseIdx index) :=
      fun other member => inTune.states other (mem_of_mem_eraseIdx member)
    have tuned := inTune.tuned.insertState rfl up reason
    simp only [Line.step, found]
    exact ⟨stream, inTune.fresh, tuned.of_same (fun _ _ => id) rfl, inTune.attributed, states⟩

theorem step {event : LineEvent} (permitted : line.permits event = true)
    : (line.step event).Kept := by
  cases event with
  | say text =>
    unfold Line.step Port.say
    dsimp only
    split_ifs
    · exact kept
    · exact kept.of_same rfl rfl rfl rfl
  | sayElsewhere | stopSpeaking | typed text => exact kept.of_same rfl rfl rfl rfl
  | tick nowMs during => exact kept.tick permitted
  | flow event => exact kept.ofFlow permitted
  | tell => exact kept.tell
  | tellElsewhere index => exact kept.tellElsewhere index

end Line.Kept

namespace Line

def new (announceCorrections : Bool) (params : Params) (streamingUrl : String) : Line where
  port := { synth := Synthesizer.new announceCorrections }
  wire := { flow := { function := .tts, params, streamingUrl } }

theorem kept_new (announceCorrections : Bool) (params : Params) (streamingUrl : String)
    : (new announceCorrections params streamingUrl).Kept :=
  ⟨0, ⟨nofun, nofun, fun _ _ => rfl⟩, ⟨nofun, trivial, nofun, nofun, nofun⟩, forall_mem_nil _,
    forall_mem_nil _⟩

/-- As long as no message of the retiring stream tells of a phrase and no tick overlaps with the
change to another stream, every start and every end that is not an interruption is told for the
say whose phrase it is.
-/
theorem events_attributed (announceCorrections : Bool) (params : Params) (streamingUrl : String)
    (events : List LineEvent)
    (permitted : EachStep step (fun line event => line.permits event = true)
      (new announceCorrections params streamingUrl) events)
    : let line := Foundation.run step (new announceCorrections params streamingUrl) events
      Attributed line.wire.flow line.port.posted := by
  have kept : Kept (Foundation.run step (new announceCorrections params streamingUrl) events) :=
    run_invariant_of_eachStep (fun _ _ before permitted => before.step permitted)
      (kept_new announceCorrections params streamingUrl) permitted
  obtain ⟨_, inTune⟩ := kept
  exact inTune.attributed

/-- The first stream is open, and old when the processor has nothing to say. -/
def opened : List LineEvent :=
  [.flow (.start 0), .flow (.token 1 none 10), .flow (.message 0 .ready 20), .tell, .tell,
    .tick 20 []]

/-- "a" is said on the first stream, starts and ends. -/
def saidOnFirst : List LineEvent :=
  opened ++ [.say [0x61], .tick 40 [], .flow (.message 0 (.say 1 [0x61]) 50), .tell,
    .flow (.message 0 (.done 1) 60), .tell, .tick 60 []]

theorem events_attributed_saidOnFirst
    : Attributed (Foundation.run step (new false {} "") saidOnFirst).wire.flow
          (Foundation.run step (new false {} "") saidOnFirst).port.posted
      ∧ (Foundation.run step (new false {} "") saidOnFirst).port.posted.filterMap Posted.cause?
        = [(1, 0, 1), (1, 0, 1)] :=
  ⟨events_attributed false {} "" saidOnFirst (by decide +kernel), by decide +kernel⟩

/-- While the second stream is opened "a" goes out on the first one. -/
def rotating : List LineEvent :=
  opened ++ [.flow (.tick 3300020), .flow (.rotate true), .flow (.token 2 none 3300030),
    .say [0x61], .tick 3300040 []]

/-- The second stream takes over, "b" goes out on it, and then the first one tells that "a" is
done.
-/
def saidOnBoth : List LineEvent :=
  rotating ++ [.flow (.message 1 .ready 3300050), .tell, .say [0x62], .tick 3300060 [],
    .flow (.message 0 (.done 1) 3300070), .tell, .tick 3300080 []]

/-- The second stream takes over, and "b" goes out on it before this is announced. It is
interrupted, "c" goes out, and then the second stream tells that "b" is done.
-/
def saidBetween : List LineEvent :=
  rotating ++ [.flow (.message 1 .ready 3300050), .say [0x62], .tick 3300060 [], .tell, .say [0x63],
    .tick 3300080 [], .flow (.message 1 (.done 1) 3300090), .tell, .tick 3300100 []]

theorem not_attributed {line : Line} {sayId link : Nat} {id : Int}
    (told : (sayId, link, id) ∈ line.port.posted.filterMap Posted.cause?)
    (wrong : line.wire.flow.phraseAt link id ≠ some sayId)
    : ¬ Attributed line.wire.flow line.port.posted := by
  intro attributed
  obtain ⟨event, inside, cause⟩ := mem_filterMap.mp told
  exact wrong (attributed event inside sayId link id cause)

/-- The end of a say is told for another one: of the first for the second, and of the second for
the third.
-/
theorem done_of_retiring_misattributed
    : let first := Foundation.run step (new false {} "") saidOnBoth
      let second := Foundation.run step (new false {} "") saidBetween
      (first.port.posted.filterMap Posted.cause? = [(2, 0, 1)]
        ∧ first.wire.flow.phraseAt 0 1 = some 1
        ∧ ¬ Attributed first.wire.flow first.port.posted)
      ∧ second.port.posted.filterMap Posted.cause? = [(3, 1, 1)]
        ∧ second.wire.flow.phraseAt 1 1 = some 2
        ∧ ¬ Attributed second.wire.flow second.port.posted :=
  ⟨⟨by decide +kernel, by decide +kernel,
      @not_attributed _ 2 0 1 (by decide +kernel) (by decide +kernel)⟩,
    by decide +kernel, by decide +kernel,
    @not_attributed _ 3 1 1 (by decide +kernel) (by decide +kernel)⟩

end Line

end MediaServer.Speech
