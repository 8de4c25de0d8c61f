import MediaServer.Speech.Flow

/-! The phrases that go out on each stream of a flow. Only a text on the current stream adds
one, and a stream that is being opened has none.
-/

namespace MediaServer.Speech.SpeechFlow

open Function

def Outgoing.owner? : Outgoing → Option Nat
  | .text owner _ => some owner
  | _ => none

def phrases (flow : SpeechFlow) (link : Nat) : List Nat :=
  (flow.links link).sent.filterMap Outgoing.owner?

theorem phrases_sendOn (flow : SpeechFlow) (link other : Nat) (message : Outgoing)
    : (flow.sendOn link message).phrases other
      = flow.phrases other ++ if other = link then message.owner?.toList else [] := by
  by_cases same : other = link
  · rw [if_pos same, same, phrases, sendOn]
    simp only [update_self, List.filterMap_append]
    cases owner : message.owner? with
    | none => rw [List.filterMap_cons_none owner]; rfl
    | some owns => rw [List.filterMap_cons_some owner]; rfl
  · rw [if_neg same, List.append_nil, phrases, sendOn]
    simp only [update_of_ne same]
    rfl

/-- A step that sends no phrase and does not change to another stream. A new link may be
opened.
-/
structure Calm (before after : SpeechFlow) : Prop where
  phrases : ∀ link, after.phrases link = before.phrases link
  current : ∀ link, after.current = some link → before.current = some link
  opening
    : ∀ link, after.openingLink = some link
      → before.openingLink = some link ∨ before.nextLink ≤ link ∧ link < after.nextLink
  nextLink : before.nextLink ≤ after.nextLink
  retiring : after.retiring = before.retiring ∨ after.retiring = none

namespace Calm

theorem refl (flow : SpeechFlow) : Calm flow flow :=
  ⟨fun _ => rfl, fun _ => id, fun _ => .inl, Nat.le_refl _, .inl rfl⟩

theorem trans {first second third : SpeechFlow} (early : Calm first second)
    (late : Calm second third) : Calm first third := by
  refine ⟨fun link => (late.phrases link).trans (early.phrases link),
    fun link isCurrent => early.current link (late.current link isCurrent),
    fun link isOpening => ?_, early.nextLink.trans late.nextLink, ?_⟩
  · have earlier := early.nextLink
    have later := late.nextLink
    rcases late.opening link isOpening with old | ⟨above, below⟩
    · rcases early.opening link old with older | ⟨above, below⟩
      · exact .inl older
      · exact .inr ⟨above, by omega⟩
    · exact .inr ⟨by omega, below⟩
  · rcases late.retiring with same | gone
    · rw [same]
      exact early.retiring
    · exact .inr gone

variable {before after : SpeechFlow}

/-- Other parts of the flow do not matter. -/
theorem of_same (links : after.links = before.links)
    (current : after.current = before.current ∨ after.current = none)
    (openingLink : after.openingLink = before.openingLink ∨ after.openingLink = none)
    (nextLink : after.nextLink = before.nextLink)
    (retiring : after.retiring = before.retiring ∨ after.retiring = none := by exact .inl rfl)
    : Calm before after := by
  refine ⟨fun link => ?_, fun link isCurrent => ?_, fun link isOpening => .inl ?_, nextLink.ge,
    retiring⟩
  · rw [SpeechFlow.phrases, links]
    rfl
  · rcases current with same | gone
    · exact same ▸ isCurrent
    · cases gone.symm.trans isCurrent
  · rcases openingLink with same | gone
    · exact same ▸ isOpening
    · cases gone.symm.trans isOpening

variable (flow : SpeechFlow)

theorem sendOn (link : Nat) {message : Outgoing} (noPhrase : message.owner? = none)
    : Calm flow (flow.sendOn link message) := by
  refine ⟨fun other => ?_, fun _ => id, fun _ => .inl, Nat.le_refl _, .inl rfl⟩
  rw [phrases_sendOn, noPhrase]
  simp only [Option.toList_none, ite_self, List.append_nil]

theorem sendOn? (link : Option Nat) {message : Outgoing} (noPhrase : message.owner? = none)
    : Calm flow (flow.sendOn? link message) := by
  cases link with
  | none => exact refl flow
  | some link => exact sendOn flow link noPhrase

theorem noteFatal (link : Nat) (reason : String) : Calm flow (flow.noteFatal link reason) := by
  refine ⟨fun other => ?_, fun _ => id, fun _ => .inl, Nat.le_refl _, .inl rfl⟩
  unfold SpeechFlow.noteFatal SpeechFlow.phrases
  by_cases same : other = link
  · simp only [same, update_self]
  · simp only [update_of_ne same]

variable (nowMs : QWORD)

theorem beginOpen : Calm flow (flow.beginOpen nowMs) :=
  of_same rfl (.inl rfl) (.inl rfl) rfl

theorem abandon (link : Nat) (nowMs : QWORD) : Calm flow (flow.abandon link nowMs) :=
  (sendOn flow link rfl).trans (of_same rfl (.inl rfl) (.inl rfl) rfl)

theorem abandon? (link : Option Nat) (nowMs : QWORD) : Calm flow (flow.abandon? link nowMs) := by
  cases link with
  | none => exact refl flow
  | some link => exact abandon flow link nowMs

theorem start : Calm flow (flow.start nowMs) := by
  unfold SpeechFlow.start
  split_ifs
  · exact refl flow
  · exact beginOpen flow nowMs

theorem closeAll (links : List Nat)
    : Calm flow (links.foldl (fun flow link => flow.sendOn link .close) flow) := by
  induction links generalizing flow with
  | nil => exact refl flow
  | cons link rest ih => exact (sendOn flow link rfl).trans (ih _)

theorem stop : Calm flow flow.stop := by
  unfold SpeechFlow.stop
  split_ifs
  · exact refl flow
  · dsimp only
    refine trans ?_ (closeAll _ _)
    exact of_same rfl (.inr rfl) (.inr rfl) rfl (.inr rfl)

theorem rotate : Calm flow (flow.rotate nowMs) := by
  unfold SpeechFlow.rotate
  split_ifs
  · exact refl flow
  · exact beginOpen flow nowMs

theorem tickRetry : Calm flow (flow.tickRetry nowMs) := by
  unfold SpeechFlow.tickRetry
  split_ifs
  · exact beginOpen flow nowMs
  · exact refl flow

theorem tickKeepAlive : Calm flow (flow.tickKeepAlive nowMs) := by
  unfold SpeechFlow.tickKeepAlive
  split_ifs
  · refine trans ?_ (sendOn? _ _ rfl)
    exact of_same rfl (.inl rfl) (.inl rfl) rfl
  · refine trans ?_ (sendOn? _ _ rfl)
    exact of_same rfl (.inl rfl) (.inl rfl) rfl
  · exact refl flow

theorem tickRetiring : Calm flow (flow.tickRetiring nowMs) := by
  unfold SpeechFlow.tickRetiring
  split_ifs
  · exact (abandon? flow flow.retiring nowMs).trans
      (of_same rfl (.inl rfl) (.inl rfl) rfl (.inr rfl))
  · exact refl flow

end Calm

def StatesOnly (calls : List Call) : Prop := ∀ call ∈ calls, ∃ up reason, call = .state up reason

/-- A calm step that tells at most a state. -/
structure Quiet (before : SpeechFlow) (result : SpeechFlow × List Call) : Prop where
  calm : Calm before result.1
  states : StatesOnly result.2

namespace Quiet

theorem silent (calm : Calm before after) : Quiet before (after, []) :=
  ⟨calm, nofun⟩

theorem after {before between : SpeechFlow} {result : SpeechFlow × List Call}
    (calm : Calm before between) (quiet : Quiet between result) : Quiet before result :=
  ⟨calm.trans quiet.calm, quiet.states⟩

variable (flow : SpeechFlow) (nowMs : QWORD)

theorem tellDown (reason : String) : Quiet flow (flow.tellDown reason) := by
  unfold SpeechFlow.tellDown
  split_ifs
  · exact silent (.refl flow)
  · exact ⟨.of_same rfl (.inl rfl) (.inl rfl) rfl,
      List.forall_mem_singleton.mpr ⟨false, reason, rfl⟩⟩

theorem openingFailed (reason : String) : Quiet flow (flow.openingFailed reason nowMs) := by
  unfold SpeechFlow.openingFailed
  dsimp only
  split_ifs
  · exact silent (.of_same rfl (.inl rfl) (.inl rfl) rfl)
  · refine after ?_ (tellDown _ reason)
    exact .of_same rfl (.inl rfl) (.inl rfl) rfl

theorem onToken (mine : Nat) (refusal : Option String)
    : Quiet flow (flow.onToken mine refusal nowMs) := by
  unfold SpeechFlow.onToken
  split
  · exact silent (.refl flow)
  · cases refusal with
    | some reason => exact openingFailed flow nowMs reason
    | none =>
      refine silent ⟨fun _ => rfl, fun _ => id, fun link isOpening => .inr ?_, Nat.le_succ _,
        .inl rfl⟩
      cases isOpening
      exact ⟨Nat.le_refl _, Nat.lt_succ_self _⟩

theorem onConnectFailed (link : Nat) : Quiet flow (flow.onConnectFailed link nowMs) := by
  unfold SpeechFlow.onConnectFailed
  split_ifs
  · exact silent (.refl flow)
  · refine after ?_ (openingFailed _ nowMs _)
    exact .of_same rfl (.inl rfl) (.inr rfl) rfl

theorem tickDeadline : Quiet flow (flow.tickDeadline nowMs) := by
  unfold SpeechFlow.tickDeadline
  split_ifs
  · have late : Calm flow { flow with attempt := flow.attempt + 1 } :=
      .of_same rfl (.inl rfl) (.inl rfl) rfl
    have gone := late.trans (.abandon? _ flow.openingLink nowMs)
    refine after (gone.trans ?_) (openingFailed _ nowMs _)
    exact .of_same rfl (.inl rfl) (.inr rfl) rfl
  · exact silent (.refl flow)

theorem tick : Quiet flow ((flow.tick nowMs).1, (flow.tick nowMs).2.1) := by
  unfold SpeechFlow.tick
  split_ifs
  · exact silent (.refl flow)
  · obtain ⟨timed, states⟩ := after (.tickRetry flow nowMs) (tickDeadline _ nowMs)
    have alive := timed.trans (.tickKeepAlive _ nowMs)
    have retired := alive.trans (.tickRetiring _ nowMs)
    have cleaned := retired.trans
      (show Calm _ (SpeechFlow.tickAbandoned _ nowMs) from .of_same rfl (.inl rfl) (.inl rfl) rfl)
    exact ⟨cleaned, states⟩

theorem onLinkClosed (link : Nat) : Quiet flow (flow.onLinkClosed link nowMs) := by
  unfold SpeechFlow.onLinkClosed
  extract_lets reason
  split_ifs
  · exact silent (.refl flow)
  · exact silent (.of_same rfl (.inl rfl) (.inl rfl) rfl)
  · exact silent (.of_same rfl (.inl rfl) (.inl rfl) rfl (.inr rfl))
  · refine after ?_ (openingFailed _ nowMs _)
    exact .of_same rfl (.inl rfl) (.inr rfl) rfl
  iterate 3
    refine after ?_ (tellDown _ _)
    exact .of_same rfl (.inr rfl) (.inl rfl) rfl
  · exact silent (.refl flow)

end Quiet

/-- A link that is being opened has no phrases, nor has one that is not there yet. -/
structure Fresh (flow : SpeechFlow) : Prop where
  opening
    : ∀ link, flow.openingLink = some link
      → flow.phrases link = [] ∧ flow.current ≠ some link ∧ link < flow.nextLink
  current : ∀ link, flow.current = some link → link < flow.nextLink
  unused : ∀ link, flow.nextLink ≤ link → flow.phrases link = []

theorem Fresh.of_calm (fresh : before.Fresh) (calm : Calm before after) : after.Fresh := by
  have later := calm.nextLink
  refine ⟨fun link isOpening => ?_, fun link isCurrent => ?_, fun link isNew => ?_⟩
  · rw [calm.phrases]
    rcases calm.opening link isOpening with old | ⟨above, below⟩
    · obtain ⟨none, other, known⟩ := fresh.opening link old
      exact ⟨none, fun isCurrent => other (calm.current link isCurrent), by omega⟩
    · refine ⟨fresh.unused link above, fun isCurrent => ?_, below⟩
      have known := fresh.current link (calm.current link isCurrent)
      omega
  · have known := fresh.current link (calm.current link isCurrent)
    omega
  · rw [calm.phrases]
    exact fresh.unused link (by omega)

/-- What goes out on the current stream. -/
theorem Fresh.sendJson {flow : SpeechFlow} (fresh : flow.Fresh) (message : Outgoing)
    (nowMs : QWORD) : (flow.sendJson message nowMs).2.Fresh := by
  unfold SpeechFlow.sendJson
  cases isCurrent : flow.current with
  | none => exact fresh
  | some link =>
    have same : ∀ other, other ≠ link → phrases
        { flow.sendOn link message with lastSentMs := nowMs } other = flow.phrases other := by
      intro other different
      have sent := phrases_sendOn flow link other message
      rw [if_neg different, List.append_nil] at sent
      exact sent
    refine ⟨fun other isOpening => ?_, fresh.current, fun other isNew => ?_⟩
    · obtain ⟨none, different, known⟩ := fresh.opening other isOpening
      refine ⟨?_, different, known⟩
      rw [same other (fun isLink => different (by rw [isLink]; exact isCurrent))]
      exact none
    · have known := fresh.current link isCurrent
      rw [same other (fun isLink => by
        have isNew : flow.nextLink ≤ other := isNew
        omega)]
      exact fresh.unused other isNew

theorem current_sendOn? (flow : SpeechFlow) (link : Option Nat) (message : Outgoing)
    : (flow.sendOn? link message).current = flow.current := by
  cases link <;> rfl

/-- The stream that retires keeps its phrases. -/
theorem Fresh.retire {flow : SpeechFlow} (fresh : flow.Fresh) (nowMs : QWORD)
    : (flow.retire nowMs).Fresh ∧ flow.nextLink ≤ (flow.retire nowMs).nextLink
      ∧ ∀ link, (flow.retire nowMs).phrases link = flow.phrases link := by
  unfold SpeechFlow.retire
  split_ifs
  · have calm := Calm.abandon? flow flow.retiring nowMs
    obtain ⟨opening, current, unused⟩ := fresh.of_calm calm
    exact ⟨⟨opening, current, unused⟩, calm.nextLink, calm.phrases⟩
  · exact ⟨fresh, Nat.le_refl _, fun _ => rfl⟩

theorem Fresh.install {flow : SpeechFlow} (fresh : flow.Fresh) {link : Nat}
    (known : link < flow.nextLink) (nowMs : QWORD) : (flow.install link nowMs).Fresh := by
  refine ⟨nofun, fun other isCurrent => ?_, fresh.unused⟩
  cases isCurrent
  exact known

/-- A link that is promoted is fresh, and no phrase is sent meanwhile. -/
theorem promote_spec {flow : SpeechFlow} (fresh : flow.Fresh) {link : Nat}
    (isOpening : flow.openingLink = some link) (nowMs : QWORD)
    : (flow.promote link nowMs).1.Fresh ∧ (flow.promote link nowMs).1.current = some link
      ∧ ∀ other, (flow.promote link nowMs).1.phrases other = flow.phrases other := by
  obtain ⟨-, -, known⟩ := fresh.opening link isOpening
  obtain ⟨retires, more, phrases⟩ := fresh.retire nowMs
  have installed : ((flow.retire nowMs).install link nowMs).Fresh :=
    retires.install (known.trans_le more) nowMs
  have noPhrase : (if flow.function = .asr then Outgoing.done else .close).owner? = none := by
    split_ifs <;> rfl
  have sends : ∀ promoted : SpeechFlow, Calm promoted
      ((if promoted.paused then promoted.sendOn link .pause else promoted).sendOn? flow.current
        (if flow.function = .asr then .done else .close)) := by
    intro promoted
    refine Calm.trans ?_ (Calm.sendOn? _ _ noPhrase)
    split_ifs
    · exact Calm.sendOn promoted link rfl
    · exact Calm.refl promoted
  have calm := sends ((flow.retire nowMs).install link nowMs)
  refine ⟨installed.of_calm calm, ?_, fun other => ?_⟩
  · refine (current_sendOn? _ _ _).trans ?_
    split_ifs <;> rfl
  · exact (calm.phrases other).trans (phrases other)

end MediaServer.Speech.SpeechFlow
