import MediaServer.Mosaic.Views

/-! One recalculation leaves no hole: as long as a free slot is empty, everybody has a slot, and
nobody in a free slot sits behind an empty one.
-/

namespace MediaServer.Mosaic

open Foundation Function

variable {numSlots : Nat} {mosaic : Mosaic numSlots}

/-- However an empty free slot is chosen, the participant has a slot other than the speaker's,
and if that one is free too it lies before the empty one.
-/
def Placed (mosaic : Mosaic numSlots) (vadPos : Position numSlots) (id : Int) : Prop :=
  ∀ empty, mosaic.mosaicSlots empty = slotFree → mosaic.mosaicPos empty = 0
    → ∃ slot, mosaic.position id = some slot ∧ some slot ≠ vadPos
      ∧ (mosaic.mosaicSlots slot = slotFree → slot < empty)

section Round

variable {vadPos : Position numSlots} {before after : Mosaic numSlots} {id : Int}
  {kickables left : List (Int × Fin numSlots)}

theorem not_full {empty : Fin numSlots} (free : before.mosaicSlots empty = slotFree)
    (unseen : before.mosaicPos empty = 0)
    : before.freeSlot? id ≠ none :=
  fun full => freeSlot?_none full empty (.inr ⟨free, unseen⟩)

/-- A round that finds no slot leaves no empty free one. -/
theorem Round.full (round : Round vadPos before id kickables after left) (positive : 0 < id)
    (full : before.freeSlot? id = none) {empty : Fin numSlots}
    (free : after.mosaicSlots empty = slotFree) (unseen : after.mosaicPos empty = 0)
    : False := by
  rw [round.reseated.kinds] at free
  rcases round.empty positive unseen with was | ⟨newslot, newFree, wasToo, -⟩
  · exact not_full free was full
  · exact not_full newFree wasToo full

section

variable (round : Round vadPos before id kickables after left)
include round

/-- The first slot that a search finds is a place. -/
theorem Round.placed_of_found (positive : 0 < id)
    (speakers : ∀ slot, some slot = vadPos → before.mosaicSlots slot = slotVAD) {wanted : Int}
    {slot : Fin numSlots} (found : before.freeSlot? wanted = some slot)
    (seated : after.position id = some slot) (shown : after.mosaicPos slot = id)
    : after.Placed vadPos id := by
  obtain ⟨available, first⟩ := freeSlot?_some found
  intro empty free unseen
  rw [round.reseated.kinds] at free
  refine ⟨slot, seated, fun same => available.ne_vad (speakers slot same), fun _ => ?_⟩
  have apart : slot ≠ empty := by
    rintro rfl
    omega
  rcases round.empty positive unseen with was | ⟨newslot, newFree, wasToo, earlier⟩
  · exact lt_of_le_of_ne (first empty (.inr ⟨free, was⟩)) apart
  · exact lt_of_le_of_lt (first newslot (.inr ⟨newFree, wasToo⟩)) earlier

/-- After its round a participant has its place, unless it is the speaker and not elected. -/
theorem Round.placed (sound : before.Sound (fun _ => False)) (positive : 0 < id)
    (speakers : ∀ slot, some slot = vadPos → before.mosaicSlots slot = slotVAD)
    (taken : id ≠ before.vadParticipant ∨ before.isEligible id)
    : after.Placed vadPos id := by
  cases found : before.freeSlot? id with
  | none =>
    intro empty free unseen
    exact (round.full positive found free unseen).elim
  | some slot =>
    have placed {wanted : Int} {slot : Fin numSlots}
        (found : before.freeSlot? wanted = some slot) :=
      round.placed_of_found positive speakers found
    cases round with
    | waits eligible full | kicks eligible full => cases full.symm.trans found
    | elected | moves =>
      refine placed found ?_ ?_
      · rw [position_moveToNextFreeSlot, update_self, found]
      · rw [moveToNextFreeSlot_some positive found]
        exact update_self ..
    | speaker quiet speaks => exact absurd (taken.resolve_left (not_not.mpr speaks)) quiet
    | @advances _ oldslot newslot quiet other seated ordinary free visible next earlier =>
      refine placed next ?_ ((update_of_ne earlier.ne ..).trans (update_self ..))
      rw [advance, position_setPosition, update_self]
    | @keeps _ oldslot quiet other seated ordinary front =>
      intro empty free unseen
      refine ⟨oldslot, seated, ordinary, fun oldFree => ?_⟩
      have visible := sound.agree.recorded seated (by rw [oldFree]; decide)
      have apart : oldslot ≠ empty := by
        rintro rfl
        omega
      cases next : before.freeSlot? 0 with
      | none => exact absurd next (not_full free unseen)
      | some newslot =>
        have behind := (freeSlot?_some next).2 empty (.inr ⟨free, unseen⟩)
        exact lt_of_le_of_ne (le_trans (not_lt.mp (front oldFree newslot next)) behind) apart

/-- Who has a place keeps one in the rounds of the others. -/
theorem Round.placed_other (positive : 0 < id) {other : Int} (apart : other ≠ id)
    (placed : before.Placed vadPos other)
    : after.Placed vadPos other := by
  intro empty free unseen
  have kinds := round.reseated.kinds
  rcases round.position_other apart with kept | ⟨-, full, -⟩
  · rw [kept, kinds]
    rw [kinds] at free
    rcases round.empty positive unseen with was | ⟨newslot, newFree, wasToo, earlier⟩
    · exact placed empty free was
    · obtain ⟨slot, seated, ordinary, front⟩ := placed newslot newFree wasToo
      exact ⟨slot, seated, ordinary, fun slotIsFree => lt_trans (front slotIsFree) earlier⟩
  · exact (round.full positive full free unseen).elim

theorem Round.speaker_stays (quiet : ¬ before.isEligible id) (speaks : id = before.vadParticipant)
    : after = before := by
  cases round with
  | waits eligible | kicks eligible | elected eligible => exact absurd eligible quiet
  | speaker => rfl
  | keeps => rfl
  | moves _ other | advances _ other => exact absurd speaks other

/-- No round leads anybody to the speaker's slot. -/
theorem Round.position_ordinary (ready : before.isEligible id → before.Ready kickables)
    {slot : Fin numSlots} (seated : after.position id = some slot)
    (speakers : before.mosaicSlots slot = slotVAD)
    : before.position id = some slot := by
  have searched (led : (before.moveToNextFreeSlot id).position id = some slot) : False := by
    rw [position_moveToNextFreeSlot, update_self] at led
    exact (freeSlot?_some led).1.ne_vad speakers
  have placed {mosaic : Mosaic numSlots} {newslot : Fin numSlots}
      (led : (mosaic.setPosition id (some newslot)).position id = some slot)
      (free : before.mosaicSlots newslot = slotFree) : False := by
    rw [position_setPosition, update_self] at led
    rw [← Option.some.inj led, free] at speakers
    exact absurd speakers (by decide)
  cases round with
  | waits | speaker | keeps => exact seated
  | elected | moves => exact (searched seated).elim
  | kicks eligible =>
    exact (placed seated (ready eligible _ List.mem_cons_self).2.1).elim
  | advances _ _ _ _ _ _ found =>
    exact (placed seated ((freeSlot?_some found).1.resolve_left (by omega)).1).elim

theorem Round.known (ready : before.isEligible id → before.Ready kickables) {other : Int}
    (present : after.participants.find? other ≠ none)
    : other = id ∨ before.participants.find? other ≠ none := by
  have searched (stored : (before.moveToNextFreeSlot id).participants.find? other ≠ none)
      : other = id ∨ before.participants.find? other ≠ none := by
    rcases moveToNextFreeSlot_cases before id with eq | ⟨slot, -, eq⟩
    · exact find?_setPosition (eq ▸ stored)
    · rw [eq] at stored
      exact find?_setPosition stored
  cases round with
  | waits | speaker | keeps => exact .inr present
  | elected | moves => exact searched present
  | advances => exact find?_setPosition present
  | kicks eligible =>
    rcases find?_setPosition present with same | kept
    · exact .inl same
    · rcases find?_setPosition kept with rfl | kept
      · have seated := (ready eligible _ List.mem_cons_self).1
        refine .inr (fun absent => ?_)
        rw [position_of_absent absent] at seated
        cases seated
      · exact .inr kept

end

end Round

/-- What a recalculation takes to leave no hole, beside the order of the flags: who is to be
elected is not shown in an ordinary slot, the speaker has no free slot, and whoever is recorded
in a speaker's slot is recorded in the first one.
-/
@[mk_iff] structure Tidy (mosaic : Mosaic numSlots) : Prop where
  orderly : mosaic.Orderly
  elected
    : ∀ entry ∈ mosaic.partVad.entries, entry.2.eligible → ∀ slot,
        mosaic.position entry.1 = some slot → mosaic.mosaicSlots slot = slotVAD
  speaker
    : ∀ slot, mosaic.position mosaic.vadParticipant = some slot
        → mosaic.mosaicSlots slot ≠ slotFree
  single
    : ∀ entry ∈ mosaic.participants.entries, ∀ slot, entry.2 = some slot
        → mosaic.mosaicSlots slot = slotVAD → some slot = mosaic.getVADPosition

/-- The second pass between two rounds, with those who have had theirs in place. -/
structure Compacting (start : Mosaic numSlots) (done : List Int)
    (state : Mosaic numSlots × List (Int × Fin numSlots)) : Prop where
  underway : Underway (fun _ => False) start done state
  placed
    : ∀ id ∈ done, id ≠ start.vadParticipant ∨ start.isEligible id
        → state.1.Placed start.getVADPosition id
  speaker
    : ¬ start.isEligible start.vadParticipant
        → ∀ slot, state.1.position start.vadParticipant = some slot
          → start.mosaicSlots slot ≠ slotFree
  single
    : ∀ id slot, state.1.position id = some slot → start.mosaicSlots slot = slotVAD
        → some slot = start.getVADPosition
  known
    : ∀ id, state.1.participants.find? id ≠ none → start.participants.find? id ≠ none

theorem Compacting.round {start : Mosaic numSlots} {done : List Int}
    {state : Mosaic numSlots × List (Int × Fin numSlots)} {id : Int}
    (compacting : Compacting start done state) (positive : 0 < id) (fresh : id ∉ done)
    (present : start.participants.find? id ≠ none)
    : Compacting start (done ++ [id]) (reshuffle start.getVADPosition state id) := by
  have underway := compacting.underway
  have round := reshuffle_round start.getVADPosition state id
  have kinds := underway.reseated.kinds
  have eligible (other : Int) := isEligible_congr underway.reseated.infos other
  have ready : state.1.isEligible id → state.1.Ready state.2 := by
    rw [eligible]
    exact underway.ready id
  refine ⟨underway.round nofun positive fresh, ?_, ?_, ?_, ?_⟩
  · intro other member taken
    by_cases own : other = id
    · rw [own] at taken ⊢
      refine round.placed underway.sound positive underway.speakers ?_
      rw [eligible, underway.reseated.speaker]
      exact taken
    · rw [List.mem_append, List.mem_singleton] at member
      exact round.placed_other positive own
        (compacting.placed other (member.resolve_right own) taken)
  · intro quiet slot seated
    by_cases own : start.vadParticipant = id
    · have stays := round.speaker_stays (by rwa [eligible, ← own])
        (by rw [underway.reseated.speaker, own])
      rw [stays] at seated
      exact compacting.speaker quiet slot seated
    · rcases round.position_other own with kept | ⟨gone, -⟩
      · exact compacting.speaker quiet slot (kept ▸ seated)
      · rw [gone] at seated
        cases seated
  · intro other slot seated isSpeakers
    by_cases own : other = id
    · rw [own] at seated
      exact compacting.single id slot
        (round.position_ordinary ready seated (kinds ▸ isSpeakers)) isSpeakers
    · rcases round.position_other own with kept | ⟨gone, -⟩
      · exact compacting.single other slot (kept ▸ seated) isSpeakers
      · rw [gone] at seated
        cases seated
  · intro other stored
    rcases round.known ready stored with rfl | before
    · exact present
    · exact compacting.known other before

theorem Compacting.pass (sound : mosaic.Sound (fun _ => False)) (tidy : mosaic.Tidy)
    : Compacting mosaic mosaic.participants.keys
        (run (reshuffle mosaic.getVADPosition) (mosaic, mosaic.kickables)
          mosaic.participants.keys) := by
  refine run_visits mosaic.participants.keys_nodup ?_ ?_
  · refine ⟨Underway.start sound tidy.orderly ?_, nofun, ?_, ?_, fun _ => id⟩
    · intro id eligible slot seated
      obtain ⟨info, known, flagged⟩ := isEligible_iff.mp eligible
      exact .inr (tidy.elected _ known flagged slot seated)
    · exact fun _ => tidy.speaker
    · intro id slot seated
      exact tidy.single _ (position_eq_some.mp seated) slot rfl
  · intro done state id present fresh compacting
    have known := Option.isSome_iff_ne_none.mp (OrderedMap.mem_keys.mp present)
    exact compacting.round (sound.positive id known) fresh known

/-- There is nothing to reset when the views agree. -/
theorem resetInconsistent_eq (sound : mosaic.Sound (fun _ => False))
    : mosaic.resetInconsistent = mosaic := by
  have kept : mosaic.resetInconsistent.mosaicPos = mosaic.mosaicPos := by
    funext slot
    refine if_neg ?_
    rintro ⟨free, positive, elsewhere⟩
    have here := sound.agree.listed (ne_of_gt positive) (by rw [free]; decide)
    exact elsewhere (here.resolve_right (·))
  have rest : mosaic.resetInconsistent
      = { mosaic with mosaicPos := mosaic.resetInconsistent.mosaicPos } := rfl
  rw [rest, kept]

/-- As long as a free slot is empty after a recalculation, everybody but the speaker is shown,
and everybody who is shown in a free slot is before the empty one.
-/
theorem no_holes {events : List MosaicOp}
    (permitted : EachStep step KeepsViews ({} : Mosaic numSlots) events)
    (tidy : (run step ({} : Mosaic numSlots) events).Tidy)
    : let mosaic := (run step ({} : Mosaic numSlots) events).calculatePositions
      ∀ empty, mosaic.mosaicSlots empty = slotFree → mosaic.mosaicPos empty = 0
      → (∀ id, mosaic.participants.find? id ≠ none → id ≠ mosaic.vadParticipant
          → ∃ slot, mosaic.mosaicPos slot = id)
        ∧ ∀ slot, mosaic.mosaicSlots slot = slotFree → mosaic.mosaicPos slot ≠ 0
          → slot < empty := by
  intro mosaic empty free unseen
  have pass := Compacting.pass (sound_run permitted) tidy
  have same : mosaic = (run (reshuffle _) (_, _) _).1 := resetInconsistent_eq pass.underway.sound
  rw [same] at free unseen ⊢
  generalize run step ({} : Mosaic numSlots) events = start at *
  generalize run (reshuffle start.getVADPosition) (start, start.kickables)
    start.participants.keys = after at *
  have sound := pass.underway.sound
  have visited {id : Int} (present : after.1.participants.find? id ≠ none)
      : id ∈ start.participants.keys := by
    rw [OrderedMap.mem_keys]
    exact Option.isSome_iff_ne_none.mpr (pass.known id present)
  refine ⟨?_, ?_⟩
  · intro id present other
    rw [pass.underway.reseated.speaker] at other
    obtain ⟨slot, seated, elsewhere, -⟩ :=
      pass.placed id (visited present) (.inl other) empty free unseen
    refine ⟨slot, sound.agree.recorded seated (fun isSpeakers => elsewhere ?_)⟩
    rw [pass.underway.reseated.kinds] at isSpeakers
    exact pass.single id slot seated isSpeakers
  · intro slot slotIsFree seen
    have seated := (sound.agree.listed seen (by rw [slotIsFree]; decide)).resolve_right (·)
    have present : after.1.participants.find? (after.1.mosaicPos slot) ≠ none := by
      intro absent
      rw [position_of_absent absent] at seated
      cases seated
    have taken : after.1.mosaicPos slot ≠ start.vadParticipant
        ∨ start.isEligible (after.1.mosaicPos slot) := by
      by_contra resting
      rw [not_or, not_not] at resting
      rw [resting.1] at seated resting
      refine pass.speaker resting.2 slot seated ?_
      rw [← pass.underway.reseated.kinds, slotIsFree]
    obtain ⟨here, recorded, -, front⟩ := pass.placed _ (visited present) taken empty free unseen
    obtain rfl := Option.some.inj (recorded.symm.trans seated)
    exact front slotIsFree

instance : Decidable mosaic.Tidy := decidable_of_iff' _ (tidy_iff mosaic)

/-- Two participants advance when the first slot has been set free. -/
theorem no_holes_advance
    : let mosaic := (run step ({} : Mosaic 4)
        [.addParticipant 1, .addParticipant 2, .addParticipant 3, .setSlot 0 slotReset 0,
          .removeParticipant 1, .setSlot 3 slotLocked 0]).calculatePositions
      mosaic.mosaicPos 2 = 0 ∧ mosaic.mosaicPos 1 = 3 ∧ (1 : Fin 4) < 2 := by
  have holes := @no_holes 4
    [.addParticipant 1, .addParticipant 2, .addParticipant 3, .setSlot 0 slotReset 0,
      .removeParticipant 1, .setSlot 3 slotLocked 0]
    (by decide +kernel) (by decide +kernel) 2 (by decide +kernel) (by decide +kernel)
  exact ⟨by decide +kernel, by decide +kernel, holes.2 1 (by decide +kernel) (by decide +kernel)⟩

/-- Who is flagged eligible from an earlier time, and shown by now, moves on to the next free
slot and leaves a hole.
-/
theorem hole_before_elected
    : let mosaic := (run step ({} : Mosaic 2)
        [.addParticipant 1, .addParticipant 2, .addParticipant 3, .updateParticipantInfo 3 50,
          .removeParticipant 1, .removeParticipant 2]).calculatePositions
      mosaic.mosaicSlots 0 = slotFree ∧ mosaic.mosaicPos 0 = 0
      ∧ mosaic.mosaicSlots 1 = slotFree ∧ mosaic.mosaicPos 1 = 3 := by
  decide +kernel

end MediaServer.Mosaic
