import MediaServer.Mosaic.Positions

/-! A slot that is fixed to a participant: what it takes that the participant stays there. -/

namespace MediaServer.Mosaic

open Foundation Function

variable {numSlots : Nat} {mosaic : Mosaic numSlots} {num : Fin numSlots} {id : Int}

/-- The slot is fixed to the participant and shows it, and nobody else is recorded there. -/
structure Pinned (mosaic : Mosaic numSlots) (num : Fin numSlots) (id : Int) : Prop where
  fixed : mosaic.mosaicSlots num = id
  visible : mosaic.mosaicPos num = id
  alone : ∀ other, mosaic.position other = some num → other = id

namespace Pinned

section

variable (pinned : mosaic.Pinned num id)
include pinned

/-- What the slot depends on. -/
theorem congr {after : Mosaic numSlots} (kinds : after.mosaicSlots = mosaic.mosaicSlots)
    (seen : after.mosaicPos = mosaic.mosaicPos)
    (recorded : after.participants = mosaic.participants)
    : after.Pinned num id where
  fixed := kinds ▸ pinned.fixed
  visible := seen ▸ pinned.visible
  alone other seated := pinned.alone other (by rwa [position, recorded] at seated)

theorem setShown {slot : Fin numSlots} {other : Int} (apart : slot = num → other = id)
    : (mosaic.setShown slot other).Pinned num id := by
  refine ⟨pinned.fixed, ?_, pinned.alone⟩
  refine (update_apply mosaic.mosaicPos slot other num).trans ?_
  split_ifs with same
  · exact apart same.symm
  · exact pinned.visible

theorem setPosition {other : Int} {slot : Position numSlots} (apart : slot = some num → other = id)
    : (mosaic.setPosition other slot).Pinned num id := by
  refine ⟨pinned.fixed, pinned.visible, fun someone seated => ?_⟩
  rw [position_setPosition, update_apply] at seated
  split_ifs at seated with same
  · exact same.trans (apart seated)
  · exact pinned.alone someone seated

theorem setKind {slot : Fin numSlots} (kind : Int) (apart : num ≠ slot)
    : (mosaic.setKind slot kind).Pinned num id := by
  refine ⟨?_, pinned.visible, pinned.alone⟩
  exact (update_of_ne apart kind mosaic.mosaicSlots).trans pinned.fixed

theorem not_free (positive : 0 < id) : mosaic.mosaicSlots num ≠ slotFree := by
  rw [pinned.fixed, slotFree]
  omega

theorem moveToNextFreeSlot (positive : 0 < id) (other : Int)
    : (mosaic.moveToNextFreeSlot other).Pinned num id := by
  -- the search leads nobody else to the slot
  have apart (found : mosaic.freeSlot? other = some num) : other = id := by
    rcases (freeSlot?_some found).1 with ⟨-, theirs⟩ | ⟨free, -⟩
    · exact theirs.symm.trans pinned.fixed
    · exact absurd free (pinned.not_free positive)
  rcases moveToNextFreeSlot_cases mosaic other with eq | ⟨slot, found, eq⟩
  · rw [eq]
    exact pinned.setPosition apart
  · rw [eq, ← found]
    exact (pinned.setShown (fun same => apart (same ▸ found))).setPosition apart

/-- One round of the recalculation, where the slot is not to be kicked. -/
theorem round (positive : 0 < id) {vadPos : Position numSlots} {other : Int}
    {kickables left : List (Int × Fin numSlots)} {after : Mosaic numSlots}
    (spared : ∀ entry ∈ kickables, entry.2 ≠ num)
    (round : Round vadPos mosaic other kickables after left)
    : after.Pinned num id ∧ ∀ entry ∈ left, entry.2 ≠ num := by
  cases round with
  | waits | speaker | keeps => exact ⟨pinned, spared⟩
  | elected | moves => exact ⟨pinned.moveToNextFreeSlot positive other, spared⟩
  | @kicks kicked newslot rest =>
    rw [List.forall_mem_cons] at spared
    have seen : (mosaic.setShown newslot other).Pinned num id :=
      pinned.setShown (fun same => absurd same spared.1)
    have gone : ((mosaic.setShown newslot other).setPosition kicked none).Pinned num id :=
      seen.setPosition nofun
    exact ⟨gone.setPosition (fun same => absurd (Option.some.inj same) spared.1), spared.2⟩
  | @advances _ oldslot newslot _ _ seated _ free _ found _ =>
    have apart : newslot ≠ num := by
      rintro rfl
      exact pinned.not_free positive ((freeSlot?_some found).1.resolve_left (by omega)).1
    have left : oldslot ≠ num := by
      rintro rfl
      exact pinned.not_free positive free
    refine ⟨?_, spared⟩
    exact ((pinned.setShown (fun same => absurd same apart)).setShown
      (fun same => absurd same left)).setPosition
        (fun same => absurd (Option.some.inj same) apart)

end

end Pinned

/-! Operations. -/

/-- The participant is recorded in the slot, and an old voice level has made it kickable. -/
def Exposed (mosaic : Mosaic numSlots) (num : Fin numSlots) (id : Int) : Prop :=
  (mosaic.partVad.find? id).any PartInfo.kickable = true ∧ mosaic.position id = some num

instance (num : Fin numSlots) (id : Int) : Decidable (mosaic.Exposed num id) := by
  unfold Exposed
  infer_instance

theorem Pinned.resetInconsistent (pinned : mosaic.Pinned num id) (positive : 0 < id)
    : mosaic.resetInconsistent.Pinned num id := by
  refine ⟨pinned.fixed, ?_, pinned.alone⟩
  rw [Mosaic.resetInconsistent]
  dsimp only
  rw [if_neg (fun reset => pinned.not_free positive reset.1)]
  exact pinned.visible

theorem Pinned.calculatePositions (pinned : mosaic.Pinned num id) (positive : 0 < id)
    (safe : ¬ mosaic.Exposed num id)
    : mosaic.calculatePositions.Pinned num id := by
  have spared : ∀ entry ∈ mosaic.kickables, entry.2 ≠ num := by
    rintro entry member rfl
    obtain ⟨flagged, seated, -⟩ := mem_kickables member
    obtain rfl := pinned.alone entry.1 seated
    exact safe ⟨flagged, seated⟩
  have kept := @run_invariant _ _ (reshuffle mosaic.getVADPosition)
    (fun state => state.1.Pinned num id ∧ ∀ entry ∈ state.2, entry.2 ≠ num)
    (fun state other holds => holds.1.round positive holds.2 (reshuffle_round _ state other))
    (mosaic, mosaic.kickables) ⟨pinned, spared⟩ mosaic.participants.keys
  exact kept.1.resetInconsistent positive

variable {slot : Fin numSlots}

theorem Pinned.leaveSlot (pinned : mosaic.Pinned num id) (other : Int) (elsewhere : slot ≠ num)
    : (mosaic.leaveSlot slot other).Pinned num id := by
  have labelled : (if mosaic.mosaicSlots slot = other then mosaic.setKind slot slotLocked
      else mosaic).Pinned num id := by
    split_ifs
    · exact pinned.setKind slotLocked elsewhere.symm
    · exact pinned
  have cleared := @Pinned.setShown _ _ _ _ labelled slot 0 (fun same => absurd same elsewhere)
  exact cleared.congr rfl rfl rfl

variable {other : Int}

section

variable (pinned : mosaic.Pinned num id)
include pinned

theorem Pinned.takeOut {slot : Position numSlots}
    (known : mosaic.participants.find? other = some slot) (apart : other ≠ id)
    : (mosaic.takeOut other slot).Pinned num id := by
  have gone : Pinned
      { mosaic with
        participants := mosaic.participants.erase other
        partVad := mosaic.partVad.erase other } num id := by
    refine ⟨pinned.fixed, pinned.visible, fun someone seated => ?_⟩
    rw [position_erase, update_apply] at seated
    split_ifs at seated
    exact pinned.alone someone seated
  cases slot with
  | none => exact gone
  | some slot =>
    refine gone.leaveSlot other ?_
    rintro rfl
    exact apart (pinned.alone other (by rw [position, known, Option.join_some]))

theorem Pinned.release {slot : Position numSlots} (apart : slot ≠ some num)
    : (mosaic.release slot).Pinned num id := by
  cases slot with
  | none => exact pinned
  | some slot =>
    have elsewhere : num ≠ slot := fun same => apart (congrArg some same.symm)
    exact (pinned.setKind slotFree elsewhere).setShown
      (fun same => absurd same.symm elsewhere)

theorem Pinned.fix (positive : 0 < id) (elsewhere : slot ≠ num) (apart : other ≠ id)
    : (mosaic.fix slot other).Pinned num id := by
  cases known : mosaic.participants.find? other with
  | none =>
    simp only [Mosaic.fix, known]
    split
    · exact pinned
    · split_ifs
      · exact pinned
      · exact pinned.moveToNextFreeSlot positive _
  | some position =>
    have away : position ≠ some num := by
      rintro rfl
      exact apart (pinned.alone other (by rw [Mosaic.position, known, Option.join_some]))
    have seated : (mosaic.occupy slot other position).Pinned num id :=
      ((pinned.release away).setPosition
        (fun same => absurd (Option.some.inj same) elsewhere)).setShown
          (fun same => absurd same elsewhere)
    rcases fix_cases slot known with ⟨eq, -⟩ | ⟨eq, -⟩
    · exact eq ▸ seated
    · exact eq ▸ seated.moveToNextFreeSlot positive _

theorem Pinned.hide (elsewhere : slot ≠ num) : (mosaic.hide slot).Pinned num id := by
  unfold Mosaic.hide
  dsimp only
  split
  · exact pinned.setShown (fun same => absurd same elsewhere)
  · have gone : (mosaic.setPosition (mosaic.mosaicPos slot) none).Pinned num id :=
      pinned.setPosition nofun
    exact gone.setShown (fun same => absurd same elsewhere)

theorem Pinned.vacate (positive : 0 < id) (elsewhere : slot ≠ num)
    : (mosaic.vacate slot).Pinned num id := by
  unfold Mosaic.vacate
  dsimp only
  split
  · exact pinned.setShown (fun same => absurd same elsewhere)
  · exact (pinned.moveToNextFreeSlot positive _).setShown (fun same => absurd same elsewhere)

theorem Pinned.relabel (other : Int) (elsewhere : slot ≠ num)
    : (mosaic.relabel slot other).Pinned num id := by
  unfold Mosaic.relabel
  dsimp only
  have quieted : Pinned { mosaic with vadParticipant := 0 } num id := pinned.congr rfl rfl rfl
  split_ifs
  · exact quieted.setKind other elsewhere.symm
  · exact pinned.setKind other elsewhere.symm
  · exact quieted
  · exact pinned

theorem Pinned.setSlotAt (positive : 0 < id) (blockedUntil : UInt64) (elsewhere : slot ≠ num)
    (apart : other ≠ id)
    : (mosaic.setSlotAt slot other blockedUntil).Pinned num id := by
  have labelled := pinned.relabel other elsewhere
  have housed : ((mosaic.relabel slot other).rehouse slot other).Pinned num id := by
    unfold rehouse
    split_ifs
    · exact labelled.fix positive elsewhere apart
    · exact labelled.hide elsewhere
    · exact labelled.vacate positive elsewhere
    · exact labelled.vacate positive elsewhere
    · exact labelled
    · exact labelled.hide elsewhere
    · exact labelled
    · exact labelled
  exact housed.congr rfl rfl rfl

theorem Pinned.showSpeaker (positive : 0 < id) (other : Int) (blockedUntil : UInt64)
    : (mosaic.showSpeaker other blockedUntil).Pinned num id := by
  unfold Mosaic.showSpeaker
  split
  · exact pinned
  · rename_i slot found
    have elsewhere : slot ≠ num := by
      rintro rfl
      have speakers := getVADPosition_some found
      rw [pinned.fixed, slotVAD] at speakers
      omega
    have seen : (mosaic.setShown slot other).Pinned num id :=
      pinned.setShown (fun same => absurd same elsewhere)
    exact seen.congr rfl rfl rfl

theorem Pinned.setVADParticipant (positive : 0 < id) (other : Int) (blockedUntil : UInt64)
    : (mosaic.setVADParticipant other blockedUntil).Pinned num id := by
  have named : Mosaic.Pinned { mosaic with vadParticipant := other } num id :=
    pinned.congr rfl rfl rfl
  have seen := named.showSpeaker positive other blockedUntil
  unfold Mosaic.setVADParticipant
  dsimp only
  split
  · exact seen
  · exact seen.congr rfl rfl rfl

end

/-- Who was in the slot before looks for another one, which is not the same. -/
theorem moveToNextFreeSlot_pinned (positive : 0 < id) {displaced : Int}
    (fixed : mosaic.mosaicSlots num = id) (visible : mosaic.mosaicPos num = id)
    (alone : ∀ other, mosaic.position other = some num → other = id ∨ other = displaced)
    : (mosaic.moveToNextFreeSlot displaced).Pinned num id := by
  have gone : (mosaic.setPosition displaced none).Pinned num id := by
    refine ⟨fixed, visible, fun other seated => ?_⟩
    rw [position_setPosition, update_apply] at seated
    split_ifs at seated with same
    exact (alone other seated).resolve_right same
  rw [← moveToNextFreeSlot_setPosition mosaic displaced none]
  exact gone.moveToNextFreeSlot positive displaced

variable {position : Position numSlots}

theorem mosaicSlots_fix (num : Fin numSlots) (known : mosaic.participants.find? id = some position)
    : (mosaic.fix num id).mosaicSlots = (mosaic.release position).mosaicSlots := by
  rcases fix_cases num known with ⟨eq, -⟩ | ⟨eq, -⟩
  · rw [eq]
    rfl
  · rw [eq]
    exact (Reseated.moveToNextFreeSlot _ _).kinds

theorem position_release (position : Position numSlots)
    : (mosaic.release position).position = mosaic.position := by
  cases position <;> rfl

theorem moveToNextFreeSlot_visible (positive : 0 < id) (fixed : mosaic.mosaicSlots num = id)
    (visible : mosaic.mosaicPos num = id) (other : Int)
    : (mosaic.moveToNextFreeSlot other).mosaicPos num = id := by
  rcases moveToNextFreeSlot_cases mosaic other with eq | ⟨slot, found, eq⟩
  · rwa [eq]
  · rw [eq]
    refine (update_apply mosaic.mosaicPos slot other num).trans ?_
    split_ifs with same
    · rcases (freeSlot?_some found).1 with ⟨-, theirs⟩ | ⟨free, -⟩
      · rw [← theirs, ← same, fixed]
      · rw [← same, fixed, slotFree] at free
        omega
    · exact visible

theorem mosaicSlots_release (away : position ≠ some num)
    : (mosaic.release position).mosaicSlots num = mosaic.mosaicSlots num := by
  cases position with
  | none => rfl
  | some slot =>
    have elsewhere : num ≠ slot := fun same => away (congrArg some same.symm)
    exact update_of_ne elsewhere ..

/-- A slot that is fixed to a participant from elsewhere shows it. -/
theorem fix_visible (positive : 0 < id) (known : mosaic.participants.find? id = some position)
    (away : position ≠ some num) (fixed : mosaic.mosaicSlots num = id)
    : (mosaic.fix num id).mosaicPos num = id := by
  have visible : (mosaic.occupy num id position).mosaicPos num = id := update_self ..
  have stillFixed : (mosaic.occupy num id position).mosaicSlots num = id :=
    (mosaicSlots_release away).trans fixed
  rcases fix_cases num known with ⟨eq, -⟩ | ⟨eq, -⟩
  · exact eq ▸ visible
  · exact eq ▸ moveToNextFreeSlot_visible positive stillFixed visible _

/-- A slot that is fixed to a participant from elsewhere. -/
theorem fix_pinned (positive : 0 < id) (known : mosaic.participants.find? id = some position)
    (away : position ≠ some num) (fixed : mosaic.mosaicSlots num = id)
    (others : ∀ other, mosaic.position other = some num → mosaic.mosaicPos num = other)
    : (mosaic.fix num id).Pinned num id := by
  have kept : (mosaic.occupy num id position).mosaicSlots num = id :=
    (mosaicSlots_release away).trans fixed
  have alone {other : Int} (seated : (mosaic.occupy num id position).position other = some num)
      : other = id ∨ mosaic.position other = some num := by
    have recorded : ((mosaic.release position).setPosition id (some num)).position other
        = some num := seated
    rw [position_setPosition, position_release, update_apply] at recorded
    split_ifs at recorded with same
    · exact .inl same
    · exact .inr recorded
  have visible : (mosaic.occupy num id position).mosaicPos num = id := update_self ..
  rcases fix_cases num known with ⟨eq, nobody⟩ | ⟨eq, -⟩
  · rw [eq]
    refine ⟨kept, visible, fun other seated => (alone seated).elim (·) (fun recorded => ?_)⟩
    rcases nobody with own | absent
    · exact (others other recorded).symm.trans own.symm
    · rw [others other recorded] at absent
      rw [Mosaic.position, absent] at recorded
      cases recorded
  · rw [eq]
    exact moveToNextFreeSlot_pinned positive kept visible
      (fun other seated => (alone seated).imp_right (fun recorded => (others other recorded).symm))

/-- The slot is not fixed if the participant is recorded there already: the old slot of the
participant is set free after the new one has been fixed.
-/
theorem fix_own (known : mosaic.participants.find? id = some (some num))
    : (mosaic.fix num id).mosaicSlots num = slotFree := by
  rw [mosaicSlots_fix num known]
  exact update_self ..

/-! Runs. -/

/-- The operations that leave a pinned participant alone. The recalculation does so unless an
old voice level still has the participant kickable.
-/
def Spares (num : Fin numSlots) (id : Int) (mosaic : Mosaic numSlots) : MosaicOp → Prop
  | .removeParticipant other => other ≠ id ∧ ¬ mosaic.Exposed num id
  | .setSlot slot other _ => slot ≠ (num.val : Int) ∧ other ≠ id
  | .calculatePositions => ¬ mosaic.Exposed num id
  | .addParticipant _ | .updateParticipantInfo .. | .setVADParticipant .. => True

instance (num : Fin numSlots) (id : Int) (mosaic : Mosaic numSlots) (op : MosaicOp)
    : Decidable (Spares num id mosaic op) := by
  unfold Spares
  split <;> infer_instance

theorem not_exposed_takeOut {slot : Position numSlots} (apart : other ≠ id)
    (safe : ¬ mosaic.Exposed num id)
    : ¬ (mosaic.takeOut other slot).Exposed num id := by
  rw [Exposed, position_takeOut, (takeOut_tables ..).2, update_of_ne apart.symm,
    OrderedMap.find?_erase, if_neg apart.symm]
  exact safe

theorem Pinned.step (pinned : mosaic.Pinned num id) (positive : 0 < id) {op : MosaicOp}
    (spares : Spares num id mosaic op)
    : (mosaic.step op).Pinned num id := by
  cases op with
  | addParticipant other =>
    unfold Mosaic.step addParticipant
    dsimp only
    split
    · exact pinned
    · exact (pinned.moveToNextFreeSlot positive other).congr rfl rfl rfl
  | removeParticipant other =>
    unfold Mosaic.step removeParticipant
    dsimp only
    split
    · exact pinned
    · rename_i slot known
      exact (pinned.takeOut known spares.1).calculatePositions positive
        (not_exposed_takeOut spares.1 spares.2)
  | updateParticipantInfo other vadLevel =>
    unfold Mosaic.step updateParticipantInfo
    dsimp only
    split
    · exact pinned.congr rfl rfl rfl
    · exact pinned
  | setSlot slot other blockedUntil =>
    unfold Mosaic.step setSlot
    dsimp only
    split_ifs with inside
    · refine pinned.setSlotAt positive blockedUntil ?_ spares.2
      rintro rfl
      exact spares.1 (by simp; omega)
    · exact pinned
  | setVADParticipant other blockedUntil =>
    exact pinned.setVADParticipant positive other blockedUntil
  | calculatePositions => exact pinned.calculatePositions positive spares

theorem setSlot_val (num : Fin numSlots) (id : Int) (blockedUntil : UInt64)
    : mosaic.setSlot num.val id blockedUntil = mosaic.setSlotAt num id blockedUntil := by
  rw [setSlot, dif_pos (by omega)]
  rfl

/-- A participant that is pinned to a slot is fixed and shown there exactly when it was not
recorded there before. It stays there as long as it is not flagged kickable at a recalculation,
if nobody beside the one shown there was recorded in the slot.
-/
theorem pinned_stays (positive : 0 < id) (present : mosaic.participants.find? id ≠ none)
    (blockedUntil : UInt64)
    : let pinned := mosaic.setSlot num.val id blockedUntil
      (pinned.mosaicSlots num = id ∧ pinned.mosaicPos num = id
        ↔ mosaic.position id ≠ some num)
      ∧ (mosaic.position id ≠ some num
        → (∀ other, mosaic.position other = some num → mosaic.mosaicPos num = other)
        → ∀ events, EachStep step (Spares num id) pinned events
        → (run step pinned events).mosaicSlots num = id
          ∧ (run step pinned events).mosaicPos num = id) := by
  obtain ⟨position, known⟩ := Option.ne_none_iff_exists'.mp present
  have same : mosaic.position id = position := by rw [Mosaic.position, known, Option.join_some]
  have knownToo : (mosaic.relabel num id).participants.find? id = some position := by
    rw [participants_relabel, known]
  have fixed : (mosaic.relabel num id).mosaicSlots num = id := by
    rw [mosaicSlots_relabel, if_pos (by rw [slotReset]; omega), update_self]
  dsimp only
  rw [setSlot_val, setSlotAt, rehouse, if_pos positive, same]
  refine ⟨?_, fun away others events spared => ?_⟩
  · constructor
    · rintro ⟨stillFixed, -⟩ rfl
      have freed := (fix_own knownToo).symm.trans stillFixed
      rw [slotFree] at freed
      omega
    · intro away
      refine ⟨?_, fix_visible positive knownToo away fixed⟩
      exact (congrFun (mosaicSlots_fix num knownToo) num).trans
        ((mosaicSlots_release away).trans fixed)
  · have pins : (((mosaic.relabel num id).fix num id).block num blockedUntil).Pinned num id := by
      refine (fix_pinned positive knownToo away fixed ?_).congr rfl rfl rfl
      intro other seated
      rw [mosaicPos_relabel]
      exact others other (by rwa [position_relabel] at seated)
    have kept := @run_invariant_of_eachStep _ _ step (Spares num id) (Pinned · num id)
      (fun _ _ holds spares => holds.step positive spares) _ pins _ spared
    exact ⟨kept.fixed, kept.visible⟩

/-- Three participants, of which two are shown. -/
def crowdedPair : Mosaic 2 :=
  run step {} [.addParticipant 1, .addParticipant 2, .addParticipant 3]

/-- The second one is pinned to the first slot, and stays there when the third one speaks. -/
theorem pinned_stays_crowded
    : let pinned := crowdedPair.setSlot 0 2 0
      let spoken := run step pinned [.updateParticipantInfo 3 50, .calculatePositions]
      spoken.mosaicSlots 0 = 2 ∧ spoken.mosaicPos 0 = 2 := by
  have stays := (@pinned_stays 2 crowdedPair 0 2 (by decide) (by decide +kernel) 0).2
  have others : ∀ entry ∈ crowdedPair.participants.entries,
      entry.2 = some 0 → crowdedPair.mosaicPos 0 = entry.1 := by
    decide +kernel
  exact stays (by decide +kernel) (fun _ seated => others _ (position_eq_some.mp seated) rfl)
    [.updateParticipantInfo 3 50, .calculatePositions] (by decide +kernel)

/-- Pinned to the slot where it is, the participant is not fixed. Pinned after it was flagged
kickable, it loses its slot to the next one that speaks.
-/
theorem pinned_participant_lost
    : let mosaic := crowdedPair.updateParticipantInfo 2 0
      (mosaic.setSlot 1 2 0).mosaicSlots 1 = slotFree
      ∧ (mosaic.setSlot 0 2 0).mosaicSlots 0 = 2
      ∧ (mosaic.setSlot 0 2 0).mosaicPos 0 = 2
      ∧ (run step (mosaic.setSlot 0 2 0)
          [.updateParticipantInfo 3 50, .calculatePositions]).mosaicPos 0 = 3 := by
  decide +kernel

end MediaServer.Mosaic
