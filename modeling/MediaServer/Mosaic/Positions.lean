import MediaServer.Mosaic.Slots

/-! What the search for a free slot finds, and what one round of the recalculation changes. -/

namespace MediaServer.Mosaic

open Foundation OrderedMap

variable {numSlots : Nat} {mosaic : Mosaic numSlots}

def position (mosaic : Mosaic numSlots) (id : Int) : Position numSlots :=
  (mosaic.participants.find? id).join

variable {id : Int} {slot : Fin numSlots}

theorem position_eq_some
    : mosaic.position id = some slot ↔ (id, some slot) ∈ mosaic.participants.entries := by
  rw [position, Option.join_eq_some_iff, find?_eq_some_iff]

theorem position_setPosition (mosaic : Mosaic numSlots) (id : Int) (slot : Position numSlots)
    : (mosaic.setPosition id slot).position = Function.update mosaic.position id slot := by
  funext other
  rw [Function.update_apply, position, setPosition, find?_insert]
  by_cases same : other = id
  · rw [if_pos same, if_pos same, Option.join_some]
  · rw [if_neg same, if_neg same, position]

theorem find?_setPosition {id other : Int} {slot : Position numSlots}
    (known : (mosaic.setPosition id slot).participants.find? other ≠ none)
    : other = id ∨ mosaic.participants.find? other ≠ none := by
  rw [setPosition, find?_insert] at known
  split_ifs at known with same
  · exact .inl same
  · exact .inr known

section

variable (mosaic : Mosaic numSlots)

theorem position_erase (id : Int)
    : position
        { mosaic with
          participants := mosaic.participants.erase id
          partVad := mosaic.partVad.erase id }
      = Function.update mosaic.position id none := by
  funext other
  rw [Function.update_apply, position, find?_erase]
  by_cases same : other = id
  · rw [if_pos same, if_pos same, Option.join_none]
  · rw [if_neg same, if_neg same, position]

theorem takeOut_tables (id : Int) (slot : Position numSlots)
    : (mosaic.takeOut id slot).participants = mosaic.participants.erase id
      ∧ (mosaic.takeOut id slot).partVad = mosaic.partVad.erase id := by
  cases slot with
  | none => exact ⟨rfl, rfl⟩
  | some slot =>
    unfold takeOut leaveSlot
    dsimp only
    split_ifs <;> exact ⟨rfl, rfl⟩

theorem position_takeOut (id : Int) (slot : Position numSlots)
    : (mosaic.takeOut id slot).position = Function.update mosaic.position id none := by
  funext other
  rw [← position_erase, position, (takeOut_tables ..).1, position]

variable (num : Fin numSlots)

theorem mosaicSlots_relabel (id : Int)
    : (mosaic.relabel num id).mosaicSlots
      = if id ≠ slotReset then Function.update mosaic.mosaicSlots num id
        else mosaic.mosaicSlots := by
  unfold relabel
  split_ifs <;> rfl

theorem mosaicPos_relabel (id : Int) : (mosaic.relabel num id).mosaicPos = mosaic.mosaicPos := by
  unfold relabel
  split_ifs <;> rfl

theorem participants_relabel (id : Int)
    : (mosaic.relabel num id).participants = mosaic.participants := by
  unfold relabel
  split_ifs <;> rfl

theorem position_relabel (id : Int) : (mosaic.relabel num id).position = mosaic.position := by
  funext other
  rw [position, participants_relabel, position]

end

theorem freeSlot?_some (found : mosaic.freeSlot? id = some slot)
    : mosaic.Available id slot ∧ ∀ other, mosaic.Available id other → slot ≤ other := by
  obtain ⟨here, before⟩ := Fin.find?_eq_some_iff.mp found
  refine ⟨of_decide_eq_true here, fun other available => not_lt.mp (fun earlier => ?_)⟩
  exact of_decide_eq_false (before other earlier) available

theorem Available.ne_vad (available : mosaic.Available id slot)
    : mosaic.mosaicSlots slot ≠ slotVAD := by
  rcases available with ⟨positive, theirs⟩ | ⟨free, -⟩
  · rw [theirs, slotVAD]
    omega
  · rw [free]
    decide

theorem freeSlot?_none (full : mosaic.freeSlot? id = none) (slot : Fin numSlots)
    : ¬ mosaic.Available id slot :=
  of_decide_eq_false (Fin.find?_eq_none_iff.mp full slot)

theorem getVADPosition_some (found : mosaic.getVADPosition = some slot)
    : mosaic.mosaicSlots slot = slotVAD :=
  of_decide_eq_true (Fin.find?_eq_some_iff.mp found).1

theorem moveToNextFreeSlot_none (full : mosaic.freeSlot? id = none)
    : mosaic.moveToNextFreeSlot id = mosaic.setPosition id none := by
  simp only [moveToNextFreeSlot, getNextFreeSlot, full]

theorem moveToNextFreeSlot_some (positive : 0 < id) (found : mosaic.freeSlot? id = some slot)
    : mosaic.moveToNextFreeSlot id = (mosaic.setShown slot id).setPosition id (some slot) := by
  simp only [moveToNextFreeSlot, getNextFreeSlot, found, if_pos positive]

theorem moveToNextFreeSlot_cases (mosaic : Mosaic numSlots) (id : Int)
    : mosaic.moveToNextFreeSlot id = mosaic.setPosition id (mosaic.freeSlot? id)
      ∨ ∃ slot, mosaic.freeSlot? id = some slot
        ∧ mosaic.moveToNextFreeSlot id = (mosaic.setShown slot id).setPosition id (some slot) := by
  cases found : mosaic.freeSlot? id with
  | none => exact .inl (moveToNextFreeSlot_none found)
  | some slot =>
    simp only [moveToNextFreeSlot, getNextFreeSlot, found]
    split_ifs
    · exact .inr ⟨slot, rfl, rfl⟩
    · exact .inl rfl

theorem position_moveToNextFreeSlot (mosaic : Mosaic numSlots) (id : Int)
    : (mosaic.moveToNextFreeSlot id).position
      = Function.update mosaic.position id (mosaic.freeSlot? id) := by
  rcases moveToNextFreeSlot_cases mosaic id with eq | ⟨slot, found, eq⟩
  · rw [eq, position_setPosition]
  · rw [eq, found]
    exact position_setPosition ..

/-- It does not matter where the participant is recorded when it looks for a slot. -/
theorem moveToNextFreeSlot_setPosition (mosaic : Mosaic numSlots) (id : Int)
    (slot : Position numSlots)
    : (mosaic.setPosition id slot).moveToNextFreeSlot id = mosaic.moveToNextFreeSlot id := by
  have same : (mosaic.setPosition id slot).freeSlot? id = mosaic.freeSlot? id := rfl
  simp only [moveToNextFreeSlot, getNextFreeSlot, same]
  cases mosaic.freeSlot? id with
  | none => simp only [setPosition, insert_insert]
  | some found =>
    dsimp only
    split_ifs <;> simp only [setPosition, setShown, insert_insert]

/-- The participant moves to a slot that is fixed to it. -/
def occupy (mosaic : Mosaic numSlots) (num : Fin numSlots) (id : Int)
    (position : Position numSlots) : Mosaic numSlots :=
  ((mosaic.release position).setPosition id (some num)).setShown num id

/-- Somebody else who was shown there looks for another slot. -/
theorem fix_cases (num : Fin numSlots) {position : Position numSlots}
    (known : mosaic.participants.find? id = some position)
    : mosaic.fix num id = mosaic.occupy num id position
        ∧ (id = mosaic.mosaicPos num
          ∨ mosaic.participants.find? (mosaic.mosaicPos num) = none)
      ∨ mosaic.fix num id
          = (mosaic.occupy num id position).moveToNextFreeSlot (mosaic.mosaicPos num)
        ∧ id ≠ mosaic.mosaicPos num
        ∧ mosaic.participants.find? (mosaic.mosaicPos num) ≠ none := by
  have stored : (mosaic.occupy num id position).participants.find? (mosaic.mosaicPos num)
      = if mosaic.mosaicPos num = id then some (some num)
        else mosaic.participants.find? (mosaic.mosaicPos num) := by
    cases position <;> exact find?_insert ..
  simp only [fix, known]
  by_cases own : id = mosaic.mosaicPos num
  · refine .inl ⟨?_, .inl own⟩
    split
    · rfl
    · exact if_pos own
  · rw [if_neg (Ne.symm own)] at stored
    split
    · rename_i absent
      exact .inl ⟨rfl, .inr (stored.symm.trans absent)⟩
    · rename_i present
      refine .inr ⟨if_neg own, own, ?_⟩
      rw [← stored]
      exact present ▸ nofun

theorem mem_kickables {entry : Int × Fin numSlots} (member : entry ∈ mosaic.kickables)
    : (mosaic.partVad.find? entry.1).any PartInfo.kickable = true
      ∧ mosaic.position entry.1 = some entry.2 ∧ mosaic.isEligible entry.1 = false := by
  obtain ⟨⟨other, info⟩, known, given⟩ := List.mem_filterMap.mp member
  have found := find?_eq_some_iff.mpr known
  dsimp only at given
  split_ifs at given with flagged
  obtain ⟨slot, seated, rfl⟩ := Option.map_eq_some_iff.mp given
  have quiet : info.eligible = false := by
    have exclusive := info.exclusive
    rwa [flagged, Bool.true_and] at exclusive
  refine ⟨?_, seated, ?_⟩
  · rw [found]
    exact flagged
  · rw [isEligible, found]
    exact quiet

theorem kickables_distinct (mosaic : Mosaic numSlots)
    : mosaic.kickables.Pairwise (fun one other => one.1 ≠ other.1) := by
  unfold kickables
  rw [List.pairwise_filterMap]
  refine mosaic.partVad.sorted.imp ?_
  rintro ⟨one, info⟩ ⟨other, voice⟩ before first given second too
  dsimp only at given too
  split_ifs at given too
  obtain ⟨slot, -, rfl⟩ := Option.map_eq_some_iff.mp given
  obtain ⟨target, -, rfl⟩ := Option.map_eq_some_iff.mp too
  exact ne_of_lt before

/-! What stays. -/

structure Reseated (before after : Mosaic numSlots) : Prop where
  kinds : after.mosaicSlots = before.mosaicSlots
  infos : after.partVad = before.partVad
  speaker : after.vadParticipant = before.vadParticipant

namespace Reseated

variable (mosaic : Mosaic numSlots)

theorem refl : Reseated mosaic mosaic := ⟨rfl, rfl, rfl⟩

theorem trans {first second third : Mosaic numSlots} (one : Reseated first second)
    (two : Reseated second third)
    : Reseated first third :=
  ⟨two.kinds.trans one.kinds, two.infos.trans one.infos, two.speaker.trans one.speaker⟩

theorem moveToNextFreeSlot (id : Int) : Reseated mosaic (mosaic.moveToNextFreeSlot id) := by
  rcases moveToNextFreeSlot_cases mosaic id with eq | ⟨slot, -, eq⟩
  · exact eq ▸ ⟨rfl, rfl, rfl⟩
  · exact eq ▸ ⟨rfl, rfl, rfl⟩

end Reseated

/-! One round of the recalculation. -/

def kick (mosaic : Mosaic numSlots) (kicked id : Int) (newslot : Fin numSlots) : Mosaic numSlots :=
  ((mosaic.setShown newslot id).setPosition kicked none).setPosition id (some newslot)

def advance (mosaic : Mosaic numSlots) (id : Int) (oldslot newslot : Fin numSlots)
    : Mosaic numSlots :=
  ((mosaic.setShown newslot id).setShown oldslot 0).setPosition id (some newslot)

/-- What one round of the recalculation can do with a participant, and when. -/
inductive Round (vadPos : Position numSlots) (mosaic : Mosaic numSlots) (id : Int)
    : List (Int × Fin numSlots) → Mosaic numSlots → List (Int × Fin numSlots) → Prop
  | waits (eligible : mosaic.isEligible id) (full : mosaic.freeSlot? id = none)
    : Round vadPos mosaic id [] mosaic []
  | kicks {kicked : Int} {newslot : Fin numSlots} {rest : List (Int × Fin numSlots)}
    (eligible : mosaic.isEligible id) (full : mosaic.freeSlot? id = none)
    : Round vadPos mosaic id ((kicked, newslot) :: rest) (mosaic.kick kicked id newslot) rest
  | elected {kickables : List (Int × Fin numSlots)} {slot : Fin numSlots}
    (eligible : mosaic.isEligible id) (found : mosaic.freeSlot? id = some slot)
    : Round vadPos mosaic id kickables (mosaic.moveToNextFreeSlot id) kickables
  | speaker {kickables : List (Int × Fin numSlots)} (quiet : ¬ mosaic.isEligible id)
    (speaks : id = mosaic.vadParticipant)
    : Round vadPos mosaic id kickables mosaic kickables
  | moves {kickables : List (Int × Fin numSlots)} (quiet : ¬ mosaic.isEligible id)
    (other : id ≠ mosaic.vadParticipant)
    (homeless
      : ∀ slot, mosaic.position id = some slot
        → some slot = vadPos
          ∨ mosaic.mosaicSlots slot = slotFree ∧ mosaic.mosaicPos slot ≠ id)
    : Round vadPos mosaic id kickables (mosaic.moveToNextFreeSlot id) kickables
  | advances {kickables : List (Int × Fin numSlots)} {oldslot newslot : Fin numSlots}
    (quiet : ¬ mosaic.isEligible id) (other : id ≠ mosaic.vadParticipant)
    (seated : mosaic.position id = some oldslot) (ordinary : some oldslot ≠ vadPos)
    (free : mosaic.mosaicSlots oldslot = slotFree) (visible : mosaic.mosaicPos oldslot = id)
    (found : mosaic.freeSlot? 0 = some newslot) (earlier : newslot < oldslot)
    : Round vadPos mosaic id kickables (mosaic.advance id oldslot newslot) kickables
  | keeps {kickables : List (Int × Fin numSlots)} {oldslot : Fin numSlots}
    (quiet : ¬ mosaic.isEligible id) (other : id ≠ mosaic.vadParticipant)
    (seated : mosaic.position id = some oldslot) (ordinary : some oldslot ≠ vadPos)
    (front
      : mosaic.mosaicSlots oldslot = slotFree
        → ∀ newslot, mosaic.freeSlot? 0 = some newslot → ¬ newslot < oldslot)
    : Round vadPos mosaic id kickables mosaic kickables

variable {vadPos : Position numSlots}

theorem elect_round (eligible : mosaic.isEligible id) (kickables : List (Int × Fin numSlots))
    : Round vadPos mosaic id kickables (mosaic.elect kickables id).1
        (mosaic.elect kickables id).2 := by
  unfold elect
  cases found : mosaic.freeSlot? id with
  | some slot => exact .elected eligible found
  | none =>
    cases kickables with
    | nil => exact .waits eligible found
    | cons entry rest => exact .kicks eligible found

theorem rearrange_round (quiet : ¬ mosaic.isEligible id) (kickables : List (Int × Fin numSlots))
    : Round vadPos mosaic id kickables (mosaic.rearrange vadPos id) kickables := by
  unfold rearrange
  by_cases speaks : id = mosaic.vadParticipant
  · rw [if_pos speaks]
    exact .speaker quiet speaks
  rw [if_neg speaks, ← position]
  cases seated : mosaic.position id with
  | none => exact .moves quiet speaks (by simp [seated])
  | some oldslot =>
    by_cases ordinary : some oldslot = vadPos
    · simp only [if_pos ordinary]
      exact .moves quiet speaks
        (fun _ same => .inl ((same.symm.trans seated).trans ordinary))
    by_cases free : mosaic.mosaicSlots oldslot = slotFree
    · simp only [if_neg ordinary, if_pos free]
      by_cases visible : mosaic.mosaicPos oldslot = id
      · rw [compact, if_neg (not_not.mpr visible)]
        cases found : mosaic.freeSlot? 0 with
        | none => exact .keeps quiet speaks seated ordinary (by simp [found])
        | some newslot =>
          by_cases earlier : newslot < oldslot
          · simp only [if_pos earlier]
            exact .advances quiet speaks seated ordinary free visible found earlier
          · simp only [if_neg earlier]
            refine .keeps quiet speaks seated ordinary (fun _ other same => ?_)
            rwa [← Option.some.inj (found.symm.trans same)]
      · rw [compact, if_pos visible]
        refine .moves quiet speaks (fun slot same => .inr ?_)
        rw [← Option.some.inj (seated.symm.trans same)]
        exact ⟨free, visible⟩
    · simp only [if_neg ordinary, if_neg free]
      exact .keeps quiet speaks seated ordinary (fun isFree => absurd isFree free)

/-- Every round of the recalculation is one of these. -/
theorem reshuffle_round (vadPos : Position numSlots)
    (state : Mosaic numSlots × List (Int × Fin numSlots)) (id : Int)
    : Round vadPos state.1 id state.2 (reshuffle vadPos state id).1
        (reshuffle vadPos state id).2 := by
  unfold reshuffle
  split_ifs with eligible
  · exact elect_round eligible state.2
  · exact rearrange_round eligible state.2

theorem Round.reseated {before after : Mosaic numSlots} {kickables left : List (Int × Fin numSlots)}
    (round : Round vadPos before id kickables after left)
    : Reseated before after := by
  cases round with
  | waits | speaker | keeps => exact .refl before
  | kicks | advances => exact ⟨rfl, rfl, rfl⟩
  | elected | moves => exact .moveToNextFreeSlot before id

end MediaServer.Mosaic
