import MediaServer.Mosaic.Slots

/-! Two views of who is where: the slot that is recorded for each participant, and the
participant that is shown in each slot. The elementary changes that keep them in agreement.
-/

namespace MediaServer.Mosaic

open Foundation Function

variable {numSlots : Nat} {slot : Fin numSlots}

theorem update_none_eq_some {position : Int → Position numSlots} {id other : Int}
    : Function.update position id none other = some slot
      ↔ other ≠ id ∧ position other = some slot := by
  rw [update_apply]
  split_ifs with same <;> simp [same]

theorem update_some_eq_some {position : Int → Position numSlots} {id other : Int}
    {slot target : Fin numSlots}
    : Function.update position id (some target) other = some slot
      ↔ other = id ∧ target = slot ∨ other ≠ id ∧ position other = some slot := by
  rw [update_apply]
  split_ifs with same <;> simp [same]

/-- Outside the speaker's slots the two views agree, except that a stale slot may still show
somebody who is recorded elsewhere.
-/
structure Agree (stale : Fin numSlots → Prop) (position : Int → Position numSlots)
    (kind shown : Fin numSlots → Int) : Prop where
  positive : ∀ {id slot}, position id = some slot → 0 < id
  recorded : ∀ {id slot}, position id = some slot → kind slot ≠ slotVAD → shown slot = id
  alone : ∀ {id other slot}, position id = some slot → position other = some slot → id = other
  listed
    : ∀ {slot}, shown slot ≠ 0 → kind slot ≠ slotVAD
      → position (shown slot) = some slot ∨ stale slot
  own : ∀ {slot}, 0 < kind slot → shown slot = 0 ∨ shown slot = kind slot ∨ stale slot

namespace Agree

variable {stale : Fin numSlots → Prop} {position : Int → Position numSlots}
  {kind shown : Fin numSlots → Int}

section

variable (agree : Agree stale position kind shown)
include agree

theorem weaken {other : Fin numSlots → Prop} (weaker : ∀ slot, stale slot → other slot)
    : Agree other position kind shown :=
  { agree with
    listed := fun seen ordinary => (agree.listed seen ordinary).imp_right (weaker _)
    own := fun fixed => (agree.own fixed).imp_right (Or.imp_right (weaker _)) }

/-- Somebody is recorded as not shown. What shows them is stale. -/
theorem unrecord (id : Int)
    (left : ∀ slot, position id = some slot → stale slot ∨ kind slot = slotVAD)
    : Agree stale (Function.update position id none) kind shown := by
  refine ⟨?_, ?_, ?_, ?_, agree.own⟩
  · intro other slot recorded
    exact agree.positive (update_none_eq_some.mp recorded).2
  · intro other slot recorded ordinary
    exact agree.recorded (update_none_eq_some.mp recorded).2 ordinary
  · intro first second slot recorded too
    exact agree.alone (update_none_eq_some.mp recorded).2 (update_none_eq_some.mp too).2
  · intro slot seen ordinary
    rcases agree.listed seen ordinary with recorded | outdated
    · by_cases same : shown slot = id
      · exact .inr ((left slot (same ▸ recorded)).resolve_right ordinary)
      · exact .inl (update_none_eq_some.mpr ⟨same, recorded⟩)
    · exact .inr outdated

/-- Only one slot changes, and both views agree on it afterwards. -/
theorem change {later : Fin numSlots → Prop} {newKind newShown : Fin numSlots → Int}
    (others
      : ∀ other, other ≠ slot
        → newKind other = kind other ∧ newShown other = shown other
          ∧ (stale other → later other))
    (recorded : ∀ id, position id = some slot → newKind slot ≠ slotVAD → newShown slot = id)
    (listed
      : newShown slot ≠ 0 → newKind slot ≠ slotVAD
        → position (newShown slot) = some slot ∨ later slot)
    (own : 0 < newKind slot → newShown slot = 0 ∨ newShown slot = newKind slot ∨ later slot)
    : Agree later position newKind newShown := by
  refine ⟨agree.positive, ?_, agree.alone, ?_, ?_⟩
  · intro id other seated ordinary
    obtain rfl | apart := eq_or_ne other slot
    · exact recorded id seated ordinary
    · obtain ⟨sameKind, sameShown, -⟩ := others other apart
      exact sameShown.trans (agree.recorded seated (sameKind ▸ ordinary))
  · intro other seen ordinary
    obtain rfl | apart := eq_or_ne other slot
    · exact listed seen ordinary
    · obtain ⟨sameKind, sameShown, weaker⟩ := others other apart
      rw [sameKind] at ordinary
      rw [sameShown] at seen ⊢
      exact (agree.listed seen ordinary).imp_right weaker
  · intro other fixed
    obtain rfl | apart := eq_or_ne other slot
    · exact own fixed
    · obtain ⟨sameKind, sameShown, weaker⟩ := others other apart
      rw [sameKind] at fixed ⊢
      rw [sameShown]
      exact (agree.own fixed).imp_right (Or.imp_right weaker)

/-- A slot for which nobody is recorded shows nobody from now on. -/
theorem clear (slot : Fin numSlots) (nobody : ∀ id, position id = some slot → kind slot = slotVAD)
    : Agree (fun other => stale other ∧ other ≠ slot) position kind
        (Function.update shown slot 0) := by
  refine @change _ slot _ _ _ _ agree _ _ _
    (fun _ apart => ⟨rfl, update_of_ne apart .., (⟨·, apart⟩)⟩) ?_ ?_ ?_
  · exact fun id seated ordinary => absurd (nobody id seated) ordinary
  · exact fun seen => absurd (update_self ..) seen
  · exact fun _ => .inl (update_self ..)

/-- Somebody leaves a slot. -/
theorem lift {id : Int} (seated : position id = some slot)
    : Agree stale (Function.update position id none) kind (Function.update shown slot 0) := by
  have outdated : Agree (fun other => stale other ∨ other = slot) position kind shown :=
    agree.weaken (fun _ => .inl)
  have unrecorded := outdated.unrecord id (by
    intro other recorded
    exact .inl (.inr (Option.some.inj (recorded.symm.trans seated))))
  have cleared := unrecorded.clear slot (by
    intro other recorded
    obtain ⟨different, too⟩ := update_none_eq_some.mp recorded
    exact absurd (agree.alone too seated) different)
  refine cleared.weaken ?_
  rintro other ⟨outdated | same, different⟩
  · exact outdated
  · exact absurd same different

/-- Somebody takes a slot that is kept for them or for nobody. -/
theorem seat {id : Int} (positive : 0 < id) (ordinary : kind slot ≠ slotVAD)
    (theirs : 0 < kind slot → kind slot = id)
    (nobody : ∀ other, position other = some slot → other = id)
    (left : ∀ old, position id = some old → old ≠ slot → stale old ∨ kind old = slotVAD)
    : Agree (fun other => stale other ∧ other ≠ slot) (Function.update position id (some slot))
        kind (Function.update shown slot id) := by
  refine ⟨?_, ?_, ?_, ?_, ?_⟩
  · intro other old recorded
    rcases update_some_eq_some.mp recorded with ⟨rfl, -⟩ | ⟨-, before⟩
    · exact positive
    · exact agree.positive before
  · intro other old recorded ordinaryOld
    rcases update_some_eq_some.mp recorded with ⟨rfl, rfl⟩ | ⟨different, before⟩
    · exact update_self ..
    · have apart : old ≠ slot := by
        rintro rfl
        exact different (nobody other before)
      rw [update_of_ne apart]
      exact agree.recorded before ordinaryOld
  · intro first second old recorded too
    rcases update_some_eq_some.mp recorded with ⟨rfl, rfl⟩ | ⟨different, before⟩
    · rcases update_some_eq_some.mp too with ⟨rfl, -⟩ | ⟨-, secondBefore⟩
      · rfl
      · exact (nobody second secondBefore).symm
    · rcases update_some_eq_some.mp too with ⟨rfl, rfl⟩ | ⟨-, secondBefore⟩
      · exact nobody first before
      · exact agree.alone before secondBefore
  · intro other seen ordinaryOther
    by_cases same : other = slot
    · rw [same, update_self]
      exact .inl (update_self ..)
    · rw [update_of_ne same] at seen ⊢
      rcases agree.listed seen ordinaryOther with recorded | outdated
      · by_cases mover : shown other = id
        · have gone := (left other (mover ▸ recorded) same).resolve_right ordinaryOther
          exact .inr ⟨gone, same⟩
        · exact .inl (update_some_eq_some.mpr (.inr ⟨mover, recorded⟩))
      · exact .inr ⟨outdated, same⟩
  · intro other fixed
    by_cases same : other = slot
    · rw [same] at fixed ⊢
      rw [update_self]
      exact .inr (.inl (theirs fixed).symm)
    · rw [update_of_ne same]
      exact (agree.own fixed).imp_right (Or.imp_right (⟨·, same⟩))

/-- A slot becomes free, locked or fixed. -/
theorem setKind {new : Int} (recorded : ∀ id, position id = some slot → shown slot = id)
    (listed : shown slot ≠ 0 → position (shown slot) = some slot ∨ stale slot)
    (own : 0 < new → shown slot = 0 ∨ shown slot = new ∨ stale slot)
    : Agree stale position (Function.update kind slot new) shown := by
  refine agree.change (fun _ apart => ⟨update_of_ne apart .., rfl, id⟩)
    (fun id seated _ => recorded id seated) (fun seen _ => listed seen) ?_
  rw [update_self]
  exact own

/-- An ordinary slot that shows nobody takes any kind. -/
theorem setKind_empty (new : Int) (nobody : ∀ id, position id ≠ some slot) (empty : shown slot = 0)
    : Agree stale position (Function.update kind slot new) shown := by
  refine agree.setKind ?_ ?_ (fun _ => .inl empty)
  · intro id recorded
    exact absurd recorded (nobody id)
  · intro seen
    exact absurd empty seen

/-- A slot becomes the speaker's. -/
theorem setVAD (slot : Fin numSlots)
    : Agree stale position (Function.update kind slot slotVAD) shown := by
  refine @change _ slot _ _ _ _ agree _ _ _
    (fun _ apart => ⟨update_of_ne apart .., rfl, id⟩) ?_ ?_ ?_
  · exact fun _ _ ordinary => absurd (update_self ..) ordinary
  · exact fun _ ordinary => absurd (update_self ..) ordinary
  · rw [update_self]
    exact fun fixed => absurd fixed (by decide)

/-- The speaker's slot shows anybody. -/
theorem showSpeaker (id : Int) (speakers : kind slot = slotVAD)
    : Agree stale position kind (Function.update shown slot id) := by
  refine agree.change (fun _ apart => ⟨rfl, update_of_ne apart .., fun outdated => outdated⟩)
    (fun _ _ ordinary => absurd speakers ordinary) (fun _ ordinary => absurd speakers ordinary) ?_
  rw [speakers]
  exact fun fixed => absurd fixed (by decide)

end

end Agree

end MediaServer.Mosaic
