import MediaServer.Mosaic.Positions
import MediaServer.Mosaic.Seating

/-! The operations of a mosaic keep its two views of who is where in agreement. -/

namespace MediaServer.Mosaic

open Foundation Function

variable {numSlots : Nat} {mosaic : Mosaic numSlots} {stale : Fin numSlots → Prop}

structure Sound (stale : Fin numSlots → Prop) (mosaic : Mosaic numSlots) : Prop where
  agree : Agree stale mosaic.position mosaic.mosaicSlots mosaic.mosaicPos
  positive : ∀ id, mosaic.participants.find? id ≠ none → 0 < id

namespace Sound

theorem weaken {other : Fin numSlots → Prop} (sound : mosaic.Sound stale)
    (weaker : ∀ slot, stale slot → other slot)
    : mosaic.Sound other :=
  ⟨sound.agree.weaken weaker, sound.positive⟩

/-- What the agreement depends on. -/
theorem congr {after : Mosaic numSlots} (sound : mosaic.Sound stale)
    (kinds : after.mosaicSlots = mosaic.mosaicSlots) (seen : after.mosaicPos = mosaic.mosaicPos)
    (recorded : ∀ id, after.participants.find? id = mosaic.participants.find? id)
    : after.Sound stale := by
  have same : after.position = mosaic.position := by
    funext id
    rw [position, recorded, position]
  refine ⟨?_, ?_⟩
  · rw [kinds, seen, same]
    exact sound.agree
  · intro id
    rw [recorded]
    exact sound.positive id

theorem positive_setPosition (sound : mosaic.Sound stale) {id : Int} (positive : 0 < id)
    (slot : Position numSlots) (other : Int)
    (known : (mosaic.setPosition id slot).participants.find? other ≠ none)
    : 0 < other := by
  rcases find?_setPosition known with rfl | before
  · exact positive
  · exact sound.positive other before

theorem unrecord (sound : mosaic.Sound stale) {id : Int} (positive : 0 < id)
    (left
      : ∀ slot, mosaic.position id = some slot
        → stale slot ∨ mosaic.mosaicSlots slot = slotVAD)
    : (mosaic.setPosition id none).Sound stale := by
  refine ⟨?_, sound.positive_setPosition positive none⟩
  rw [position_setPosition]
  exact sound.agree.unrecord id left

variable {slot : Fin numSlots}

section

variable (sound : mosaic.Sound stale)
include sound

theorem seat {id : Int} (positive : 0 < id)
    (kind : mosaic.mosaicSlots slot = slotFree ∨ mosaic.mosaicSlots slot = id)
    (nobody : ∀ other, mosaic.position other = some slot → other = id)
    (left
      : ∀ old, mosaic.position id = some old → old ≠ slot
        → stale old ∨ mosaic.mosaicSlots old = slotVAD)
    : ((mosaic.setShown slot id).setPosition id (some slot)).Sound
        (fun other => stale other ∧ other ≠ slot) := by
  refine ⟨?_, sound.positive_setPosition positive (some slot)⟩
  rw [position_setPosition]
  refine sound.agree.seat positive ?_ (fun held => kind.resolve_left (ne_of_gt held)) nobody left
  rcases kind with free | theirs
  · rw [free]
    decide
  · rw [theirs, slotVAD]
    omega

theorem clear (slot : Fin numSlots)
    (nobody : ∀ id, mosaic.position id = some slot → mosaic.mosaicSlots slot = slotVAD)
    : (mosaic.setShown slot 0).Sound (fun other => stale other ∧ other ≠ slot) :=
  ⟨sound.agree.clear slot nobody, sound.positive⟩

/-- A slot that the search finds is nobody else's. -/
theorem of_available {id other : Int} (fixed : stale slot → mosaic.mosaicSlots slot ≤ 0)
    (available : mosaic.Available id slot) (seated : mosaic.position other = some slot)
    : other = id := by
  have positive := sound.agree.positive seated
  have visible := sound.agree.recorded seated available.ne_vad
  rcases available with ⟨wanted, theirs⟩ | ⟨free, empty⟩
  · rcases sound.agree.own (theirs.symm ▸ wanted) with nobody | own | outdated
    · omega
    · rw [← visible, own, theirs]
    · have := fixed outdated
      omega
  · omega

theorem moveToNextFreeSlot {id : Int} (positive : 0 < id)
    (fixed : ∀ slot, stale slot → mosaic.mosaicSlots slot ≤ 0)
    (left
      : ∀ slot, mosaic.position id = some slot
        → stale slot ∨ mosaic.mosaicSlots slot = slotVAD)
    : (mosaic.moveToNextFreeSlot id).Sound stale := by
  cases found : mosaic.freeSlot? id with
  | none =>
    rw [moveToNextFreeSlot_none found]
    exact sound.unrecord positive left
  | some slot =>
    have available := (freeSlot?_some found).1
    rw [moveToNextFreeSlot_some positive found]
    refine (sound.seat positive ?_ ?_ (fun old seated _ => left old seated)).weaken
      (fun _ both => both.1)
    · exact available.elim (fun theirs => .inr theirs.2) (fun free => .inl free.1)
    · intro other seated
      exact sound.of_available (fixed slot) available seated

end

end Sound

/-! The recalculation. -/

/-- Who may be kicked is still there, is not elected itself, and has no empty free slot to
advance to.
-/
def Ready (mosaic : Mosaic numSlots) (kickables : List (Int × Fin numSlots)) : Prop :=
  ∀ entry ∈ kickables,
    mosaic.position entry.1 = some entry.2 ∧ mosaic.mosaicSlots entry.2 = slotFree
    ∧ mosaic.isEligible entry.1 = false
    ∧ ∀ slot, mosaic.mosaicSlots slot = slotFree → mosaic.mosaicPos slot = 0 → entry.2 < slot

section Round

variable {vadPos : Position numSlots} {before after : Mosaic numSlots} {id : Int}
  {kickables left : List (Int × Fin numSlots)}

theorem Sound.kick (sound : before.Sound stale) {kicked : Int} {newslot : Fin numSlots}
    (positive : 0 < id)
    (settled
      : ∀ slot, before.position id = some slot
        → stale slot ∨ before.mosaicSlots slot = slotVAD)
    (seated : before.position kicked = some newslot) (free : before.mosaicSlots newslot = slotFree)
    : (before.kick kicked id newslot).Sound stale := by
  have outdated : before.Sound (fun slot => stale slot ∨ slot = newslot) :=
    sound.weaken (fun _ => .inl)
  have gone := @unrecord _ _ _ outdated kicked (sound.agree.positive seated) (by
    intro slot recorded
    exact .inl (.inr (Option.some.inj (recorded.symm.trans seated))))
  have elsewhere {other : Int} {slot : Fin numSlots}
      (recorded : (before.setPosition kicked none).position other = some slot)
      : other ≠ kicked ∧ before.position other = some slot := by
    rw [position_setPosition] at recorded
    exact update_none_eq_some.mp recorded
  have placed := gone.seat positive (.inl free)
    (fun other recorded => absurd
      (sound.agree.alone (elsewhere recorded).2 seated) (elsewhere recorded).1)
    (fun old recorded _ => (settled old (elsewhere recorded).2).imp_left .inl)
  refine placed.weaken ?_
  rintro slot ⟨outdated | same, different⟩
  · exact outdated
  · exact absurd same different

theorem Sound.advance (sound : before.Sound stale) {oldslot newslot : Fin numSlots}
    (positive : 0 < id) (seated : before.position id = some oldslot)
    (found : before.freeSlot? 0 = some newslot) (earlier : newslot < oldslot)
    : (before.advance id oldslot newslot).Sound stale := by
  have outdated : before.Sound (fun slot => stale slot ∨ slot = oldslot) :=
    sound.weaken (fun _ => .inl)
  obtain ⟨free, empty⟩ := (freeSlot?_some found).1.resolve_left (by omega)
  have placed := outdated.seat positive (.inl free)
    (by
      intro other recorded
      have visible := sound.agree.recorded recorded (by rw [free]; decide)
      have := sound.agree.positive recorded
      omega)
    (fun old recorded _ => .inl (.inr (Option.some.inj (recorded.symm.trans seated))))
  have cleared := placed.clear oldslot (by
    intro other recorded
    rw [position_setPosition] at recorded
    rcases update_some_eq_some.mp recorded with ⟨-, same⟩ | ⟨different, before⟩
    · exact absurd same (ne_of_lt earlier)
    · exact absurd (sound.agree.alone before seated) different)
  refine Sound.weaken (Sound.congr cleared rfl rfl (fun _ => rfl)) ?_
  rintro slot ⟨⟨outdated | same, -⟩, different⟩
  · exact outdated
  · exact absurd same different

section

variable (round : Round vadPos before id kickables after left)
include round

/-- One round keeps the agreement. Who is elected leaves no slot behind, or a stale one. -/
theorem Round.sound (sound : before.Sound stale) (positive : 0 < id)
    (fixed : ∀ slot, stale slot → before.mosaicSlots slot ≤ 0)
    (speakers : ∀ slot, some slot = vadPos → before.mosaicSlots slot = slotVAD)
    (settled
      : before.isEligible id → ∀ slot, before.position id = some slot
        → stale slot ∨ before.mosaicSlots slot = slotVAD)
    (ready : before.isEligible id → before.Ready kickables)
    : after.Sound stale := by
  cases round with
  | waits | speaker | keeps => exact sound
  | elected eligible found => exact sound.moveToNextFreeSlot positive fixed (settled eligible)
  | moves quiet other homeless =>
    refine sound.moveToNextFreeSlot positive fixed (fun slot seated => ?_)
    rcases homeless slot seated with same | ⟨free, invisible⟩
    · exact .inr (speakers slot same)
    · exact absurd (sound.agree.recorded seated (by rw [free]; decide)) invisible
  | kicks eligible full =>
    obtain ⟨seated, free, -⟩ := ready eligible _ List.mem_cons_self
    exact sound.kick positive (settled eligible) seated free
  | advances quiet other seated ordinary free visible found earlier =>
    exact sound.advance positive seated found earlier

/-- Where a participant is recorded changes in its own round, or when it is kicked. -/
theorem Round.position_other {other : Int} (apart : other ≠ id)
    : after.position other = before.position other
      ∨ after.position other = none ∧ before.freeSlot? id = none
        ∧ ∃ slot, kickables = (other, slot) :: left := by
  have moved (position : Position numSlots) (mosaic : Mosaic numSlots)
      : (mosaic.setPosition id position).position other = mosaic.position other := by
    rw [position_setPosition, update_of_ne apart]
  have searched : (before.moveToNextFreeSlot id).position other = before.position other := by
    rw [position_moveToNextFreeSlot, update_of_ne apart]
  cases round with
  | waits | speaker | keeps => exact .inl rfl
  | elected | moves => exact .inl searched
  | advances => exact .inl (moved _ _)
  | @kicks kicked newslot rest eligible full =>
    rw [kick, moved, position_setPosition, update_apply]
    split_ifs with same
    · exact .inr ⟨rfl, full, newslot, same ▸ rfl⟩
    · exact .inl rfl

theorem Round.left_sublist : left.Sublist kickables := by
  cases round with
  | waits | elected | speaker | moves | advances | keeps => exact .refl _
  | kicks => exact List.sublist_cons_self _ _

/-- The round shows the participant in a slot, or nobody in the slot that it leaves for an
earlier one.
-/
theorem Round.shown (slot : Fin numSlots)
    : after.mosaicPos slot = before.mosaicPos slot ∨ after.mosaicPos slot = id
      ∨ after.mosaicPos slot = 0
        ∧ ∃ newslot, before.mosaicSlots newslot = slotFree ∧ before.mosaicPos newslot = 0
          ∧ newslot < slot := by
  have shown (target : Fin numSlots)
      : Function.update before.mosaicPos target id slot = before.mosaicPos slot
        ∨ Function.update before.mosaicPos target id slot = id := by
    rw [update_apply]
    split_ifs
    · exact .inr rfl
    · exact .inl rfl
  have searched
      : (before.moveToNextFreeSlot id).mosaicPos slot = before.mosaicPos slot
        ∨ (before.moveToNextFreeSlot id).mosaicPos slot = id := by
    rcases moveToNextFreeSlot_cases before id with eq | ⟨target, -, eq⟩
    · exact .inl (eq ▸ rfl)
    · exact eq ▸ shown target
  cases round with
  | waits | speaker | keeps => exact .inl rfl
  | elected | moves => exact searched.imp_right .inl
  | kicks => exact (shown _).imp_right .inl
  | @advances _ oldslot newslot _ _ _ _ _ _ found earlier =>
    obtain ⟨free, unseen⟩ := (freeSlot?_some found).1.resolve_left (by omega)
    by_cases same : slot = oldslot
    · subst same
      exact .inr (.inr ⟨update_self .., newslot, free, unseen, earlier⟩)
    · have kept := update_of_ne same 0 (Function.update before.mosaicPos newslot id)
      exact (shown newslot).imp kept.trans (fun isId => .inl (kept.trans isId))

/-- A free slot is empty after the round if it was before, or if who was there has advanced to
an earlier one that was.
-/
theorem Round.empty (positive : 0 < id) (empty : after.mosaicPos slot = 0)
    : before.mosaicPos slot = 0
      ∨ ∃ newslot, before.mosaicSlots newslot = slotFree ∧ before.mosaicPos newslot = 0
        ∧ newslot < slot := by
  rcases round.shown slot with kept | placed | ⟨-, left⟩
  · exact .inl (kept.symm.trans empty)
  · have := placed.symm.trans empty
    omega
  · exact .inr left

end

theorem isEligible_congr (infos : after.partVad = before.partVad) (id : Int)
    : after.isEligible id = before.isEligible id := by
  rw [isEligible, infos, isEligible]

/-- One round leaves who is still to be kicked where they are. -/
theorem Round.ready (round : Round vadPos before id kickables after left)
    (sound : before.Sound stale) (positive : 0 < id)
    (speakers : ∀ slot, some slot = vadPos → before.mosaicSlots slot = slotVAD)
    (distinct : kickables.Pairwise (fun one other => one.1 ≠ other.1))
    (ready : before.Ready kickables)
    : after.Ready left := by
  intro entry member
  obtain ⟨seated, free, quiet, front⟩ := ready entry (round.left_sublist.subset member)
  refine ⟨?_, round.reseated.kinds ▸ free, ?_, ?_⟩
  · by_cases own : entry.1 = id
    · cases round with
      | waits | speaker | keeps => exact seated
      | elected eligible | kicks eligible => exact absurd eligible (by rw [← own, quiet]; simp)
      | moves _ _ homeless =>
        rcases homeless entry.2 (own ▸ seated) with same | ⟨-, invisible⟩
        · have speaks := speakers entry.2 same
          rw [free] at speaks
          exact absurd speaks (by decide)
        · exact absurd (own ▸ sound.agree.recorded seated (by rw [free]; decide)) invisible
      | @advances _ oldslot newslot _ _ here _ _ _ found earlier =>
        obtain ⟨newFree, unseen⟩ := (freeSlot?_some found).1.resolve_left (by omega)
        have same := Option.some.inj (seated.symm.trans (own ▸ here))
        have before := front newslot newFree unseen
        rw [same] at before
        exact absurd earlier (lt_asymm before)
    · rcases round.position_other own with kept | ⟨-, -, slot, split⟩
      · exact kept.trans seated
      · rw [split, List.pairwise_cons] at distinct
        exact absurd rfl (distinct.1 entry member)
  · rw [isEligible_congr round.reseated.infos]
    exact quiet
  · intro slot slotIsFree empty
    rw [round.reseated.kinds] at slotIsFree
    rcases round.empty positive empty with was | ⟨newslot, newFree, unseen, earlier⟩
    · exact front slot slotIsFree was
    · exact lt_trans (front newslot newFree unseen) earlier

end Round

/-- The flags of the participants fit where they are: who is to be elected has no slot, or a
free one, or the speaker's; who may be kicked sits in a free slot; and when somebody is to be
elected, no empty free slot lies before one that may be kicked.
-/
@[mk_iff] structure Orderly (mosaic : Mosaic numSlots) : Prop where
  elected
    : ∀ entry ∈ mosaic.partVad.entries, entry.2.eligible → ∀ slot,
        mosaic.position entry.1 = some slot
        → mosaic.mosaicSlots slot = slotFree ∨ mosaic.mosaicSlots slot = slotVAD
  kickable : ∀ entry ∈ mosaic.kickables, mosaic.mosaicSlots entry.2 = slotFree
  front
    : ∀ entry ∈ mosaic.partVad.entries, entry.2.eligible → ∀ kicked ∈ mosaic.kickables,
        ∀ slot, mosaic.mosaicSlots slot = slotFree → mosaic.mosaicPos slot = 0
        → kicked.2 < slot

theorem isEligible_iff {id : Int}
    : mosaic.isEligible id
      ↔ ∃ info, (id, info) ∈ mosaic.partVad.entries ∧ info.eligible := by
  rw [isEligible, Option.any_eq_true]
  simp only [OrderedMap.find?_eq_some_iff]

/-- The second pass between two rounds. -/
structure Underway (stale : Fin numSlots → Prop) (start : Mosaic numSlots) (done : List Int)
    (state : Mosaic numSlots × List (Int × Fin numSlots)) : Prop where
  reseated : Reseated start state.1
  sound : state.1.Sound stale
  natural : ∀ slot, start.mosaicSlots slot ≠ slotVAD → 0 ≤ state.1.mosaicPos slot
  settled
    : ∀ id, id ∉ done → start.isEligible id → ∀ slot, state.1.position id = some slot
      → stale slot ∨ start.mosaicSlots slot = slotVAD
  ready : ∀ id, start.isEligible id → state.1.Ready state.2
  distinct : state.2.Pairwise (fun one other => one.1 ≠ other.1)

theorem Underway.start (sound : mosaic.Sound (fun _ => False)) (orderly : mosaic.Orderly)
    (settled
      : ∀ id, mosaic.isEligible id → ∀ slot, mosaic.position id = some slot
        → stale slot ∨ mosaic.mosaicSlots slot = slotVAD)
    : Underway stale mosaic [] (mosaic, mosaic.kickables) where
  reseated := .refl mosaic
  sound := sound.weaken nofun
  natural slot ordinary := by
    by_cases empty : mosaic.mosaicPos slot = 0
    · exact le_of_eq empty.symm
    · have seated := (sound.agree.listed empty ordinary).resolve_right id
      exact le_of_lt (sound.agree.positive seated)
  settled id _ := settled id
  ready id eligible := by
    intro entry member
    obtain ⟨-, seated, quiet⟩ := mem_kickables member
    obtain ⟨info, known, flagged⟩ := isEligible_iff.mp eligible
    exact ⟨seated, orderly.kickable entry member, quiet,
      orderly.front _ known flagged entry member⟩
  distinct := kickables_distinct mosaic

variable {start : Mosaic numSlots} {done : List Int}
  {state : Mosaic numSlots × List (Int × Fin numSlots)} {id : Int}

theorem Underway.speakers (underway : Underway stale start done state) (slot : Fin numSlots)
    (found : some slot = start.getVADPosition)
    : state.1.mosaicSlots slot = slotVAD := by
  rw [underway.reseated.kinds]
  exact getVADPosition_some found.symm

theorem Underway.round (underway : Underway stale start done state)
    (fixed : ∀ slot, stale slot → start.mosaicSlots slot ≤ 0) (positive : 0 < id)
    (fresh : id ∉ done)
    : Underway stale start (done ++ [id]) (reshuffle start.getVADPosition state id) := by
  have round := reshuffle_round start.getVADPosition state id
  have kinds := underway.reseated.kinds
  have eligible (other : Int) := isEligible_congr underway.reseated.infos other
  refine ⟨underway.reseated.trans round.reseated, ?_, ?_, ?_, ?_, ?_⟩
  · refine round.sound underway.sound positive (kinds ▸ fixed) underway.speakers ?_ ?_
    · rw [eligible, kinds]
      exact underway.settled id fresh
    · rw [eligible]
      exact underway.ready id
  · intro slot ordinary
    rcases round.shown slot with kept | placed | ⟨empty, -⟩
    · rw [kept]
      exact underway.natural slot ordinary
    · rw [placed]
      exact le_of_lt positive
    · rw [empty]
  · intro other notYet flagged slot seated
    rw [List.mem_append, List.mem_singleton, not_or] at notYet
    rcases round.position_other notYet.2 with kept | ⟨gone, -⟩
    · exact underway.settled other notYet.1 flagged slot (kept ▸ seated)
    · rw [gone] at seated
      cases seated
  · intro other flagged
    exact round.ready underway.sound positive underway.speakers underway.distinct
      (underway.ready other flagged)
  · exact underway.distinct.sublist round.left_sublist

/-- The second pass as a whole. -/
theorem Underway.pass (sound : mosaic.Sound (fun _ => False)) (orderly : mosaic.Orderly)
    (fixed : ∀ slot, stale slot → mosaic.mosaicSlots slot ≤ 0)
    (settled
      : ∀ id, mosaic.isEligible id → ∀ slot, mosaic.position id = some slot
        → stale slot ∨ mosaic.mosaicSlots slot = slotVAD)
    : Underway stale mosaic mosaic.participants.keys
        (run (reshuffle mosaic.getVADPosition) (mosaic, mosaic.kickables)
          mosaic.participants.keys) := by
  refine run_visits mosaic.participants.keys_nodup (Underway.start sound orderly settled) ?_
  intro done state id present fresh underway
  have known := Option.isSome_iff_ne_none.mp (OrderedMap.mem_keys.mp present)
  exact underway.round fixed (sound.positive id known) fresh

theorem Sound.resetInconsistent
    (sound : mosaic.Sound (fun slot => mosaic.mosaicSlots slot = slotFree))
    (natural : ∀ slot, mosaic.mosaicSlots slot ≠ slotVAD → 0 ≤ mosaic.mosaicPos slot)
    : mosaic.resetInconsistent.Sound (fun _ => False) := by
  have kept {slot : Fin numSlots}
      (here : mosaic.position (mosaic.mosaicPos slot) = some slot)
      : mosaic.resetInconsistent.mosaicPos slot = mosaic.mosaicPos slot := by
    exact if_neg (fun reset => reset.2.2 here)
  have listed {slot : Fin numSlots} (seen : mosaic.resetInconsistent.mosaicPos slot ≠ 0)
      (ordinary : mosaic.mosaicSlots slot ≠ slotVAD)
      : mosaic.position (mosaic.mosaicPos slot) = some slot := by
    by_contra elsewhere
    by_cases empty : mosaic.mosaicPos slot = 0
    · rw [Mosaic.resetInconsistent] at seen
      dsimp only at seen
      rw [empty] at seen
      simp at seen
    · have free := (sound.agree.listed empty ordinary).resolve_left elsewhere
      have positive := lt_of_le_of_ne (natural slot ordinary) (Ne.symm empty)
      exact seen (if_pos ⟨free, positive, elsewhere⟩)
  refine ⟨⟨sound.agree.positive, ?_, sound.agree.alone, ?_, ?_⟩, sound.positive⟩
  · intro id slot seated ordinary
    have visible := sound.agree.recorded seated ordinary
    exact (kept (visible.symm ▸ seated)).trans visible
  · intro slot seen ordinary
    have here := listed seen ordinary
    rw [kept here]
    exact .inl here
  · intro slot fixed
    have held : mosaic.mosaicSlots slot ≠ slotFree := ne_of_gt fixed
    have same : mosaic.resetInconsistent.mosaicPos slot = mosaic.mosaicPos slot :=
      if_neg (fun reset => held reset.1)
    rw [same]
    rcases sound.agree.own fixed with empty | own | free
    · exact .inl empty
    · exact .inr (.inl own)
    · exact absurd free held

/-- A recalculation keeps the agreement: what an elected participant has left behind is reset
in the end.
-/
theorem Sound.calculatePositions (sound : mosaic.Sound (fun _ => False)) (orderly : mosaic.Orderly)
    : mosaic.calculatePositions.Sound (fun _ => False) := by
  have pass := @Underway.pass _ mosaic (fun slot => mosaic.mosaicSlots slot = slotFree) sound
    orderly (fun _ free => le_of_eq free) (by
      intro id eligible slot seated
      obtain ⟨info, known, flagged⟩ := isEligible_iff.mp eligible
      exact orderly.elected _ known flagged slot seated)
  refine Sound.resetInconsistent ?_ ?_
  · rw [pass.reseated.kinds]
    exact pass.sound
  · rw [pass.reseated.kinds]
    exact pass.natural

end MediaServer.Mosaic
