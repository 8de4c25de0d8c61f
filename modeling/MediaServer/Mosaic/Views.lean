import Mathlib.Data.Fintype.Option
import MediaServer.Mosaic.Agreement

/-! The two views of a mosaic over whole runs of its operations. -/

namespace MediaServer.Mosaic

open Foundation Function OrderedMap

variable {numSlots : Nat} {mosaic : Mosaic numSlots} {num : Fin numSlots} {id : Int}

theorem position_of_absent (absent : mosaic.participants.find? id = none)
    : mosaic.position id = none := by
  rw [position, absent, Option.join_none]

theorem Sound.addParticipant (sound : mosaic.Sound (fun _ => False)) (positive : 0 < id)
    : (mosaic.addParticipant id).Sound (fun _ => False) := by
  unfold Mosaic.addParticipant
  split
  · exact sound
  · rename_i absent
    have moved := sound.moveToNextFreeSlot positive nofun (by
      rw [position_of_absent absent]
      nofun)
    exact moved.congr rfl rfl (fun _ => rfl)

theorem Sound.takeOut (sound : mosaic.Sound (fun _ => False)) {slot : Position numSlots}
    (known : mosaic.participants.find? id = some slot)
    : (mosaic.takeOut id slot).Sound (fun _ => False) := by
  have here : mosaic.position id = slot := by rw [position, known, Option.join_some]
  refine ⟨?_, ?_⟩
  · rw [position_takeOut]
    cases slot with
    | none =>
      exact sound.agree.unrecord id (by simp [here])
    | some slot =>
      have lifted := sound.agree.lift here
      unfold Mosaic.takeOut leaveSlot
      dsimp only
      split_ifs
      · refine lifted.setKind_empty slotLocked ?_ (update_self ..)
        intro other seated
        obtain ⟨different, too⟩ := update_none_eq_some.mp seated
        exact different (sound.agree.alone too here)
      · exact lifted
  · intro other present
    rw [(takeOut_tables ..).1, find?_erase] at present
    split_ifs at present
    · exact absurd rfl present
    · exact sound.positive other present

/-! `SetSlot`. -/

/-- Who is recorded in the slot is shown there, and who is shown there is not recorded
elsewhere.
-/
structure Matches (mosaic : Mosaic numSlots) (num : Fin numSlots) : Prop where
  recorded : ∀ id, mosaic.position id = some num → mosaic.mosaicPos num = id
  listed : ∀ slot, mosaic.position (mosaic.mosaicPos num) = some slot → slot = num

theorem Matches.nobody (fits : mosaic.Matches num)
    (absent : mosaic.participants.find? (mosaic.mosaicPos num) = none)
    {other : Int} (seated : mosaic.position other = some num)
    : False := by
  rw [← fits.recorded other seated, position_of_absent absent] at seated
  cases seated

theorem Sound.hide (sound : mosaic.Sound (· = num)) (fits : mosaic.Matches num)
    : (mosaic.hide num).Sound (fun _ => False) := by
  unfold Mosaic.hide
  dsimp only
  split
  · rename_i absent
    have cleared := sound.clear num (fun other seated => (fits.nobody absent seated).elim)
    exact cleared.weaken (fun slot both => both.2 both.1)
  · rename_i known
    have gone := sound.unrecord (sound.positive _ (by rw [known]; nofun))
      (fun slot seated => .inl (fits.listed slot seated))
    have cleared := gone.clear num (by
      intro other seated
      rw [position_setPosition] at seated
      obtain ⟨different, before⟩ := update_none_eq_some.mp seated
      exact absurd (fits.recorded other before).symm different)
    exact cleared.weaken (fun slot both => both.2 both.1)

theorem Sound.vacate (sound : mosaic.Sound (· = num)) (fits : mosaic.Matches num)
    (locked : mosaic.mosaicSlots num < 0)
    : (mosaic.vacate num).Sound (fun _ => False) := by
  unfold Mosaic.vacate
  dsimp only
  split
  · rename_i absent
    have cleared := sound.clear num (fun other seated => (fits.nobody absent seated).elim)
    exact cleared.weaken (fun slot both => both.2 both.1)
  · rename_i known
    have positive := sound.positive (mosaic.mosaicPos num) (by rw [known]; nofun)
    have gone := sound.unrecord positive (fun slot seated => .inl (fits.listed slot seated))
    have moved := gone.moveToNextFreeSlot positive
      (fun slot same => by rw [same]; exact le_of_lt locked)
      (by simp [position_setPosition])
    rw [moveToNextFreeSlot_setPosition] at moved
    have cleared := moved.clear num (by
      intro other seated
      rw [position_moveToNextFreeSlot, update_apply] at seated
      split_ifs at seated with same
      · rcases (freeSlot?_some seated).1 with ⟨-, theirs⟩ | ⟨free, -⟩
        · omega
        · rw [slotFree] at free
          omega
      · exact absurd (fits.recorded other seated).symm same)
    exact cleared.weaken (fun slot both => both.2 both.1)

/-- The participant takes the slot that is fixed to it. -/
theorem Sound.occupy (sound : mosaic.Sound (· = num)) (positive : 0 < id)
    {position : Position numSlots} (known : mosaic.participants.find? id = some position)
    (fixed : mosaic.mosaicSlots num = id)
    (alone : ∀ other, mosaic.position other = some num → other = id)
    : (mosaic.occupy num id position).Sound (fun _ => False) := by
  have here : mosaic.position id = position := by
    rw [Mosaic.position, known, Option.join_some]
  cases position with
  | none =>
    have seated := sound.seat positive (.inr fixed) alone
      (by simp [here])
    exact (seated.congr rfl rfl (fun _ => rfl)).weaken (fun slot both => both.2 both.1)
  | some old =>
    have nobody {other : Int} {slot : Fin numSlots}
        (seated : Function.update mosaic.position id none other = some slot)
        : other ≠ id ∧ mosaic.position other = some slot := update_none_eq_some.mp seated
    have freed : ((mosaic.release (some old)).setPosition id none).Sound (· = num) := by
      refine ⟨?_, fun other => sound.positive_setPosition positive none other⟩
      rw [position_setPosition]
      refine (sound.agree.lift here).setKind_empty slotFree ?_ (update_self ..)
      intro other seated
      exact (nobody seated).1 (sound.agree.alone (nobody seated).2 here)
    have kind : (mosaic.release (some old)).mosaicSlots num = slotFree
        ∨ (mosaic.release (some old)).mosaicSlots num = id := by
      change Function.update mosaic.mosaicSlots old slotFree num = _
        ∨ Function.update mosaic.mosaicSlots old slotFree num = _
      rw [update_apply]
      split_ifs
      · exact .inl rfl
      · exact .inr fixed
    have seated := @Sound.seat _ _ _ num freed id positive kind
      (by
        intro other recorded
        rw [position_setPosition] at recorded
        exact alone other (nobody recorded).2)
      (by simp [position_setPosition])
    refine Sound.weaken (Sound.congr seated rfl rfl (fun other => ?_))
      (fun slot both => both.2 both.1)
    simp only [Mosaic.occupy, setPosition, setShown, insert_insert]

theorem participants_release (position : Position numSlots)
    : (mosaic.release position).participants = mosaic.participants := by
  cases position <;> rfl

/-- The slot is fixed to a participant, and who was shown there looks for another one. -/
theorem Sound.fix (sound : mosaic.Sound (· = num)) (fits : mosaic.Matches num)
    (positive : 0 < id) {position : Position numSlots}
    (known : mosaic.participants.find? id = some position) (fixed : mosaic.mosaicSlots num = id)
    : (mosaic.fix num id).Sound (fun _ => False) := by
  rcases fix_cases num known with ⟨eq, nobody⟩ | ⟨eq, different, present⟩
  · rw [eq]
    refine sound.occupy positive known fixed (fun other seated => ?_)
    rcases nobody with own | absent
    · exact (fits.recorded other seated).symm.trans own.symm
    · exact (fits.nobody absent seated).elim
  · rw [eq]
    -- the displaced participant is taken out first, and then nobody but the new one is there
    have wanted := sound.positive (mosaic.mosaicPos num) present
    have gone := sound.unrecord wanted (fun slot seated => .inl (fits.listed slot seated))
    have knownToo : (mosaic.setPosition (mosaic.mosaicPos num) none).participants.find? id
        = some position := by
      rw [setPosition, find?_insert, if_neg different, known]
    have seated := gone.occupy positive knownToo fixed (by
      intro other recorded
      rw [position_setPosition] at recorded
      obtain ⟨apart, before⟩ := update_none_eq_some.mp recorded
      exact absurd (fits.recorded other before).symm apart)
    have displaced : ((mosaic.occupy num id position).setPosition (mosaic.mosaicPos num)
        none).Sound (fun _ => False) := by
      refine seated.congr ?_ ?_ ?_
      · cases position <;> rfl
      · cases position <;> rfl
      · intro other
        change (((mosaic.release position).participants.insert id (some num)).insert
            (mosaic.mosaicPos num) none).find? other
          = (((mosaic.setPosition (mosaic.mosaicPos num) none).release
              position).participants.insert id (some num)).find? other
        rw [participants_release, participants_release, setPosition]
        simp only [find?_insert]
        split_ifs with first second
        · exact absurd (second.symm.trans first) different
        · rfl
        · rfl
        · rfl
    rw [← moveToNextFreeSlot_setPosition _ _ none]
    refine displaced.moveToNextFreeSlot wanted (by simp) ?_
    simp [position_setPosition]

/-- When `SetSlot` keeps the agreement: the speaker's slot shows who is recorded there before it
becomes another kind of slot, and a slot that is fixed to somebody who is not there, or that
gets an unknown code, shows nobody.
-/
def Relabels (mosaic : Mosaic numSlots) (num : Fin numSlots) (id : Int) : Prop :=
  id = slotVAD ∨ id = slotReset
  ∨ (mosaic.mosaicSlots num = slotVAD → ∀ entry ∈ mosaic.participants.entries,
        entry.2 = some num ↔ mosaic.mosaicPos num = entry.1)
    ∧ (0 < id → mosaic.participants.find? id = none → mosaic.mosaicPos num = 0)
    ∧ (id < slotReset → mosaic.mosaicSlots num = slotVAD → mosaic.mosaicPos num = 0)

theorem Sound.fits (sound : mosaic.Sound (fun _ => False))
    (speakers
      : mosaic.mosaicSlots num = slotVAD → ∀ entry ∈ mosaic.participants.entries,
          entry.2 = some num ↔ mosaic.mosaicPos num = entry.1)
    : mosaic.Matches num := by
  by_cases ordinary : mosaic.mosaicSlots num = slotVAD
  · constructor
    · intro other seated
      exact (speakers ordinary _ (position_eq_some.mp seated)).mp rfl
    · intro slot seated
      exact Option.some.inj ((speakers ordinary _ (position_eq_some.mp seated)).mpr rfl)
  · constructor
    · intro other seated
      exact sound.agree.recorded seated ordinary
    · intro slot seated
      have positive := sound.agree.positive seated
      have here := (sound.agree.listed (ne_of_gt positive) ordinary).resolve_right (·)
      exact Option.some.inj (seated.symm.trans here)

theorem Matches.relabel (fits : mosaic.Matches num) (id : Int)
    : (mosaic.relabel num id).Matches num := by
  refine ⟨?_, ?_⟩
  · rw [position_relabel, mosaicPos_relabel]
    exact fits.recorded
  · rw [position_relabel, mosaicPos_relabel]
    exact fits.listed

section Relabel

variable (sound : mosaic.Sound (fun _ => False)) (kept : id ≠ slotReset)

include sound kept

/-- A slot gets another kind with which the views still agree. -/
theorem Sound.of_relabel {stale : Fin numSlots → Prop}
    (agree : Agree stale mosaic.position (update mosaic.mosaicSlots num id) mosaic.mosaicPos)
    : (mosaic.relabel num id).Sound stale := by
  refine ⟨?_, ?_⟩
  · rwa [position_relabel, mosaicPos_relabel, mosaicSlots_relabel, if_pos kept]
  · rw [participants_relabel]
    exact sound.positive

theorem Sound.relabel (fits : mosaic.Matches num) : (mosaic.relabel num id).Sound (· = num) :=
  sound.of_relabel kept ((sound.agree.weaken nofun).setKind fits.recorded (fun _ => .inr rfl)
    (fun _ => .inr (.inr rfl)))

/-- Nobody has to leave a slot that shows nobody. -/
theorem Sound.relabel_empty (fits : mosaic.Matches num) (empty : mosaic.mosaicPos num = 0)
    : (mosaic.relabel num id).Sound (fun _ => False) := by
  refine sound.of_relabel kept (sound.agree.setKind_empty id ?_ empty)
  intro other seated
  have positive := sound.agree.positive seated
  have visible := fits.recorded other seated
  omega

/-- An ordinary slot with an unknown code keeps who is there. -/
theorem Sound.relabel_unknown (ordinary : mosaic.mosaicSlots num ≠ slotVAD) (unknown : id ≤ 0)
    : (mosaic.relabel num id).Sound (fun _ => False) :=
  sound.of_relabel kept (sound.agree.setKind
    (fun other seated => sound.agree.recorded seated ordinary)
    (fun seen => sound.agree.listed seen ordinary) (fun fixed => absurd fixed (by omega)))

end Relabel

theorem Sound.relabel_reset (sound : mosaic.Sound (fun _ => False))
    : (mosaic.relabel num slotReset).Sound (fun _ => False) := by
  refine sound.congr ?_ (mosaicPos_relabel ..) (fun _ => by rw [participants_relabel])
  rw [mosaicSlots_relabel, if_neg (not_not.mpr rfl)]

section

variable (sound : mosaic.Sound (fun _ => False))
include sound

theorem Sound.relabel_speaker : (mosaic.relabel num slotVAD).Sound (fun _ => False) :=
  sound.of_relabel (by decide) (sound.agree.setVAD num)

theorem fix_absent (absent : mosaic.participants.find? id = none) (empty : mosaic.mosaicPos num = 0)
    : mosaic.fix num id = mosaic := by
  have nobody : mosaic.participants.find? 0 = none := by
    by_contra present
    exact absurd (sound.positive 0 present) (by decide)
  unfold fix
  simp only [absent, empty, nobody]

theorem Sound.rehouse (relabels : mosaic.Relabels num id)
    : ((mosaic.relabel num id).rehouse num id).Sound (fun _ => False) := by
  unfold Mosaic.rehouse
  by_cases speaker : id = slotVAD
  · subst speaker
    have kind : (mosaic.relabel num slotVAD).mosaicSlots num = slotVAD := by
      rw [mosaicSlots_relabel, if_pos (by decide), update_self]
    rw [if_neg (by decide), if_neg (by decide), if_neg (by decide), if_pos rfl,
      if_neg (not_not.mpr kind)]
    exact sound.relabel_speaker
  by_cases reset : id = slotReset
  · subst reset
    rw [if_neg (by decide), if_neg (by decide), if_neg (by decide), if_neg (by decide), if_pos rfl]
    have same := @relabel_reset _ _ num sound
    split_ifs with free
    · refine (same.weaken nofun).hide (same.fits ?_)
      rw [free]
      exact fun impossible => absurd impossible (by decide)
    · exact same
  obtain ⟨speakers, absentee, unknown⟩ := (relabels.resolve_left speaker).resolve_left reset
  have fits := sound.fits speakers
  have labelled := sound.relabel reset fits
  have kind : (mosaic.relabel num id).mosaicSlots num = id := by
    rw [mosaicSlots_relabel, if_pos reset, update_self]
  rw [if_neg speaker, if_neg reset]
  split_ifs with fixed free locked
  · cases known : mosaic.participants.find? id with
    | none =>
      have empty := absentee fixed known
      have untouched := sound.relabel_empty reset fits empty
      rwa [fix_absent untouched (by rw [participants_relabel, known])
        (by rw [mosaicPos_relabel, empty])]
    | some position =>
      exact labelled.fix (fits.relabel id) fixed (by rw [participants_relabel, known]) kind
  · exact labelled.hide (fits.relabel id)
  · refine labelled.vacate (fits.relabel id) ?_
    rw [kind, locked]
    decide
  · by_cases ordinary : mosaic.mosaicSlots num = slotVAD
    · refine sound.relabel_empty reset fits (unknown ?_ ordinary)
      rw [slotFree] at free
      rw [slotLocked] at locked
      rw [slotVAD] at speaker
      rw [slotReset] at reset ⊢
      omega
    · exact sound.relabel_unknown reset ordinary (by omega)

theorem Sound.setSlot {slot : Int}
    (relabels : ∀ num : Fin numSlots, (num.val : Int) = slot → mosaic.Relabels num id)
    (blockedUntil : UInt64)
    : (mosaic.setSlot slot id blockedUntil).Sound (fun _ => False) := by
  unfold Mosaic.setSlot
  split_ifs with inside
  · have housed := sound.rehouse (relabels ⟨slot.toNat, by omega⟩ (by simp; omega))
    exact housed.congr rfl rfl (fun _ => rfl)
  · exact sound

theorem Sound.setVADParticipant (id : Int) (blockedUntil : UInt64)
    : (mosaic.setVADParticipant id blockedUntil).Sound (fun _ => False) := by
  have named : Mosaic.Sound (fun _ => False) { mosaic with vadParticipant := id } :=
    sound.congr rfl rfl (fun _ => rfl)
  have seen : (Mosaic.showSpeaker { mosaic with vadParticipant := id } id blockedUntil).Sound
      (fun _ => False) := by
    unfold showSpeaker
    split
    · exact named
    · rename_i slot found
      exact ⟨named.agree.showSpeaker id (getVADPosition_some found), named.positive⟩
  unfold Mosaic.setVADParticipant
  dsimp only
  split
  · exact seen
  · exact seen.congr rfl rfl (fun _ => rfl)

end

/-! Runs. -/

/-- The steps that keep the two views in agreement. -/
def KeepsViews (mosaic : Mosaic numSlots) : MosaicOp → Prop
  | .addParticipant id => 0 < id
  | .removeParticipant id =>
    ∀ position ∈ mosaic.participants.find? id, (mosaic.takeOut id position).Orderly
  | .setSlot slot id _ =>
    ∀ num : Fin numSlots, (num.val : Int) = slot → mosaic.Relabels num id
  | .calculatePositions => mosaic.Orderly
  | .updateParticipantInfo .. | .setVADParticipant .. => True

theorem Sound.step (sound : mosaic.Sound (fun _ => False)) {op : MosaicOp}
    (keeps : mosaic.KeepsViews op)
    : (mosaic.step op).Sound (fun _ => False) := by
  cases op with
  | addParticipant id => exact sound.addParticipant keeps
  | removeParticipant id =>
    unfold Mosaic.step removeParticipant
    dsimp only
    split
    · exact sound
    · rename_i position known
      exact (sound.takeOut known).calculatePositions (keeps position known)
  | updateParticipantInfo id vadLevel =>
    unfold Mosaic.step updateParticipantInfo
    dsimp only
    split
    · exact sound.congr rfl rfl (fun _ => rfl)
    · exact sound
  | setSlot slot id blockedUntil => exact sound.setSlot keeps blockedUntil
  | setVADParticipant id blockedUntil => exact sound.setVADParticipant id blockedUntil
  | calculatePositions => exact sound.calculatePositions keeps

theorem Sound.start (numSlots : Nat) : ({} : Mosaic numSlots).Sound (fun _ => False) where
  agree := by
    refine ⟨nofun, nofun, nofun, ?_, ?_⟩
    · intro slot seen
      exact absurd rfl seen
    · intro slot fixed
      exact absurd fixed (lt_irrefl 0)
  positive := by
    intro id present
    exact absurd rfl present

theorem sound_run {events : List MosaicOp}
    (permitted : EachStep step KeepsViews ({} : Mosaic numSlots) events)
    : (run step ({} : Mosaic numSlots) events).Sound (fun _ => False) :=
  run_invariant_of_eachStep (fun _ _ sound keeps => sound.step keeps) (Sound.start numSlots)
    permitted

/-- Outside the speaker's slots a participant is shown in a slot exactly when the slot is
recorded for it.
-/
theorem views_agree {events : List MosaicOp}
    (permitted : EachStep step KeepsViews ({} : Mosaic numSlots) events)
    : let mosaic := run step ({} : Mosaic numSlots) events
      ∀ slot, mosaic.mosaicSlots slot ≠ slotVAD → ∀ id, id ≠ 0
        → (mosaic.mosaicPos slot = id ↔ mosaic.participants.find? id = some (some slot)) := by
  intro mosaic slot ordinary id someone
  have sound := sound_run permitted
  rw [← Option.join_eq_some_iff]
  constructor
  · rintro rfl
    exact (sound.agree.listed someone ordinary).resolve_right (·)
  · intro seated
    exact sound.agree.recorded seated ordinary

instance : Decidable mosaic.Orderly := decidable_of_iff' _ (orderly_iff mosaic)

instance (mosaic : Mosaic numSlots) (op : MosaicOp) : Decidable (mosaic.KeepsViews op) := by
  refine op.casesOn ?_ ?_ ?_ ?_ ?_ ?_ <;> intros <;> unfold KeepsViews <;> try unfold Relabels
  all_goals infer_instance

/-- Somebody speaks up and takes the slot of somebody silent. -/
def speakUp : List MosaicOp :=
  [.addParticipant 1, .addParticipant 2, .addParticipant 3, .updateParticipantInfo 2 0,
    .updateParticipantInfo 3 50, .calculatePositions, .removeParticipant 1]

theorem views_agree_speakUp
    : let mosaic := run step ({} : Mosaic 2) speakUp
      mosaic.mosaicPos 0 = 2 ∧ mosaic.participants.find? 2 = some (some 0) := by
  have agree := @views_agree 2 speakUp (by decide +kernel) 0 (by decide +kernel) 2 (by decide)
  exact ⟨agree.mpr (by decide +kernel), by decide +kernel⟩

/-- A slot that is fixed to somebody who is not there still shows who was displaced from it, and
so does the slot where they went. And a recalculation may give a slot away that somebody else has
just got, since who is to be kicked has left it.
-/
theorem views_disagree
    : let reserved := run step ({} : Mosaic 2) [.addParticipant 1, .setSlot 0 7 0]
      let kicked := run step ({} : Mosaic 2)
        [.addParticipant 2, .addParticipant 1, .addParticipant 3, .updateParticipantInfo 1 0,
          .setSlot 0 slotFree 0, .updateParticipantInfo 3 50, .calculatePositions]
      reserved.mosaicPos 0 = 1 ∧ reserved.mosaicSlots 0 = 7
      ∧ reserved.mosaicPos 1 = 1 ∧ reserved.mosaicSlots 1 = slotFree
      ∧ kicked.mosaicPos 1 = 3 ∧ kicked.participants.find? 2 = some (some 1) := by
  decide +kernel

end MediaServer.Mosaic
