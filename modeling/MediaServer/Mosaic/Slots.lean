import Mathlib.Data.Fin.Tuple.Basic
import MediaServer.Foundation.OrderedMap
import MediaServer.Foundation.Runs

/-! The slots of a video mosaic: which participant is shown where, which slots are pinned,
locked or given to the speaker, and the pass that recalculates the positions.
-/

namespace MediaServer

open Foundation

/-- The voice level of a participant and what follows from it. -/
structure PartInfo where
  vadLevel : Int := 0
  kickable : Bool := false
  eligible : Bool := false
  /-- Only who is silent is kickable, and only who speaks is eligible. -/
  exclusive : (kickable && eligible) = false := by rfl

/-- A slot, or none for `NotShown`. -/
abbrev Position (numSlots : Nat) := Option (Fin numSlots)

structure Mosaic (numSlots : Nat) where
  participants : OrderedMap Int (Position numSlots) := .empty
  partVad : OrderedMap Int PartInfo := .empty
  /-- The kind of each slot: free, locked, the speaker's, or fixed to a participant. -/
  mosaicSlots : Fin numSlots → Int := fun _ => 0
  /-- Who is shown in each slot, 0 for nobody. -/
  mosaicPos : Fin numSlots → Int := fun _ => 0
  mosaicSlotsBlockingTime : Fin numSlots → UInt64 := fun _ => 0
  vadParticipant : Int := 0

namespace Mosaic

def slotFree : Int := 0
def slotLocked : Int := -1
def slotVAD : Int := -2
def slotReset : Int := -3

variable {numSlots : Nat} (mosaic : Mosaic numSlots)

def Available (id : Int) (slot : Fin numSlots) : Prop :=
  (0 < id ∧ mosaic.mosaicSlots slot = id)
  ∨ (mosaic.mosaicSlots slot = slotFree ∧ mosaic.mosaicPos slot = 0)

instance (id : Int) (slot : Fin numSlots) : Decidable (mosaic.Available id slot) := by
  unfold Available
  infer_instance

def freeSlot? (id : Int) : Position numSlots :=
  Fin.find? (fun slot => decide (mosaic.Available id slot))

def setShown (slot : Fin numSlots) (id : Int) : Mosaic numSlots :=
  { mosaic with mosaicPos := Function.update mosaic.mosaicPos slot id }

variable (num : Fin numSlots)

def setKind (kind : Int) : Mosaic numSlots :=
  { mosaic with mosaicSlots := Function.update mosaic.mosaicSlots num kind }

def block (num : Fin numSlots) (blockedUntil : UInt64) : Mosaic numSlots :=
  { mosaic with
    mosaicSlotsBlockingTime := Function.update mosaic.mosaicSlotsBlockingTime num blockedUntil }

def getNextFreeSlot (id : Int) : Mosaic numSlots × Position numSlots :=
  match mosaic.freeSlot? id with
  | none => (mosaic, none)
  | some slot => (if 0 < id then mosaic.setShown slot id else mosaic, some slot)

def setPosition (id : Int) (position : Position numSlots) : Mosaic numSlots :=
  { mosaic with participants := mosaic.participants.insert id position }

/-- `participants[id] = GetNextFreeSlot(id)`. -/
def moveToNextFreeSlot (id : Int) : Mosaic numSlots :=
  let (mosaic, position) := mosaic.getNextFreeSlot id
  mosaic.setPosition id position

def getVADPosition : Position numSlots :=
  Fin.find? (fun slot => decide (mosaic.mosaicSlots slot = slotVAD))

/-! Operations. -/

def addParticipant (id : Int) : Mosaic numSlots :=
  match mosaic.participants.find? id with
  | some _ => mosaic
  | none =>
    let mosaic := mosaic.moveToNextFreeSlot id
    { mosaic with partVad := mosaic.partVad.insert id {} }

def kickables : List (Int × Fin numSlots) :=
  mosaic.partVad.entries.filterMap (fun (id, info) =>
    if info.kickable then (mosaic.participants.find? id).join.map (fun slot => (id, slot))
    else none)

def isEligible (id : Int) : Bool :=
  (mosaic.partVad.find? id).any PartInfo.eligible

def elect (kickables : List (Int × Fin numSlots)) (id : Int)
    : Mosaic numSlots × List (Int × Fin numSlots) :=
  match mosaic.freeSlot? id with
  | some _ => (mosaic.moveToNextFreeSlot id, kickables)
  | none =>
    match kickables with
    | [] => (mosaic, [])
    | (kicked, newslot) :: rest =>
      let mosaic := mosaic.setShown newslot id
      let mosaic := mosaic.setPosition kicked none
      (mosaic.setPosition id (some newslot), rest)

def compact (id : Int) (oldslot : Fin numSlots) : Mosaic numSlots :=
  if mosaic.mosaicPos oldslot ≠ id then mosaic.moveToNextFreeSlot id
  else
    match mosaic.freeSlot? 0 with
    | none => mosaic
    | some newslot =>
      if newslot < oldslot then
        let mosaic := mosaic.setShown newslot id
        let mosaic := mosaic.setShown oldslot 0
        mosaic.setPosition id (some newslot)
      else mosaic

def rearrange (vadPos : Position numSlots) (id : Int) : Mosaic numSlots :=
  if id = mosaic.vadParticipant then mosaic
  else
    match (mosaic.participants.find? id).join with
    | none => mosaic.moveToNextFreeSlot id
    | some oldslot =>
      if some oldslot = vadPos then mosaic.moveToNextFreeSlot id
      else if mosaic.mosaicSlots oldslot = slotFree then mosaic.compact id oldslot
      else mosaic

/-- One round of the second pass. -/
def reshuffle (vadPos : Position numSlots)
    (state : Mosaic numSlots × List (Int × Fin numSlots)) (id : Int)
    : Mosaic numSlots × List (Int × Fin numSlots) :=
  if state.1.isEligible id then state.1.elect state.2 id
  else (state.1.rearrange vadPos id, state.2)

def resetInconsistent : Mosaic numSlots :=
  { mosaic with
    mosaicPos := fun slot =>
      if mosaic.mosaicSlots slot = slotFree ∧ 0 < mosaic.mosaicPos slot
        ∧ (mosaic.participants.find? (mosaic.mosaicPos slot)).join ≠ some slot
      then 0
      else mosaic.mosaicPos slot }

def calculatePositions : Mosaic numSlots :=
  (run (reshuffle mosaic.getVADPosition) (mosaic, mosaic.kickables)
    mosaic.participants.keys).1.resetInconsistent

def leaveSlot (slot : Fin numSlots) (id : Int) : Mosaic numSlots :=
  let mosaic :=
    if mosaic.mosaicSlots slot = id then mosaic.setKind slot slotLocked else mosaic
  (mosaic.setShown slot 0).block slot 0

/-- `RemoveParticipant` up to the recalculation. -/
def takeOut (id : Int) (position : Position numSlots) : Mosaic numSlots :=
  let mosaic :=
    { mosaic with
      participants := mosaic.participants.erase id
      partVad := mosaic.partVad.erase id }
  match position with
  | none => mosaic
  | some slot => mosaic.leaveSlot slot id

def removeParticipant (id : Int) : Mosaic numSlots :=
  match mosaic.participants.find? id with
  | none => mosaic
  | some position => (mosaic.takeOut id position).calculatePositions

def voiceInfo (id : Int) (position : Position numSlots) (vadLevel : Int) : PartInfo where
  vadLevel
  kickable :=
    decide (vadLevel = 0)
      && position.any (fun slot => 0 < slot.val && mosaic.mosaicSlots slot = slotFree)
      && decide (id ≠ mosaic.vadParticipant)
  eligible := decide (0 < vadLevel) && position.isNone && decide (id ≠ mosaic.vadParticipant)
  exclusive := by
    by_cases silent : vadLevel = 0 <;> simp [silent]

def updateParticipantInfo (id vadLevel : Int) : Mosaic numSlots :=
  match mosaic.participants.find? id, mosaic.partVad.find? id with
  | some position, some _ =>
    { mosaic with
      partVad := mosaic.partVad.insert id (mosaic.voiceInfo id position vadLevel) }
  | _, _ => mosaic

def hide : Mosaic numSlots :=
  let partId := mosaic.mosaicPos num
  let mosaic :=
    match mosaic.participants.find? partId with
    | none => mosaic
    | some _ => mosaic.setPosition partId none
  mosaic.setShown num 0

def vacate : Mosaic numSlots :=
  let partId := mosaic.mosaicPos num
  let mosaic :=
    match mosaic.participants.find? partId with
    | none => mosaic
    | some _ => mosaic.moveToNextFreeSlot partId
  mosaic.setShown num 0

def release (position : Position numSlots) : Mosaic numSlots :=
  match position with
  | none => mosaic
  | some slot => (mosaic.setKind slot slotFree).setShown slot 0

def fix (id : Int) : Mosaic numSlots :=
  let partId := mosaic.mosaicPos num
  let mosaic :=
    match mosaic.participants.find? id with
    | none => mosaic
    | some position => ((mosaic.release position).setPosition id (some num)).setShown num id
  match mosaic.participants.find? partId with
  | none => mosaic
  | some _ => if id = partId then mosaic else mosaic.moveToNextFreeSlot partId

/-- `SetSlot` gives the slot its new kind first. Without its slot there is no speaker. -/
def relabel (id : Int) : Mosaic numSlots :=
  let mosaic :=
    if mosaic.mosaicSlots num = slotVAD ∧ id ≠ slotVAD then { mosaic with vadParticipant := 0 }
    else mosaic
  if id ≠ slotReset then mosaic.setKind num id else mosaic

/-- What `SetSlot` does about who was shown in the slot. The slot has its new kind already, so
the speaker's slot keeps them.
-/
def rehouse (id : Int) : Mosaic numSlots :=
  if 0 < id then mosaic.fix num id
  else if id = slotFree then mosaic.hide num
  else if id = slotLocked then mosaic.vacate num
  else if id = slotVAD then
    if mosaic.mosaicSlots num ≠ slotVAD then mosaic.vacate num else mosaic
  else if id = slotReset then
    if mosaic.mosaicSlots num = slotFree then mosaic.hide num else mosaic
  else mosaic

def setSlotAt (id : Int) (blockedUntil : UInt64) : Mosaic numSlots :=
  ((mosaic.relabel num id).rehouse num id).block num blockedUntil

def setSlot (num id : Int) (blockedUntil : UInt64) : Mosaic numSlots :=
  if inside : 0 ≤ num ∧ num < numSlots then
    mosaic.setSlotAt ⟨num.toNat, by omega⟩ id blockedUntil
  else mosaic

def showSpeaker (id : Int) (blockedUntil : UInt64) : Mosaic numSlots :=
  match mosaic.getVADPosition with
  | none => mosaic
  | some slot => (mosaic.setShown slot id).block slot blockedUntil

def setVADParticipant (id : Int) (blockedUntil : UInt64) : Mosaic numSlots :=
  let mosaic := { mosaic with vadParticipant := id }
  let mosaic := mosaic.showSpeaker id blockedUntil
  match mosaic.partVad.find? id with
  | none => mosaic
  | some info =>
    { mosaic with partVad := mosaic.partVad.insert id { vadLevel := info.vadLevel } }

end Mosaic

/-- The operations of the control interfaces and of the mixer on one mosaic. -/
inductive MosaicOp
  | addParticipant (id : Int)
  | removeParticipant (id : Int)
  | updateParticipantInfo (id vadLevel : Int)
  | setSlot (num id : Int) (blockedUntil : UInt64)
  | setVADParticipant (id : Int) (blockedUntil : UInt64)
  | calculatePositions

namespace Mosaic

variable {numSlots : Nat}

def step (mosaic : Mosaic numSlots) : MosaicOp → Mosaic numSlots
  | .addParticipant id => mosaic.addParticipant id
  | .removeParticipant id => mosaic.removeParticipant id
  | .updateParticipantInfo id vadLevel => mosaic.updateParticipantInfo id vadLevel
  | .setSlot num id blockedUntil => mosaic.setSlot num id blockedUntil
  | .setVADParticipant id blockedUntil => mosaic.setVADParticipant id blockedUntil
  | .calculatePositions => mosaic.calculatePositions

end Mosaic

end MediaServer
