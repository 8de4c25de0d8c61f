import MediaServer.Foundation.OrderedMap
import MediaServer.Speech.CorrectionTracker
import Mathlib.Data.Finset.Basic

/-! The synthesizer of a port: what is to be said is held until a stream is ready, goes out
phrase by phrase, and its events are told from the numbers of the phrases.
-/

namespace MediaServer.Speech

open Foundation

/-- The calls of a synthesizer on its flow, each with what it returns. A text comes with the
`sayId` it belongs to, which is not sent.
-/
structure FlowCalls (φ : Type) where
  sendText : φ → Nat → Text → Bool × φ
  flush : φ → Bool × φ
  stopSpeaking : φ → Bool × φ

/-- What the flow tells, with the link from which it comes. -/
inductive Notice
  | ready (link : Nat)
  | say (link : Nat) (id : Int)
  | done (link : Nat) (id : Int)
  | state (up : Bool) (reason : String)

/-- The events for the controller. Those that a phrase brings come with its link and number. -/
inductive Posted
  | started (sayId : Nat) (cause : Nat × Int)
  | done (sayId : Nat) (interrupted : Bool) (cause : Option (Nat × Int))
  | service (up : Bool) (reason : String)

def correctionStableMs : Int := 2000

def frameSamples : Nat := 320

structure Synthesizer where
  -- What other threads leave for the tick. `sayQueue` is the `says` of the source.
  sayQueue : List (Nat × Text) := []
  stopRequested : Bool := false
  typed : Text := []
  notices : List Notice := []
  playback : List WORD := []
  carry : Option BYTE := none
  discarding : Bool := false
  -- The rest belongs to the tick.
  tracker : CorrectionTracker
  /-- Whose a phrase of the server is. -/
  owners : OrderedMap Int Nat := .empty
  /-- The phrases of a say that are not done. -/
  remaining : OrderedMap Nat Int := .empty
  started : Finset Nat := ∅
  nextPhraseId : Int := 1
  held : List (Nat × Text) := []
  streamReady : Bool := false
  streamDown : Bool := false
  idle : Bool := true

namespace Synthesizer

def new (announceCorrections : Bool) : Synthesizer :=
  { tracker := { stableMs := correctionStableMs, announce := announceCorrections } }

variable (synth : Synthesizer)

def pushSay (sayId : Nat) (text : Text) : Synthesizer :=
  { synth with sayQueue := synth.sayQueue ++ [(sayId, text)] }

def pushStopSpeaking : Synthesizer := { synth with stopRequested := true }

def pushTyped (text : Text) : Synthesizer := { synth with typed := synth.typed ++ text }

/-- A notice of the flow. A new stream also ends the rejection of samples. -/
def push (notice : Notice) : Synthesizer :=
  match notice with
  | .ready _ => { synth with discarding := false, notices := synth.notices ++ [notice] }
  | _ => { synth with notices := synth.notices ++ [notice] }

def onStopped : Synthesizer := { synth with discarding := false }

/-- Samples of two bytes each, and the byte that is left. -/
def samples : Text → List WORD × Option BYTE
  | [] => ([], none)
  | [byte] => ([], some byte)
  | low :: high :: rest =>
    let (others, left) := samples rest
    ((low.toUInt16 ||| high.toUInt16 <<< 8) :: others, left)

def onPcm (data : Text) : Synthesizer :=
  if synth.discarding then synth
  else
    let (more, carry) := samples (synth.carry.toList ++ data)
    { synth with playback := synth.playback ++ more, carry }

def mix : Synthesizer := { synth with playback := synth.playback.drop frameSamples }

def discard (untilStopped : Bool) : Synthesizer :=
  { synth with playback := [], carry := none, discarding := untilStopped }

end Synthesizer

/-! The tick. -/

/-- What a tick works on: the synthesizer, its flow, and the events that are posted. -/
structure Desk (φ : Type) where
  synth : Synthesizer
  flow : φ
  posted : List Posted := []

namespace Desk

variable {φ : Type} (calls : FlowCalls φ)

/-- Every say with phrases at the server ends, and their numbers are forgotten. -/
def interruptAll (desk : Desk φ) : Desk φ :=
  { desk with
    synth := { desk.synth with owners := .empty, remaining := .empty, started := ∅ }
    posted := desk.posted ++ desk.synth.remaining.keys.map (fun sayId => .done sayId true none) }

def dropHeld (desk : Desk φ) : Desk φ :=
  { desk with
    synth := { desk.synth with held := [] }
    posted := desk.posted
      ++ (desk.synth.held.filter (fun say => say.1 ≠ 0)).map (fun say => .done say.1 true none) }

def stopSynthesizer (desk : Desk φ) : Desk φ :=
  let (told, flow) := calls.stopSpeaking desk.flow
  dropHeld (interruptAll { desk with synth := desk.synth.discard told, flow })

/-- Phrases go out until a send fails. Tells how many did. -/
def sendEach (sayId : Nat) : List Text → φ → Nat × φ
  | [], flow => (0, flow)
  | phrase :: rest, flow =>
    match calls.sendText flow sayId phrase with
    | (false, flow) => (0, flow)
    | (true, flow) =>
      match calls.flush flow with
      | (false, flow) => (0, flow)
      | (true, flow) =>
        let (sent, flow) := sendEach sayId rest flow
        (sent + 1, flow)

def own (sayId : Nat) : Nat → Synthesizer → Synthesizer
  | 0, synth => synth
  | count + 1, synth =>
    own sayId count
      { synth with
        owners := synth.owners.insert synth.nextPhraseId sayId
        nextPhraseId := synth.nextPhraseId + 1 }

def count (sayId phrases : Nat) (synth : Synthesizer) : Synthesizer :=
  if sayId = 0 then synth
  else { synth with remaining := synth.remaining.insert sayId phrases }

def sendPhrases (sayId : Nat) (text : Text) (desk : Desk φ) : Bool × Desk φ :=
  let phrases := splitPhrases text
  let (sent, flow) := sendEach calls sayId phrases desk.flow
  if sent = phrases.length then
    (true,
      { desk with
        synth :=
          if phrases = [] then desk.synth
          else count sayId phrases.length (own sayId phrases.length desk.synth)
        flow })
  else if sent = 0 then (false, { desk with flow })
  else
    (true,
      { desk with
        flow
        posted := desk.posted ++ if sayId = 0 then [] else [.done sayId true none] })

def sendHeldFrom : List (Nat × Text) → Desk φ → Desk φ
  | [], desk => desk
  | (sayId, text) :: rest, desk =>
    if desk.synth.streamReady then
      match sendPhrases calls sayId text desk with
      | (false, desk) => { desk with synth := { desk.synth with streamReady := false } }
      | (true, desk) => sendHeldFrom rest { desk with synth := { desk.synth with held := rest } }
    else desk

/-- What is held goes out as long as the stream takes it. -/
def sendHeld (desk : Desk φ) : Desk φ := sendHeldFrom calls desk.synth.held desk

def onReady (desk : Desk φ) : Desk φ :=
  let ended := desk.interruptAll
  { ended with
    synth := { ended.synth with nextPhraseId := 1, streamReady := true, streamDown := false } }

def onSay (link : Nat) (id : Int) (desk : Desk φ) : Desk φ :=
  match desk.synth.owners.find? id with
  | none => desk
  | some sayId =>
    if sayId = 0 then { desk with posted := desk.posted ++ [.started 0 (link, id)] }
    else if sayId ∈ desk.synth.started then desk
    else
      { desk with
        synth := { desk.synth with started := insert sayId desk.synth.started }
        posted := desk.posted ++ [.started sayId (link, id)] }

def onDone (link : Nat) (id : Int) (desk : Desk φ) : Desk φ :=
  match desk.synth.owners.find? id with
  | none => desk
  | some sayId =>
    let synth := { desk.synth with owners := desk.synth.owners.erase id }
    if sayId = 0 then
      { desk with synth, posted := desk.posted ++ [.done 0 false (some (link, id))] }
    else
      let left := (synth.remaining.find? sayId).getD 0 - 1
      if left > 0 then
        { desk with synth := { synth with remaining := synth.remaining.insert sayId left } }
      else
        { desk with
          synth :=
            { synth with
              remaining := synth.remaining.erase sayId
              started := synth.started.erase sayId }
          posted := desk.posted ++ [.done sayId false (some (link, id))] }

def onState (up : Bool) (reason : String) (desk : Desk φ) : Desk φ :=
  let desk :=
    if up then desk
    else
      dropHeld (interruptAll
        { desk with synth := { desk.synth with streamReady := false, streamDown := true } })
  { desk with posted := desk.posted ++ [.service up reason] }

def hear (desk : Desk φ) : Notice → Desk φ
  | .ready _ => desk.onReady
  | .say link id => desk.onSay link id
  | .done link id => desk.onDone link id
  | .state up reason => desk.onState up reason

def hold (sayQueue : List (Nat × Text)) (desk : Desk φ) : Desk φ :=
  { desk with synth := { desk.synth with held := desk.synth.held ++ sayQueue } }

def act (desk : Desk φ) : CorrectionTracker.Action → Desk φ
  | .stop => stopSynthesizer calls desk
  | .speak text => sendHeld calls (desk.hold [(0, text)])

/-- The queues of the other threads are taken. -/
def take (desk : Desk φ) : Desk φ :=
  { desk with
    synth :=
      { desk.synth with sayQueue := [], stopRequested := false, typed := [], notices := [] } }

def track (typed : Text) (nowMs : QWORD) (tracker : CorrectionTracker)
    : List CorrectionTracker.Action × CorrectionTracker :=
  let (actions, tracker) := tracker.add typed nowMs
  let (more, tracker) := tracker.tick nowMs
  (actions ++ more, tracker)

def finish (desk : Desk φ) : Desk φ :=
  let desk := if desk.synth.streamDown then desk.dropHeld else desk
  { desk with
    synth :=
      { desk.synth with
        idle := desk.synth.owners.size = 0 ∧ desk.synth.held = [] ∧ desk.synth.playback = [] } }

def speak (typed : Text) (nowMs : QWORD) (desk : Desk φ) : Desk φ :=
  let (actions, tracker) := track typed nowMs desk.synth.tracker
  actions.foldl (act calls) { desk with synth := { desk.synth with tracker } }

def synthesize (nowMs : QWORD) (desk : Desk φ) : Desk φ :=
  let queued := desk.synth
  let desk := queued.notices.foldl hear desk.take
  let desk := if queued.stopRequested then stopSynthesizer calls desk else desk
  let desk := sendHeld calls (desk.hold queued.sayQueue)
  finish (speak calls queued.typed nowMs desk)

/-! What every part of a tick keeps, the tick keeps. -/

/-- The parts of a tick keep what holds of the notices and the queue that are left and of the
desk.
-/
structure Steady (holds : List Notice → List (Nat × Text) → Desk φ → Prop) : Prop where
  hear {notice rest queue desk}
    : holds (notice :: rest) queue desk → holds rest queue (desk.hear notice)
  stop {queue desk} : holds [] queue desk → holds [] queue (desk.stopSynthesizer calls)
  hold {queue desk} : holds [] queue desk → holds [] [] (desk.hold queue)
  typed {desk} (text : Text) : holds [] [] desk → holds [] [] (desk.hold [(0, text)])
  sent {desk say rest after}
    : holds [] [] desk → desk.synth.held = say :: rest
      → desk.sendPhrases calls say.1 say.2 = (true, after)
      → holds [] [] { after with synth := { after.synth with held := rest } }
  stuck {desk say rest after}
    : holds [] [] desk → desk.synth.held = say :: rest
      → desk.sendPhrases calls say.1 say.2 = (false, after)
      → holds [] [] { after with synth := { after.synth with streamReady := false } }
  drop {desk} : holds [] [] desk → holds [] [] desk.dropHeld
  other {desk} (tracker : CorrectionTracker) (idle : Bool)
    : holds [] [] desk → holds [] [] { desk with synth := { desk.synth with tracker, idle } }

namespace Steady

variable {calls} {holds : List Notice → List (Nat × Text) → Desk φ → Prop}
  (steady : Steady calls holds)
include steady

variable {desk : Desk φ}

theorem hearAll {notices : List Notice} {queue : List (Nat × Text)} (now : holds notices queue desk)
    : holds [] queue (notices.foldl Desk.hear desk) := by
  induction notices generalizing desk with
  | nil => exact now
  | cons notice rest ih => exact ih (steady.hear now)

theorem sendHeld (now : holds [] [] desk) : holds [] [] (desk.sendHeld calls) := by
  have sends : ∀ held, desk.synth.held = held → holds [] [] (sendHeldFrom calls held desk) := by
    intro held isHeld
    induction held generalizing desk with
    | nil => exact now
    | cons say rest ih =>
      unfold sendHeldFrom
      split_ifs
      · split
        next after result => exact steady.stuck now isHeld result
        next after result => exact ih (steady.sent now isHeld result) rfl
      · exact now
  exact sends _ rfl

theorem actAll (now : holds [] [] desk) (actions : List CorrectionTracker.Action)
    : holds [] [] (actions.foldl (act calls) desk) := by
  induction actions generalizing desk with
  | nil => exact now
  | cons action rest ih =>
    refine ih ?_
    cases action with
    | stop => exact steady.stop now
    | speak text => exact steady.sendHeld (steady.typed text now)

theorem finish (now : holds [] [] desk) : holds [] [] desk.finish := by
  unfold Desk.finish
  dsimp only
  split_ifs
  · exact steady.other _ _ (steady.drop now)
  · exact steady.other _ _ now

theorem synthesize (desk : Desk φ)
    (taken : holds desk.synth.notices desk.synth.sayQueue desk.take) (nowMs : QWORD)
    : holds [] [] (desk.synthesize calls nowMs) := by
  have heard := steady.hearAll taken
  unfold Desk.synthesize
  dsimp only
  generalize desk.synth.notices.foldl Desk.hear desk.take = after at heard ⊢
  refine steady.finish (steady.actAll (steady.other _ _ (steady.sendHeld (steady.hold ?_))) _)
  split_ifs
  · exact steady.stop heard
  · exact heard

end Steady

/-! A tick does not touch the queues once they are taken. -/

/-- What the other threads have left. -/
def queues (desk : Desk φ) : List (Nat × Text) × Bool × Text × List Notice :=
  (desk.synth.sayQueue, desk.synth.stopRequested, desk.synth.typed, desk.synth.notices)

theorem hear_keeps (desk : Desk φ) (notice : Notice)
    : (desk.hear notice).flow = desk.flow ∧ (desk.hear notice).queues = desk.queues
      ∧ (desk.hear notice).synth.held ⊆ desk.synth.held
      ∧ desk.posted ⊆ (desk.hear notice).posted := by
  cases notice with
  | ready link => exact ⟨rfl, rfl, List.Subset.refl _, List.subset_append_left _ _⟩
  | say link id | done link id =>
    simp only [hear, onSay, onDone]
    split
    next => simp
    next => split_ifs <;> simp [queues]
  | state up reason => cases up <;> simp [hear, onState, interruptAll, dropHeld, queues]

theorem queues_own (sayId phrases : Nat) (desk : Desk φ)
    : queues { desk with synth := own sayId phrases desk.synth } = desk.queues := by
  induction phrases generalizing desk with
  | zero => rfl
  | succ phrases ih =>
    exact ih { desk with
      synth := { desk.synth with
        owners := desk.synth.owners.insert desk.synth.nextPhraseId sayId
        nextPhraseId := desk.synth.nextPhraseId + 1 } }

theorem queues_sendPhrases (sayId : Nat) (text : Text) (desk : Desk φ)
    : (sendPhrases calls sayId text desk).2.queues = desk.queues := by
  unfold sendPhrases
  dsimp only
  split_ifs with all empty
  · rfl
  · rw [count]
    split_ifs <;> exact queues_own sayId _ desk
  · rfl
  · rfl
  · rfl

/-- Behind a tick the queues are empty. -/
theorem queues_synthesize (nowMs : QWORD) (desk : Desk φ)
    : (desk.synthesize calls nowMs).queues = ([], false, [], []) := by
  have steady : Steady calls (fun _ _ desk => desk.queues = ([], false, [], [])) :=
    { hear := (hear_keeps _ _).2.1.trans
      stop := id
      hold := id
      typed := fun _ => id
      sent := fun {desk say _ _} empty _ result =>
        (congrArg (fun result => result.2.queues) result).symm.trans
          ((queues_sendPhrases calls say.1 say.2 desk).trans empty)
      stuck := fun {desk say _ _} empty _ result =>
        (congrArg (fun result => result.2.queues) result).symm.trans
          ((queues_sendPhrases calls say.1 say.2 desk).trans empty)
      drop := id
      other := fun _ _ => id }
  exact steady.synthesize desk rfl nowMs

end Desk

end MediaServer.Speech
