import MediaServer.Speech.PhraseSplitter
import MediaServer.Foundation.Runs

/-! `AsrSession`: a client hears the text of one backend session after the other. The audio of
the client does not decide what text it gets, and is left out with the commands to the backend.
-/

namespace MediaServer.Speech

open List

structure AsrSession where
  asrPauseCloseSecs : QWORD := 30
  /-- The backend session that is heard, and the number of the next one. -/
  mistral : Option Nat := none
  nextClient : Nat := 0
  mistralReady : Bool := false
  openingAtMs : QWORD := 0
  paused : Bool := false
  pausedAtMs : QWORD := 0
  finishing : Bool := false
  finishingAtMs : QWORD := 0
  closing : Bool := false
  segment : Text := []

namespace AsrSession

def openTimeoutMs : QWORD := 10000

def finishTimeoutMs : QWORD := 5000

inductive Event
  | pause (nowMs : QWORD)
  | resume (nowMs : QWORD)
  | done (nowMs : QWORD)
  | realtimeReady (client : Nat)
  | realtimeText (client : Nat) (text : Text)
  | realtimeDone (client : Nat) (text : Text)
  | realtimeClosed (client : Nat)
  | tick (nowMs : QWORD)
  /-- The session is closed for another reason. -/
  | close
  | closed

variable (session : AsrSession)

def openMistral (nowMs : QWORD) : AsrSession :=
  { session with
    mistral := some session.nextClient
    nextClient := session.nextClient + 1
    mistralReady := false
    openingAtMs := nowMs }

def onPause (nowMs : QWORD) : AsrSession :=
  if session.paused ∨ session.finishing then session
  else { session with paused := true, pausedAtMs := nowMs }

def onResume (nowMs : QWORD) : AsrSession :=
  if !session.paused then session
  else if session.mistral.isNone ∧ !session.finishing then
    openMistral { session with paused := false } nowMs
  else { session with paused := false }

def onDone (nowMs : QWORD) : AsrSession :=
  if session.finishing then session
  else
    { session with
      finishing := true
      finishingAtMs := nowMs
      closing := session.closing || session.mistral.isNone }

def onRealtimeReady (client : Nat) : AsrSession :=
  if session.mistral = some client then { session with mistralReady := true } else session

/-- Both tell what text is sent to the client. -/
def onRealtimeText (client : Nat) (text : Text) : AsrSession × Text :=
  if session.mistral = some client then ({ session with segment := session.segment ++ text }, text)
  else (session, [])

/-- What a final text has beyond the segment, if that is its start. -/
def rest (text : Text) : Text :=
  if text.length > session.segment.length
      ∧ text.take session.segment.length = session.segment then
    text.drop session.segment.length
  else []

def onRealtimeDone (client : Nat) (text : Text) : AsrSession × Text :=
  if session.mistral = some client then ({ session with segment := [] }, session.rest text)
  else (session, [])

def onRealtimeClosed (client : Nat) : AsrSession :=
  if session.mistral = some client then
    { session with
      mistral := none
      mistralReady := false
      closing := session.closing || session.finishing || !session.paused }
  else session

/-- A pause has lasted too long for the backend. -/
def tickPause (nowMs : QWORD) : AsrSession :=
  if session.paused ∧ session.mistral.isSome
      ∧ nowMs - session.pausedAtMs ≥ session.asrPauseCloseSecs * 1000 then
    { session with mistral := none, mistralReady := false }
  else session

def onTick (nowMs : QWORD) : AsrSession :=
  if session.closing then session
  else
    let session := session.tickPause nowMs
    { session with
      closing :=
        (session.mistral.isSome ∧ !session.mistralReady
            ∧ nowMs - session.openingAtMs ≥ openTimeoutMs)
          ∨ (session.finishing ∧ nowMs - session.finishingAtMs ≥ finishTimeoutMs) }

def step (session : AsrSession) : Event → AsrSession × Text
  | .pause nowMs => (session.onPause nowMs, [])
  | .resume nowMs => (session.onResume nowMs, [])
  | .done nowMs => (session.onDone nowMs, [])
  | .realtimeReady client => (session.onRealtimeReady client, [])
  | .realtimeText client text => session.onRealtimeText client text
  | .realtimeDone client text => session.onRealtimeDone client text
  | .realtimeClosed client => (session.onRealtimeClosed client, [])
  | .tick nowMs => (session.onTick nowMs, [])
  | .close => ({ session with closing := true }, [])
  | .closed => ({ session with mistral := none }, [])

def opened (asrPauseCloseSecs nowMs : QWORD) : AsrSession :=
  openMistral { asrPauseCloseSecs } nowMs

end AsrSession

/-- A segment that a backend session has ended: the deltas of earlier sessions that no final
text has closed, its own deltas, its final text, and the text that went to the client for it.
-/
structure EndedSegment where
  client : Nat
  leftover : Text
  deltas : Text
  final : Text
  relayed : Text
deriving DecidableEq

/-- What a run shows from outside since the last final text, and the segments before. -/
structure Transcript where
  leftover : Text := []
  deltas : Text := []
  relayed : Text := []
  ended : List EndedSegment := []

/-- Another backend session is heard. -/
def Transcript.reopen (transcript : Transcript) : Transcript :=
  { transcript with
    leftover := transcript.leftover ++ transcript.deltas
    deltas := []
    relayed := [] }

/-- One more event with the text that it sends to the client. -/
def Transcript.note (transcript : Transcript) (before after : AsrSession) (event : AsrSession.Event)
    (sent : Text) : Transcript :=
  let relayed := transcript.relayed ++ sent
  match event with
  | .realtimeText client text =>
    if before.mistral = some client then
      { transcript with deltas := transcript.deltas ++ text, relayed }
    else transcript
  | .realtimeDone client text =>
    if before.mistral = some client then
      { ended := transcript.ended
          ++ [⟨client, transcript.leftover, transcript.deltas, text, relayed⟩] }
    else transcript
  | _ =>
    if after.nextClient = before.nextClient then { transcript with relayed }
    else transcript.reopen

/-- A session and what its run shows. -/
structure Transcribed where
  session : AsrSession
  transcript : Transcript := {}

namespace Transcribed

open AsrSession hiding step

def step (state : Transcribed) (event : AsrSession.Event) : Transcribed :=
  let (session, sent) := state.session.step event
  { session, transcript := state.transcript.note state.session session event sent }

/-- The client gets the final text exactly if no deltas of an earlier session are in front of the
own ones, or nothing is left to send.
-/
def Sound (ended : EndedSegment) : Prop :=
  ended.deltas <+: ended.final
    → (ended.relayed = ended.final ↔ ended.leftover = [] ∨ ended.deltas = ended.final)

/-- The segment holds all deltas since the last final text, and the client got those of the
session that is heard.
-/
structure Tracks (state : Transcribed) : Prop where
  segment : state.session.segment = state.transcript.leftover ++ state.transcript.deltas
  relayed : state.transcript.relayed = state.transcript.deltas
  ended : ∀ ended ∈ state.transcript.ended, Sound ended

variable {state : Transcribed} (tracks : state.Tracks)
include tracks

/-- The rest is what lies behind the leftover and the deltas: it is too short if there is a
leftover.
-/
theorem Tracks.sound (client : Nat) (text : Text)
    : Sound ⟨client, state.transcript.leftover, state.transcript.deltas, text,
        state.transcript.relayed ++ state.session.rest text⟩ := by
  intro starts
  obtain ⟨tail, same⟩ : state.transcript.deltas <+: text := starts
  simp only [AsrSession.rest, tracks.relayed, tracks.segment, ← same,
    append_cancel_left_eq, length_append]
  split_ifs with fits
  · constructor
    · intro whole
      have lengths := congrArg List.length whole
      simp only [length_drop, length_append] at lengths
      exact .inl (length_eq_zero_iff.mp (by omega))
    · rintro (empty | whole)
      · simp [empty]
      · have lengths := congrArg List.length whole
        simp only [length_append] at lengths
        omega
  · constructor
    · rintro rfl
      exact .inr (append_nil _).symm
    · rintro (empty | whole)
      · by_contra more
        have longer := length_pos_iff.mpr (Ne.symm more)
        exact fits ⟨by simp [empty]; omega, by simp [empty]⟩
      · exact (self_eq_append_right.mp whole).symm

/-- No text is heard: the segment stays, also where another backend session is opened. -/
theorem Tracks.of_same {session : AsrSession} (segment : session.segment = state.session.segment)
    {transcript : Transcript}
    (noted : transcript = state.transcript ∨ transcript = state.transcript.reopen)
    : Tracks ⟨session, transcript⟩ := by
  rcases noted with rfl | rfl
  · exact ⟨segment.trans tracks.segment, tracks.relayed, tracks.ended⟩
  · exact ⟨segment.trans (tracks.segment.trans (append_nil _).symm), rfl, tracks.ended⟩

theorem Tracks.step (event : AsrSession.Event) : (state.step event).Tracks := by
  cases event with
  | realtimeText client text =>
    simp only [Transcribed.step, AsrSession.step, AsrSession.onRealtimeText, Transcript.note]
    split_ifs
    · exact ⟨by simp [tracks.segment], by simp [tracks.relayed], tracks.ended⟩
    · exact tracks
  | realtimeDone client text =>
    simp only [Transcribed.step, AsrSession.step, AsrSession.onRealtimeDone, Transcript.note]
    split_ifs
    · refine ⟨rfl, rfl, fun ended member => ?_⟩
      rcases mem_append.mp member with before | last
      · exact tracks.ended ended before
      · exact mem_singleton.mp last ▸ tracks.sound client text
    · exact tracks
  | pause | resume | done | realtimeReady | realtimeClosed | tick | close | closed =>
    refine tracks.of_same ?_ ?_
    · simp only [onPause, onResume, onDone, onRealtimeReady, onRealtimeClosed, onTick, tickPause]
      repeat' split
      all_goals rfl
    · simp only [Transcript.note, append_nil]
      split
      · exact .inl rfl
      · exact .inr rfl

end Transcribed

namespace AsrSession

/-- In every run, the client gets the final text of a backend session exactly if no deltas were
left of the sessions before it, or its own deltas are the final text already.
-/
theorem final_text_relayed_iff (asrPauseCloseSecs openedAtMs : QWORD) (events : List Event)
    (ended : EndedSegment)
    (happened
      : ended ∈ (Foundation.run Transcribed.step ⟨opened asrPauseCloseSecs openedAtMs, {}⟩
          events).transcript.ended)
    (starts : ended.deltas <+: ended.final)
    : ended.relayed = ended.final ↔ ended.leftover = [] ∨ ended.deltas = ended.final := by
  have tracks := @Foundation.run_invariant _ _ Transcribed.step Transcribed.Tracks
    (fun _ event tracks => tracks.step event) ⟨opened asrPauseCloseSecs openedAtMs, {}⟩
    ⟨rfl, rfl, forall_mem_nil _⟩ events
  exact tracks.ended ended happened starts

/-- The first backend session says "A" and is closed by a pause. The second one says "B" and ends
with "BC".
-/
def pausedInWord : List Event :=
  [.realtimeReady 0, .realtimeText 0 [0x41], .pause 0, .tick 30000, .resume 40000,
    .realtimeReady 1, .realtimeText 1 [0x42], .realtimeDone 1 [0x42, 0x43]]

/-- The client never gets the "C". -/
theorem final_text_cut
    : let ended : EndedSegment := ⟨1, [0x41], [0x42], [0x42, 0x43], [0x42]⟩
      (Foundation.run Transcribed.step ⟨opened 30 0, {}⟩ pausedInWord).transcript.ended = [ended]
      ∧ ended.deltas <+: ended.final ∧ ended.relayed ≠ ended.final := by
  decide +kernel

def saidAtOnce : List Event :=
  [.realtimeReady 0, .realtimeText 0 [0x42], .realtimeDone 0 [0x42, 0x43]]

theorem final_text_relayed_iff_first
    : let final := Foundation.run Transcribed.step ⟨opened 30 0, {}⟩ saidAtOnce
      final.transcript.ended = [⟨0, [], [0x42], [0x42, 0x43], [0x42, 0x43]⟩]
      ∧ ∀ ended ∈ final.transcript.ended, ended.relayed = ended.final := by
  intro final
  have isEnded : final.transcript.ended = [⟨0, [], [0x42], [0x42, 0x43], [0x42, 0x43]⟩] := by
    decide +kernel
  refine ⟨isEnded, fun ended member => ?_⟩
  have same := mem_singleton.mp (isEnded ▸ member)
  refine (final_text_relayed_iff 30 0 saidAtOnce ended member ?_).mpr (.inl ?_)
  · rw [same]
    exact ⟨[0x43], rfl⟩
  · rw [same]

end AsrSession

end MediaServer.Speech
