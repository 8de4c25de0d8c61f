import MediaServer.Foundation.Runs
import MediaServer.Rtp.Packet

/-! The activity that the voice of a participant has earned: frames add to it, and whoever asks
for it uses some of it up.
-/

namespace MediaServer.Audio

open Foundation List

/-- A frame, with the verdict of the detector, whether a resampler opens for it, and what the
resampler makes of it: so many samples, with the verdict on them.
-/
structure Samples where
  size : DWORD
  rate : DWORD
  voice : Bool
  opens : Bool := true
  converted : Option (DWORD × Bool) := none

def isRateSupported (rate : DWORD) : Bool :=
  rate = 8000 || rate = 16000 || rate = 32000 || rate = 48000

inductive Score
  | unjudged
  | judged (voice : Bool) (size : DWORD)
  deriving DecidableEq

/-- The number `v` of a frame: it stays -1 where the detector is not asked. -/
def Score.v : Score → DWORD
  | .unjudged => -1
  | .judged voice size => if voice then size else 0

structure PipeAudioOutput where
  calcVAD : Bool
  nativeRate : DWORD := 0
  swr : Bool := false
  swrInRate : DWORD := 0
  acu : DWORD := 0

namespace PipeAudioOutput

def reopen (output : PipeAudioOutput) (samples : Samples) : PipeAudioOutput :=
  if output.nativeRate ≠ 0 ∧ samples.rate ≠ output.nativeRate
      ∧ (!output.swr ∨ output.swrInRate ≠ samples.rate) then
    { output with swr := samples.opens, swrInRate := samples.rate }
  else output

/-- The score at the rate of the frame, or else at the native rate. There is none for an empty
frame, and none if the resampler fails.
-/
def score? (output : PipeAudioOutput) (samples : Samples) : Option Score :=
  let opened := output.reopen samples
  let first :=
    if opened.calcVAD && isRateSupported samples.rate then .judged samples.voice samples.size
    else .unjudged
  if samples.size = 0 then none
  else if opened.swr then
    samples.converted.map (fun (produced, voice) =>
      if opened.calcVAD && first.v ≥ 0x80000000 && isRateSupported opened.nativeRate then
        .judged voice produced
      else first)
  else some first

def capped (acu : DWORD) : DWORD := if acu > 48000 then 48000 else acu

/-- The first voice gets a bump. -/
def credit (output : PipeAudioOutput) (v : DWORD) : PipeAudioOutput :=
  let acu := if output.acu = 0 ∧ v ≠ 0 then output.acu + 16000 else output.acu
  { output with acu := capped (acu + v) }

def playFrame (output : PipeAudioOutput) (samples : Samples) : PipeAudioOutput :=
  if samples.size = 0 then output
  else
    let opened := output.reopen samples
    (output.score? samples).elim opened (fun score => opened.credit score.v)

def getVAD (output : PipeAudioOutput) (numSamples : DWORD) : DWORD × PipeAudioOutput :=
  (output.acu,
    { output with acu := if output.acu < numSamples then 0 else output.acu - numSamples })

inductive Call
  | playFrame (samples : Samples)
  | getVAD (numSamples : DWORD)

def step (output : PipeAudioOutput) : Call → PipeAudioOutput
  | .playFrame samples => output.playFrame samples
  | .getVAD numSamples => (output.getVAD numSamples).2

/-- While there is no activity, no frame is played that cannot be judged. -/
def permits (output : PipeAudioOutput) : Call → Bool
  | .playFrame samples => output.acu ≠ 0 || output.score? samples ≠ some .unjudged
  | .getVAD _ => true

theorem capped_le (acu : DWORD) : capped acu ≤ 48000 ∧ capped acu ≤ acu := by
  unfold capped
  split_ifs with more
  · exact ⟨UInt32.le_refl _, UInt32.le_of_lt more⟩
  · exact ⟨UInt32.not_lt.mp more, UInt32.le_refl _⟩

variable (output : PipeAudioOutput)

theorem playFrame_acu (samples : Samples)
    : (output.playFrame samples).acu
      = (output.score? samples).elim output.acu (fun score => (output.credit score.v).acu) := by
  have same : (output.reopen samples).acu = output.acu := by
    unfold reopen
    split <;> rfl
  unfold playFrame
  split_ifs with empty
  · simp [score?, empty]
  · cases output.score? samples with
    | none => exact same
    | some score => simp only [Option.elim_some, credit, same]

theorem getVAD_acu_le (numSamples : DWORD) : (output.getVAD numSamples).2.acu ≤ output.acu := by
  simp only [getVAD]
  split_ifs with few
  · exact UInt32.zero_le
  · exact UInt32.sub_le (UInt32.not_lt.mp few)

variable {output}

theorem step_acu_le (bounded : output.acu ≤ 48000) (call : Call)
    : (output.step call).acu ≤ 48000 := by
  cases call with
  | getVAD numSamples => exact UInt32.le_trans (getVAD_acu_le output numSamples) bounded
  | playFrame samples =>
    rw [step, playFrame_acu]
    cases output.score? samples with
    | none => exact bounded
    | some score => exact (capped_le _).1

theorem credit_unjudged_le (active : output.acu ≠ 0)
    : (output.credit Score.unjudged.v).acu ≤ output.acu := by
  simp only [credit, active, false_and, if_false, Score.v, ← UInt32.sub_eq_add_neg]
  refine UInt32.le_trans (capped_le _).2 (UInt32.sub_le ?_)
  exact UInt32.not_lt.mp (mt UInt32.lt_one_iff.mp active)

theorem playFrame_acu_le {samples : Samples} (permitted : output.permits (.playFrame samples))
    (unjudged : ∀ score ∈ output.score? samples, score = .unjudged)
    : (output.playFrame samples).acu ≤ output.acu := by
  rw [playFrame_acu]
  cases scored : output.score? samples with
  | none => exact UInt32.le_refl _
  | some score =>
    have active : output.acu ≠ 0 := by
      simpa [permits, scored, unjudged score scored] using permitted
    rw [Option.elim_some, unjudged score scored]
    exact credit_unjudged_le active

/-- Activity begins with a voice. -/
theorem voice_of_step {call : Call} (idle : output.acu = 0) (permitted : output.permits call)
    (active : (output.step call).acu ≠ 0)
    : ∃ samples size, call = .playFrame samples
        ∧ output.score? samples = some (.judged true size) := by
  cases call with
  | getVAD numSamples =>
    have := getVAD_acu_le output numSamples
    rw [idle] at this
    exact absurd (UInt32.le_zero_iff.mp this) active
  | playFrame samples =>
    rw [step, playFrame_acu] at active
    cases scored : output.score? samples with
    | none =>
      rw [scored] at active
      exact absurd idle active
    | some score =>
      cases score with
      | unjudged => simp [permits, idle, scored] at permitted
      | judged voice size =>
        cases voice with
        | false => simp [scored, Score.v, credit, capped, idle] at active
        | true => exact ⟨samples, size, rfl, scored⟩

/-- The detector has heard a voice, and since then there was always some activity. -/
def Voiced (start : PipeAudioOutput) (calls : List Call) : Prop :=
  ∃ before samples after size, calls = before ++ .playFrame samples :: after
    ∧ (run step start before).score? samples = some (.judged true size)
    ∧ ∀ cut, cut <+: after → (run step start (before ++ .playFrame samples :: cut)).acu ≠ 0

theorem voiced_of_run (calls : List Call) (start : PipeAudioOutput)
    (permitted : EachStep step (fun output call => output.permits call) start calls)
    (active : (run step start calls).acu ≠ 0)
    : (∀ cut, cut <+: calls → (run step start cut).acu ≠ 0) ∨ Voiced start calls := by
  induction calls generalizing start with
  | nil => exact .inl (fun cut isCut => prefix_nil.mp isCut ▸ active)
  | cons call rest ih =>
    rcases ih (start.step call) permitted.2 active with
      all | ⟨before, samples, after, size, rfl, voice, since⟩
    · by_cases idle : start.acu = 0
      · obtain ⟨samples, size, rfl, voice⟩ := voice_of_step idle permitted.1 (all [] nil_prefix)
        exact .inr ⟨[], samples, rest, size, rfl, voice, all⟩
      · refine .inl (fun cut isCut => ?_)
        rcases prefix_cons_iff.mp isCut with rfl | ⟨tail, rfl, isTail⟩
        · exact idle
        · exact all tail isTail
    · exact .inr ⟨call :: before, samples, after, size, rfl, voice, since⟩

/-- The activity is bounded. Where no frame that cannot be judged is played while there is none,
such frames add nothing, and whoever is told of activity is told of a voice.
-/
theorem activity_of_voice {start output : PipeAudioOutput} {calls : List Call}
    (silent : start.acu = 0) (reached : output = run step start calls)
    : output.acu ≤ 48000
      ∧ (EachStep step (fun output call => output.permits call) start calls
        → (∀ samples, output.permits (.playFrame samples)
            → (∀ score ∈ output.score? samples, score = .unjudged)
            → (output.playFrame samples).acu ≤ output.acu)
          ∧ ∀ numSamples, 0 < (output.getVAD numSamples).1 → Voiced start calls) := by
  refine ⟨?_, fun permitted => ⟨fun samples => playFrame_acu_le, fun numSamples active => ?_⟩⟩
  · have bounded : start.acu ≤ 48000 := by simp [silent]
    rw [reached]
    exact @run_invariant _ _ step (·.acu ≤ 48000) (fun _ call bounded => step_acu_le bounded call)
      _ bounded calls
  · have some := UInt32.pos_iff_ne_zero.mp active
    rw [getVAD, reached] at some
    exact (voiced_of_run calls start permitted some).resolve_left
      (fun all => all [] nil_prefix silent)

/-- A voice is heard, and somebody asks. -/
theorem activity_of_voice_heard
    : Voiced { calcVAD := true } [.playFrame { size := 160, rate := 8000, voice := true }] :=
  ((activity_of_voice rfl rfl).2 (by decide)).2 160 (by decide)

/-- A frame that nobody judges gets the bump of a voice. -/
theorem unjudged_frame_active
    : ((playFrame { calcVAD := false } { size := 160, rate := 8000, voice := false }).getVAD 0).1
      = 15999 := by
  decide

end PipeAudioOutput

end MediaServer.Audio
