import MediaServer.Foundation.Traversal
import Mathlib.Data.Finset.Basic

/-! One tick of the audio mixer: samples are taken from each participant, mixed into the
sidebars, and given back to the listeners without their own voice.
-/

namespace MediaServer.Audio

open Foundation OrderedMap

abbrev SWORD := Int16

def mixerBufferSize : Nat := 4096

abbrev SampleBuffer := Vector SWORD mixerBufferSize

def saturate (value : Int) : SWORD := .ofInt (max (-32768) (min 32767 value))

/-- Whether the loops over samples go one by one, or by eight in a vector register. -/
inductive Build
  | plain
  | sse2
  deriving DecidableEq

/-- How many samples a loop for `len` of them passes. -/
def Build.passed : Build → Nat → Nat
  | .plain, len => len
  | .sse2, len => ((len + 7) >>> 3) * 8

/-- A loop with a saturated result over the first samples of two buffers. -/
def combine (build : Build) (operation : Int → Int → Int) (left right : SampleBuffer) (len : Nat)
    : SampleBuffer :=
  .ofFn fun i =>
    if i.val < build.passed len then saturate (operation left[i].toInt right[i].toInt) else left[i]

/-! Sidebars. -/

structure Sidebar where
  mixerBuffer : SampleBuffer
  participants : Finset Int

namespace Sidebar

def hasParticipant (sidebar : Sidebar) (id : Int) : Bool := id ∈ sidebar.participants

def reset (sidebar : Sidebar) : Sidebar := { sidebar with mixerBuffer := .replicate _ 0 }

/-- The samples of a participant are added, unless there are too many or the participant is
not in the sidebar.
-/
def update (build : Build) (sidebar : Sidebar) (id : Int) (samples : SampleBuffer) (len : Nat)
    : Sidebar × Nat :=
  if len > mixerBufferSize then (sidebar, 0)
  else if !sidebar.hasParticipant id then (sidebar, 0)
  else ({ sidebar with mixerBuffer := combine build (· + ·) sidebar.mixerBuffer samples len }, len)

end Sidebar

/-! Participants. -/

/-- `PipeAudioOutput::GetSamples`: the samples that are taken, and those that are left. -/
def getSamples (fifo : List SWORD) (num : Nat) (minLen : Bool := false)
    : List SWORD × List SWORD :=
  if fifo.length > num then (fifo.take num, fifo.drop num)
  else if fifo.length < num ∧ !minLen then ([], fifo)
  else (fifo, [])

def copyFront (buffer : SampleBuffer) (samples : List SWORD) : SampleBuffer :=
  .ofFn fun i => samples.getD i.val buffer[i]

/-- `memset(buffer+start,0,bytes)`, with samples of two bytes, the low one first. -/
def clearBytes (buffer : SampleBuffer) (start bytes : Nat) : SampleBuffer :=
  .ofFn fun i =>
    if i.val < start then buffer[i]
    else if 2 * (i.val - start) + 2 ≤ bytes then 0
    else if 2 * (i.val - start) + 1 = bytes then buffer[i] &&& .ofInt (-256)
    else buffer[i]

/-- A participant: the samples it has sent, its buffer, and the sidebar to which it listens. -/
structure AudioSource where
  output : List SWORD
  buffer : SampleBuffer
  len : Nat
  sidebar : Option Int

namespace AudioSource

def load (numSamples : Nat) (audio : AudioSource) : AudioSource :=
  let (samples, left) := getSamples audio.output numSamples
  { audio with
    output := left
    len := samples.length
    buffer :=
      clearBytes (copyFront audio.buffer samples) samples.length
        (mixerBufferSize - samples.length) }

def mixMinus (build : Build) (numSamples : Nat) (mixed : SampleBuffer) (audio : AudioSource)
    : SampleBuffer :=
  let minus := combine build (fun own all => all - own) audio.buffer mixed audio.len
  .ofFn fun i => if audio.len ≤ i.val ∧ i.val < numSamples then mixed[i] else minus[i]

end AudioSource

/-! The tick. -/

/-- Participants listen to sidebars that exist: deleting a sidebar detaches its listeners. -/
structure AudioMixer where
  audios : OrderedMap Int AudioSource
  sidebars : OrderedMap Int Sidebar
  attached
    : ∀ entry ∈ audios.entries, ∀ sidebarId ∈ entry.2.sidebar,
      (sidebars.find? sidebarId).isSome

namespace AudioMixer

variable (build : Build)

def mixOne (id : Int) (samples : SampleBuffer) (_ : Int) (sidebar : Sidebar) (len : Nat)
    : Sidebar × Nat :=
  if len > 0 ∧ sidebar.hasParticipant id then sidebar.update build id samples len
  else (sidebar, len)

/-- Mix one participant into all sidebars. What an update returns is its new length. -/
def mixInto (id : Int) (audio : AudioSource) (sidebars : OrderedMap Int Sidebar)
    : AudioSource × OrderedMap Int Sidebar :=
  let (sidebars, len) := sidebars.traverse (mixOne build id audio.buffer) audio.len
  ({ audio with len }, sidebars)

def give (numSamples : Nat) (sidebars : OrderedMap Int Sidebar) (id : Int) (audio : AudioSource)
    (given : List (Int × List SWORD))
    : AudioSource × List (Int × List SWORD) :=
  match audio.sidebar.bind sidebars.find? with
  | none => (audio, given)
  | some sidebar =>
    if sidebar.hasParticipant id ∧ audio.len > 0 then
      let buffer := audio.mixMinus build numSamples sidebar.mixerBuffer
      ({ audio with buffer }, given ++ [(id, buffer.toList.take numSamples)])
    else (audio, given ++ [(id, sidebar.mixerBuffer.toList.take numSamples)])

theorem sidebar_give (numSamples : Nat) (sidebars : OrderedMap Int Sidebar) (id : Int)
    (audio : AudioSource) (given : List (Int × List SWORD))
    : (give build numSamples sidebars id audio given).1.sidebar = audio.sidebar := by
  cases listens : audio.sidebar.bind sidebars.find? with
  | none => simp only [give, listens]
  | some sidebar =>
    by_cases speaks : sidebar.hasParticipant id = true ∧ audio.len > 0
    · simp only [give, listens, if_pos speaks]
    · simp only [give, listens, if_neg speaks]

def mix (numSamples : Nat) (mixer : AudioMixer)
    : OrderedMap Int AudioSource × OrderedMap Int Sidebar :=
  (mixer.audios.mapValues (fun _ audio => audio.load numSamples)).traverse (mixInto build)
    (mixer.sidebars.mapValues (fun _ sidebar => sidebar.reset))

theorem keys_mix (numSamples : Nat) (mixer : AudioMixer)
    : (mixer.mix build numSamples).2.keys = mixer.sidebars.keys := by
  have kept : ∀ id audio (sidebars : OrderedMap Int Sidebar),
      sidebars.keys = mixer.sidebars.keys
      → (mixInto build id audio sidebars).2.keys = mixer.sidebars.keys :=
    fun _ _ sidebars same => (keys_traverse sidebars _ _).trans same
  exact traverseEntries_state kept _ (keys_mapValues _ _)

theorem attached_mix (numSamples : Nat) (mixer : AudioMixer)
    : ∀ entry ∈ (mixer.mix build numSamples).1.entries, ∀ sidebarId ∈ entry.2.sidebar,
      ((mixer.mix build numSamples).2.find? sidebarId).isSome := by
  have kept : ∀ id (audio : AudioSource) sidebars,
      (∀ sidebarId ∈ audio.sidebar, sidebarId ∈ mixer.sidebars.keys)
      → ∀ sidebarId ∈ (mixInto build id audio sidebars).1.sidebar,
        sidebarId ∈ mixer.sidebars.keys :=
    fun _ _ _ known => known
  intro entry member sidebarId listens
  rw [← mem_keys, keys_mix]
  refine traverseEntries_forall kept ?_ _ entry member sidebarId listens
  intro loaded isLoaded
  obtain ⟨old, isOld, same⟩ := List.mem_map.mp isLoaded
  rw [← same]
  exact fun sidebarId listens => mem_keys.mpr (mixer.attached old isOld sidebarId listens)

/-- The rest of a tick of `Run`, once the list is locked: the new state, and the samples that
each participant is given.
-/
def tick (elapsed : Nat) (mixer : AudioMixer) : AudioMixer × List (Int × List SWORD) :=
  let numSamples := min elapsed mixerBufferSize
  let mixed := mixer.mix build numSamples
  let given := mixed.1.traverse (give build numSamples mixed.2) []
  ({ audios := given.1
     sidebars := mixed.2
     attached := by
       have kept : ∀ id (audio : AudioSource) out,
           (∀ sidebarId ∈ audio.sidebar, (mixed.2.find? sidebarId).isSome)
           → ∀ sidebarId ∈ (give build numSamples mixed.2 id audio out).1.sidebar,
             (mixed.2.find? sidebarId).isSome := by
         intro id audio out known
         rw [sidebar_give]
         exact known
       exact OrderedMap.traverseEntries_forall kept (attached_mix build numSamples mixer) _ },
    given.2)

end AudioMixer

end MediaServer.Audio
