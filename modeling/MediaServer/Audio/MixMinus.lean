import MediaServer.Audio.Mixer
import Mathlib.Algebra.BigOperators.Group.List.Basic
import Mathlib.Algebra.Ring.Int.Defs
import Mathlib.Data.List.GetD
import Mathlib.Data.List.Infix

/-! What a listener hears in a tick: the sum of everyone else in the sidebar. -/

namespace MediaServer.Audio

open Foundation Sidebar OrderedMap List

/-! Samples. -/

/-- The values of a sample. -/
def InRange (value : Int) : Prop := -32768 ≤ value ∧ value ≤ 32767

theorem toInt_saturate {value : Int} (inside : InRange value) : (saturate value).toInt = value := by
  obtain ⟨low, high⟩ := inside
  rw [saturate, Int.min_eq_right high, Int.max_eq_right low]
  exact Int16.toInt_ofInt_of_le low (by omega)

def sample (buffer : SampleBuffer) (i : Nat) : Int :=
  if small : i < mixerBufferSize then (buffer.get ⟨i, small⟩).toInt else 0

theorem sample_ofFn (samples : Fin mixerBufferSize → SWORD) {i : Nat} (small : i < mixerBufferSize)
    : sample (.ofFn samples) i = (samples ⟨i, small⟩).toInt := by
  rw [sample, dif_pos small]
  exact congrArg Int16.toInt (Vector.getElem_ofFn small)

theorem sample_eq (buffer : SampleBuffer) {i : Nat} (small : i < mixerBufferSize)
    : sample buffer i = (buffer[(⟨i, small⟩ : Fin mixerBufferSize)]).toInt :=
  dif_pos small

variable (build : Build)

theorem le_passed (len : Nat) : len ≤ build.passed len := by
  cases build with
  | plain => exact Nat.le_refl len
  | sse2 =>
    rw [Build.passed, Nat.shiftRight_eq_div_pow]
    omega

theorem sample_combine (operation : Int → Int → Int) (left right : SampleBuffer) {len i : Nat}
    (inside : i < len) (small : i < mixerBufferSize)
    (range : InRange (operation (sample left i) (sample right i)))
    : sample (combine build operation left right len) i
      = operation (sample left i) (sample right i) := by
  rw [sample_eq left small, sample_eq right small] at range ⊢
  rw [combine, sample_ofFn _ small, if_pos (Nat.lt_of_lt_of_le inside (le_passed build len)),
    toInt_saturate range]

/-- Samples in a list, as numbers. -/
theorem take_toList (buffer : SampleBuffer) {num : Nat} (small : num ≤ mixerBufferSize)
    : (buffer.toList.take num).map Int16.toInt = (List.range num).map (sample buffer) := by
  refine ext_getElem ?_ (fun i inside _ => ?_)
  · rw [length_map, length_take, Vector.length_toList, length_map, length_range]
    exact Nat.min_eq_left small
  · have below : i < mixerBufferSize := by
      rw [length_map, length_take, Vector.length_toList] at inside
      omega
    rw [getElem_map, getElem_take, Vector.getElem_toList, getElem_map,
      getElem_range, sample_eq buffer below]
    rfl

/-! What is loaded. -/

/-- A participant that does not have all samples has none. -/
theorem getSamples_fst (fifo : List SWORD) (num : Nat)
    : (getSamples fifo num).1 = if fifo.length < num then [] else fifo.take num := by
  unfold getSamples
  rcases Nat.lt_trichotomy fifo.length num with fewer | same | more
  · rw [if_neg (by omega), if_pos ⟨fewer, rfl⟩, if_pos fewer]
  · rw [if_neg (by omega), if_neg (fun less => by omega), if_neg (by omega),
      take_of_length_le (Nat.le_of_eq same)]
  · rw [if_pos more, if_neg (by omega)]

/-- What a participant gives to sample `i` of a tick. -/
def contribution (num i : Nat) (audio : AudioSource) : Int :=
  if audio.output.length < num then 0 else (audio.output.getD i 0).toInt

theorem len_load (num : Nat) (audio : AudioSource)
    : (audio.load num).len = if audio.output.length < num then 0 else num := by
  simp only [AudioSource.load, getSamples_fst]
  split_ifs with fewer
  · rfl
  · rw [length_take]
    omega

theorem sample_load {num i : Nat} (audio : AudioSource) (small : num ≤ mixerBufferSize)
    (inside : i < (audio.load num).len)
    : sample (audio.load num).buffer i = contribution num i audio := by
  rw [len_load] at inside
  split_ifs at inside with fewer
  · exact absurd inside (Nat.not_lt_zero i)
  · have below : i < mixerBufferSize := Nat.lt_of_lt_of_le inside small
    have length : (audio.output.take num).length = num := by
      rw [length_take]
      omega
    simp only [AudioSource.load, getSamples_fst, if_neg fewer, contribution]
    rw [clearBytes, sample_ofFn _ below, if_pos (by rw [length]; exact inside), copyFront,
      Fin.getElem_fin, Vector.getElem_ofFn below]
    have taken : (audio.output.take num).getD i audio.buffer[i] = audio.output.getD i 0 := by
      rw [getD_eq_getElem _ _ (by omega), getElem_take,
        getD_eq_getElem _ _ (by omega)]
    exact congrArg Int16.toInt taken

/-! What is mixed. -/

def Sidebar.mixed (build : Build) (sidebar : Sidebar) (id : Int) (audio : AudioSource) : Sidebar :=
  if audio.len > 0 ∧ sidebar.hasParticipant id then
    { sidebar with
      mixerBuffer := combine build (· + ·) sidebar.mixerBuffer audio.buffer audio.len }
  else sidebar

theorem participants_mixed (sidebar : Sidebar) (id : Int) (audio : AudioSource)
    : (sidebar.mixed build id audio).participants = sidebar.participants := by
  unfold mixed
  split_ifs <;> rfl

theorem participants_foldl (num : Nat) (audios : List (Int × AudioSource)) (sidebar : Sidebar)
    : (audios.foldl (fun sidebar entry => sidebar.mixed build entry.1 (entry.2.load num))
        sidebar).participants = sidebar.participants := by
  induction audios generalizing sidebar with
  | nil => rfl
  | cons entry rest ih => exact (ih _).trans (participants_mixed build sidebar entry.1 _)

namespace AudioMixer

/-- The inner loop leaves the length as it is, and treats every sidebar alike. -/
theorem mixInto_eq (id : Int) {audio : AudioSource} (small : audio.len ≤ mixerBufferSize)
    (sidebars : OrderedMap Int Sidebar)
    : mixInto build id audio sidebars
      = (audio, sidebars.mapValues (fun _ sidebar => sidebar.mixed build id audio)) := by
  have visits : ∀ entry ∈ sidebars.entries, ∀ len, len = audio.len
      → mixOne build id audio.buffer entry.1 entry.2 len = (entry.2.mixed build id audio, len)
        ∧ len = audio.len := by
    rintro ⟨sidebarId, sidebar⟩ - len same
    refine ⟨?_, same⟩
    by_cases speaks : audio.len > 0 ∧ sidebar.hasParticipant id = true
    · rw [same, mixOne, if_pos speaks, Sidebar.update, if_neg (Nat.not_lt.mpr small),
        mixed, if_pos speaks, if_neg (by rw [speaks.2]; decide)]
    · rw [same, mixOne, if_neg speaks, mixed, if_neg speaks]
  have loop := @traverse_eq Int Sidebar Nat _ sidebars (mixOne build id audio.buffer)
    (· = audio.len) (fun _ sidebar => sidebar.mixed build id audio) (fun len _ => len) visits _ rfl
  rw [foldl_fixed] at loop
  simp only [mixInto, loop]

theorem find?_foldl_mixed (entries : List (Int × AudioSource)) (sidebars : OrderedMap Int Sidebar)
    (sidebarId : Int)
    : (entries.foldl (fun sidebars entry =>
        sidebars.mapValues (fun _ sidebar => sidebar.mixed build entry.1 entry.2))
        sidebars).find? sidebarId
      = (sidebars.find? sidebarId).map (fun sidebar =>
        entries.foldl (fun sidebar entry => sidebar.mixed build entry.1 entry.2) sidebar) := by
  induction entries generalizing sidebars with
  | nil => exact Option.map_id'.symm
  | cons entry rest ih =>
    rw [foldl_cons, ih, find?_mapValues, Option.map_map]
    rfl

/-- The first pass as a whole: participants as they were loaded, and each sidebar with the
samples of those that take part in it, in the order of their numbers.
-/
theorem mix_eq {num : Nat} (small : num ≤ mixerBufferSize) (mixer : AudioMixer)
    : (mixer.mix build num).1 = mixer.audios.mapValues (fun _ audio => audio.load num)
      ∧ ∀ sidebarId, (mixer.mix build num).2.find? sidebarId
        = (mixer.sidebars.find? sidebarId).map (fun sidebar =>
          mixer.audios.entries.foldl (fun sidebar entry =>
            sidebar.mixed build entry.1 (entry.2.load num)) sidebar.reset) := by
  have visits : ∀ entry ∈ (mixer.audios.mapValues (fun _ audio => audio.load num)).entries,
      ∀ sidebars, True
      → mixInto build entry.1 entry.2 sidebars
        = (entry.2, sidebars.mapValues (fun _ sidebar => sidebar.mixed build entry.1 entry.2))
        ∧ True := by
    intro entry member sidebars _
    obtain ⟨old, -, same⟩ := mem_map.mp member
    refine ⟨mixInto_eq build entry.1 ?_ sidebars, trivial⟩
    rw [← same, len_load]
    split_ifs <;> omega
  have loop := @traverse_eq Int AudioSource _ _ _ (mixInto build) (fun _ => True)
    (fun _ audio => audio) (fun sidebars entry =>
      sidebars.mapValues (fun _ sidebar => sidebar.mixed build entry.1 entry.2)) visits
    (mixer.sidebars.mapValues (fun _ sidebar => sidebar.reset)) trivial
  rw [mapValues_self] at loop
  refine ⟨congrArg Prod.fst loop, fun sidebarId => ?_⟩
  rw [mix, loop, find?_foldl_mixed, find?_mapValues, Option.map_map]
  simp only [mapValues, foldl_map]
  rfl

/-! Sums. -/

/-- What the members of a sidebar give to sample `i`, each under its number. -/
def contributions (num i : Nat) (members : Finset Int) (audios : List (Int × AudioSource))
    : List (Int × Int) :=
  (audios.filter (fun entry => entry.1 ∈ members)).map
    (fun entry => (entry.1, contribution num i entry.2))

/-- One participant adds its contribution. -/
theorem sample_mixed {num i : Nat} (small : num ≤ mixerBufferSize) (inside : i < num)
    (sidebar : Sidebar) (id : Int) (audio : AudioSource) (isMember : id ∈ sidebar.participants)
    (range : InRange (sample sidebar.mixerBuffer i + contribution num i audio))
    : sample (sidebar.mixed build id (audio.load num)).mixerBuffer i
      = sample sidebar.mixerBuffer i + contribution num i audio := by
  have len := len_load num audio
  split_ifs at len with fewer
  · rw [mixed, if_neg (by rw [len]; omega), contribution, if_pos fewer, Int.add_zero]
  · have loaded := sample_load audio small (len.symm ▸ inside)
    have speaks : (audio.load num).len > 0 ∧ sidebar.hasParticipant id = true :=
      ⟨by omega, decide_eq_true isMember⟩
    rw [← loaded] at range ⊢
    rw [mixed, if_pos speaks]
    exact sample_combine build (· + ·) _ _ (len.symm ▸ inside) (by omega) range

/-- As long as no running sum leaves the range, a sidebar holds the sum. The induction is on
the participants, the sidebar being what is mixed so far.
-/
theorem sample_foldl_mixed {num i : Nat} (small : num ≤ mixerBufferSize) (inside : i < num)
    (audios : List (Int × AudioSource)) (sidebar : Sidebar)
    (running
      : ∀ k, InRange (sample sidebar.mixerBuffer i
        + (((contributions num i sidebar.participants audios).take k).map Prod.snd).sum))
    : sample (audios.foldl (fun sidebar entry =>
        sidebar.mixed build entry.1 (entry.2.load num)) sidebar).mixerBuffer i
      = sample sidebar.mixerBuffer i
        + ((contributions num i sidebar.participants audios).map Prod.snd).sum := by
  induction audios generalizing sidebar with
  | nil => exact (Int.add_zero _).symm
  | cons entry rest ih =>
    have participants := participants_mixed build sidebar entry.1 (entry.2.load num)
    rw [foldl_cons]
    by_cases isMember : entry.1 ∈ sidebar.participants
    · have contributed : contributions num i sidebar.participants (entry :: rest)
          = (entry.1, contribution num i entry.2)
            :: contributions num i sidebar.participants rest := by
        simp only [contributions, filter_cons, decide_eq_true isMember, if_true,
          map_cons]
      rw [contributed] at running ⊢
      have first := sample_mixed build small inside sidebar entry.1 entry.2 isMember
        (by simpa using running 1)
      have step := ih (sidebar.mixed build entry.1 (entry.2.load num)) (by
        intro k
        rw [first, participants]
        have range := running (k + 1)
        rw [take_succ_cons, map_cons, sum_cons, ← Int.add_assoc] at range
        exact range)
      rw [step, first, participants, map_cons, sum_cons, Int.add_assoc]
    · have unchanged : sidebar.mixed build entry.1 (entry.2.load num) = sidebar := by
        rw [mixed, if_neg]
        exact fun speaks => isMember (of_decide_eq_true speaks.2)
      have contributed : contributions num i sidebar.participants (entry :: rest)
          = contributions num i sidebar.participants rest := by
        simp only [contributions, filter_cons, decide_eq_false isMember,
          Bool.false_eq_true, if_false]
      rw [contributed] at running ⊢
      rw [unchanged]
      exact ih sidebar running

def everyoneElse (listener : Int) (contributions : List (Int × Int)) : Int :=
  ((contributions.filter (fun entry => entry.1 ≠ listener)).map Prod.snd).sum

theorem everyoneElse_of_absent {listener : Int} {contributions : List (Int × Int)}
    (absent : listener ∉ contributions.map Prod.fst)
    : everyoneElse listener contributions = (contributions.map Prod.snd).sum := by
  rw [everyoneElse, filter_eq_self.mpr]
  intro entry member
  exact decide_eq_true (fun same => absent (mem_map.mpr ⟨entry, member, same⟩))

theorem sum_eq_add_everyoneElse {listener own : Int} {contributions : List (Int × Int)}
    (distinct : (contributions.map Prod.fst).Nodup) (member : (listener, own) ∈ contributions)
    : (contributions.map Prod.snd).sum = own + everyoneElse listener contributions := by
  induction contributions with
  | nil => cases member
  | cons entry rest ih =>
    obtain ⟨fresh, others⟩ := nodup_cons.mp distinct
    rw [map_cons, sum_cons]
    rcases mem_cons.mp member with same | later
    · have rest' := @everyoneElse_of_absent listener rest (by rw [← same] at fresh; exact fresh)
      rw [← same, ← rest', everyoneElse, everyoneElse, filter_cons_of_neg (by simp)]
    · have different : entry.1 ≠ listener := fun same =>
        fresh (mem_map.mpr ⟨_, later, same.symm⟩)
      rw [ih others later, everyoneElse, everyoneElse, filter_cons_of_pos (by simpa),
        map_cons, sum_cons, Int.add_left_comm]

/-! What is given. -/

/-- No partial sum of a tick leaves the range of a sample: the sums of what the first members of
a sidebar give, in the order of their numbers, and of what everyone but a listener gives.
-/
def PartialSumsFit (num : Nat) (mixer : AudioMixer) : Prop :=
  ∀ sidebar ∈ mixer.sidebars.entries, ∀ i < num,
    let given := contributions num i sidebar.2.participants mixer.audios.entries
    (∀ part ∈ given.inits, InRange (part.map Prod.snd).sum)
      ∧ ∀ listener ∈ mixer.audios.entries, listener.2.sidebar = some sidebar.1
        → InRange (everyoneElse listener.1 given)

instance (value : Int) : Decidable (InRange value) := by
  unfold InRange
  infer_instance

instance (num : Nat) (mixer : AudioMixer) : Decidable (PartialSumsFit num mixer) := by
  unfold PartialSumsFit
  infer_instance

def members (mixer : AudioMixer) (sidebarId : Int) : Finset Int :=
  ((mixer.sidebars.find? sidebarId).map Sidebar.participants).getD ∅

theorem give_append (num : Nat) (sidebars : OrderedMap Int Sidebar) (id : Int) (audio : AudioSource)
    (given : List (Int × List SWORD))
    : give build num sidebars id audio given
      = ((give build num sidebars id audio []).1,
        given ++ (give build num sidebars id audio []).2) := by
  cases listens : audio.sidebar.bind sidebars.find? with
  | none => simp only [give, listens, append_nil]
  | some sidebar =>
    simp only [give, listens, nil_append]
    split_ifs <;> rfl

theorem tick_given {num : Nat} (small : num ≤ mixerBufferSize) (mixer : AudioMixer)
    : (mixer.tick build num).2
      = mixer.audios.entries.flatMap (fun entry =>
        (give build num (mixer.mix build num).2 entry.1 (entry.2.load num) []).2) := by
  have loop := @traverse_eq Int AudioSource _ _ (mixer.mix build num).1
    (give build num (mixer.mix build num).2) (fun _ => True)
    (fun id audio => (give build num (mixer.mix build num).2 id audio []).1)
    (fun given entry => given ++ (give build num (mixer.mix build num).2 entry.1 entry.2 []).2)
    (fun entry _ given _ => ⟨give_append _ _ _ _ _ given, trivial⟩) [] trivial
  have given : ∀ capped, capped = min num mixerBufferSize → (mixer.tick build num).2
      = ((mixer.mix build capped).1.traverse (give build capped (mixer.mix build capped).2)
        []).2 := by
    intro capped same
    rw [same, tick]
  rw [given num (Nat.min_eq_left small).symm, loop, ← flatMap_eq_foldl,
    (mix_eq build small mixer).1]
  simp only [mapValues, flatMap_map]

section Heard

variable {build : Build} {num : Nat} {mixer : AudioMixer}

/-- A mixed sidebar holds the sum of what its members give. -/
theorem sample_mix (small : num ≤ mixerBufferSize) (fit : PartialSumsFit num mixer)
    {sidebarId : Int} {sidebar : Sidebar} (found : mixer.sidebars.find? sidebarId = some sidebar)
    {i : Nat} (inside : i < num)
    : sample (mixer.audios.entries.foldl (fun sidebar entry =>
        sidebar.mixed build entry.1 (entry.2.load num)) sidebar.reset).mixerBuffer i
      = ((contributions num i sidebar.participants mixer.audios.entries).map Prod.snd).sum := by
  have empty : sample sidebar.reset.mixerBuffer i = 0 := by
    rw [sample_eq _ (by omega), reset, Fin.getElem_fin, Vector.getElem_replicate]
    rfl
  have mixed := sample_foldl_mixed build small inside mixer.audios.entries sidebar.reset (by
    intro k
    rw [empty, Int.zero_add]
    exact (fit _ (find?_eq_some_iff.mp found) i inside).1 _
      ((mem_inits _ _).mpr <| take_prefix _ _))
  rw [mixed, empty, Int.zero_add]
  rfl

theorem distinct_contributions (i : Nat) (members : Finset Int)
    : ((contributions num i members mixer.audios.entries).map Prod.fst).Nodup := by
  rw [contributions, map_map]
  exact (filter_sublist.map Prod.fst).nodup mixer.audios.keys_nodup

theorem mem_contributions {i : Nat} {members : Finset Int} {entry : Int × AudioSource}
    (member : entry ∈ mixer.audios.entries) (isMember : entry.1 ∈ members)
    : (entry.1, contribution num i entry.2)
      ∈ contributions num i members mixer.audios.entries :=
  mem_map.mpr ⟨entry, mem_filter.mpr ⟨member, decide_eq_true isMember⟩, rfl⟩

/-- A listener with samples of its own hears the mix without them. -/
theorem sample_mixMinus (small : num ≤ mixerBufferSize) {audio : AudioSource} {mixed : SampleBuffer}
    {i : Nat} (inside : i < num) (full : (audio.load num).len = num)
    (range : InRange (sample mixed i - contribution num i audio))
    : sample ((audio.load num).mixMinus build num mixed) i
      = sample mixed i - contribution num i audio := by
  have below : i < mixerBufferSize := by omega
  rw [← sample_load audio small (full.symm ▸ inside)] at range ⊢
  have minus := sample_combine build (fun own all => all - own) (audio.load num).buffer mixed
    (full.symm ▸ inside) below range
  rw [AudioSource.mixMinus, sample_ofFn _ below, if_neg (by omega)]
  rw [sample_eq _ below] at minus
  exact minus

/-- What one participant is given. -/
theorem given_of_listens (small : num ≤ mixerBufferSize) (fit : PartialSumsFit num mixer)
    {entry : Int × AudioSource} (member : entry ∈ mixer.audios.entries) {sidebarId : Int}
    (listens : entry.2.sidebar = some sidebarId)
    : (give build num (mixer.mix build num).2 entry.1 (entry.2.load num) []).2.map
        (fun given => (given.1, given.2.map Int16.toInt))
      = [(entry.1, (List.range num).map (fun i => everyoneElse entry.1
        (contributions num i (mixer.members sidebarId) mixer.audios.entries)))] := by
  obtain ⟨sidebar, found⟩ :=
    Option.isSome_iff_exists.mp (mixer.attached entry member sidebarId (by rw [listens]; rfl))
  have isMembers : mixer.members sidebarId = sidebar.participants := by
    rw [members, found]
    rfl
  have mixed := (mix_eq build small mixer).2 sidebarId
  rw [found, Option.map_some] at mixed
  have participants := participants_foldl build num mixer.audios.entries sidebar.reset
  have sums := @sample_mix build num mixer small fit sidebarId sidebar found
  generalize mixer.audios.entries.foldl (fun sidebar entry =>
    sidebar.mixed build entry.1 (entry.2.load num)) sidebar.reset = mix at mixed participants sums
  have bound : (entry.2.load num).sidebar.bind (mixer.mix build num).2.find? = some mix := by
    rw [show (entry.2.load num).sidebar = some sidebarId from listens]
    exact mixed
  have len := len_load num entry.2
  have total (i : Nat) (isMember : entry.1 ∈ sidebar.participants) :=
    sum_eq_add_everyoneElse (distinct_contributions i sidebar.participants)
      (@mem_contributions num mixer i sidebar.participants entry member isMember)
  rw [isMembers]
  by_cases speaks : mix.hasParticipant entry.1 = true ∧ (entry.2.load num).len > 0
  · have isMember : entry.1 ∈ sidebar.participants := by
      have has := of_decide_eq_true speaks.1
      rw [participants] at has
      exact has
    have full : (entry.2.load num).len = num := by
      split_ifs at len with fewer
      · omega
      · exact len
    simp only [give, bound, if_pos speaks, nil_append, map_cons, map_nil]
    rw [take_toList _ small]
    refine congrArg (fun samples => [(entry.1, samples)]) (map_congr_left (fun i inside => ?_))
    have below := mem_range.mp inside
    have total := total i isMember
    rw [← sums below] at total
    have others : sample mix.mixerBuffer i - contribution num i entry.2
        = everyoneElse entry.1 (contributions num i sidebar.participants mixer.audios.entries) := by
      omega
    rw [sample_mixMinus small below full, others]
    rw [others]
    exact (fit _ (find?_eq_some_iff.mp found) i below).2 entry member listens
  · simp only [give, bound, if_neg speaks, nil_append, map_cons, map_nil]
    rw [take_toList _ small]
    refine congrArg (fun samples => [(entry.1, samples)]) (map_congr_left (fun i inside => ?_))
    have below := mem_range.mp inside
    rw [sums below]
    by_cases isMember : entry.1 ∈ sidebar.participants
    · -- a silent member has nothing to take out
      have fewer : entry.2.output.length < num := by
        by_contra enough
        rw [if_neg enough] at len
        refine speaks ⟨decide_eq_true ?_, by omega⟩
        rw [participants]
        exact isMember
      rw [total i isMember, contribution, if_pos fewer, Int.zero_add]
    · refine (everyoneElse_of_absent (fun inList => isMember ?_)).symm
      rw [contributions, map_map] at inList
      obtain ⟨other, isOther, same⟩ := mem_map.mp inList
      exact same ▸ of_decide_eq_true (mem_filter.mp isOther).2

end Heard

/-- In a tick of at most the size of the buffer, each participant with a sidebar is given once
and in this order exactly so many samples, and these are the sums of what the other members of
the sidebar have brought. A member without enough samples is silent.
-/
theorem tick_eq_everyoneElse (build : Build) (mixer : AudioMixer) (numSamples : Nat)
    (small : numSamples ≤ mixerBufferSize) (fit : PartialSumsFit numSamples mixer)
    : (mixer.tick build numSamples).2.map (fun given => (given.1, given.2.map Int16.toInt))
      = mixer.audios.entries.filterMap (fun entry => entry.2.sidebar.map (fun sidebarId =>
        (entry.1, (List.range numSamples).map (fun i => everyoneElse entry.1
          (contributions numSamples i (mixer.members sidebarId) mixer.audios.entries))))) := by
  rw [tick_given build small, map_flatMap, filterMap_eq_flatMap_toList]
  refine flatMap_congr (fun entry member => ?_)
  cases listens : entry.2.sidebar with
  | none =>
    have alone : (entry.2.load numSamples).sidebar.bind (mixer.mix build numSamples).2.find?
        = none := by
      rw [show (entry.2.load numSamples).sidebar = none from listens]
      rfl
    simp only [give, alone]
    rfl
  | some sidebarId => exact given_of_listens small fit member listens

/-- Three participants in one sidebar. The buffers are not empty, and the third one has not
sent enough.
-/
def threeParticipants : AudioMixer where
  audios :=
    ⟨[(1, ⟨[100, 200, 300], .replicate _ 9, 0, some 0⟩), (2, ⟨[-5, 7], .replicate _ 9, 2, some 0⟩),
      (3, ⟨[1], .replicate _ 9, 2, some 0⟩)], by decide⟩
  sidebars := ⟨[(0, ⟨.replicate _ 9, {1, 2, 3}⟩)], by decide⟩
  attached := by decide

theorem tick_eq_everyoneElse_three
    : (threeParticipants.tick .sse2 2).2.map (fun given => (given.1, given.2.map Int16.toInt))
      = [(1, [-5, 7]), (2, [100, 200]), (3, [95, 207])] :=
  (tick_eq_everyoneElse .sse2 threeParticipants 2 (by decide) (by decide +kernel)).trans
    (by decide +kernel)

end AudioMixer

end MediaServer.Audio
