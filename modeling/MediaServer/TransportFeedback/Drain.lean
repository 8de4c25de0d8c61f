import MediaServer.TransportFeedback.Generator

/-! Reports built one after the other with no arrival in between. They tell the truth about
the table of arrivals, do not overlap, and leave nothing out.
-/

namespace MediaServer.TransportFeedback

open Foundation List
open TransportWideFeedbackField (missing ticksOf referenceOf)

namespace TransportWideFeedbackGenerator

theorem length_missing (next : WORD) (count : Nat) : (missing next count).length = count := by
  rw [missing, length_map, length_range]

/-- Statuses reach to the last arrival they tell of. -/
theorem length_statuses {next lastTicks seq : Nat} {arrivalUs : QWORD}
    {rest : List (Nat × QWORD)} (ahead : next ≤ seq)
    (sorted : ((seq, arrivalUs) :: rest).Pairwise (fun left right => left.1 < right.1))
    : next + (statuses next lastTicks ((seq, arrivalUs) :: rest)).length
      = (rest.map Prod.fst).getLastD seq + 1 := by
  induction rest generalizing next lastTicks seq arrivalUs with
  | nil =>
    rw [statuses, statuses, length_append, length_missing, length_singleton, map_nil, getLastD_nil]
    omega
  | cons entry rest ih =>
    obtain ⟨following, followingUs⟩ := entry
    obtain ⟨above, restSorted⟩ := pairwise_cons.mp sorted
    have length := @ih (seq + 1) (ticksOf arrivalUs) following followingUs
      (above _ mem_cons_self) restSorted
    rw [statuses, length_append, length_missing, length_cons, map_cons, getLastD_cons, ← length]
    omega

/-- A status is about the number at its place, and says whether that number arrived. By
induction on the arrivals.
-/
theorem statuses_truthful {next lastTicks : Nat} {entries : List (Nat × QWORD)}
    (above : ∀ entry ∈ entries, next ≤ entry.1)
    (sorted : entries.Pairwise (fun left right => left.1 < right.1)) {i : Nat}
    {status : PacketStatus} (place : (statuses next lastTicks entries)[i]? = some status)
    : status.seq = .ofNat (next + i)
      ∧ (status.received = true ↔ next + i ∈ entries.map Prod.fst) := by
  induction entries generalizing next lastTicks i with
  | nil => cases place
  | cons entry rest ih =>
    obtain ⟨seq, arrivalUs⟩ := entry
    obtain ⟨restAbove, restSorted⟩ := pairwise_cons.mp sorted
    have ahead : next ≤ seq := above _ mem_cons_self
    have later : ∀ number ∈ rest.map Prod.fst, seq < number := by
      intro number member
      obtain ⟨entry, present, rfl⟩ := mem_map.mp member
      exact restAbove entry present
    rw [statuses, getElem?_append, length_missing] at place
    rw [map_cons, mem_cons]
    split at place
    · rename_i gap
      rw [missing, getElem?_map, getElem?_range gap] at place
      cases place
      refine ⟨(UInt16.ofNat_add _ _).symm, ?_⟩
      have absent : ¬ (next + i = seq ∨ next + i ∈ rest.map Prod.fst) := by
        rintro (same | member)
        · omega
        · have := later _ member
          omega
      exact iff_of_false Bool.false_ne_true absent
    · rename_i reached
      cases here : i - (seq - next) with
      | zero =>
        rw [here, getElem?_cons_zero] at place
        cases place
        have same : next + i = seq := by omega
        exact ⟨by rw [same], fun _ => .inl same, fun _ => rfl⟩
      | succ j =>
        rw [here, getElem?_cons_succ] at place
        have same : next + i = seq + 1 + j := by omega
        obtain ⟨number, arrived⟩ := ih restAbove restSorted place
        rw [same]
        refine ⟨number, arrived.trans ⟨.inr, ?_⟩⟩
        rintro (impossible | member)
        · omega
        · exact member

/-- A report with the unwrapped number of its first status. -/
structure Report where
  first : Nat
  field : TransportWideFeedbackField

namespace Report

def finish (report : Report) : Nat := report.first + report.field.packets.length

def covers (report : Report) (number : Nat) : Bool :=
  report.first ≤ number && number < report.finish

/-- Some statuses but no more than fit, and each of them about the number at its place. -/
structure Truthful (report : Report) (arrivals : OrderedMap Nat QWORD) : Prop where
  nonempty : report.first < report.finish
  few : report.field.packets.length ≤ maxStatusPerReport
  marks
    : ∀ i status, report.field.packets[i]? = some status
      → status.seq = .ofNat (report.first + i)
        ∧ (status.received = true ↔ report.first + i ∈ arrivals.keys)

end Report

def firstPending (generator : TransportWideFeedbackGenerator) : Nat :=
  (generator.pending.map Prod.fst).headD 0

def reported (generator next : TransportWideFeedbackGenerator) : List (Nat × QWORD) :=
  generator.pending.filter (fun entry => entry.1 < next.windowStart)

variable {generator next : TransportWideFeedbackGenerator}

theorem hasPending_iff
    : generator.hasPending = true ↔ generator.hasWindowStart = true ∧ generator.pending ≠ [] := by
  rw [hasPending, Bool.and_eq_true, decide_eq_true_iff]

theorem mem_pending_keys {number : Nat}
    : number ∈ generator.pending.map Prod.fst
      ↔ number ∈ generator.arrivals.keys ∧ generator.windowStart ≤ number := by
  simp [pending, OrderedMap.keys, OrderedMap.mem_lowerBound]

theorem mem_reported_keys {number : Nat}
    : number ∈ (generator.reported next).map Prod.fst
      ↔ number ∈ generator.arrivals.keys ∧ generator.windowStart ≤ number
        ∧ number < next.windowStart := by
  rw [← and_assoc, ← mem_pending_keys]
  simp [reported]

/-- In a list of increasing numbers none is above the last one. -/
theorem le_getLastD {first number : Nat} {rest : List (Nat × QWORD)} {arrivalUs : QWORD}
    (sorted : ((first, arrivalUs) :: rest).Pairwise (fun left right => left.1 < right.1))
    (member : number ∈ first :: rest.map Prod.fst)
    : number ≤ (rest.map Prod.fst).getLastD first := by
  induction rest generalizing first arrivalUs number with
  | nil =>
    rw [mem_singleton.mp member]
    exact Nat.le_refl _
  | cons entry rest ih =>
    obtain ⟨above, restSorted⟩ := pairwise_cons.mp sorted
    rw [map_cons, getLastD_cons]
    rcases mem_cons.mp member with rfl | later
    · exact Nat.le_trans (Nat.le_of_lt (above entry mem_cons_self)) (ih restSorted mem_cons_self)
    · exact ih restSorted later

/-- What a call does while something is pending. -/
theorem buildFeedback_reported (pending : generator.hasPending = true)
    (field : TransportWideFeedbackField) (nowUs : QWORD)
    : ∃ next base arrivalUs taken,
        generator.buildFeedback field nowUs
          = (next, extendAll (generator.start field base arrivalUs) base
              ((base, arrivalUs) :: taken), true)
        ∧ generator.reported next = (base, arrivalUs) :: taken
        ∧ generator.firstPending = base
        ∧ next.arrivals = generator.arrivals ∧ next.hasWindowStart = true
        ∧ next.windowStart = (taken.map Prod.fst).getLastD base + 1
        ∧ next.windowStart ≤ base + maxStatusPerReport := by
  obtain ⟨opened, nonempty⟩ := hasPending_iff.mp pending
  obtain ⟨⟨base, arrivalUs⟩, rest, list⟩ := exists_cons_of_ne_nil nonempty
  obtain ⟨taken, left, split, result, inside⟩ :=
    buildFeedback_pending opened list field nowUs
  have sorted := generator.arrivals.lowerBound_sorted generator.windowStart
  change generator.pending.Pairwise _ at sorted
  rw [list, split, ← cons_append] at sorted
  obtain ⟨takenSorted, _, beforeLeft⟩ := pairwise_append.mp sorted
  obtain ⟨last, lastTaken, same⟩ :
      ∃ entry ∈ (base, arrivalUs) :: taken, entry.1 = (taken.map Prod.fst).getLastD base :=
    mem_map.mp getLastD_mem_cons
  refine ⟨_, base, arrivalUs, taken, result, ?_, ?_, rfl, opened, rfl, ?_⟩
  · rw [reported, list, split, ← cons_append, filter_append]
    have all : ((base, arrivalUs) :: taken).filter
          (fun entry => entry.1 < (taken.map Prod.fst).getLastD base + 1)
        = (base, arrivalUs) :: taken :=
      filter_eq_self.mpr fun entry present => decide_eq_true
        (Nat.lt_succ_of_le (le_getLastD takenSorted (mem_map_of_mem present)))
    have none : left.filter (fun entry => entry.1 < (taken.map Prod.fst).getLastD base + 1)
        = [] := by
      refine filter_eq_nil_iff.mpr fun entry present => ?_
      have after := beforeLeft last lastTaken entry present
      rw [decide_eq_true_iff]
      omega
    exact (congrArg₂ _ all none).trans (append_nil _)
  · rw [firstPending, list]
    rfl
  · change (taken.map Prod.fst).getLastD base + 1 ≤ _
    rw [← same]
    rcases mem_cons.mp lastTaken with rfl | member
    · exact Nat.add_le_add_left (by decide) base
    · exact inside last member

/-- What a call reports is no longer pending. -/
theorem pending_length (same : next.arrivals = generator.arrivals)
    (later : generator.windowStart ≤ next.windowStart)
    : next.pending.length + (generator.reported next).length = generator.pending.length := by
  have left : next.pending
      = generator.pending.filter (fun entry => !decide (entry.1 < next.windowStart)) := by
    rw [pending, pending, same, OrderedMap.lowerBound_eq_filter, OrderedMap.lowerBound_eq_filter,
      filter_filter]
    refine filter_congr (fun entry _ => ?_)
    rw [Bool.eq_iff_iff]
    simp only [decide_eq_true_iff, Bool.and_eq_true, Bool.not_eq_true', decide_eq_false_iff_not,
      Nat.not_lt]
    exact ⟨fun reached => ⟨reached, Nat.le_trans later reached⟩, fun both => both.1⟩
  rw [left, reported, Nat.add_comm]
  exact (length_eq_length_filter_add _).symm

structure Reports (generator next : TransportWideFeedbackGenerator) (report : Report) : Prop where
  arrivals : next.arrivals = generator.arrivals
  opened : next.hasWindowStart = true
  truthful : report.Truthful generator.arrivals
  window : next.windowStart = report.finish
  start : generator.windowStart ≤ report.first
  least : ∀ number ∈ generator.arrivals.keys, generator.windowStart ≤ number
    → report.first ≤ number
  fewer : next.pending.length < generator.pending.length

theorem buildFeedback_reports (pending : generator.hasPending = true)
    (field : TransportWideFeedbackField) (nowUs : QWORD)
    : ∃ next report, generator.buildFeedback field nowUs = (next, report, true)
      ∧ generator.Reports next ⟨generator.firstPending, report⟩ := by
  obtain ⟨next, base, arrivalUs, taken, result, entries, first, arrivals, opened, window, near⟩ :=
    buildFeedback_reported pending field nowUs
  have sorted := generator.arrivals.lowerBound_sorted generator.windowStart
  have takenSorted := sorted.filter (fun entry => decide (entry.1 < next.windowStart))
  change (generator.reported next).Pairwise _ at takenSorted
  rw [entries] at takenSorted
  have packets := extendAll_packets (generator.start field base arrivalUs) base
    ((base, arrivalUs) :: taken)
  change _ = statuses base (referenceOf arrivalUs <<< 8) ((base, arrivalUs) :: taken) at packets
  have length := @length_statuses base (referenceOf arrivalUs <<< 8) base arrivalUs taken
    (Nat.le_refl base) takenSorted
  rw [← packets, ← window] at length
  have above : ∀ entry ∈ (base, arrivalUs) :: taken, base ≤ entry.1 :=
    forall_mem_cons.mpr
      ⟨Nat.le_refl base, fun entry present =>
        Nat.le_of_lt ((pairwise_cons.mp takenSorted).1 entry present)⟩
  have members : ∀ number, number ∈ ((base, arrivalUs) :: taken).map Prod.fst
      ↔ number ∈ generator.arrivals.keys ∧ generator.windowStart ≤ number
        ∧ number < next.windowStart := by
    intro number
    rw [← entries]
    exact mem_reported_keys
  obtain ⟨_, started, ended⟩ := (members base).mp mem_cons_self
  have total := pending_length arrivals (Nat.le_of_lt (Nat.lt_of_le_of_lt started ended))
  refine ⟨next, _, result, ?_⟩
  rw [first]
  exact {
    arrivals, opened
    truthful := by
      refine ⟨?_, ?_, ?_⟩
      · change base < base + (extendAll _ _ _).packets.length
        omega
      · change (extendAll _ _ _).packets.length ≤ _
        omega
      intro i status place
      have within : i < _ := (List.getElem?_eq_some_iff.mp place).1
      rw [packets] at place
      obtain ⟨number, received⟩ := statuses_truthful above takenSorted place
      refine ⟨number, received.trans ((members (base + i)).trans ⟨fun all => all.1, ?_⟩)⟩
      intro stored
      change i < (extendAll _ _ _).packets.length at within
      exact ⟨stored, by omega, by omega⟩
    window := length.symm
    start := started
    least := by
      intro number stored reached
      by_cases inside : number < next.windowStart
      · obtain ⟨entry, present, rfl⟩ :=
          mem_map.mp ((members number).mpr ⟨stored, reached, inside⟩)
        exact above entry present
      · change base ≤ number
        omega
    fewer := by
      rw [entries, length_cons] at total
      omega }

/-- A call that returned true, read backwards. -/
theorem reports_of_built {field report : TransportWideFeedbackField} {nowUs : QWORD}
    (built : generator.buildFeedback field nowUs = (next, report, true))
    : generator.Reports next ⟨generator.firstPending, report⟩
      ∧ ∃ base arrivalUs taken, generator.reported next = (base, arrivalUs) :: taken
        ∧ report = extendAll (generator.start field base arrivalUs) base
            ((base, arrivalUs) :: taken) := by
  have pending : generator.hasPending = true := by
    by_contra idle
    rw [buildFeedback_idle ((Bool.not_eq_true _).mp idle)] at built
    cases built
  obtain ⟨_, base, arrivalUs, taken, result, entries, -⟩ :=
    buildFeedback_reported pending field nowUs
  obtain ⟨_, _, again, reports⟩ := buildFeedback_reports pending field nowUs
  rw [built] at result again
  cases again
  obtain ⟨rfl, same⟩ := Prod.mk.inj result
  exact ⟨reports, base, arrivalUs, taken, entries, (Prod.mk.inj same).1⟩

/-! Drains. -/

/-- Calls of `BuildFeedback` one after the other, each with its field and time: the reports,
and where they leave the generator.
-/
def drain (generator : TransportWideFeedbackGenerator)
    : List (TransportWideFeedbackField × QWORD) → List Report × TransportWideFeedbackGenerator
  | [] => ([], generator)
  | (field, nowUs) :: rest =>
    match generator.buildFeedback field nowUs with
    | (next, report, true) =>
      (⟨generator.firstPending, report⟩ :: (drain next rest).1, (drain next rest).2)
    | (next, _, false) => drain next rest

structure Drained (generator final : TransportWideFeedbackGenerator) (reports : List Report)
    : Prop where
  arrivals : final.arrivals = generator.arrivals
  opened : final.hasWindowStart = generator.hasWindowStart
  truthful : ∀ report ∈ reports, report.Truthful generator.arrivals
  advances : generator.windowStart ≤ final.windowStart
  starts : ∀ report ∈ reports, generator.windowStart ≤ report.first
  ordered : reports.Pairwise (fun earlier later => earlier.finish ≤ later.first)
  once
    : ∀ number ∈ generator.arrivals.keys, generator.windowStart ≤ number
      → number < final.windowStart
      → reports.countP (fun report => report.covers number) = 1

theorem Drained.refl (generator : TransportWideFeedbackGenerator)
    : Drained generator generator [] where
  arrivals := rfl
  opened := rfl
  truthful := fun _ none => nomatch none
  advances := Nat.le_refl _
  starts := fun _ none => nomatch none
  ordered := .nil
  once := fun _ _ reached below => absurd reached (Nat.not_le.mpr below)

/-- A report in front of a drain: its range ends where the later ones may start. -/
theorem Reports.drained {generator next final : TransportWideFeedbackGenerator}
    {report : Report} {reports : List Report} (opened : generator.hasWindowStart = true)
    (first : generator.Reports next report) (rest : Drained next final reports)
    : Drained generator final (report :: reports) where
  arrivals := rest.arrivals.trans first.arrivals
  opened := by rw [rest.opened, first.opened, opened]
  truthful := forall_mem_cons.mpr
    ⟨first.truthful, fun later member => first.arrivals ▸ rest.truthful later member⟩
  advances := by
    have reached := rest.advances
    have start := first.start
    have nonempty := first.truthful.nonempty
    rw [first.window] at reached
    omega
  starts := by
    have start := first.start
    have nonempty := first.truthful.nonempty
    refine forall_mem_cons.mpr ⟨start, fun later member => ?_⟩
    have after := rest.starts later member
    rw [first.window] at after
    omega
  ordered := pairwise_cons.mpr
    ⟨fun later member => first.window ▸ rest.starts later member, rest.ordered⟩
  once := by
    intro number stored reached below
    have least := first.least number stored reached
    rw [countP_cons]
    by_cases inside : number < report.finish
    · have others : reports.countP (fun later => later.covers number) = 0 := by
        refine countP_eq_zero.mpr (fun later member covered => ?_)
        have after := rest.starts later member
        rw [first.window] at after
        rw [Report.covers, Bool.and_eq_true, decide_eq_true_iff] at covered
        omega
      rw [others, if_pos (by simp [Report.covers, least, inside])]
    · rw [if_neg (by simp [Report.covers, inside]),
        rest.once number (first.arrivals ▸ stored) (by rw [first.window]; omega) below]

/-- By induction over the calls. -/
theorem drain_drained (generator : TransportWideFeedbackGenerator)
    (calls : List (TransportWideFeedbackField × QWORD))
    : Drained generator (generator.drain calls).2 (generator.drain calls).1 := by
  induction calls generalizing generator with
  | nil => exact .refl generator
  | cons call rest ih =>
    obtain ⟨field, nowUs⟩ := call
    rw [drain]
    by_cases pending : generator.hasPending = true
    · obtain ⟨next, report, result, reports⟩ := buildFeedback_reports pending field nowUs
      rw [result]
      exact reports.drained (hasPending_iff.mp pending).1 (ih next)
    · rw [buildFeedback_idle (Bool.not_eq_true _ ▸ pending)]
      exact ih generator

theorem getPendingCount_of_opened (opened : generator.hasWindowStart = true)
    : generator.getPendingCount = generator.pending.length := by
  rw [getPendingCount, opened]
  rfl

theorem getPendingCount_eq_zero_iff
    : generator.getPendingCount = 0 ↔ generator.hasPending = false := by
  rw [getPendingCount, hasPending]
  cases generator.hasWindowStart <;> simp

/-- Each call reports an arrival, as long as there is one. -/
theorem drain_pending (generator : TransportWideFeedbackGenerator)
    (calls : List (TransportWideFeedbackField × QWORD))
    : (generator.drain calls).2.getPendingCount ≤ generator.getPendingCount - calls.length := by
  induction calls generalizing generator with
  | nil => exact Nat.le_refl _
  | cons call rest ih =>
    obtain ⟨field, nowUs⟩ := call
    rw [drain, length_cons]
    by_cases pending : generator.hasPending = true
    · obtain ⟨next, report, result, reports⟩ := buildFeedback_reports pending field nowUs
      rw [result]
      have later := ih next
      have fewer := reports.fewer
      have before := getPendingCount_of_opened (hasPending_iff.mp pending).1
      have after := getPendingCount_of_opened reports.opened
      change (next.drain rest).2.getPendingCount ≤ _
      omega
    · have idle : generator.hasPending = false := Bool.not_eq_true _ ▸ pending
      have nothing := getPendingCount_eq_zero_iff.mpr idle
      have later := ih generator
      rw [buildFeedback_idle idle]
      change (generator.drain rest).2.getPendingCount ≤ _
      omega

def Opened (generator : TransportWideFeedbackGenerator) : Prop :=
  generator.hasWindowStart = false → generator.arrivals.entries = []

theorem onPacketReceived_opened (generator : TransportWideFeedbackGenerator) (ssrc : DWORD)
    (seq : WORD) (nowUs : QWORD)
    : (generator.onPacketReceived ssrc seq nowUs).hasWindowStart = true := by
  simp only [onPacketReceived, purge]
  split <;> split <;> split <;> simp_all

theorem opened_run (events : List Event) : (run step {} events).Opened := by
  refine run_invariant ?_ (fun _ => rfl) events
  intro generator event opened
  cases event with
  | received ssrc seq nowUs =>
    intro closed
    rw [step, onPacketReceived_opened] at closed
    cases closed
  | build field nowUs =>
    obtain ⟨arrivals, _, _, hasWindowStart⟩ := buildFeedback_keeps generator field nowUs
    rw [Opened, step, arrivals, hasWindowStart]
    exact opened
  | sendBitrate bitrate =>
    obtain ⟨intervalUs, same⟩ := setSendBitrate_keeps generator bitrate
    rw [step, same]
    exact opened

/-- Every call reports as long as something is pending, and a drain ends. Its reports have at
most 400 statuses, say which numbers arrived, and cover increasing ranges. Once it has ended,
every arrival from the start of the window on was in exactly one of them.
-/
theorem reports_truthful_and_complete (events : List Event)
    (calls : List (TransportWideFeedbackField × QWORD))
    : let generator := run step {} events
      let reports := (generator.drain calls).1
      let final := (generator.drain calls).2
      (generator.hasPending = true
        → ∀ field nowUs, (generator.buildFeedback field nowUs).2.2 = true)
      ∧ (generator.getPendingCount ≤ calls.length → final.hasPending = false)
      ∧ (∀ report ∈ reports, report.Truthful generator.arrivals)
      ∧ reports.Pairwise (fun earlier later => earlier.finish ≤ later.first)
      ∧ (final.hasPending = false
        → ∀ number ∈ generator.arrivals.keys, generator.windowStart ≤ number
          → reports.countP (fun report => report.covers number) = 1) := by
  intro generator reports final
  have drained := generator.drain_drained calls
  have counted := generator.drain_pending calls
  refine ⟨?_, ?_, drained.truthful, drained.ordered, ?_⟩
  · intro pending field nowUs
    obtain ⟨next, report, result, _⟩ := buildFeedback_reports pending field nowUs
    rw [result]
  · intro enough
    apply getPendingCount_eq_zero_iff.mp
    change final.getPendingCount ≤ _ at counted
    omega
  · intro idle number stored reached
    refine drained.once number stored reached (Nat.lt_of_not_le fun left => ?_)
    obtain ⟨_, pending, -⟩ := mem_map.mp (mem_pending_keys.mpr ⟨drained.arrivals ▸ stored, left⟩)
    have opened : final.hasWindowStart = true := by
      by_contra closed
      rw [drained.opened, Bool.not_eq_true] at closed
      rw [OrderedMap.keys, opened_run events closed] at stored
      cases stored
    rw [hasPending_iff.mpr ⟨opened, ne_nil_of_mem pending⟩] at idle
    cases idle

end TransportWideFeedbackGenerator

end MediaServer.TransportFeedback
