import MediaServer.Foundation.Bits
import MediaServer.Foundation.OrderedMap
import MediaServer.Foundation.Runs
import MediaServer.TransportFeedback.Field

/-! The receiving side: arrivals by unwrapped sequence number, and the reports about them.
Unwrapped numbers are unbounded here. In the code they have 64 bits, and `lastSeq_le` says how
many packets it takes to reach a number.
-/

namespace MediaServer.TransportFeedback

open Foundation TransportWideFeedbackField List
open TransportWideFeedbackField (missing ticksOf referenceOf)

/-- The number next to the last one that has the given low 16 bits. -/
def unwrapSeq16 (seq : WORD) (lastSeq : Nat) (hasLastSeq : Bool) : Nat :=
  if !hasLastSeq then seq.toNat
  else
    let candidate := lastSeq >>> 16 <<< 16 ||| seq.toNat
    let forward := seq - .ofNat lastSeq
    if forward < 0x8000 then
      if candidate < lastSeq then candidate + 0x10000 else candidate
    else if candidate ≥ lastSeq ∧ candidate ≥ 0x10000 then candidate - 0x10000
    else candidate

/-- The candidate is in the cycle of the last number. -/
theorem candidate_eq (seq : WORD) (lastSeq : Nat)
    : lastSeq >>> 16 <<< 16 ||| seq.toNat = lastSeq / 65536 * 65536 + seq.toNat := by
  rw [shiftLeft_or _ seq.toNat_lt, shiftRight_eq]
  rfl

theorem unwrapSeq16_eq (seq : WORD) (lastSeq : Nat)
    : unwrapSeq16 seq lastSeq true
      = if (65536 - lastSeq % 65536 + seq.toNat) % 65536 < 32768 then
          if lastSeq / 65536 * 65536 + seq.toNat < lastSeq then
            lastSeq / 65536 * 65536 + seq.toNat + 65536
          else lastSeq / 65536 * 65536 + seq.toNat
        else if lastSeq / 65536 * 65536 + seq.toNat ≥ lastSeq
            ∧ lastSeq / 65536 * 65536 + seq.toNat ≥ 65536 then
          lastSeq / 65536 * 65536 + seq.toNat - 65536
        else lastSeq / 65536 * 65536 + seq.toNat := by
  have forward : seq - .ofNat lastSeq < 0x8000
      ↔ (65536 - lastSeq % 65536 + seq.toNat) % 65536 < 32768 := by
    rw [UInt16.lt_iff_toNat_lt, UInt16.toNat_sub, UInt16.toNat_ofNat']
    rfl
  simp only [unwrapSeq16, candidate_eq, forward]
  rfl

def minIntervalUs : QWORD := 50000

def maxIntervalUs : QWORD := 250000

def defaultIntervalUs : QWORD := 100000

def backWindowUs : QWORD := 500000

def reportBytes : QWORD := 20 + 8 + 10 + 30

def maxStatusPerReport : Nat := 400

structure TransportWideFeedbackGenerator where
  arrivals : OrderedMap Nat QWORD := .empty
  lastSeq : Nat := 0
  hasLastSeq : Bool := false
  windowStart : Nat := 0
  hasWindowStart : Bool := false
  lastSendUs : QWORD := 0
  intervalUs : QWORD := defaultIntervalUs
  mediaSSRC : DWORD := 0
  fbSeq : BYTE := 0

namespace TransportWideFeedbackGenerator

variable (generator : TransportWideFeedbackGenerator)

def purge (nowUs : QWORD) : TransportWideFeedbackGenerator :=
  let expired := fun (entry : Nat × QWORD) => decide (entry.2 + backWindowUs < nowUs)
  { generator with
    arrivals := generator.arrivals.dropFrontWhile expired
    windowStart :=
      (generator.arrivals.entries.takeWhile expired).foldl
        (fun start entry =>
          if generator.hasWindowStart ∧ start ≤ entry.1 then entry.1 + 1 else start)
        generator.windowStart }

def onPacketReceived (ssrc : DWORD) (seq : WORD) (nowUs : QWORD) : TransportWideFeedbackGenerator :=
  let unwrapped := unwrapSeq16 seq generator.lastSeq generator.hasLastSeq
  let generator := { generator with mediaSSRC := ssrc }
  let generator :=
    if !generator.hasLastSeq ∨ unwrapped > generator.lastSeq then
      { generator with lastSeq := unwrapped, hasLastSeq := true }
    else generator
  let generator :=
    if (generator.arrivals.find? unwrapped).isNone then
      { generator with arrivals := generator.arrivals.insert unwrapped nowUs }
    else generator
  let generator :=
    if !generator.hasWindowStart ∨ unwrapped < generator.windowStart then
      { generator with windowStart := unwrapped, hasWindowStart := true }
    else generator
  generator.purge nowUs

/-- The arrivals that the next reports are about. -/
def pending : List (Nat × QWORD) :=
  generator.arrivals.lowerBound generator.windowStart

def getPendingCount : Nat :=
  if !generator.hasWindowStart then 0 else generator.pending.length

def hasPending : Bool :=
  generator.hasWindowStart && generator.pending ≠ []

/-- The loop over the arrivals of a report: the report, the last number covered, and whether
there is any.
-/
def addArrivals (base : Nat)
    : List (Nat × QWORD) → TransportWideFeedbackField → Nat → Bool
      → TransportWideFeedbackField × Nat × Bool
  | [], field, covered, any => (field, covered, any)
  | (seq, arrivalUs) :: rest, field, covered, any =>
    if seq - base + 1 > maxStatusPerReport then (field, covered, any)
    else
      match field.addReceived (.ofNat seq) arrivalUs with
      | (field, true) => addArrivals base rest field seq true
      | (_, false) => (field, covered, any)

def buildFeedback (field : TransportWideFeedbackField) (nowUs : QWORD)
    : TransportWideFeedbackGenerator × TransportWideFeedbackField × Bool :=
  if !generator.hasWindowStart then (generator, field, false)
  else
    match generator.pending with
    | [] => (generator, field, false)
    | (base, arrivalUs) :: rest =>
      let field := { field.setBase (.ofNat base) arrivalUs with fbSeq := generator.fbSeq }
      let generator := { generator with fbSeq := generator.fbSeq + 1 }
      match addArrivals base ((base, arrivalUs) :: rest) field base false with
      | (field, _, false) => ({ generator with windowStart := base + 1 }, field, false)
      | (field, covered, true) =>
        ({ generator with windowStart := covered + 1, lastSendUs := nowUs }, field, true)

/-- Reports take 5 % of the link at the most. -/
def setSendBitrate (bitrate : DWORD) : TransportWideFeedbackGenerator :=
  let twccBps := bitrate.toUInt64 / 20
  if twccBps = 0 then { generator with intervalUs := maxIntervalUs }
  else
    let interval := reportBytes * 8 * 1000000 / twccBps
    { generator with intervalUs := min (max interval minIntervalUs) maxIntervalUs }

/-- What the session does with its generator. -/
inductive Event
  | received (ssrc : DWORD) (seq : WORD) (nowUs : QWORD)
  | build (field : TransportWideFeedbackField) (nowUs : QWORD)
  | sendBitrate (bitrate : DWORD)

def step : Event → TransportWideFeedbackGenerator
  | .received ssrc seq nowUs => generator.onPacketReceived ssrc seq nowUs
  | .build field nowUs => (generator.buildFeedback field nowUs).1
  | .sendBitrate bitrate => generator.setSendBitrate bitrate

variable (field : TransportWideFeedbackField)

/-- A call moves the window only. -/
theorem buildFeedback_keeps (nowUs : QWORD)
    : (generator.buildFeedback field nowUs).1.arrivals = generator.arrivals
      ∧ (generator.buildFeedback field nowUs).1.lastSeq = generator.lastSeq
      ∧ (generator.buildFeedback field nowUs).1.hasLastSeq = generator.hasLastSeq
      ∧ (generator.buildFeedback field nowUs).1.hasWindowStart = generator.hasWindowStart := by
  rw [buildFeedback]
  split
  · exact ⟨rfl, rfl, rfl, rfl⟩
  · split
    · exact ⟨rfl, rfl, rfl, rfl⟩
    · simp only []
      split <;> exact ⟨rfl, rfl, rfl, rfl⟩

theorem setSendBitrate_keeps (bitrate : DWORD)
    : ∃ intervalUs, generator.setSendBitrate bitrate = { generator with intervalUs } := by
  rw [setSendBitrate]
  split <;> exact ⟨_, rfl⟩

/-! What a report says. -/

def statuses (next lastTicks : Nat) : List (Nat × QWORD) → List PacketStatus
  | [] => []
  | (seq, arrivalUs) :: rest =>
    missing (.ofNat next) (seq - next)
      ++ ⟨.ofNat seq, true, ticksOf arrivalUs - lastTicks⟩
        :: statuses (seq + 1) (ticksOf arrivalUs) rest

def extend (field : TransportWideFeedbackField) (next seq : Nat) (arrivalUs : QWORD)
    : TransportWideFeedbackField :=
  { field with
    packets :=
      field.packets ++ (missing (.ofNat next) (seq - next)
        ++ [⟨.ofNat seq, true, ticksOf arrivalUs - field.lastArrivalTicks⟩])
    lastArrivalTicks := ticksOf arrivalUs }

def extendAll (field : TransportWideFeedbackField) (next : Nat)
    : List (Nat × QWORD) → TransportWideFeedbackField
  | [] => field
  | (seq, arrivalUs) :: rest => extendAll (extend field next seq arrivalUs) (seq + 1) rest

theorem extendAll_packets (next : Nat) (taken : List (Nat × QWORD))
    : (extendAll field next taken).packets
      = field.packets ++ statuses next field.lastArrivalTicks taken := by
  induction taken generalizing field next with
  | nil => exact (append_nil _).symm
  | cons entry rest ih =>
    rw [extendAll, ih, statuses, extend]
    simp only [append_assoc, cons_append, nil_append]

theorem extendAll_header (next : Nat) (taken : List (Nat × QWORD))
    : (extendAll field next taken).baseSeq = field.baseSeq
      ∧ (extendAll field next taken).referenceTicks = field.referenceTicks
      ∧ (extendAll field next taken).fbSeq = field.fbSeq
      ∧ (extendAll field next taken).hasTimestamps = field.hasTimestamps := by
  induction taken generalizing field next with
  | nil => exact ⟨rfl, rfl, rfl, rfl⟩
  | cons entry rest ih => exact ih (extend field next entry.1 entry.2) (entry.1 + 1)

theorem extend_nextSeq (next seq : Nat) (arrivalUs : QWORD)
    : (extend field next seq arrivalUs).nextSeq = .ofNat (seq + 1) := by
  rw [nextSeq, extend]
  simp only []
  rw [← append_assoc, getLast?_concat, UInt16.ofNat_add]
  rfl

/-- A number that is not far ahead is added unless its delta does not fit. -/
theorem addReceived_next {field : TransportWideFeedbackField} {next seq : Nat}
    (position : field.nextSeq = .ofNat next) (ahead : next ≤ seq) (near : seq < next + 0x8000)
    (arrivalUs : QWORD)
    : field.addReceived (.ofNat seq) arrivalUs
      = if (ticksOf arrivalUs : Int) - field.lastArrivalTicks < -32768
          ∨ (ticksOf arrivalUs : Int) - field.lastArrivalTicks > 32767 then (field, false)
        else (extend field next seq arrivalUs, true) := by
  have gap : ((.ofNat seq : WORD) - field.nextSeq).toNat = seq - next := by
    rw [position, UInt16.toNat_sub, UInt16.toNat_ofNat', UInt16.toNat_ofNat']
    omega
  have accepted : ¬ (.ofNat seq : WORD) - field.nextSeq > 0x7FFF := by
    intro far
    have large := UInt16.lt_iff_toNat_lt.mp far
    rw [gap, show (0x7FFF : WORD).toNat = 0x7FFF from rfl] at large
    omega
  simp only [addReceived, extend]
  rw [if_neg accepted, gap, position]
  simp only [append_assoc]

/-- The loop takes the first arrivals of the list. By induction on the list. -/
theorem addArrivals_spec {base covered : Nat} {entries : List (Nat × QWORD)}
    {field : TransportWideFeedbackField} (started : base ≤ covered)
    (position : field.nextSeq = .ofNat (covered + 1)) (above : ∀ entry ∈ entries, covered < entry.1)
    (sorted : entries.Pairwise (fun left right => left.1 < right.1))
    : ∃ taken left, entries = taken ++ left
      ∧ addArrivals base entries field covered true
        = (extendAll field (covered + 1) taken, (taken.map Prod.fst).getLastD covered, true)
      ∧ ∀ entry ∈ taken, entry.1 < base + maxStatusPerReport := by
  induction entries generalizing field covered with
  | nil => exact ⟨[], [], rfl, rfl, fun _ none => nomatch none⟩
  | cons entry rest ih =>
    obtain ⟨seq, arrivalUs⟩ := entry
    obtain ⟨restAbove, restSorted⟩ := pairwise_cons.mp sorted
    have ahead : covered < seq := above _ mem_cons_self
    have stop : ∃ taken left, (seq, arrivalUs) :: rest = taken ++ left
        ∧ (field, covered, true)
          = (extendAll field (covered + 1) taken, (taken.map Prod.fst).getLastD covered, true)
        ∧ ∀ entry ∈ taken, entry.1 < base + maxStatusPerReport :=
      ⟨[], _, rfl, rfl, fun _ none => nomatch none⟩
    rw [addArrivals]
    split
    · exact stop
    · rename_i room
      have near : seq < base + maxStatusPerReport := by omega
      rw [addReceived_next position ahead (by rw [maxStatusPerReport] at near; omega)]
      by_cases far : (ticksOf arrivalUs : Int) - field.lastArrivalTicks < -32768
          ∨ (ticksOf arrivalUs : Int) - field.lastArrivalTicks > 32767
      · rw [if_pos far]
        exact stop
      · rw [if_neg far]
        obtain ⟨taken, left, split, result, inside⟩ :=
          ih (Nat.le_of_lt (Nat.lt_of_le_of_lt started ahead))
            (extend_nextSeq field (covered + 1) seq arrivalUs) restAbove restSorted
        refine ⟨(seq, arrivalUs) :: taken, left, ?_, ?_, ?_⟩
        · rw [split, cons_append]
        · rw [extendAll, map_cons, getLastD_cons]
          exact result
        · exact forall_mem_cons.mpr ⟨near, inside⟩

def start (field : TransportWideFeedbackField) (base : Nat) (arrivalUs : QWORD)
    : TransportWideFeedbackField :=
  { field.setBase (.ofNat base) arrivalUs with fbSeq := generator.fbSeq }

/-- The first arrival of a report always fits. -/
theorem addArrivals_first (base : Nat) (arrivalUs : QWORD) (rest : List (Nat × QWORD))
    : addArrivals base ((base, arrivalUs) :: rest) (generator.start field base arrivalUs) base false
      = addArrivals base rest
          (extend (generator.start field base arrivalUs) base base arrivalUs) base true := by
  have fits : ¬ ((ticksOf arrivalUs : Int)
        - (generator.start field base arrivalUs).lastArrivalTicks < -32768
      ∨ (ticksOf arrivalUs : Int)
        - (generator.start field base arrivalUs).lastArrivalTicks > 32767) := by
    change ¬ ((ticksOf arrivalUs : Int) - (referenceOf arrivalUs <<< 8 : Nat) < -32768
      ∨ (ticksOf arrivalUs : Int) - (referenceOf arrivalUs <<< 8 : Nat) > 32767)
    rw [ticksOf, referenceOf, timeWrapUs_eq, baseTickUs_eq, tickUs_eq, Nat.shiftLeft_eq]
    omega
  rw [addArrivals, if_neg (by rw [maxStatusPerReport]; omega),
    addReceived_next rfl (Nat.le_refl base) (by omega), if_neg fits]

/-- What a call does while something is pending: it reports the first pending arrivals, at
least one of them, and moves the window behind the last of those.
-/
theorem buildFeedback_pending {generator : TransportWideFeedbackGenerator}
    (opened : generator.hasWindowStart = true) {base : Nat} {arrivalUs : QWORD}
    {rest : List (Nat × QWORD)} (pending : generator.pending = (base, arrivalUs) :: rest)
    (field : TransportWideFeedbackField) (nowUs : QWORD)
    : ∃ taken left, rest = taken ++ left
      ∧ generator.buildFeedback field nowUs
        = ({ generator with
              fbSeq := generator.fbSeq + 1
              windowStart := (taken.map Prod.fst).getLastD base + 1
              lastSendUs := nowUs },
            extendAll (generator.start field base arrivalUs) base ((base, arrivalUs) :: taken),
            true)
      ∧ ∀ entry ∈ taken, entry.1 < base + maxStatusPerReport := by
  have sorted := generator.arrivals.lowerBound_sorted generator.windowStart
  change generator.pending.Pairwise _ at sorted
  rw [pending] at sorted
  obtain ⟨above, restSorted⟩ := pairwise_cons.mp sorted
  obtain ⟨taken, left, split, result, inside⟩ :=
    addArrivals_spec (Nat.le_refl base)
      (extend_nextSeq (generator.start field base arrivalUs) base base arrivalUs) above restSorted
  refine ⟨taken, left, split, ?_, inside⟩
  have loop := (addArrivals_first generator field base arrivalUs rest).trans result
  simp only [buildFeedback, opened, pending]
  change (match addArrivals base ((base, arrivalUs) :: rest)
      (generator.start field base arrivalUs) base false with
    | (field, _, false) => _
    | (field, covered, true) => _) = _
  rw [loop]
  rfl

/-- Without anything pending a call does nothing. -/
theorem buildFeedback_idle {generator : TransportWideFeedbackGenerator}
    (idle : generator.hasPending = false) (field : TransportWideFeedbackField) (nowUs : QWORD)
    : generator.buildFeedback field nowUs = (generator, field, false) := by
  rw [buildFeedback]
  split
  · rfl
  · rename_i opened
    have nothing : generator.pending = [] := by
      simpa [hasPending, (Bool.not_eq_false _).mp (by simpa using opened)] using idle
    rw [nothing]

end TransportWideFeedbackGenerator

end MediaServer.TransportFeedback
