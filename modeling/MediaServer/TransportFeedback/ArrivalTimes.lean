import Mathlib.Data.List.Forall2
import MediaServer.TransportFeedback.Link

/-! Arrival times reach the sender exactly, from every clock cycle, as long as times are close
enough to be told apart. -/

namespace MediaServer.TransportFeedback

open Foundation TransportWideFeedbackGenerator SentPacketHistory Medkit OrderedMap List
open TransportWideFeedbackField (ticksOf referenceOf referenceOf_lt)

namespace TransportWideFeedbackGenerator

theorem addArrivals_wellFormed {base covered : Nat} {any : Bool} {entries : List (Nat × QWORD)}
    {field : TransportWideFeedbackField} (wellFormed : field.WellFormed)
    : (addArrivals base entries field covered any).1.WellFormed := by
  induction entries generalizing field covered any with
  | nil => exact wellFormed
  | cons entry rest ih =>
    rw [addArrivals]
    split
    · exact wellFormed
    · have kept := wellFormed.addReceived (.ofNat entry.1) entry.2
      split
      · rename_i added
        rw [added] at kept
        exact ih kept
      · exact wellFormed

theorem buildFeedback_wellFormed {generator next : TransportWideFeedbackGenerator}
    {field report : TransportWideFeedbackField} {nowUs : QWORD}
    (built : generator.buildFeedback field nowUs = (next, report, true)) : report.WellFormed := by
  rw [buildFeedback] at built
  split at built
  · cases built
  · split at built
    · cases built
    · rename_i base arrivalUs rest _
      have wellFormed := field.setBase_wellFormed (.ofNat base) arrivalUs
      have started : (generator.start field base arrivalUs).WellFormed :=
        ⟨wellFormed.reference, wellFormed.consecutive⟩
      have looped := @addArrivals_wellFormed base base false ((base, arrivalUs) :: rest) _ started
      simp only [] at built
      split at built
      · cases built
      · rename_i loop
        cases built
        rw [start, loop] at looped
        exact looped

theorem onPacketReceived_arrivals (generator : TransportWideFeedbackGenerator) (ssrc : DWORD)
    (seq : WORD) (nowUs : QWORD)
    : let key := unwrapSeq16 seq generator.lastSeq generator.hasLastSeq
      (generator.onPacketReceived ssrc seq nowUs).arrivals
        = (if (generator.arrivals.find? key).isNone then generator.arrivals.insert key nowUs
          else generator.arrivals).dropFrontWhile
          (fun entry => decide (entry.2 + backWindowUs < nowUs)) := by
  simp only [onPacketReceived, purge]
  congr 1
  split <;> split <;> split <;> simp_all

/-- The table after an arrival: nothing new but the first arrival of a number. -/
theorem onPacketReceived_entries {generator : TransportWideFeedbackGenerator} {ssrc : DWORD}
    {seq : WORD} {nowUs : QWORD} {entry : Nat × QWORD}
    (member : entry ∈ (generator.onPacketReceived ssrc seq nowUs).arrivals.entries)
    : let key := unwrapSeq16 seq generator.lastSeq generator.hasLastSeq
      entry ∈ generator.arrivals.entries
      ∨ entry = (key, nowUs) ∧ (generator.arrivals.find? key).isNone = true := by
  intro key
  rw [onPacketReceived_arrivals] at member
  have kept := (dropWhile_sublist _).subset member
  split at kept
  · rename_i absent
    rcases mem_insert.mp kept with new | ⟨_, old⟩
    · exact .inr ⟨new, absent⟩
    · exact .inl old
  · exact .inl kept

end TransportWideFeedbackGenerator

/-- Arrivals that follow each other by small deltas, modulo the clock cycle, and that are less
than a cycle apart are in one cycle.
-/
theorem sameCycle_of_deltas {first : Source} {rest : List Source}
    (deltas
      : ((first :: rest).map (fun source => (ticksOf source.arrivalUs : Int))).IsChain
        (fun earlier later => -32768 ≤ later - earlier ∧ later - earlier ≤ 32767))
    (steady
      : (first :: rest).IsChain (fun earlier later =>
        clockTicks earlier.arrivalUs < clockTicks later.arrivalUs + (2 ^ 32 - 32768)
        ∧ clockTicks later.arrivalUs < clockTicks earlier.arrivalUs + (2 ^ 32 - 32768)))
    : ∀ source ∈ first :: rest, clockCycle source.arrivalUs = clockCycle first.arrivalUs := by
  induction rest generalizing first with
  | nil =>
    intro source member
    rw [mem_singleton.mp member]
  | cons second rest ih =>
    obtain ⟨delta, deltasRest⟩ := isChain_cons_cons.mp deltas
    obtain ⟨close, steadyRest⟩ := isChain_cons_cons.mp steady
    dsimp only at delta
    have next : clockCycle second.arrivalUs = clockCycle first.arrivalUs := by
      have firstTicks := clockTicks_eq first.arrivalUs
      have secondTicks := clockTicks_eq second.arrivalUs
      omega
    intro source member
    rcases mem_cons.mp member with rfl | later
    · rfl
    · rw [ih deltasRest steadyRest source later, next]

/-- The sender reads what the receiver wrote. -/
theorem Tells.parse {medkit : Medkit} (network : medkit.NetworkOrder)
    {field : TransportWideFeedbackField} {sources : List Source} (tells : Tells field sources)
    : ∃ feedback size,
      ({} : TransportWideFeedbackField).parse medkit (field.serialize medkit field.getSize)
        = (feedback, size)
      ∧ size ≠ 0 ∧ feedback.hasTimestamps = true
      ∧ feedback.packets = field.packets ∧ feedback.referenceTicks = field.referenceTicks := by
  obtain ⟨-, -, accepted, parsed⟩ :=
    tells.wellFormed.parse_serialize network tells.nonempty tells.count (Nat.le_refl _) {}
  exact ⟨_, _, parsed, accepted, rfl, rfl, rfl⟩

/-- The clock of the sender is not ahead of that of the receiver, so it does not overflow. -/
theorem ticks_room (arrivalUs : QWORD) (cycle : Nat)
    : (ticksOf arrivalUs + (clockCycle arrivalUs - cycle) * 2 ^ 32) * tickUs < 2 ^ 64 := by
  have bound := arrivalUs.toNat_lt
  have ticks := clockTicks_eq arrivalUs
  rw [clockTicks, tickUs_eq] at ticks
  rw [tickUs_eq]
  omega

/-- A result in 64-bit ticks is the arrival up to the cycles before the first report. -/
theorem Paired.exact {sends : List Sending} {source : Source} {result : Result} {cycle : Nat}
    (paired : Paired sends ((clockCycle source.arrivalUs - cycle) * 2 ^ 32) source result)
    (reached : cycle ≤ clockCycle source.arrivalUs)
    : (result.recvTimeUs.toNat : Int)
        = 250 * (source.arrivalUs.toNat / 250 : Nat) + -(cycle * timeWrapUs : Nat)
      ∧ lastSend sends source.number = some (result.sentTimeUs, result.size) := by
  refine ⟨?_, paired.sending⟩
  have ticks := clockTicks_eq source.arrivalUs
  have arrival := paired.arrival
  rw [clockTicks, tickUs_eq] at ticks
  rw [tickUs_eq] at arrival
  rw [timeWrapUs_eq]
  omega

/-- Where no arrival is left out, each has its result. -/
theorem Delivery.Exact.all {delivery : Delivery} {offset : Int} (exactly : delivery.Exact offset)
    (full : delivery.sources.length = delivery.results.length)
    : List.Forall₂
      (fun source result =>
        (result.recvTimeUs.toNat : Int) = 250 * (source.arrivalUs.toNat / 250 : Nat) + offset
        ∧ lastSend delivery.sends source.number = some (result.sentTimeUs, result.size))
      delivery.sources delivery.results := by
  obtain ⟨chosen, sub, paired⟩ := exactly
  rwa [← sub.eq_of_length (paired.length_eq.trans full.symm)]

namespace Link

def Known (link : Link) : Prop :=
  ∀ entry ∈ link.generator.arrivals.entries,
    link.numbers entry.1 % 65536 = entry.1 % 65536
    ∧ ⟨link.numbers entry.1, entry.2⟩ ∈ link.arrived

variable {link : Link}

theorem Known.arrive (known : link.Known) (medkit : Medkit) (ssrc : DWORD) (number : Nat)
    (nowUs : QWORD)
    : (link.step medkit (.arrive ssrc number nowUs)).Known := by
  intro entry member
  simp only [step] at member ⊢
  rcases onPacketReceived_entries member with old | ⟨rfl, absent⟩
  · have present : ¬ (link.generator.arrivals.find? entry.1).isNone = true := by
      rw [find?_eq_some_iff.mpr (show (entry.1, entry.2) ∈ _ from old)]
      exact Bool.false_ne_true
    obtain ⟨residue, logged⟩ := known entry old
    split
    · rename_i both
      exact absurd (both.1 ▸ both.2) present
    · exact ⟨residue, mem_cons_of_mem _ logged⟩
  · rw [if_pos ⟨rfl, absent⟩]
    refine ⟨?_, mem_cons_self⟩
    rw [unwrapSeq16_residue, UInt16.toNat_ofNat']

theorem Known.reported (known : link.Known) {next : TransportWideFeedbackGenerator}
    {entry : Nat × QWORD} (member : entry ∈ link.generator.reported next)
    : link.numbers entry.1 % 65536 = entry.1 % 65536
      ∧ ⟨link.numbers entry.1, entry.2⟩ ∈ link.arrived :=
  known entry (mem_lowerBound.mp (mem_filter.mp member).1).1

/-- What the generator reports is what the link says it tells of. -/
theorem Known.tells (known : link.Known) {next : TransportWideFeedbackGenerator}
    {report : TransportWideFeedbackField} {nowUs : QWORD}
    (built : link.generator.buildFeedback {} nowUs = (next, report, true))
    : Tells report (link.sourcesOf next) := by
  obtain ⟨reports, base, arrivalUs, taken, entries, same⟩ :=
    reports_of_built built
  have wellFormed := buildFeedback_wellFormed built
  have small := referenceOf_lt arrivalUs
  have reference : report.referenceTicks.toNat = referenceOf arrivalUs := by
    rw [same, (extendAll_header _ _ _).2.1]
    change (UInt32.ofNat (referenceOf arrivalUs)).toNat = _
    rw [UInt32.toNat_ofNat']
    omega
  refine ⟨wellFormed, ?_, ?_, ?_, ?_⟩
  · have nonempty := reports.truthful.nonempty
    change _ < _ + report.packets.length at nonempty
    omega
  · exact Nat.le_trans reports.truthful.few (by decide)
  · have packets : report.packets
        = statuses base (referenceOf arrivalUs * 256) ((base, arrivalUs) :: taken) := by
      rw [same, extendAll_packets,
        show referenceOf arrivalUs * 256 = referenceOf arrivalUs <<< 8 from
          (Nat.shiftLeft_eq (referenceOf arrivalUs) 8).symm]
      rfl
    rw [reference, packets, received_statuses, sourcesOf, entries, ← entries, map_map]
    refine map_congr_left (fun entry member => ?_)
    exact Prod.ext (ofNat_congr (known.reported member).1.symm) rfl
  · rw [sourcesOf, entries]
    exact ⟨_, _, rfl, reference⟩

/-! One report at the sender. -/

/-- The sender's clock is some whole cycles behind, those before its first report. -/
inductive Clock (link : Link) : Prop
  | fresh (none : link.deliveries = []) (flag : link.history.hasLastRecvTicks = false)
  | running (last : QWORD) (cycle : Nat) (arrival : link.lastArrival = some last)
      (first : link.firstCycle = some cycle) (flag : link.history.hasLastRecvTicks = true)
      (behind : link.history.lastRecvTicks.toNat + cycle * 2 ^ 32 = clockTicks last)

theorem Clock.frame {link next : Link} (clock : link.Clock)
    (deliveries : next.deliveries = link.deliveries)
    (flag : next.history.hasLastRecvTicks = link.history.hasLastRecvTicks)
    (ticks : next.history.lastRecvTicks = link.history.lastRecvTicks)
    : next.Clock := by
  cases clock with
  | fresh none unset => exact .fresh (deliveries.trans none) (flag.trans unset)
  | running last cycle arrival first known behind =>
    refine .running last cycle ?_ ?_ (flag.trans known) ?_
    · rwa [lastArrival, deliveries]
    · rwa [firstCycle, deliveries]
    · rwa [ticks]

/-- The cycle from which the sender counts, once it processes a report. -/
def startCycle (link : Link) (base : Source) : Nat :=
  link.firstCycle.getD (clockCycle base.arrivalUs)

/-- The sender finds the reference time of the report. -/
theorem Clock.baseTicks (clock : link.Clock) {base : Source} {referenceTicks : DWORD}
    (reference : referenceTicks.toNat = referenceOf base.arrivalUs)
    (near
      : ∀ last ∈ link.lastArrival,
        referenceTime base.arrivalUs < clockTicks last + 2 ^ 31
        ∧ clockTicks last < referenceTime base.arrivalUs + 2 ^ 31)
    (after : ∀ cycle ∈ link.firstCycle, cycle ≤ clockCycle base.arrivalUs)
    : link.startCycle base ≤ clockCycle base.arrivalUs
      ∧ (link.history.baseTicks referenceTicks).toNat
        = referenceTicks.toNat * 256
          + (clockCycle base.arrivalUs - link.startCycle base) * 2 ^ 32 := by
  have small := referenceOf_lt base.arrivalUs
  rw [← reference] at small
  have time := referenceTime_eq base.arrivalUs
  rw [← reference] at time
  cases clock with
  | fresh none flag =>
    have start : link.startCycle base = clockCycle base.arrivalUs := by
      rw [startCycle, firstCycle, none]
      rfl
    rw [start, baseTicks_first flag small]
    omega
  | running last cycle arrival first flag behind =>
    have start : link.startCycle base = cycle := by
      rw [startCycle, first]
      rfl
    have reached := after cycle first
    obtain ⟨above, below⟩ := near last arrival
    have bound : clockTicks last < 2 ^ 63 := by
      have := last.toNat_lt
      rw [clockTicks, tickUs_eq]
      omega
    rw [start]
    refine ⟨reached, baseTicks_next flag small ?_ ?_ ?_ ?_⟩ <;> omega

/-- What holds in every run. -/
structure Invariant (medkit : Medkit) (link : Link) : Prop where
  known : link.Known
  flights
    : ∀ flight ∈ link.flights,
      (∃ field, Tells field flight.sources ∧ flight.wire = field.serialize medkit field.getSize)
      ∧ ∀ source ∈ flight.sources, source ∈ link.arrived
  tracks : Tracks link.history link.sends
  clock : link.Clock
  exactly
    : ∀ delivery ∈ link.deliveries,
      delivery.Exact (-(link.firstCycle.getD 0 * timeWrapUs : Nat))
      ∧ ∀ source ∈ delivery.sources, source ∈ link.arrived

variable {medkit : Medkit}

theorem step_deliver {flight : Flight} {later : List Flight}
    (flights : link.flights = flight :: later) {feedback : TransportWideFeedbackField} {size : Nat}
    (parsed : ({} : TransportWideFeedbackField).parse medkit flight.wire = (feedback, size))
    (accepted : size ≠ 0)
    : link.step medkit .deliver
      = { link with
          flights := later
          history := (link.history.processFeedback feedback).1
          deliveries :=
            ⟨flight.sources, link.sends, (link.history.processFeedback feedback).2.1⟩
              :: link.deliveries } := by
  simp only [step, flights, parsed]
  rw [if_neg accepted]

theorem onPacketSent_clock (history : SentPacketHistory) (seq : WORD) (nowUs : QWORD) (size : DWORD)
    : (history.onPacketSent seq nowUs size).hasLastRecvTicks = history.hasLastRecvTicks
      ∧ (history.onPacketSent seq nowUs size).lastRecvTicks = history.lastRecvTicks := by
  simp only [onPacketSent]
  split <;> exact ⟨rfl, rfl⟩

/-- The first report sets the cycle from which the sender counts. -/
theorem Clock.firstCycle {link next : Link} (clock : link.Clock) {delivery : Delivery}
    (pushed : next.deliveries = delivery :: link.deliveries) {first : Source}
    {rest : List Source} (sources : delivery.sources = first :: rest)
    : next.firstCycle = some (link.startCycle first) := by
  cases clock with
  | fresh none _ =>
    rw [startCycle, Link.firstCycle, Link.firstCycle, pushed, none]
    simp [sources]
  | running last cycle _ started _ _ =>
    rw [startCycle, started, Option.getD_some, ← started, Link.firstCycle, Link.firstCycle,
      pushed]
    cases earlier : link.deliveries with
    | nil =>
      rw [Link.firstCycle, earlier] at started
      cases started
    | cons second others => rw [getLast?_cons_cons]

theorem Clock.startCycle (clock : link.Clock) {delivery : Delivery}
    (member : delivery ∈ link.deliveries) (base : Source)
    : link.firstCycle.getD 0 = link.startCycle base := by
  cases clock with
  | fresh none _ =>
    rw [none] at member
    cases member
  | running last cycle _ started _ _ =>
    rw [Link.startCycle, started]
    rfl

/-- What processing a report does: the clock goes on from the last arrival it tells of, and the
results are exact up to the cycles before the first report.
-/
structure Processed (link : Link) (sources : List Source) (feedback : TransportWideFeedbackField)
    (first : Source) : Prop where
  tracks : Tracks (link.history.processFeedback feedback).1 link.sends
  flag : (link.history.processFeedback feedback).1.hasLastRecvTicks = true
  behind
    : ∀ last ∈ sources.getLast?,
      (link.history.processFeedback feedback).1.lastRecvTicks.toNat
        + link.startCycle first * 2 ^ 32
      = clockTicks last.arrivalUs
  exactly
    : Delivery.Exact ⟨sources, link.sends, (link.history.processFeedback feedback).2.1⟩
      (-(link.startCycle first * timeWrapUs : Nat))

section Steps

variable (invariant : link.Invariant medkit)

include invariant

theorem Invariant.processed {sources : List Source} {field feedback : TransportWideFeedbackField}
    (tells : Tells field sources)
    (timed : feedback.hasTimestamps = true)
    (same : feedback.packets = field.packets ∧ feedback.referenceTicks = field.referenceTicks)
    {first : Source} {rest : List Source} (shape : sources = first :: rest)
    (near : ∀ source ∈ sources, link.sends ≠ [] → Near source.number (highest link.sends))
    (cycles : ∀ source ∈ sources, clockCycle source.arrivalUs = clockCycle first.arrivalUs)
    (reached : link.startCycle first ≤ clockCycle first.arrivalUs)
    (ticks
      : (link.history.baseTicks field.referenceTicks).toNat
        = field.referenceTicks.toNat * 256
          + (clockCycle first.arrivalUs - link.startCycle first) * 2 ^ 32)
    : link.Processed sources feedback first := by
  have room : ∀ source ∈ sources, (ticksOf source.arrivalUs
      + (clockCycle first.arrivalUs - link.startCycle first) * 2 ^ 32) * tickUs < 2 ^ 64 := by
    intro source member
    rw [← cycles source member]
    exact ticks_room _ _
  have nonempty : sources ≠ [] := by
    rw [shape]
    exact cons_ne_nil _ _
  have told := tells.told
  rw [← same.1] at told
  rw [← same.2] at told ticks
  obtain ⟨tracks, flag, lastTicks, chosen, sub, paired⟩ :=
    @Tracks.processFeedback link.history link.sends invariant.tracks _ _ sources near room feedback
      timed nonempty told (by rw [ticks]; omega)
  refine ⟨tracks, flag, ?_, chosen, sub, ?_⟩
  · rw [getLast?_eq_some_getLast nonempty]
    intro last here
    obtain rfl := Option.some.inj here
    have cycle := cycles _ (getLast_mem nonempty)
    have clock := clockTicks_eq (sources.getLast nonempty).arrivalUs
    rw [lastTicks, clock, cycle]
    omega
  · refine ((forall₂_and_left _ _).mpr
      ⟨fun source member => cycles source (sub.subset member), paired⟩).imp ?_
    rintro source result ⟨cycle, pair⟩
    rw [← cycle] at pair reached
    exact pair.exact reached

theorem Invariant.deliver (network : medkit.NetworkOrder) (admits : link.Admits .deliver)
    (unambiguous : link.Unambiguous .deliver)
    : (link.step medkit .deliver).Invariant medkit := by
  cases flights : link.flights with
  | nil =>
    rw [step, flights]
    exact invariant
  | cons flight later =>
    have head : flight ∈ link.flights.head? := by rw [flights]; rfl
    obtain ⟨near, base⟩ := admits flight head
    obtain ⟨steady, strict⟩ := unambiguous flight head
    obtain ⟨⟨field, tells, wire⟩, arrived⟩ :=
      invariant.flights flight (by rw [flights]; exact mem_cons_self)
    obtain ⟨first, rest, sources, reference⟩ := tells.base
    have headSource : first ∈ flight.sources.head? := by rw [sources]; rfl
    obtain ⟨reached, ticks⟩ :=
      invariant.clock.baseTicks reference (strict first headSource) (base first headSource).2
    have cycles : ∀ source ∈ flight.sources,
        clockCycle source.arrivalUs = clockCycle first.arrivalUs := by
      have deltas := received_chain tells.wellFormed.consecutive
        (field.referenceTicks.toNat * 256 : Nat)
      rw [tells.told, map_map, sources] at deltas
      rw [sources] at steady ⊢
      exact sameCycle_of_deltas (isChain_cons_cons.mp deltas).2 steady
    -- what arrives is the report as it was built
    obtain ⟨feedback, size, parsed, accepted, timed, same⟩ := tells.parse network
    rw [← wire] at parsed
    have processed := invariant.processed tells timed same sources near cycles reached ticks
    -- from here on the sender counts from the cycle of its first report
    have result := step_deliver flights parsed accepted
    have counted := @Clock.firstCycle link (link.step medkit .deliver) invariant.clock
      ⟨flight.sources, link.sends, _⟩ (by rw [result]) first rest sources
    rw [result] at counted ⊢
    exact { invariant with
      flights := by
        intro other member
        exact invariant.flights other (by rw [flights]; exact mem_cons_of_mem _ member)
      tracks := processed.tracks
      clock := by
        have last : flight.sources.getLast? = some _ :=
          getLast?_eq_some_getLast (by rw [sources]; exact cons_ne_nil _ _)
        refine .running _ (link.startCycle first) ?_ counted processed.flag
          (processed.behind _ last)
        exact congrArg (Option.map Source.arrivalUs) last
      exactly := by
        refine forall_mem_cons.mpr ⟨⟨?_, arrived⟩, ?_⟩
        · rw [counted]
          exact processed.exactly
        · intro delivery member
          rw [counted, Option.getD_some, ← invariant.clock.startCycle member first]
          exact invariant.exactly delivery member }

theorem Invariant.send {number : Nat} (continues : Continues link.sends number) (nowUs : QWORD)
    (size : DWORD)
    : (link.step medkit (.send number nowUs size)).Invariant medkit := by
  obtain ⟨flag, ticks⟩ := onPacketSent_clock link.history (.ofNat number) nowUs size
  exact { invariant with
    tracks := invariant.tracks.onPacketSent continues nowUs size
    clock := invariant.clock.frame rfl flag ticks }

theorem Invariant.arrive (ssrc : DWORD) (number : Nat) (nowUs : QWORD)
    : (link.step medkit (.arrive ssrc number nowUs)).Invariant medkit where
  known := invariant.known.arrive medkit ssrc number nowUs
  flights := by
    intro flight member
    obtain ⟨told, arrived⟩ := invariant.flights flight member
    exact ⟨told, fun source mention => mem_cons_of_mem _ (arrived source mention)⟩
  tracks := invariant.tracks
  clock := invariant.clock.frame rfl rfl rfl
  exactly := by
    intro delivery member
    obtain ⟨exactly, arrived⟩ := invariant.exactly delivery member
    exact ⟨exactly, fun source mention => mem_cons_of_mem _ (arrived source mention)⟩

theorem Invariant.report (nowUs : QWORD)
    : (link.step medkit (.report nowUs)).Invariant medkit := by
  have kept := (link.generator.buildFeedback_keeps {} nowUs).1
  rw [step]
  split
  · rename_i generator field nothing
    rw [nothing] at kept
    exact { invariant with
      known := fun entry member => invariant.known entry (kept ▸ member)
      clock := invariant.clock.frame rfl rfl rfl }
  · rename_i generator field built
    rw [built] at kept
    exact { invariant with
      known := fun entry member => invariant.known entry (kept ▸ member)
      flights := by
        intro flight member
        rcases mem_append.mp member with earlier | new
        · exact invariant.flights flight earlier
        · rw [mem_singleton.mp new]
          exact ⟨⟨field, invariant.known.tells built, rfl⟩,
            forall_mem_map.mpr fun _ reported => (invariant.known.reported reported).2⟩
      clock := invariant.clock.frame rfl rfl rfl }

theorem Invariant.lose : (link.step medkit .lose).Invariant medkit :=
  { invariant with
    flights := fun flight member => invariant.flights flight (mem_of_mem_tail member)
    clock := invariant.clock.frame rfl rfl rfl }

theorem Invariant.step (network : medkit.NetworkOrder) {event : LinkEvent}
    (admits : link.Admits event) (unambiguous : link.Unambiguous event)
    : (link.step medkit event).Invariant medkit := by
  cases event with
  | send number nowUs size => exact invariant.send admits nowUs size
  | arrive ssrc number nowUs => exact invariant.arrive ssrc number nowUs
  | report nowUs => exact invariant.report nowUs
  | deliver => exact invariant.deliver network admits unambiguous
  | lose => exact invariant.lose

end Steps

theorem Invariant.initial (medkit : Medkit) : ({} : Link).Invariant medkit where
  known := fun _ member => nomatch member
  flights := fun _ member => nomatch member
  tracks := ⟨rfl, rfl, fun _ _ found => nomatch found⟩
  clock := .fresh rfl rfl
  exactly := fun _ member => nomatch member

/-- Arrival times survive the truncation to 24 bits, the deltas and both unwrappings: up to
the whole clock cycles before the first report, the sender sees what the receiver saw, and
for the packet that it sent.
-/
theorem arrival_times_exact {medkit : Medkit} (network : medkit.NetworkOrder)
    {events : List LinkEvent}
    (admitted
      : EachStep (step medkit) (fun link event => link.Admits event ∧ link.Unambiguous event)
        {} events)
    : ∃ offset : Int, (timeWrapUs : Int) ∣ offset
      ∧ ∀ delivery ∈ (run (step medkit) {} events).deliveries,
        delivery.Exact offset
        ∧ ∀ source ∈ delivery.sources, source ∈ (run (step medkit) {} events).arrived := by
  have invariant : (run (step medkit) {} events).Invariant medkit :=
    run_invariant_of_eachStep
      (fun _ _ holds permitted => holds.step network permitted.1 permitted.2)
      (Invariant.initial medkit) admitted
  refine ⟨_, ?_, invariant.exactly⟩
  exact Int.dvd_neg.mpr (Int.natCast_dvd_natCast.mpr (Nat.dvd_mul_left _ _))

/-- Numbers and clock wrap between two reports. -/
theorem arrival_times_exact_wrapped
    : let link := run (step Medkit.bigEndian) {}
        [.send 65535 0 1200, .send 65536 10000 1200,
          .arrive 1 65535 1073741823000, .report 1073741823000, .deliver,
          .arrive 1 65536 1073741843100, .report 1073741843100, .deliver]
      link.deliveries.map Delivery.results
        = [[⟨10000, 1073741843000, 1200⟩], [⟨0, 1073741823000, 1200⟩]]
      ∧ ∃ offset : Int, (timeWrapUs : Int) ∣ offset
        ∧ ∀ delivery ∈ link.deliveries,
          delivery.Exact offset ∧ ∀ source ∈ delivery.sources, source ∈ link.arrived :=
  ⟨by decide +kernel,
    arrival_times_exact bigEndian_networkOrder (by decide +kernel)⟩

/-- Two packets of one report that arrive one clock cycle apart get the same time, and a
report exactly half a cycle after the last arrival is taken for one half a cycle before it.
-/
theorem arrival_cycle_ambiguous
    : let oneReport : List LinkEvent :=
        [.send 4 0 100, .send 5 0 100, .arrive 1 5 0, .arrive 1 4 1073741824000,
          .report 1073741824000, .deliver]
      let twoReports : List LinkEvent :=
        [.send 0 0 100, .send 1 0 100,
          .arrive 1 0 536870912000, .report 536870912000, .deliver,
          .arrive 1 1 1073741824000, .report 1073741824000, .deliver]
      ∀ events ∈ [oneReport, twoReports],
        EachStep (step bigEndian) Admits {} events
        ∧ ¬ ∃ offset : Int,
          ∀ delivery ∈ (run (step bigEndian) {} events).deliveries, delivery.Exact offset := by
  intro oneReport twoReports
  refine forall_mem_cons.mpr ⟨⟨by decide +kernel, ?_⟩,
    forall_mem_singleton.mpr ⟨by decide +kernel, ?_⟩⟩
  · rintro ⟨offset, exactly⟩
    have deliveries : (run (step bigEndian) {} oneReport).deliveries
        = [⟨[⟨4, 1073741824000⟩, ⟨5, 0⟩], [⟨5, 0, 100⟩, ⟨4, 0, 100⟩],
            [⟨0, 0, 100⟩, ⟨0, 0, 100⟩]⟩] := by decide +kernel
    rw [deliveries] at exactly
    have both := (exactly _ mem_cons_self).all rfl
    obtain ⟨⟨first, _⟩, later⟩ := forall₂_cons.mp both
    obtain ⟨⟨second, _⟩, _⟩ := forall₂_cons.mp later
    rw [show (1073741824000 : QWORD).toNat = 1073741824000 from rfl] at first
    rw [show (0 : QWORD).toNat = 0 from rfl] at first second
    omega
  · rintro ⟨offset, exactly⟩
    have deliveries : (run (step bigEndian) {} twoReports).deliveries
        = [⟨[⟨1, 1073741824000⟩], [⟨1, 0, 100⟩, ⟨0, 0, 100⟩], [⟨0, 0, 100⟩]⟩,
          ⟨[⟨0, 536870912000⟩], [⟨1, 0, 100⟩, ⟨0, 0, 100⟩], [⟨0, 536870912000, 100⟩]⟩] := by
      decide +kernel
    rw [deliveries] at exactly
    obtain ⟨newer, older⟩ := forall_mem_cons.mp exactly
    obtain ⟨⟨second, _⟩, _⟩ := forall₂_cons.mp (newer.all rfl)
    obtain ⟨⟨first, _⟩, _⟩ := forall₂_cons.mp ((older _ mem_cons_self).all rfl)
    rw [show (536870912000 : QWORD).toNat = 536870912000 from rfl] at first
    rw [show (1073741824000 : QWORD).toNat = 1073741824000 from rfl,
      show (0 : QWORD).toNat = 0 from rfl] at second
    omega

end Link

end MediaServer.TransportFeedback
