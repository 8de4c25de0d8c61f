import MediaServer.TransportFeedback.Drain
import MediaServer.TransportFeedback.Pairing
import MediaServer.TransportFeedback.RoundTrip

/-! A sender and a receiver together: packets with their true numbers, reports on their way
back, and what the sender concludes. Next to the state of the code the link records which
packet each arrival belongs to.
-/

namespace MediaServer.TransportFeedback

open Foundation TransportWideFeedbackGenerator
open TransportWideFeedbackField (ticksOf referenceOf missing)

variable (arrivalUs : QWORD)

def clockTicks : Nat := arrivalUs.toNat / tickUs

def clockCycle : Nat := arrivalUs.toNat / timeWrapUs

def referenceTime : Nat := arrivalUs.toNat / baseTickUs * 256

theorem clockTicks_eq
    : clockTicks arrivalUs = ticksOf arrivalUs + clockCycle arrivalUs * 2 ^ 32 := by
  rw [clockTicks, ticksOf, clockCycle, timeWrapUs_eq, tickUs_eq]
  omega

theorem referenceTime_eq
    : referenceTime arrivalUs = referenceOf arrivalUs * 256 + clockCycle arrivalUs * 2 ^ 32 := by
  rw [referenceTime, referenceOf, clockCycle, timeWrapUs_eq, baseTickUs_eq]
  omega

/-! The link. -/

/-- A report on its way, with the arrivals it tells of. -/
structure Flight where
  wire : List BYTE
  sources : List Source

/-- A report that was processed: the arrivals it tells of, the packets sent by then, and the
results.
-/
structure Delivery where
  sources : List Source
  sends : List Sending
  results : List Result
  deriving DecidableEq

/-- `numbers` gives the true number of the packet behind each entry of the table of arrivals;
sendings, arrivals and deliveries are listed newest first.
-/
structure Link where
  history : SentPacketHistory := {}
  generator : TransportWideFeedbackGenerator := {}
  flights : List Flight := []
  sends : List Sending := []
  arrived : List Source := []
  numbers : Nat → Nat := id
  deliveries : List Delivery := []

inductive LinkEvent
  | send (number : Nat) (nowUs : QWORD) (size : DWORD)
  | arrive (ssrc : DWORD) (number : Nat) (nowUs : QWORD)
  | report (nowUs : QWORD)
  | deliver
  | lose

namespace Link

def sourcesOf (link : Link) (next : TransportWideFeedbackGenerator) : List Source :=
  (link.generator.reported next).map (fun entry => ⟨link.numbers entry.1, entry.2⟩)

def step (medkit : Medkit) (link : Link) : LinkEvent → Link
  | .send number nowUs size =>
    { link with
      history := link.history.onPacketSent (.ofNat number) nowUs size
      sends := ⟨number, nowUs, size⟩ :: link.sends }
  | .arrive ssrc number nowUs =>
    let key := unwrapSeq16 (.ofNat number) link.generator.lastSeq link.generator.hasLastSeq
    { link with
      generator := link.generator.onPacketReceived ssrc (.ofNat number) nowUs
      arrived := ⟨number, nowUs⟩ :: link.arrived
      numbers := fun other =>
        if other = key ∧ (link.generator.arrivals.find? key).isNone then number
        else link.numbers other }
  | .report nowUs =>
    match link.generator.buildFeedback {} nowUs with
    | (generator, _, false) => { link with generator }
    | (generator, field, true) =>
      let wire := field.serialize medkit field.getSize
      { link with generator, flights := link.flights ++ [⟨wire, link.sourcesOf generator⟩] }
  | .deliver =>
    match link.flights with
    | [] => link
    | flight :: flights =>
      let (feedback, size) := ({} : TransportWideFeedbackField).parse medkit flight.wire
      if size = 0 then { link with flights }
      else
        let (history, results, _, _) := link.history.processFeedback feedback
        { link with
          flights, history
          deliveries := ⟨flight.sources, link.sends, results⟩ :: link.deliveries }
  | .lose => { link with flights := link.flights.tail }

def lastArrival (link : Link) : Option QWORD :=
  link.deliveries.head?.bind (fun delivery => delivery.sources.getLast?.map Source.arrivalUs)

def firstCycle (link : Link) : Option Nat :=
  link.deliveries.getLast?.bind (fun delivery =>
    delivery.sources.head?.map (fun source => clockCycle source.arrivalUs))

-- Times are finitely many: without this instance they would be tried one by one.
instance (priority := high) (last : Option QWORD) (holds : QWORD → Prop) [DecidablePred holds]
    : Decidable (∀ arrivalUs ∈ last, holds arrivalUs) :=
  Option.decidableForallMem last

/-- Numbers stay near the last one sent, and the time of a report near the last arrival and
not before the first clock cycle.
-/
def Admits (link : Link) : LinkEvent → Prop
  | .send number _ _ => Continues link.sends number
  | .deliver =>
    ∀ flight ∈ link.flights.head?,
      (∀ source ∈ flight.sources, link.sends ≠ [] → Near source.number (highest link.sends))
      ∧ ∀ base ∈ flight.sources.head?,
        (∀ last ∈ link.lastArrival,
          referenceTime base.arrivalUs ≤ clockTicks last + 2 ^ 31
          ∧ clockTicks last ≤ referenceTime base.arrivalUs + 2 ^ 31)
        ∧ ∀ cycle ∈ link.firstCycle, cycle ≤ clockCycle base.arrivalUs
  | _ => True

instance (link : Link) (event : LinkEvent) : Decidable (link.Admits event) := by
  cases event <;> dsimp only [Admits] <;> infer_instance

/-- Times less than half a clock cycle apart from report to report, and less than a clock
cycle in a report.
-/
def Unambiguous (link : Link) : LinkEvent → Prop
  | .deliver =>
    ∀ flight ∈ link.flights.head?,
      flight.sources.IsChain (fun earlier later =>
        clockTicks earlier.arrivalUs < clockTicks later.arrivalUs + (2 ^ 32 - 32768)
        ∧ clockTicks later.arrivalUs < clockTicks earlier.arrivalUs + (2 ^ 32 - 32768))
      ∧ ∀ base ∈ flight.sources.head?, ∀ last ∈ link.lastArrival,
        referenceTime base.arrivalUs < clockTicks last + 2 ^ 31
        ∧ clockTicks last < referenceTime base.arrivalUs + 2 ^ 31
  | _ => True

instance (link : Link) (event : LinkEvent) : Decidable (link.Unambiguous event) := by
  cases event <;> dsimp only [Unambiguous] <;> infer_instance

end Link

/-- Results for some of the arrivals, in order: each has the time of the arrival up to a fixed
offset, with the time and the size of the last packet sent under that number.
-/
def Delivery.Exact (delivery : Delivery) (offset : Int) : Prop :=
  ∃ chosen, chosen.Sublist delivery.sources
    ∧ List.Forall₂
      (fun source result =>
        (result.recvTimeUs.toNat : Int) = 250 * (source.arrivalUs.toNat / 250 : Nat) + offset
        ∧ lastSend delivery.sends source.number = some (result.sentTimeUs, result.size))
      chosen delivery.results

theorem received_lost {ticks : Int} {lost rest : List PacketStatus}
    (none : ∀ status ∈ lost, status.received = false)
    : received ticks (lost ++ rest) = received ticks rest := by
  induction lost with
  | nil => rfl
  | cons status lost ih =>
    obtain ⟨first, later⟩ := List.forall_mem_cons.mp none
    rw [List.cons_append, received, if_neg (by rw [first]; decide), ih later]

/-- The statuses of a report tell the arrivals they were made from. -/
theorem received_statuses (next lastTicks : Nat) (entries : List (Nat × QWORD))
    : received lastTicks (statuses next lastTicks entries)
      = entries.map (fun entry => (.ofNat entry.1, (ticksOf entry.2 : Int))) := by
  induction entries generalizing next lastTicks with
  | nil => rfl
  | cons entry rest ih =>
    have none : ∀ status ∈ missing (.ofNat next) (entry.1 - next), status.received = false := by
      intro status member
      obtain ⟨i, _, rfl⟩ := List.mem_map.mp member
      rfl
    rw [statuses, received_lost none, received, if_pos rfl]
    simp only [add_sub_cancel, ih, List.map_cons]

/-- Successive sums differ by no more than a delta can tell. -/
theorem received_chain {seq : WORD} {packets : List PacketStatus}
    (consecutive : TransportWideFeedbackField.Consecutive seq packets) (ticks : Int)
    : (ticks :: (received ticks packets).map Prod.snd).IsChain
        (fun earlier later => -32768 ≤ later - earlier ∧ later - earlier ≤ 32767) := by
  induction packets generalizing seq ticks with
  | nil => exact .singleton _
  | cons status rest ih =>
    obtain ⟨_, encodable, later⟩ := consecutive
    rw [received]
    split
    · rw [List.map_cons]
      refine List.isChain_cons_cons.mpr ⟨?_, ih later _⟩
      have fits := encodable.fits
      omega
    · exact ih later ticks

structure Tells (field : TransportWideFeedbackField) (sources : List Source) : Prop where
  wellFormed : field.WellFormed
  nonempty : 1 ≤ field.packets.length
  count : field.packets.length ≤ 65535
  told
    : received (field.referenceTicks.toNat * 256 : Nat) field.packets
      = sources.map (fun source => (.ofNat source.number, (ticksOf source.arrivalUs : Int)))
  base
    : ∃ first rest, sources = first :: rest
      ∧ field.referenceTicks.toNat = referenceOf first.arrivalUs

end MediaServer.TransportFeedback
