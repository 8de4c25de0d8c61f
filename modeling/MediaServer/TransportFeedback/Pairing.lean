import MediaServer.TransportFeedback.SentHistory

/-! What the sender makes of a report, next to the packets it sent under their true numbers,
which never wrap.
-/

namespace MediaServer.TransportFeedback

open Foundation SentPacketHistory List
open TransportWideFeedbackField (ticksOf)

structure Sending where
  number : Nat
  sentTimeUs : QWORD
  size : DWORD
  deriving DecidableEq

/-- The highest number sent. Sendings are listed newest first. -/
def highest : List Sending → Nat
  | [] => 0
  | sending :: earlier => max sending.number (highest earlier)

/-- The start of the 16-bit cycle of the first number sent. -/
def origin (sends : List Sending) : Nat :=
  match sends.getLast? with
  | none => 0
  | some first => first.number / 65536 * 65536

def lastSend (sends : List Sending) (number : Nat) : Option (QWORD × DWORD) :=
  (sends.find? (fun sending => sending.number = number)).map
    (fun sending => (sending.sentTimeUs, sending.size))

/-- Two numbers close enough to be told apart by 16 bits. -/
def Near (number last : Nat) : Prop := number ≤ last + 32767 ∧ last ≤ number + 32767

instance (number last : Nat) : Decidable (Near number last) :=
  inferInstanceAs (Decidable (_ ∧ _))

def Continues (sends : List Sending) (number : Nat) : Prop :=
  sends = [] ∨ Near number (highest sends) ∧ origin sends ≤ number

instance (sends : List Sending) (number : Nat) : Decidable (Continues sends number) :=
  inferInstanceAs (Decidable (_ ∨ _ ∧ _))

theorem origin_mod (sends : List Sending) : origin sends % 65536 = 0 := by
  rw [origin]
  split
  · rfl
  · omega

theorem origin_cons (sending : Sending) {sends : List Sending} (some : sends ≠ [])
    : origin (sending :: sends) = origin sends := by
  obtain ⟨second, rest, rfl⟩ := exists_cons_of_ne_nil some
  rfl

structure Tracks (history : SentPacketHistory) (sends : List Sending) : Prop where
  started : history.hasLastSeq = !sends.isEmpty
  position : history.lastSeq + origin sends = highest sends
  entries
    : ∀ key sent, history.history.find? key = some sent
      → key ≤ history.lastSeq
        ∧ lastSend sends (key + origin sends) = some (sent.sentTimeUs, sent.size)

theorem ofNat_congr {left right : Nat} (same : left % 65536 = right % 65536)
    : (.ofNat left : WORD) = .ofNat right := by
  apply UInt16.toNat_inj.mp
  rw [UInt16.toNat_ofNat', UInt16.toNat_ofNat']
  exact same

theorem onPacketSent_lastSeq (history : SentPacketHistory) (seq : WORD) (nowUs : QWORD)
    (size : DWORD)
    : (history.onPacketSent seq nowUs size).lastSeq
      = if history.hasLastSeq = false ∨ history.unwrap seq > history.lastSeq then
          history.unwrap seq
        else history.lastSeq := by
  simp only [onPacketSent, Bool.not_eq_true']
  split <;> rfl

theorem onPacketSent_stored {history : SentPacketHistory} {seq : WORD} {nowUs : QWORD}
    {size : DWORD} {key : Nat} {sent : Sent}
    (found : (history.onPacketSent seq nowUs size).history.find? key = some sent)
    : if key = history.unwrap seq then sent = ⟨nowUs, size, false⟩
      else history.history.find? key = some sent := by
  have same : (if history.hasLastSeq = false ∨ history.unwrap seq > history.lastSeq then
      { history with lastSeq := history.unwrap seq, hasLastSeq := true }
      else history).history = history.history := by
    split <;> rfl
  simp only [onPacketSent, Bool.not_eq_true', same] at found
  have stored := OrderedMap.find?_of_dropFrontWhile found
  rw [OrderedMap.find?_insert] at stored
  split
  · rename_i newest
    rw [if_pos newest] at stored
    exact (Option.some.inj stored).symm
  · rename_i older
    rwa [if_neg older] at stored

namespace Tracks

variable {history : SentPacketHistory} {sends : List Sending}

section

variable (tracks : Tracks history sends)
include tracks

theorem known (started : sends ≠ []) : history.hasLastSeq = true := by
  rw [tracks.started, isEmpty_eq_false_iff.mpr started]
  rfl

/-- A number sent after the origin is unwrapped to its distance from the origin. -/
theorem unwrap (started : sends ≠ []) {number : Nat} (near : Near number (highest sends))
    (after : origin sends ≤ number)
    : history.unwrap (.ofNat number) + origin sends = number := by
  have position := tracks.position
  have multiple := origin_mod sends
  obtain ⟨above, below⟩ := near
  have same : (.ofNat number : WORD) = .ofNat (number - origin sends) :=
    ofNat_congr (by omega)
  rw [SentPacketHistory.unwrap, tracks.known started, same, unwrapSeq16_exact (by omega)]
  omega

/-- What is found under a reported number is what was sent last under it. -/
theorem found {number : Nat} (near : sends ≠ [] → Near number (highest sends)) {sent : Sent}
    (present : history.history.find? (history.unwrap (.ofNat number)) = some sent)
    : lastSend sends number = some (sent.sentTimeUs, sent.size) := by
  obtain ⟨within, last⟩ := tracks.entries _ sent present
  have started : sends ≠ [] := by
    rintro rfl
    exact nomatch last
  by_cases after : origin sends ≤ number
  · rwa [tracks.unwrap started (near started) after] at last
  · -- A number before the origin is taken for one ahead, where nothing was sent.
    have position := tracks.position
    have multiple := origin_mod sends
    obtain ⟨above, below⟩ := near started
    have same : (.ofNat number : WORD) = .ofNat (number + 65536 - origin sends) :=
      ofNat_congr (by omega)
    rw [SentPacketHistory.unwrap, tracks.known started, same,
      unwrapSeq16_exact (by omega)] at within
    omega

/-- The next packet sent. -/
theorem onPacketSent {number : Nat} (continues : Continues sends number) (nowUs : QWORD)
    (size : DWORD)
    : Tracks (history.onPacketSent (.ofNat number) nowUs size)
        (⟨number, nowUs, size⟩ :: sends) := by
  have key : history.unwrap (.ofNat number) + origin (⟨number, nowUs, size⟩ :: sends) = number := by
    by_cases started : sends = []
    · subst started
      have flag : history.hasLastSeq = false := tracks.started
      rw [SentPacketHistory.unwrap, flag]
      change (UInt16.ofNat number).toNat + number / 65536 * 65536 = number
      rw [UInt16.toNat_ofNat']
      omega
    · obtain ⟨near, after⟩ := continues.resolve_left started
      rw [origin_cons _ started]
      exact tracks.unwrap started near after
  have position := tracks.position
  have flag := tracks.started
  refine ⟨?_, ?_, ?_⟩
  · simp only [SentPacketHistory.onPacketSent]
    split
    · rfl
    · rename_i known
      simpa using fun unknown => known (.inl unknown)
  · rw [onPacketSent_lastSeq]
    change _ = max number (highest sends)
    by_cases started : sends = []
    · subst started
      have unknown : history.hasLastSeq = false := flag
      rw [if_pos (.inl unknown), key]
      exact (Nat.max_eq_left (Nat.zero_le _)).symm
    · rw [origin_cons _ started] at key ⊢
      simp only [tracks.known started, Bool.true_eq_false, false_or]
      split_ifs <;> omega
  · intro other sent found
    have stored := onPacketSent_stored found
    rw [onPacketSent_lastSeq]
    split at stored
    · rename_i newest
      subst newest stored
      refine ⟨by split <;> omega, ?_⟩
      rw [key, lastSend, find?_cons_of_pos (by simp)]
      rfl
    · rename_i older
      obtain ⟨within, last⟩ := tracks.entries other sent stored
      have started : sends ≠ [] := by
        rintro rfl
        exact nomatch last
      rw [origin_cons _ started] at key ⊢
      simp only [tracks.known started, Bool.true_eq_false, false_or]
      refine ⟨by split <;> omega, ?_⟩
      rw [lastSend, find?_cons_of_neg]
      · exact last
      · rw [decide_eq_true_iff]
        change ¬ number = other + origin sends
        omega

end

end Tracks

/-! Processing a report. -/

/-- An arrival that a report tells of, under the true number of the packet. -/
structure Source where
  number : Nat
  arrivalUs : QWORD
  deriving DecidableEq

/-- The numbers that statuses report as received, with the sum of the deltas up to each. -/
def received (ticks : Int) : List PacketStatus → List (WORD × Int)
  | [] => []
  | status :: rest =>
    if status.received then
      (status.seq, ticks + status.deltaTicks) :: received (ticks + status.deltaTicks) rest
    else received ticks rest

/-- The entries of a history are the same up to their acknowledgement. -/
def Keeps (before after : OrderedMap Nat Sent) : Prop :=
  ∀ key sent, after.find? key = some sent
    → ∃ old, before.find? key = some old ∧ old.sentTimeUs = sent.sentTimeUs ∧ old.size = sent.size

theorem Keeps.refl (history : OrderedMap Nat Sent) : Keeps history history :=
  fun _ sent found => ⟨sent, found, rfl, rfl⟩

theorem Keeps.acknowledge {before after : OrderedMap Nat Sent} (keeps : Keeps before after)
    {key : Nat} {sent : Sent} (present : after.find? key = some sent)
    : Keeps before (after.insert key { sent with acked := true }) := by
  intro other found here
  rw [OrderedMap.find?_insert] at here
  split at here
  · rename_i same
    obtain rfl := Option.some.inj here
    exact same ▸ keeps key sent present
  · exact keeps other found here

structure Paired (sends : List Sending) (shift : Nat) (source : Source) (result : Result)
    : Prop where
  arrival : result.recvTimeUs.toNat = (ticksOf source.arrivalUs + shift) * tickUs
  sending : lastSend sends source.number = some (result.sentTimeUs, result.size)

/-- One received status: at most one result, for the packet that is found. -/
theorem processStatus_received (owner : SentPacketHistory) {before : OrderedMap Nat Sent}
    {state : SentPacketHistory.Processing} (keeps : Keeps before state.history)
    {status : PacketStatus} (got : status.received = true)
    : let next := owner.processStatus true state status
      let arrivalTicks := state.arrivalTicks + .ofInt status.deltaTicks
      next.sawReceived = true ∧ next.arrivalTicks = arrivalTicks ∧ Keeps before next.history
      ∧ (next.results = state.results
        ∨ ∃ sent, state.history.find? (owner.unwrap status.seq) = some sent
          ∧ next.results = state.results
            ++ [⟨sent.sentTimeUs, arrivalTicks * .ofNat tickUs, sent.size⟩]) := by
  simp only [processStatus, got, Bool.not_true, Bool.false_eq_true, if_false, if_true]
  split
  · exact ⟨rfl, rfl, keeps, .inl rfl⟩
  · rename_i sent present
    split
    · exact ⟨rfl, rfl, keeps, .inl rfl⟩
    · exact ⟨rfl, rfl, keeps.acknowledge present, .inr ⟨sent, present, rfl⟩⟩

theorem toNat_add_ofInt {ticks : QWORD} {delta : Int} {target : Nat}
    (same : (ticks.toNat : Int) + delta = target) (small : target < 2 ^ 64)
    : (ticks + .ofInt delta).toNat = target := by
  rw [UInt64.toNat_add, UInt64.ofInt, UInt64.toNat_ofNat']
  omega

theorem Tracks.paired {owner : SentPacketHistory} {sends : List Sending}
    (tracks : Tracks owner sends) {source : Source}
    (near : sends ≠ [] → Near source.number (highest sends)) {history : OrderedMap Nat Sent}
    (keeps : Keeps owner.history history) {sent : Sent}
    (present : history.find? (owner.unwrap (.ofNat source.number)) = some sent)
    {ticks : QWORD} {shift : Nat} (arrival : ticks.toNat = ticksOf source.arrivalUs + shift)
    (room : (ticksOf source.arrivalUs + shift) * tickUs < 2 ^ 64)
    : Paired sends shift source ⟨sent.sentTimeUs, ticks * .ofNat tickUs, sent.size⟩ := by
  refine ⟨?_, ?_⟩
  · rw [UInt64.toNat_mul, arrival]
    exact Nat.mod_eq_of_lt room
  · obtain ⟨old, stored, time, size⟩ := keeps _ sent present
    rw [tracks.found near stored, time, size]

variable {owner : SentPacketHistory} {sends : List Sending} (tracks : Tracks owner sends)
  {shift : Nat} {ticks : Int} {sources : List Source}
  (near : ∀ source ∈ sources, sends ≠ [] → Near source.number (highest sends))
  (room : ∀ source ∈ sources, (ticksOf source.arrivalUs + shift) * tickUs < 2 ^ 64)
include tracks near room

/-- Processing statuses gives results for some of the arrivals they tell of, in their order,
by induction over the statuses.
-/
theorem Tracks.processStatuses {packets : List PacketStatus}
    (told
      : received ticks packets
        = sources.map (fun source => (.ofNat source.number, (ticksOf source.arrivalUs : Int))))
    {state : SentPacketHistory.Processing} (keeps : Keeps owner.history state.history)
    (current : (state.arrivalTicks.toNat : Int) = ticks + shift)
    : let final := packets.foldl (owner.processStatus true) state
      Keeps owner.history final.history
      ∧ final.sawReceived = (state.sawReceived || !sources.isEmpty)
      ∧ (final.arrivalTicks.toNat : Int)
        = (sources.map (fun source => (ticksOf source.arrivalUs : Int))).getLastD ticks + shift
      ∧ ∃ chosen results, chosen.Sublist sources
        ∧ List.Forall₂ (Paired sends shift) chosen results
        ∧ final.results = state.results ++ results := by
  induction packets generalizing ticks sources state with
  | nil =>
    obtain rfl : sources = [] := map_eq_nil_iff.mp told.symm
    refine ⟨keeps, ?_, current, [], [], .slnil, .nil, (append_nil _).symm⟩
    simp
  | cons status rest ih =>
    rw [foldl_cons]
    by_cases got : status.received = true
    · rw [received, if_pos got] at told
      match sources, told with
      | source :: later, told =>
        obtain ⟨same, toldLater⟩ := List.cons.inj told
        obtain ⟨seq, sum⟩ := Prod.mk.inj same
        have small := room source mem_cons_self
        rw [tickUs_eq] at small
        have arrival := @toNat_add_ofInt state.arrivalTicks status.deltaTicks
          (ticksOf source.arrivalUs + shift) (by omega) (by omega)
        obtain ⟨saw, ticksNow, keepsNext, outcome⟩ :=
          processStatus_received owner keeps got
        rw [sum] at toldLater
        obtain ⟨keepsFinal, sawFinal, ticksFinal, chosen, results, sub, paired, all⟩ :=
          ih (fun other member => near other (mem_cons_of_mem _ member))
            (fun other member => room other (mem_cons_of_mem _ member)) toldLater keepsNext
            (by rw [ticksNow, arrival]; omega)
        refine ⟨keepsFinal, ?_, ?_, ?_⟩
        · rw [sawFinal, saw]
          simp
        · rw [ticksFinal, map_cons, getLastD_cons]
        · rcases outcome with none | ⟨sent, present, pushed⟩
          · exact ⟨chosen, results, sub.cons _, paired, by rw [all, none]⟩
          · rw [seq] at present
            have first := tracks.paired (near source mem_cons_self) keeps present arrival
              (room source mem_cons_self)
            refine ⟨source :: chosen, _ :: results, sub.cons_cons _, .cons first paired, ?_⟩
            rw [all, pushed, append_assoc]
            rfl
    · have lost : owner.processStatus true state status
          = { state with lost := state.lost + 1 } := by
        rw [processStatus, (Bool.not_eq_true _).mp got]
        rfl
      rw [received, if_neg got] at told
      rw [lost]
      exact ih near room told keeps current

/-- What processing a whole report does. -/
theorem Tracks.processFeedback {feedback : TransportWideFeedbackField}
    (timed : feedback.hasTimestamps = true) (nonempty : sources ≠ [])
    (told
      : received ticks feedback.packets
        = sources.map (fun source => (.ofNat source.number, (ticksOf source.arrivalUs : Int))))
    (base : ((owner.baseTicks feedback.referenceTicks).toNat : Int) = ticks + shift)
    : let after := (owner.processFeedback feedback).1
      Tracks after sends ∧ after.hasLastRecvTicks = true
      ∧ after.lastRecvTicks.toNat = ticksOf (sources.getLast nonempty).arrivalUs + shift
      ∧ ∃ chosen, chosen.Sublist sources
        ∧ List.Forall₂ (Paired sends shift) chosen (owner.processFeedback feedback).2.1 := by
  obtain ⟨keeps, saw, arrival, chosen, results, sub, paired, all⟩ :=
    @Tracks.processStatuses owner sends tracks shift ticks sources near room feedback.packets told
      ⟨owner.history, owner.baseTicks feedback.referenceTicks, false, [], 0, 0⟩
      (Keeps.refl owner.history) base
  have seen : (feedback.packets.foldl (owner.processStatus true)
      { history := owner.history,
        arrivalTicks := owner.baseTicks feedback.referenceTicks }).sawReceived = true := by
    rw [saw, isEmpty_eq_false_iff.mpr nonempty]
    rfl
  have last : (sources.map (fun source => (ticksOf source.arrivalUs : Int))).getLastD ticks
      = ticksOf (sources.getLast nonempty).arrivalUs := by
    conv_lhs => rw [← dropLast_append_getLast nonempty]
    rw [map_append, map_singleton, getLastD_concat]
  simp only [SentPacketHistory.processFeedback, timed, seen, Bool.and_self, if_true]
  refine ⟨⟨tracks.started, tracks.position, ?_⟩, trivial, ?_, chosen, sub, ?_⟩
  · intro key sent found
    obtain ⟨old, stored, time, size⟩ := keeps key sent found
    rw [← time, ← size]
    exact tracks.entries key old stored
  · omega
  · rw [all]
    exact paired

end MediaServer.TransportFeedback
