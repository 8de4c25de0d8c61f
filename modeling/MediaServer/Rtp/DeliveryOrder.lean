import MediaServer.Rtp.JitterBuffer

/-! The jitter buffer hands packets over in order and at most once.
The order is counted from one resynchronisation to the next; it breaks only behind the two
largest extended numbers, whose successors are the sentinel and zero.
-/

namespace MediaServer.Rtp.RTPBuffer

open Foundation List Option

/-- The operation gives up the expected number: another source, the 21st packet out of
sequence, a dropped head, or a clearing reset.
-/
def resyncs (buffer : RTPBuffer) : Op → Bool
  | .add rtp =>
    let tracked := buffer.trackSsrc rtp
    let queued := { tracked with packets := tracked.packets.insert rtp.getExtSeqNum rtp }
    buffer.changesSsrc rtp
    || (tracked.isPast rtp && decide (tracked.bigJumps + 1 > 20))
    || (!tracked.isPast rtp && (tracked.packets.find? rtp.getExtSeqNum).isNone
        && decide (queued.packets.size - (queued.keptAt rtp.time).size ≠ 0))
  | .reset clear => clear
  | _ => false

/-- A buffer with the extended numbers it returned since the last resynchronisation, the
latest first.
-/
structure Observed where
  buffer : RTPBuffer := {}
  delivered : List Nat := []

def Observed.step (seen : Observed) (op : Op) : Observed where
  buffer := (seen.buffer.step op).1
  delivered :=
    ((seen.buffer.step op).2.map RTPTimedPacket.getExtSeqNum).toList
      ++ if seen.buffer.resyncs op then [] else seen.delivered

/-- Behind the two largest numbers, no packet numbered below them is added, except one that
resynchronises.
-/
def Observed.Permits (seen : Observed) : Op → Prop
  | .add rtp =>
    seen.buffer.resyncs (.add rtp) = false
    → ∀ last ∈ seen.delivered.head?, 0xFFFFFFFE ≤ last → last < rtp.getExtSeqNum
  | _ => True

/-- Whatever is expected, nothing older is queued. -/
def NothingPast (buffer : RTPBuffer) : Prop :=
  buffer.next ≠ noNext → ∀ entry ∈ buffer.packets.entries, buffer.next ≤ entry.1

theorem dropOverflow_cases (buffer : RTPBuffer) (now : QWORD)
    : (buffer.packets.size - (buffer.keptAt now).size = 0
        ∧ buffer.dropOverflow now = buffer)
      ∨ (buffer.packets.size - (buffer.keptAt now).size ≠ 0
        ∧ (buffer.dropOverflow now).next = noNext
        ∧ (buffer.dropOverflow now).packets = buffer.keptAt now) := by
  by_cases none : buffer.packets.size - (buffer.keptAt now).size = 0
  · exact Or.inl ⟨none, by simp [dropOverflow, none]⟩
  · exact Or.inr ⟨none, by simp [dropOverflow, none], by simp [dropOverflow, none]⟩

variable {buffer : RTPBuffer} {entry : Nat × RTPTimedPacket}

theorem dropOverflow_mem {now : QWORD} (member : entry ∈ (buffer.dropOverflow now).packets.entries)
    : entry ∈ buffer.packets.entries := by
  rcases dropOverflow_cases buffer now with ⟨_, same⟩ | ⟨_, _, kept⟩
  · rwa [same] at member
  · rw [kept] at member
    exact (dropWhile_sublist _).subset member

variable {rtp : RTPTimedPacket}

theorem enqueue_mem (member : entry ∈ (buffer.enqueue rtp).packets.entries)
    : entry = (rtp.getExtSeqNum, rtp) ∨ entry ∈ buffer.packets.entries := by
  cases found : buffer.packets.find? rtp.getExtSeqNum with
  | some old => exact Or.inr (by simpa only [enqueue, found] using member)
  | none =>
    simp only [enqueue, found] at member
    exact (OrderedMap.mem_insert.mp (dropOverflow_mem member)).imp_right And.right

theorem enqueue_next (buffer : RTPBuffer) (rtp : RTPTimedPacket)
    : (buffer.enqueue rtp).next = buffer.next ∨ (buffer.enqueue rtp).next = noNext := by
  cases found : buffer.packets.find? rtp.getExtSeqNum with
  | some old => exact Or.inl (by simp only [enqueue, found])
  | none =>
    simp only [enqueue, found]
    rcases dropOverflow_cases
      { buffer with packets := buffer.packets.insert rtp.getExtSeqNum rtp } rtp.time
      with ⟨_, same⟩ | ⟨_, resync, _⟩
    · exact Or.inl (by rw [same])
    · exact Or.inr resync

@[simp] theorem trackSsrc_packets (buffer : RTPBuffer) (rtp : RTPTimedPacket)
    : (buffer.trackSsrc rtp).packets = buffer.packets := by
  unfold trackSsrc
  cases buffer.changesSsrc rtp <;> rfl

theorem trackSsrc_next (buffer : RTPBuffer) (rtp : RTPTimedPacket)
    : (buffer.trackSsrc rtp).next = if buffer.changesSsrc rtp then noNext else buffer.next := by
  unfold trackSsrc
  cases buffer.changesSsrc rtp <;> rfl

/-- Adding a packet queues nothing but that packet. -/
theorem add_mem (member : entry ∈ (buffer.add rtp).1.packets.entries)
    : entry = (rtp.getExtSeqNum, rtp) ∨ entry ∈ buffer.packets.entries := by
  simp only [add] at member
  split at member
  · split at member
    · simpa using enqueue_mem member
    · exact Or.inr (by simpa using member)
  · simpa using enqueue_mem member

/-- A packet that resynchronises leaves no number expected. -/
theorem add_next_of_resyncs (resync : buffer.resyncs (.add rtp) = true)
    : (buffer.add rtp).1.next = noNext := by
  simp only [add]
  cases past : (buffer.trackSsrc rtp).isPast rtp with
  | true =>
    -- past means that a number is expected, so the source is still the same
    have kept : buffer.changesSsrc rtp = false := by
      cases changed : buffer.changesSsrc rtp with
      | false => rfl
      | true => simp [isPast, trackSsrc_next, changed] at past
    have jumps : (buffer.trackSsrc rtp).bigJumps + 1 > 20 := by
      simpa [resyncs, kept, past] using resync
    simp only [reduceIte, jumps]
    exact (enqueue_next _ rtp).elim id id
  | false =>
    simp only [Bool.false_eq_true, reduceIte]
    cases changed : buffer.changesSsrc rtp with
    | true =>
      have lost : (buffer.trackSsrc rtp).next = noNext := by simp [trackSsrc_next, changed]
      exact (enqueue_next _ rtp).elim (fun same => same.trans lost) id
    | false =>
      simp only [resyncs, changed, past, Bool.false_or, Bool.false_and, Bool.not_false,
        Bool.true_and, Bool.and_eq_true, isNone_iff_eq_none, decide_eq_true_eq]
        at resync
      simp only [enqueue, resync.1]
      exact ((dropOverflow_cases _ _).resolve_left fun full => resync.2 full.1).2.1

/-- A packet that does not resynchronise keeps the expected number; it is dropped, or
queued when it is not past.
-/
theorem add_of_not_resyncs (calm : buffer.resyncs (.add rtp) = false)
    : (buffer.add rtp).1.next = buffer.next
      ∧ ((buffer.add rtp).1.packets = buffer.packets
        ∨ (buffer.next ≠ noNext → buffer.next ≤ rtp.getExtSeqNum)) := by
  simp only [resyncs, Bool.or_eq_false_iff] at calm
  obtain ⟨⟨kept, jumps⟩, fits⟩ := calm
  have next : (buffer.trackSsrc rtp).next = buffer.next := by simp [trackSsrc_next, kept]
  simp only [add]
  cases past : (buffer.trackSsrc rtp).isPast rtp with
  | true =>
    have few : ¬ (buffer.trackSsrc rtp).bigJumps + 1 > 20 := by
      simpa [past] using jumps
    simp only [reduceIte, few]
    exact ⟨next, Or.inl (by simp)⟩
  | false =>
    simp only [Bool.false_eq_true, reduceIte]
    refine ⟨?_, Or.inr ?_⟩
    · cases found : (buffer.trackSsrc rtp).packets.find? rtp.getExtSeqNum with
      | some old => simpa only [enqueue, found] using next
      | none =>
        have absent : buffer.packets.find? rtp.getExtSeqNum = none := by simpa using found
        simp [past, absent] at fits
        simp only [enqueue, found]
        rcases dropOverflow_cases
          { buffer.trackSsrc rtp with
            packets := (buffer.trackSsrc rtp).packets.insert rtp.getExtSeqNum rtp }
          rtp.time with ⟨_, same⟩ | ⟨full, _⟩
        · rw [same]
          exact next
        · exact absurd (by simpa using fits) full
    · intro expected
      rw [isPast, next] at past
      simpa [expected] using past

/-- A look that returns a packet takes the head of the queue and expects its successor. -/
theorem wait_cases (buffer : RTPBuffer) (now : QWORD)
    : (∃ seq rtp rest,
        buffer.packets.entries = (seq, rtp) :: rest
        ∧ (buffer.wait now).2 = some rtp
        ∧ (buffer.wait now).1.next = (seq + 1) % 4294967296
        ∧ (buffer.wait now).1.packets.entries = rest)
      ∨ ((buffer.wait now).2 = none
        ∧ (buffer.wait now).1.next = buffer.next
        ∧ (buffer.wait now).1.packets = buffer.packets) := by
  unfold wait
  split
  · exact Or.inr ⟨rfl, rfl, rfl⟩
  · cases entries : buffer.packets.entries with
    | nil => exact Or.inr ⟨rfl, rfl, rfl⟩
    | cons head rest =>
      simp only [head?_cons]
      split
      · refine Or.inl ⟨head.1, head.2, rest, rfl, rfl, rfl, ?_⟩
        simp [OrderedMap.dropFront, entries]
      · exact Or.inr ⟨rfl, rfl, rfl⟩

/-! Nothing past is ever queued. -/

theorem step_nothingPast (buffer : RTPBuffer) (op : Op) (before : buffer.NothingPast)
    : (buffer.step op).1.NothingPast := by
  cases op with
  | add rtp =>
    intro expected entry member
    cases resync : buffer.resyncs (.add rtp) with
    | true => exact absurd (add_next_of_resyncs resync) expected
    | false =>
      obtain ⟨next, same | fresh⟩ := add_of_not_resyncs resync
      · simp only [step, same, next] at member expected ⊢
        exact before expected entry member
      · simp only [step, next] at member expected ⊢
        rcases add_mem member with new | old
        · exact new ▸ fresh expected
        · exact before expected entry old
  | wait now =>
    intro expected entry member
    rcases wait_cases buffer now with ⟨seq, rtp, rest, entries, _, next, left⟩ | ⟨_, next, same⟩
    · simp only [step, next, left] at member ⊢
      have sorted := buffer.packets.sorted
      rw [entries] at sorted
      have above := (pairwise_cons.mp sorted).1 entry member
      exact (Nat.mod_le _ _).trans above
    · simp only [step, same, next] at member expected ⊢
      exact before expected entry member
  | reset clear =>
    cases clear with
    | true => exact fun expected => absurd rfl expected
    | false => exact before
  | clear => exact fun _ entry member => absurd member (not_mem_nil)
  | hurryUp | setMaxWaitTime _ | cancel => exact before

/-- In every state of every run, no queued number is below the expected one. -/
theorem run_nothingPast (ops : List Op) : (run Observed.step {} ops).buffer.NothingPast := by
  have preserved (seen : Observed) (op : Op) (before : seen.buffer.NothingPast) :
      (seen.step op).buffer.NothingPast :=
    step_nothingPast seen.buffer op before
  exact run_invariant preserved (fun _ _ member => absurd member (not_mem_nil)) ops

/-! Delivery is strictly increasing between resynchronisations. -/

/-- The queue lies above the last number returned, whose successor is expected. -/
structure Observed.Ordered (seen : Observed) : Prop where
  keyed : ∀ entry ∈ seen.buffer.packets.entries, entry.1 = entry.2.getExtSeqNum
  increasing : seen.delivered.Pairwise (· > ·)
  expected : ∀ last ∈ seen.delivered.head?, seen.buffer.next = (last + 1) % 4294967296
  above
    : ∀ last ∈ seen.delivered.head?,
        ∀ entry ∈ seen.buffer.packets.entries, last < entry.1

variable {seen : Observed}

/-- An operation that leaves the queue and the expected number alone and returns nothing
keeps the order.
-/
theorem Observed.Ordered.of_same (before : seen.Ordered)
    (packets : buffer.packets.entries ⊆ seen.buffer.packets.entries)
    (next : buffer.next = seen.buffer.next)
    : Observed.Ordered { buffer, delivered := seen.delivered } where
  keyed entry member := before.keyed entry (packets member)
  increasing := before.increasing
  expected last returned := next.trans (before.expected last returned)
  above last returned entry member := before.above last returned entry (packets member)

/-- A new queue that expects nothing starts a new order. -/
theorem Observed.Ordered.fresh
    (keyed : ∀ entry ∈ buffer.packets.entries, entry.1 = entry.2.getExtSeqNum)
    : Observed.Ordered { buffer, delivered := [] } where
  keyed := keyed
  increasing := .nil
  expected _ returned := by simp at returned
  above _ returned := by simp at returned

theorem add_keyed (keyed : ∀ entry ∈ buffer.packets.entries, entry.1 = entry.2.getExtSeqNum)
    : ∀ entry ∈ (buffer.add rtp).1.packets.entries, entry.1 = entry.2.getExtSeqNum := by
  intro entry member
  rcases add_mem member with new | old
  · rw [new]
  · exact keyed entry old

/-- A packet that is queued without resynchronising lies above all numbers returned: below
the two largest numbers because it is not past, behind them by permission.
-/
theorem Observed.Ordered.add (before : seen.Ordered) (permitted : seen.Permits (.add rtp))
    (calm : seen.buffer.resyncs (.add rtp) = false)
    : Observed.Ordered { buffer := (seen.buffer.add rtp).1, delivered := seen.delivered } := by
  obtain ⟨next, same | fresh⟩ := add_of_not_resyncs calm
  · exact before.of_same (by simp [same]) next
  · refine {
      keyed := add_keyed before.keyed
      increasing := before.increasing
      expected := fun last returned => next.trans (before.expected last returned)
      above := ?_
    }
    intro last returned entry member
    rcases add_mem member with new | old
    · subst new
      by_cases large : 0xFFFFFFFE ≤ last
      · exact permitted calm last returned large
      · -- the expected number is neither the sentinel nor zero
        have expected := before.expected last returned
        have small : last + 1 < 4294967296 := by omega
        rw [Nat.mod_eq_of_lt small] at expected
        have reached := fresh (by rw [expected, noNext]; omega)
        rw [expected] at reached
        exact reached
    · exact before.above last returned entry old

/-- A returned packet exceeds everything returned before, and the rest of the queue
exceeds it.
-/
theorem Observed.Ordered.wait (before : seen.Ordered) (now : QWORD)
    : (seen.step (.wait now)).Ordered := by
  rcases wait_cases seen.buffer now with
    ⟨seq, rtp, rest, entries, returned, next, left⟩ | ⟨returned, next, same⟩
  · have number : seq = rtp.getExtSeqNum := before.keyed (seq, rtp) (by simp [entries])
    have sorted := seen.buffer.packets.sorted
    rw [entries] at sorted
    have above := (pairwise_cons.mp sorted).1
    refine {
      keyed := ?_
      increasing := ?_
      expected := ?_
      above := ?_
    }
    · intro entry member
      simp only [Observed.step, RTPBuffer.step, left] at member
      exact before.keyed entry (by simp [entries, member])
    · simp only [Observed.step, RTPBuffer.step, returned, resyncs, map_some,
        toList_some, Bool.false_eq_true, reduceIte, singleton_append, pairwise_cons]
      refine ⟨?_, before.increasing⟩
      intro earlier delivered
      rw [← number]
      cases all : seen.delivered with
      | nil => simp [all] at delivered
      | cons last others =>
        have highest : last < seq :=
          before.above last (by simp [all]) (seq, rtp) (by simp [entries])
        have increasing := before.increasing
        rw [all] at delivered increasing
        rcases mem_cons.mp delivered with same | older
        · exact same ▸ highest
        · exact ((pairwise_cons.mp increasing).1 earlier older).trans highest
    · simp [Observed.step, RTPBuffer.step, returned, next, number]
    · simp only [Observed.step, RTPBuffer.step, returned, left, map_some, toList_some,
        singleton_append, head?_cons, mem_def, Option.some.injEq]
      rintro _ rfl entry member
      exact number ▸ above entry member
  · have unchanged : seen.step (.wait now)
        = { buffer := (seen.buffer.wait now).1, delivered := seen.delivered } := by
      simp [Observed.step, RTPBuffer.step, returned, resyncs]
    rw [unchanged]
    exact before.of_same (by simp [same]) next

theorem Observed.step_ordered (seen : Observed) (op : Op) (before : seen.Ordered)
    (permitted : seen.Permits op)
    : (seen.step op).Ordered := by
  cases op with
  | add rtp =>
    cases resync : seen.buffer.resyncs (.add rtp) with
    | true =>
      simp only [Observed.step, RTPBuffer.step, resync, map_none, toList_none,
        reduceIte, nil_append]
      exact .fresh (add_keyed before.keyed)
    | false =>
      simp only [Observed.step, RTPBuffer.step, resync, map_none, toList_none,
        Bool.false_eq_true, reduceIte, nil_append]
      exact before.add permitted resync
  | wait now => exact before.wait now
  | clear => exact before.of_same (nil_subset _) rfl
  | reset clear =>
    cases clear with
    | true => exact .fresh (fun _ member => absurd member (not_mem_nil))
    | false => exact before.of_same (List.Subset.refl _) rfl
  | hurryUp | setMaxWaitTime _ | cancel => exact before.of_same (List.Subset.refl _) rfl

/-- In every run whose steps are all permitted, nothing past is queued and the numbers
returned since the last resynchronisation strictly increase.
-/
theorem wait_returns_increasing_numbers (ops : List Op)
    (permitted : EachStep Observed.step Observed.Permits {} ops)
    : (run Observed.step {} ops).buffer.NothingPast
      ∧ (run Observed.step {} ops).delivered.reverse.Pairwise (· < ·) := by
  have ordered := run_invariant_of_eachStep Observed.step_ordered
    (.fresh (fun _ member => absurd member (not_mem_nil))) permitted
  exact ⟨run_nothingPast ops, pairwise_reverse.mpr ordered.increasing⟩

/-- Packets 7, 9 and 8 of one source come out as 7, 8, 9. -/
theorem wait_returns_increasing_numbers_example
    : let ops : List Op :=
        [.add { seqNum := 7 }, .wait 0, .add { seqNum := 9 }, .add { seqNum := 8 },
          .wait 0, .wait 0]
      (run Observed.step {} ops).delivered = [9, 8, 7]
      ∧ (run Observed.step {} ops).delivered.reverse.Pairwise (· < ·) := by
  refine ⟨by decide, (wait_returns_increasing_numbers _ ?_).2⟩
  simp only [EachStep, Observed.Permits]
  decide

/-- Behind number 0xFFFFFFFE the expected number is the sentinel, and packet 5 of the same
source is returned next without any resynchronisation.
-/
theorem wait_returns_smaller_number
    : let ops : List Op :=
        [.add { seqNum := 0xFFFE, cycles := 0xFFFF }, .wait 0, .add { seqNum := 5 }, .wait 0]
      (run Observed.step {} ops).delivered.reverse = [0xFFFFFFFE, 5]
      ∧ ¬ (run Observed.step {} ops).delivered.reverse.Pairwise (· < ·) := by
  decide

/-! Nothing is returned that was not added, nor more often than it was. -/

/-- A buffer with the packets that were added to it and those that it has returned. -/
structure Traffic where
  buffer : RTPBuffer := {}
  added : List RTPTimedPacket := []
  returned : List RTPTimedPacket := []

def Traffic.step (seen : Traffic) (op : Op) : Traffic where
  buffer := (seen.buffer.step op).1
  added :=
    match op with
    | .add rtp => rtp :: seen.added
    | _ => seen.added
  returned := (seen.buffer.step op).2.toList ++ seen.returned

/-- How many packets of a kind are queued. -/
def queued (buffer : RTPBuffer) (kind : RTPTimedPacket → Bool) : Nat :=
  buffer.packets.entries.countP (fun entry => kind entry.2)

theorem queued_enqueue (buffer : RTPBuffer) (rtp : RTPTimedPacket) (kind : RTPTimedPacket → Bool)
    : (buffer.enqueue rtp).queued kind ≤ buffer.queued kind + [rtp].countP kind := by
  cases found : buffer.packets.find? rtp.getExtSeqNum with
  | some old =>
    simp only [enqueue, found]
    exact Nat.le_add_right _ _
  | none =>
    have more := OrderedMap.countP_insert found rtp (fun entry => kind entry.2)
    rw [countP_singleton, queued, queued, ← more]
    simp only [enqueue, found]
    rcases dropOverflow_cases
      { buffer with packets := buffer.packets.insert rtp.getExtSeqNum rtp } rtp.time
      with ⟨_, same⟩ | ⟨_, _, kept⟩
    · rw [same]
    · rw [kept]
      exact (dropWhile_sublist _).countP_le

theorem queued_add (buffer : RTPBuffer) (rtp : RTPTimedPacket) (kind : RTPTimedPacket → Bool)
    : (buffer.add rtp).1.queued kind ≤ buffer.queued kind + [rtp].countP kind := by
  have same : (buffer.trackSsrc rtp).queued kind = buffer.queued kind := by
    rw [queued, trackSsrc_packets, ← queued]
  rw [← same]
  simp only [add]
  split_ifs
  · exact queued_enqueue { buffer.trackSsrc rtp with next := noNext, bigJumps := 0 } rtp kind
  · exact Nat.le_add_right _ _
  · exact queued_enqueue _ rtp kind

/-- In every run, whatever is queued or was returned has been added, each as often at least. -/
theorem returned_were_added (ops : List Op) (kind : RTPTimedPacket → Bool)
    : (run Traffic.step {} ops).buffer.queued kind
        + (run Traffic.step {} ops).returned.countP kind
      ≤ (run Traffic.step {} ops).added.countP kind := by
  refine @run_invariant _ _ Traffic.step
    (fun seen => seen.buffer.queued kind + seen.returned.countP kind ≤ seen.added.countP kind)
    (fun seen op before => ?_) {} (Nat.le_refl _) ops
  cases op with
  | add rtp =>
    have more := queued_add seen.buffer rtp kind
    simp only [Traffic.step, step, toList_none, nil_append]
    rw [← singleton_append, countP_append]
    omega
  | wait now =>
    rcases wait_cases seen.buffer now with ⟨seq, rtp, rest, entries, taken, _, left⟩
      | ⟨nothing, _, same⟩
    · simp only [queued, entries, countP_cons] at before
      simp only [Traffic.step, step, queued, taken, left, toList_some, singleton_append,
        countP_cons]
      omega
    · simpa only [Traffic.step, step, queued, nothing, same, toList_none, nil_append] using before
  | clear =>
    exact (Nat.add_le_add_right (Nat.zero_le _) _).trans before
  | reset clear =>
    cases clear with
    | true => exact (Nat.add_le_add_right (Nat.zero_le _) _).trans before
    | false => exact before
  | hurryUp | setMaxWaitTime _ | cancel => exact before

end MediaServer.Rtp.RTPBuffer
