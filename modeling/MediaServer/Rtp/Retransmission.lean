import MediaServer.Foundation.LargestKeys
import MediaServer.Rtp.Stream

/-! The sending side of a session and its retransmission queue.
A packet is queued under the send side's cycle count, which has already moved on behind
number 0xFFFF, and it is looked up under the cycle count of the received stream.
-/

namespace MediaServer.Rtp

open Foundation List

/-- A packet as it left, with the cycle it was queued under. -/
structure RtxPacket where
  seqNum : WORD
  cycles : WORD := 0
  data : List BYTE
  deriving DecidableEq

def RtxPacket.getExtSeqNum (packet : RtxPacket) : Nat := extSeqNum packet.cycles packet.seqNum

/-- How the transport takes a packet: `sent` has the protected bytes, whatever the socket
answers.
-/
inductive TransportAnswer
  | notReady
  | protectFailed
  | sent (wire : List BYTE)

/-- What one call of `SendPacket` meets. `seqNum` is the number of the packet handed over, and
`isStorageFrame` tells whether its payload could be copied.
-/
structure SendCall where
  running : Bool := true
  hasAddress : Bool := true
  seqNum : WORD := 0
  headerLength : Nat := 12
  mediaLength : Nat := 0
  isStorageFrame : Bool := true
  transport : WORD → TransportAnswer

structure RTPSession where
  useNACK : Bool := true
  useOriSeqNum : Bool := false
  sendSeq : Nat := 0
  sendCycles : Nat := 0
  rtxs : OrderedMap Nat RtxPacket := .empty
  defaultStream : Option RTPStream := none

namespace RTPSession

variable (session : RTPSession)

/-- The number written into the header, and the counters behind it. -/
def numberPacket (seqNum : WORD) : RTPSession × WORD :=
  let number := if session.useOriSeqNum then seqNum else .ofNat session.sendSeq
  let sendSeq :=
    if session.useOriSeqNum then seqNum.toNat else (session.sendSeq + 1) % 65536
  let sendCycles :=
    if sendSeq = 0 then (session.sendCycles + 1) % 4294967296 else session.sendCycles
  ({ session with sendSeq, sendCycles }, number)

/-- Queue a packet; beyond two hundred the smallest number goes. -/
def storeRtx (packet : RtxPacket) : RTPSession :=
  let rtxs := session.rtxs.insert packet.getExtSeqNum packet
  { session with rtxs := if rtxs.size > 200 then rtxs.dropFront else rtxs }

def sendPacket (call : SendCall) : RTPSession × Option RtxPacket :=
  if !call.running || !call.hasAddress then (session, none)
  else
    let (session, seqNum) := session.numberPacket call.seqNum
    if call.headerLength + call.mediaLength > mtu then (session, none)
    else if !call.isStorageFrame then (session, none)
    else
      match call.transport seqNum with
      | .notReady | .protectFailed => (session, none)
      | .sent wire =>
        let packet : RtxPacket :=
          { seqNum, cycles := .ofNat session.sendCycles, data := wire }
        (if session.useNACK then session.storeRtx packet else session, some packet)

def recCycles : Nat :=
  (session.defaultStream.map RTPStream.recCycles).getD 0

def reSendPacket (seq : Nat) : Option RtxPacket :=
  if !session.useNACK then none
  else
    match session.rtxs.find? ((session.recCycles <<< 16) % 4294967296 ||| seq) with
    | none => none
    | some packet =>
      if packet.data.length > mtu then none
      else if packet.data.length ≠ 0 then some packet
      else none

end RTPSession

inductive SenderOp
  | send (call : SendCall)
  | receive (flags : SessionFlags) (packet : RTPTimedPacket) (size : DWORD) (now : QWORD)
  | setDefaultStream (ssrc : DWORD)

/-- A session with how many numbers it has used and what it has stored, the latest first,
each packet with the count of numbers used before it.
-/
structure Sender where
  session : RTPSession := {}
  numbered : Nat := 0
  stored : List (Nat × RtxPacket) := []

open RTPSession

namespace Sender

def step (sender : Sender) : SenderOp → Sender
  | .send call =>
    { session := (sender.session.sendPacket call).1
      numbered :=
        if call.running && call.hasAddress then sender.numbered + 1 else sender.numbered
      stored :=
        ((sender.session.sendPacket call).2.map (sender.numbered, ·)).toList
          ++ sender.stored }
  | .receive flags packet size now =>
    { sender with
      session :=
        { sender.session with
          defaultStream :=
            sender.session.defaultStream.map
              (fun stream => (stream.add flags packet size now).1) } }
  | .setDefaultStream ssrc =>
    { sender with session := { sender.session with defaultStream := some { recSSRC := ssrc } } }

def recent (sender : Sender) : List RtxPacket := (sender.stored.take 200).map Prod.snd

/-- The number that ends a cycle is queued one cycle late. -/
def keyOf (number : Nat) : Nat :=
  if number % 65536 = 0xFFFF then number + 65536 else number

/-- A packet numbered 0xFFFF that is older than the last two hundred stored is a whole cycle
older than those.
-/
def LastOfCycleGone (sender : Sender) : Prop :=
  ∀ old ∈ sender.stored.drop 200, old.2.seqNum = 0xFFFF
    → ∀ kept ∈ sender.stored.take 200, kept.2.seqNum ≠ 0xFFFF → old.1 + 65536 < kept.1

/-- Everything stored, as the queue would hold it. -/
def history (sender : Sender) : List (Nat × RtxPacket) :=
  sender.stored.map (fun entry => (entry.2.getExtSeqNum, entry.2))

/-- The queue holds the largest keys of what was stored, and the keys follow the numbers used. -/
structure Queued (sender : Sender) : Prop where
  useNACK : sender.session.useNACK = true
  useOriSeqNum : sender.session.useOriSeqNum = false
  sendSeq : sender.session.sendSeq = sender.numbered % 65536
  sendCycles : sender.session.sendCycles = sender.numbered / 65536
  below : ∀ entry ∈ sender.stored, entry.1 < sender.numbered
  ordered : sender.stored.Pairwise (fun later earlier => earlier.1 < later.1)
  keyed
    : ∀ entry ∈ sender.stored, entry.2.getExtSeqNum = keyOf entry.1
      ∧ entry.2.seqNum.toNat = entry.1 % 65536
  queue : OrderedMap.HoldsLargest 200 sender.history sender.session.rtxs

/-! Storing one packet. -/

theorem keyOf_injective {left right : Nat} (same : keyOf left = keyOf right) : left = right := by
  simp only [keyOf] at same
  split at same <;> split at same <;> omega

/-- What `SendPacket` can do: nothing, use up a number, or store a packet under it. -/
theorem sendPacket_cases {session : RTPSession} (useNACK : session.useNACK = true) (call : SendCall)
    : ((call.running && call.hasAddress) = false
        ∧ session.sendPacket call = (session, none))
      ∨ ((call.running && call.hasAddress) = true
        ∧ (session.sendPacket call = ((session.numberPacket call.seqNum).1, none)
          ∨ ∃ packet : RtxPacket,
            packet.seqNum = (session.numberPacket call.seqNum).2
            ∧ packet.cycles = .ofNat (session.numberPacket call.seqNum).1.sendCycles
            ∧ session.sendPacket call
              = ((session.numberPacket call.seqNum).1.storeRtx packet, some packet))) := by
  cases ready : call.running && call.hasAddress with
  | false =>
    refine Or.inl ⟨rfl, ?_⟩
    rw [sendPacket, if_pos (by rw [← Bool.not_and, ready]; rfl)]
  | true =>
    refine Or.inr ⟨rfl, ?_⟩
    rw [sendPacket, if_neg (by rw [← Bool.not_and, ready]; decide)]
    dsimp only
    split
    · exact Or.inl rfl
    · split
      · exact Or.inl rfl
      · split
        · exact Or.inl rfl
        · exact Or.inl rfl
        · have used : (session.numberPacket call.seqNum).1.useNACK = true := useNACK
          rw [if_pos used]
          exact Or.inr ⟨_, rfl, rfl, rfl⟩

variable {sender : Sender}

theorem Queued.numberPacket (queued : Queued sender) (seqNum : WORD)
    (few : sender.numbered + 1 < 4294967296)
    : (sender.session.numberPacket seqNum).1.sendSeq = (sender.numbered + 1) % 65536
      ∧ (sender.session.numberPacket seqNum).1.sendCycles = (sender.numbered + 1) / 65536
      ∧ (sender.session.numberPacket seqNum).2.toNat = sender.numbered % 65536 := by
  have seq := queued.sendSeq
  have cycles := queued.sendCycles
  simp only [RTPSession.numberPacket, queued.useOriSeqNum]
  refine ⟨?_, ?_, ?_⟩
  · simp only [Bool.false_eq_true, if_false]
    omega
  · simp only [Bool.false_eq_true, if_false]
    split <;> omega
  · simp only [Bool.false_eq_true, if_false, UInt16.toNat_ofNat']
    omega

variable {packet : RtxPacket}

/-- The key of a packet stored next. -/
theorem Queued.key (queued : Queued sender) {seqNum : WORD} (few : sender.numbered + 1 < 4294967296)
    (number : packet.seqNum = (sender.session.numberPacket seqNum).2)
    (cycles : packet.cycles = .ofNat (sender.session.numberPacket seqNum).1.sendCycles)
    : packet.getExtSeqNum = keyOf sender.numbered
      ∧ packet.seqNum.toNat = sender.numbered % 65536 := by
  obtain ⟨_, nextCycles, own⟩ := queued.numberPacket seqNum few
  have ownNumber : packet.seqNum.toNat = sender.numbered % 65536 := by rw [number, own]
  refine ⟨?_, ownNumber⟩
  rw [RtxPacket.getExtSeqNum, extSeqNum_eq, ownNumber, cycles, nextCycles, UInt16.toNat_ofNat',
    keyOf]
  split <;> omega

/-- The next packet has a key of its own. -/
theorem Queued.fresh (queued : Queued sender) (key : packet.getExtSeqNum = keyOf sender.numbered)
    : ∀ entry ∈ sender.history, entry.1 ≠ packet.getExtSeqNum := by
  intro entry member same
  obtain ⟨stored, earlier, rfl⟩ := mem_map.mp member
  have equal : stored.1 = sender.numbered :=
    keyOf_injective (by rw [← (queued.keyed stored earlier).1, ← key]; exact same)
  have before := queued.below stored earlier
  omega

/-- Storing the next packet. -/
theorem Queued.store (queued : Queued sender) {seqNum : WORD}
    (few : sender.numbered + 1 < 4294967296)
    (number : packet.seqNum = (sender.session.numberPacket seqNum).2)
    (cycles : packet.cycles = .ofNat (sender.session.numberPacket seqNum).1.sendCycles)
    : Queued
        { session := (sender.session.numberPacket seqNum).1.storeRtx packet
          numbered := sender.numbered + 1
          stored := (sender.numbered, packet) :: sender.stored } := by
  obtain ⟨sendSeq, sendCycles, _⟩ := queued.numberPacket seqNum few
  obtain ⟨key, own⟩ := queued.key few number cycles
  exact { queued with
    sendSeq, sendCycles
    below := forall_mem_cons.mpr
      ⟨Nat.lt_succ_self _, fun entry earlier =>
        (queued.below entry earlier).trans (Nat.lt_succ_self _)⟩
    ordered := pairwise_cons.mpr ⟨queued.below, queued.ordered⟩
    keyed := forall_mem_cons.mpr ⟨⟨key, own⟩, queued.keyed⟩
    queue := queued.queue.insertBounded packet (queued.fresh key) }

theorem step_numbered_le (sender : Sender) (op : SenderOp)
    : sender.numbered ≤ (sender.step op).numbered := by
  cases op with
  | send call =>
    simp only [step]
    split <;> omega
  | receive flags packet size now | setDefaultStream ssrc => exact le_rfl

theorem Queued.step (queued : Queued sender) (op : SenderOp)
    (few : (sender.step op).numbered < 4294967296) : Queued (sender.step op) := by
  cases op with
  | send call =>
    simp only [Sender.step] at few ⊢
    rcases sendPacket_cases queued.useNACK call with ⟨idle, same⟩ | ⟨ready, used | stored⟩
    · simp only [same, idle]
      exact queued
    · rw [ready, if_pos rfl] at few
      obtain ⟨sendSeq, sendCycles, _⟩ := queued.numberPacket call.seqNum few
      simp only [used, ready, if_true]
      exact { queued with
        sendSeq, sendCycles
        below := fun entry member => (queued.below entry member).trans (Nat.lt_succ_self _) }
    · obtain ⟨packet, number, cycles, left⟩ := stored
      rw [ready, if_pos rfl] at few
      simp only [left, ready, if_true, Option.map_some, Option.toList_some,
        singleton_append]
      exact queued.store few number cycles
  | receive flags packet size now | setDefaultStream ssrc =>
    exact { queued with }

theorem Queued.start : Queued {} where
  useNACK := rfl
  useOriSeqNum := rfl
  sendSeq := rfl
  sendCycles := rfl
  below := fun _ member => nomatch member
  ordered := .nil
  keyed := fun _ member => nomatch member
  queue := .empty 200

theorem run_queued (ops : List SenderOp)
    : (run Sender.step {} ops).numbered < 4294967296 → Queued (run Sender.step {} ops) := by
  have preserved (sender : Sender) (op : SenderOp)
      (before : sender.numbered < 4294967296 → Queued sender)
      (few : (sender.step op).numbered < 4294967296) : Queued (sender.step op) :=
    (before ((step_numbered_le sender op).trans_lt few)).step op few
  exact run_invariant preserved (fun _ => Queued.start) ops

theorem Queued.nodup (queued : Queued sender) : sender.history.Nodup := by
  refine pairwise_map.mpr (queued.ordered.imp_of_mem ?_)
  intro later earlier inLater inEarlier before same
  have equal := (Prod.mk.inj same).1
  rw [(queued.keyed later inLater).1, (queued.keyed earlier inEarlier).1] at equal
  exact absurd (keyOf_injective equal) before.ne'

/-- Keys follow the numbers, except that of a number 0xFFFF, which is a cycle ahead. -/
theorem Queued.keys_iff (queued : Queued sender)
    : (∀ old ∈ sender.history.drop 200, ∀ kept ∈ sender.history.take 200, old.1 < kept.1)
      ↔ sender.LastOfCycleGone := by
  have ends (entry : Nat × RtxPacket) (member : entry ∈ sender.stored)
      : entry.2.seqNum = 0xFFFF ↔ entry.1 % 65536 = 0xFFFF := by
    rw [← (queued.keyed entry member).2]
    exact UInt16.toNat_inj.symm
  simp only [history, ← map_drop, ← map_take, forall_mem_map, LastOfCycleGone]
  refine forall₂_congr fun old older => ?_
  have inOld := mem_of_mem_drop older
  rw [ends old inOld, (queued.keyed old inOld).1]
  constructor
  · intro smaller last kept recent other
    have inKept := mem_of_mem_take recent
    have less := smaller kept recent
    rw [Ne, ends kept inKept] at other
    rwa [(queued.keyed kept inKept).1, keyOf, keyOf, if_pos last, if_neg other] at less
  · intro gone kept recent
    have inKept := mem_of_mem_take recent
    have before : old.1 < kept.1 := by
      have ordered := queued.ordered
      rw [← take_append_drop 200 sender.stored, pairwise_append] at ordered
      exact ordered.2.2 kept recent old older
    have apart := fun last => gone last kept recent
    rw [Ne, ends kept inKept] at apart
    rw [(queued.keyed kept inKept).1, keyOf, keyOf]
    split <;> split <;> omega

/-! Resending. -/

theorem lookupKey (recCycles : Nat) (seqNum : WORD)
    : (recCycles <<< 16) % 4294967296 ||| seqNum.toNat
      = extSeqNum (.ofNat recCycles) seqNum := by
  have truncated : (recCycles <<< 16) % 4294967296 = (recCycles % 65536) <<< 16 := by
    rw [Nat.shiftLeft_eq, Nat.shiftLeft_eq]
    omega
  rw [extSeqNum, truncated, UInt16.toNat_ofNat']

theorem Queued.mem_queue_iff (queued : Queued sender) (packet : RtxPacket)
    : packet ∈ sender.session.rtxs.entries.map Prod.snd
      ↔ (packet.getExtSeqNum, packet) ∈ sender.session.rtxs.entries := by
  constructor
  · intro member
    obtain ⟨entry, stored, rfl⟩ := mem_map.mp member
    obtain ⟨source, _, rfl⟩ := mem_map.mp (queued.queue.held entry stored)
    exact stored
  · intro stored
    exact mem_map.mpr ⟨_, stored, rfl⟩

theorem mem_recent_iff (sender : Sender) (packet : RtxPacket)
    : packet ∈ sender.recent ↔ (packet.getExtSeqNum, packet) ∈ sender.history.take 200 := by
  rw [history, ← map_take, recent, mem_map, mem_map]
  refine exists_congr fun entry => and_congr_right fun _ => ⟨?_, ?_⟩
  · rintro rfl
    rfl
  · intro same
    exact (Prod.mk.inj same).2

/-- The queue is the last two hundred packets as long as no number 0xFFFF stays behind. -/
theorem Queued.recent_iff (queued : Queued sender)
    : (∀ packet, packet ∈ sender.session.rtxs.entries.map Prod.snd ↔ packet ∈ sender.recent)
      ↔ sender.LastOfCycleGone := by
  rw [← queued.keys_iff, ← queued.queue.latest_iff queued.nodup]
  constructor
  · intro same entry
    constructor
    · intro member
      obtain ⟨source, _, rfl⟩ := mem_map.mp (queued.queue.held entry member)
      exact (mem_recent_iff sender _).mp ((same _).mp ((queued.mem_queue_iff _).mpr member))
    · intro latest
      obtain ⟨source, _, rfl⟩ := mem_map.mp (mem_of_mem_take latest)
      exact (queued.mem_queue_iff _).mp ((same _).mpr ((mem_recent_iff sender _).mpr latest))
  · intro same packet
    rw [queued.mem_queue_iff, same, mem_recent_iff]

/-- A queued packet is sent again when the received stream happens to be in the cycle the
packet was queued under, and the packet fits the copy.
-/
theorem Queued.reSendPacket_iff (queued : Queued sender)
    (member : packet ∈ sender.session.rtxs.entries.map Prod.snd)
    : sender.session.reSendPacket packet.seqNum.toNat = some packet
      ↔ sender.session.recCycles % 65536 = packet.cycles.toNat
        ∧ 0 < packet.data.length ∧ packet.data.length ≤ mtu := by
  have sameKey :
      extSeqNum (.ofNat sender.session.recCycles) packet.seqNum = packet.getExtSeqNum
        ↔ sender.session.recCycles % 65536 = packet.cycles.toNat := by
    rw [RtxPacket.getExtSeqNum, extSeqNum_eq, extSeqNum_eq, UInt16.toNat_ofNat']
    omega
  rw [reSendPacket, queued.useNACK, lookupKey, ← sameKey]
  constructor
  · intro resent
    simp only [Bool.not_true, Bool.false_eq_true, if_false] at resent
    split at resent
    · cases resent
    · rename_i found
      split at resent
      · cases resent
      · rename_i fits
        split at resent
        · rename_i nonempty
          cases resent
          obtain ⟨_, _, same⟩ :=
            mem_map.mp (queued.queue.held _ (OrderedMap.find?_eq_some_iff.mp found))
          obtain ⟨key, equal⟩ := Prod.mk.inj same
          exact ⟨by rw [← key, equal], by omega, by omega⟩
        · cases resent
  · rintro ⟨key, nonempty, fits⟩
    have found : sender.session.rtxs.find? packet.getExtSeqNum = some packet :=
      OrderedMap.find?_eq_some_iff.mpr ((queued.mem_queue_iff packet).mp member)
    simp only [Bool.not_true, Bool.false_eq_true, if_false, key, found]
    rw [if_neg (by omega), if_pos (by omega)]

/-- In a run that uses fewer than 2^32 numbers, the queue holds exactly the last two hundred
packets stored and each is sent again, if and only if no packet numbered 0xFFFF stays behind,
and for each of them the received stream is in the cycle it was queued under and it fits.
-/
theorem recent_packets_resent (ops : List SenderOp)
    (few : (run Sender.step {} ops).numbered < 4294967296)
    : let sender := run Sender.step {} ops
      (sender.session.rtxs.size ≤ 200
        ∧ (∀ packet, packet ∈ sender.session.rtxs.entries.map Prod.snd ↔ packet ∈ sender.recent)
        ∧ ∀ packet ∈ sender.recent,
          sender.session.reSendPacket packet.seqNum.toNat = some packet)
      ↔ sender.LastOfCycleGone
        ∧ ∀ packet ∈ sender.recent,
          sender.session.recCycles % 65536 = packet.cycles.toNat
          ∧ 0 < packet.data.length ∧ packet.data.length ≤ mtu := by
  intro sender
  have queued : sender.Queued := run_queued ops few
  have bounded : sender.session.rtxs.size ≤ 200 := by
    rw [queued.queue.size]
    exact Nat.min_le_left _ _
  rw [← queued.recent_iff]
  constructor
  · rintro ⟨_, same, resent⟩
    refine ⟨same, fun packet member => ?_⟩
    exact (queued.reSendPacket_iff ((same packet).mpr member)).mp (resent packet member)
  · rintro ⟨same, found⟩
    refine ⟨bounded, same, fun packet member => ?_⟩
    exact (queued.reSendPacket_iff ((same packet).mpr member)).mpr (found packet member)

/-- A packet of two octets of media behind its header. -/
def sampleCall : SendCall where
  mediaLength := 2
  transport seqNum :=
    .sent [0x80, 96, .ofNat (seqNum.toNat / 256), .ofNat seqNum.toNat, 0, 0, 0, 160, 0, 0, 0, 7,
      0xD5, 0x2A]

def sampleWire : List BYTE := [0x80, 96, 0, 0, 0, 0, 0, 160, 0, 0, 0, 7, 0xD5, 0x2A]

/-- The first of two packets is sent again while nothing has been received. -/
theorem recent_packets_resent_first
    : (run Sender.step {} [.send sampleCall, .send sampleCall]).session.reSendPacket 0
      = some { seqNum := 0, data := sampleWire } :=
  ((recent_packets_resent [.send sampleCall, .send sampleCall] (by decide)).mpr
    ⟨by unfold LastOfCycleGone; decide, by decide⟩).2.2 { seqNum := 0, data := sampleWire }
    (by decide)

/-- The received stream has wrapped once and the sender not yet, so the packet just stored is
looked up in the wrong cycle.
-/
theorem packet_not_found_in_received_cycle
    : let sender :=
        run Sender.step {}
          [.setDefaultStream 1, .receive {} { seqNum := 0xFFFF } 172 0,
            .receive {} { seqNum := 0 } 172 20, .send sampleCall]
      sender.recent = [{ seqNum := 0, data := sampleWire }]
      ∧ sender.session.reSendPacket 0 = none := by
  decide

end Sender

end MediaServer.Rtp
