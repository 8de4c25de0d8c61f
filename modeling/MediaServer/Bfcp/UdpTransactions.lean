import MediaServer.Bfcp.TransactionIds
import MediaServer.Bfcp.UdpRetransmission
import Mathlib.Data.List.Nodup
import Mathlib.Data.List.Range

/-! The open transactions of one endpoint. An acknowledgement names a transaction by its number,
so it closes the one it answers as long as no two open ones have the same number.
-/

namespace MediaServer.Bfcp

open Foundation BFCPUdpEndpoint List

theorem issued_eq_map (counter count : Nat)
    : issued counter count
      = (List.range count).map (fun index => (((counter + index) % 0xFFFF + 1 : Nat) : Int)) := by
  induction count generalizing counter with
  | zero => rfl
  | succ count ih =>
    rw [issued, ih, range_succ_eq_map, map_cons, map_map]
    congr 1
    refine map_congr_left (fun index _ => ?_)
    simp only [Function.comp_apply]
    omega

/-- One round of the counter gives out different numbers. -/
theorem issued_nodup {count : Nat} (round : count ≤ 0xFFFF) (counter : Nat)
    : (issued counter count).Nodup := by
  rw [issued_eq_map]
  refine List.Nodup.map_on ?_ nodup_range
  intro first inside second insideToo same
  rw [mem_range] at inside insideToo
  omega

namespace BFCPFloorControlServer

/-- The numbers of the transactions that a run starts towards peers that have to acknowledge. -/
def startedBy (server : BFCPFloorControlServer) : List Op → List Int
  | [] => []
  | op :: rest => (Turn.apply { server } op).started ++ startedBy (step server op) rest

theorem startedBy_eq_issued (server : BFCPFloorControlServer) (ops : List Op)
    : ∃ count, startedBy server ops = issued server.transactionCounter count := by
  induction ops generalizing server with
  | nil => exact ⟨0, rfl⟩
  | cons op rest ih =>
    obtain ⟨first, counter, sent⟩ := (Turn.apply_numbers { server } op).numbers
    obtain ⟨second, later⟩ := ih (step server op)
    refine ⟨first + second, ?_⟩
    rw [startedBy, later, issued_add, ← counter, sent]
    rfl

/-- Of the transactions that a server starts over unreliable transports, no two among 65535 in a
row have the same number, whoever they are for.
-/
theorem transactions_distinct (server : BFCPFloorControlServer) (ops : List Op) (first : Nat)
    : (((startedBy server ops).drop first).take 0xFFFF).Nodup := by
  obtain ⟨count, numbers⟩ := startedBy_eq_issued server ops
  rw [numbers, issued_eq_map, ← map_drop, ← map_take]
  refine Nodup.map_on ?_ (nodup_range.sublist ((take_sublist ..).trans (drop_sublist ..)))
  intro left inside right insideToo same
  obtain ⟨i, close, rfl⟩ := mem_iff_getElem.mp inside
  obtain ⟨j, closeToo, rfl⟩ := mem_iff_getElem.mp insideToo
  rw [length_take] at close closeToo
  simp only [getElem_take, getElem_drop, getElem_range] at same ⊢
  omega

end BFCPFloorControlServer

/-- Taking out the first with a number takes out all with it when there is one at most. -/
theorem eraseP_eq_filter {entries : List Pending} (transactionId : Int)
    (distinct : (entries.map Pending.transactionId).Nodup)
    : entries.eraseP (fun entry => entry.transactionId = transactionId)
      = entries.filter (fun entry => entry.transactionId ≠ transactionId) := by
  induction entries with
  | nil => rfl
  | cons entry rest ih =>
    rw [map_cons, nodup_cons] at distinct
    by_cases same : entry.transactionId = transactionId
    · have others : ∀ other ∈ rest, other.transactionId ≠ transactionId := by
        intro other member equal
        refine distinct.1 (mem_map.mpr ⟨other, member, equal.trans same.symm⟩)
      rw [eraseP_cons_of_pos (by simpa using same), filter_cons_of_neg (by simpa using same),
        filter_eq_self.mpr (by simpa using others)]
    · rw [eraseP_cons_of_neg (by simpa using same),
        filter_cons_of_pos (by simpa using same), ih distinct.2]

namespace BFCPUdpEndpoint

variable {Address : Type} {medkit : Medkit}

variable (endpoint : BFCPUdpEndpoint Address)

/-- The numbers of the open transactions. -/
def pendingIds : List Int :=
  endpoint.pending.map Pending.transactionId

theorem ack_pending {endpoint : BFCPUdpEndpoint Address} (transactionId : Int)
    (distinct : endpoint.pendingIds.Nodup)
    : (endpoint.ack transactionId).pending
      = endpoint.pending.filter (fun entry => entry.transactionId ≠ transactionId) :=
  eraseP_eq_filter transactionId distinct

theorem ack_sublist (transactionId : Int)
    : (endpoint.ack transactionId).pendingIds.Sublist endpoint.pendingIds :=
  eraseP_sublist.map _

theorem dispatch_sublist (data : List BYTE)
    : (endpoint.dispatch medkit data).1.pendingIds.Sublist endpoint.pendingIds := by
  cases closes : acknowledgedBy medkit endpoint.userId data with
  | none => rw [pendingIds, dispatch_unacknowledged closes, pendingIds]
  | some transactionId =>
    rcases dispatch_acknowledged closes with once | twice
    · rw [pendingIds, once]
      exact ack_sublist endpoint transactionId
    · rw [pendingIds, twice]
      exact (ack_sublist _ transactionId).trans (ack_sublist endpoint transactionId)

/-- With distinct numbers an acknowledgement takes out the transaction it names, no other. -/
theorem dispatch_pending {endpoint : BFCPUdpEndpoint Address}
    (distinct : endpoint.pendingIds.Nodup) (data : List BYTE)
    : (endpoint.dispatch medkit data).1.pending
      = endpoint.pending.filter (fun entry =>
          acknowledgedBy medkit endpoint.userId data ≠ some entry.transactionId) := by
  cases closes : acknowledgedBy medkit endpoint.userId data with
  | none =>
    rw [dispatch_unacknowledged closes]
    simp
  | some transactionId =>
    have once := ack_pending transactionId distinct
    have twice : ((endpoint.ack transactionId).ack transactionId).pending
        = (endpoint.ack transactionId).pending := by
      rw [ack_pending transactionId ((ack_sublist endpoint transactionId).nodup distinct), once,
        filter_filter]
      simp
    have closed : (endpoint.dispatch medkit data).1.pending
        = (endpoint.ack transactionId).pending := by
      rcases dispatch_acknowledged closes with first | second
      · exact first
      · exact second.trans twice
    rw [closed, once]
    refine filter_congr (fun entry _ => ?_)
    simp [eq_comm]

theorem onPeriodic_sublist (nowUs : Nat)
    : (endpoint.onPeriodic nowUs).1.pendingIds.Sublist endpoint.pendingIds := by
  simp only [onPeriodic]
  split
  · exact .refl _
  · have sameNumber : Pending.transactionId
        ∘ (fun entry => if isDue nowUs entry then again nowUs entry else entry)
        = Pending.transactionId := by
      funext entry
      simp only [Function.comp_apply]
      split <;> rfl
    rw [pendingIds, map_map, sameNumber]
    exact filter_sublist.map _

/-- Only what the server starts is added to the open transactions. -/
theorem send_sublist (endpoint : BFCPUdpEndpoint Address) (msg : WireMessage) (attempt : Attempt)
    : (endpoint.send medkit msg attempt).1.pendingIds.Sublist
        (endpoint.pendingIds ++ if msg.responder then [] else [msg.transactionId]) := by
  have unchanged : endpoint.pendingIds.Sublist
      (endpoint.pendingIds ++ if msg.responder then [] else [msg.transactionId]) :=
    sublist_append_left _ _
  simp only [send]
  split
  · exact unchanged
  · split
    · exact unchanged
    · split
      · exact unchanged
      · by_cases delivered : attempt.delivered
        · cases responder : msg.responder with
          | true => simp [delivered, pendingIds]
          | false => cases final : msg.isIntermediate <;> simp [delivered, pendingIds]
        · simp [delivered]

theorem sendAll_sublist (msgs : List WireMessage) (attempts : List Attempt)
    : (endpoint.sendAll medkit msgs attempts).1.pendingIds.Sublist
        (endpoint.pendingIds
          ++ (msgs.filter (fun msg => !msg.responder)).map WireMessage.transactionId) := by
  induction msgs generalizing endpoint attempts with
  | nil => simp [sendAll]
  | cons msg rest ih =>
    have first := @send_sublist Address medkit endpoint msg (attempts.headD {})
    refine (ih (endpoint.send medkit msg (attempts.headD {})).1 attempts.tail).trans ?_
    refine (first.append_right _).trans ?_
    cases responder : msg.responder <;> simp [responder]

end BFCPUdpEndpoint

namespace UdpLeg

variable {Address : Type} {medkit : Medkit} (leg : UdpLeg Address)

/-- What the server starts through this endpoint it has started under a number of its own. -/
theorem outgoing_sublist (op : Op)
    : (((leg.outgoing op).filter (fun msg => !msg.responder)).map
        WireMessage.transactionId).Sublist
        (Turn.apply { server := leg.server } op).started := by
  rw [outgoing, filter_map, map_map, filter_filter]
  refine List.Sublist.map _ (monotone_filter_right _ ?_)
  intro entry chosen
  simp only [Bool.and_eq_true, decide_eq_true_eq] at chosen
  obtain ⟨started, own⟩ := chosen
  rw [own]
  simpa [transport, BFCPMessage.toWire] using started

theorem callServer_sublist (op : Op) (attempts : List Attempt)
    : (leg.callServer medkit op attempts).1.endpoint.pendingIds.Sublist
        (leg.endpoint.pendingIds ++ (Turn.apply { server := leg.server } op).started) := by
  simp only [callServer]
  split
  · exact nil_sublist _
  · exact (sendAll_sublist _ _ _).trans
      ((outgoing_sublist leg op).append_left _)

def serverOp? [DecidableEq Address] (medkit : Medkit) (leg : UdpLeg Address)
    : UdpEvent Address → Option Op
  | .receive source data _ =>
    match (leg.endpoint.onReadable medkit source data).2 with
    | .handedUp msg => some (.messageReceived msg.toServer leg.endpoint.transport)
    | .dropped | .replayed _ | .acknowledged => none
  | .periodic nowUs _ =>
    if (leg.endpoint.onPeriodic nowUs).2.2 then some (.transportClosed leg.endpoint.transport)
    else none
  | .serverCall op _ => if leg.isOwn op then none else some op
  | .pollError _ => some (.transportClosed leg.endpoint.transport)
  | .sendServerHello _ | .setRemote _ | .close => none

def givenIds [DecidableEq Address] (medkit : Medkit) (leg : UdpLeg Address)
    : UdpEvent Address → List Int
  | .sendServerHello _ => [((leg.endpoint.nextTransactionId % 0xFFFF + 1 : Nat) : Int)]
  | event =>
    ((leg.serverOp? medkit event).map (fun op =>
      (Turn.apply { server := leg.server } op).started)).getD []

def isGreeting : UdpEvent Address → Bool
  | .sendServerHello _ => true
  | _ => false

/-- Before an event, an open transaction has neither the next number of the endpoint, if it is to
greet, nor one of the next numbers of the server, if it is called; and it starts no more
transactions than these.
-/
@[mk_iff] structure Fresh [DecidableEq Address] (medkit : Medkit) (limit : Nat)
    (leg : UdpLeg Address) (event : UdpEvent Address) : Prop where
  greeting
    : isGreeting event = true
      → ((leg.endpoint.nextTransactionId % 0xFFFF + 1 : Nat) : Int) ∉ leg.endpoint.pendingIds
  ahead
    : (leg.serverOp? medkit event).isSome = true
      → ∀ id ∈ issued leg.server.transactionCounter limit, id ∉ leg.endpoint.pendingIds
  few
    : ∀ op ∈ leg.serverOp? medkit event,
      (Turn.apply { server := leg.server } op).started.length ≤ limit

instance [DecidableEq Address] (medkit : Medkit) (limit : Nat) (leg : UdpLeg Address)
    (event : UdpEvent Address) : Decidable (leg.Fresh medkit limit event) :=
  decidable_of_iff' _ (fresh_iff medkit limit leg event)

/-- What an operation starts takes the next numbers of the counter. -/
theorem started_sublist (server : BFCPFloorControlServer) (op : Op) {limit : Nat}
    (few : (Turn.apply { server } op).started.length ≤ limit)
    : (Turn.apply { server } op).started.Sublist (issued server.transactionCounter limit) := by
  obtain ⟨count, -, sent⟩ := Turn.apply_numbers { server } op
  have none : Turn.started { server } = [] := rfl
  rw [none, nil_append] at sent
  rw [sent, issued_eq_map, length_map, length_range] at few
  obtain ⟨others, rfl⟩ := Nat.exists_eq_add_of_le few
  rw [sent, issued_add]
  exact sublist_append_left _ _

section Steps

variable [DecidableEq Address]

theorem givenIds_fresh {leg : UdpLeg Address} {event : UdpEvent Address} {limit : Nat}
    (round : limit < 0xFFFF) (fresh : leg.Fresh medkit limit event)
    : (leg.givenIds medkit event).Nodup
      ∧ ∀ id ∈ leg.givenIds medkit event, id ∉ leg.endpoint.pendingIds := by
  obtain ⟨greeting, ahead, few⟩ := fresh
  have called : ((leg.serverOp? medkit event).map (fun op =>
        (Turn.apply { server := leg.server } op).started)).getD [] = leg.givenIds medkit event
      → (leg.givenIds medkit event).Nodup
        ∧ ∀ id ∈ leg.givenIds medkit event, id ∉ leg.endpoint.pendingIds := by
    intro same
    rw [← same]
    cases isOp : leg.serverOp? medkit event with
    | none => exact ⟨nodup_nil, nofun⟩
    | some op =>
      have next := started_sublist leg.server op (few op isOp)
      exact ⟨next.nodup (issued_nodup round.le _),
        fun id given => ahead (by rw [isOp]; rfl) id (next.subset given)⟩
  cases event with
  | sendServerHello attempt =>
    exact ⟨nodup_singleton _, fun id given => mem_singleton.mp given ▸ greeting rfl⟩
  | receive _ _ _ | periodic _ _ | serverCall _ _ | setRemote _ | close | pollError _ =>
    exact called rfl

theorem onReadable_sublist (endpoint : BFCPUdpEndpoint Address) (source : Address)
    (data : List BYTE)
    : (endpoint.onReadable medkit source data).1.pendingIds.Sublist endpoint.pendingIds := by
  simp only [onReadable]
  split_ifs
  · exact .refl _
  · exact dispatch_sublist _ _
  · exact .refl _
  · exact dispatch_sublist _ _

/-- An event opens transactions under the numbers it takes, and no others. -/
theorem step_sublist (event : UdpEvent Address)
    : (leg.step medkit event).endpoint.pendingIds.Sublist
        (leg.endpoint.pendingIds ++ leg.givenIds medkit event) := by
  have unchanged : ∀ ids, leg.endpoint.pendingIds.Sublist (leg.endpoint.pendingIds ++ ids) :=
    fun ids => sublist_append_left _ _
  cases event with
  | receive source data attempts =>
    have read := @onReadable_sublist _ medkit _ leg.endpoint source data
    simp only [step, handle, givenIds, serverOp?]
    rcases result : leg.endpoint.onReadable medkit source data with ⟨endpoint, outcome⟩
    rw [result] at read
    cases outcome with
    | dropped | replayed _ | acknowledged => exact read.trans (unchanged _)
    | handedUp msg => exact (callServer_sublist _ _ attempts).trans (read.append_right _)
  | periodic nowUs attempts =>
    have kept := leg.endpoint.onPeriodic_sublist nowUs
    simp only [step, handle, givenIds, serverOp?]
    rcases result : leg.endpoint.onPeriodic nowUs with ⟨endpoint, datagrams, givenUp⟩
    rw [result] at kept
    cases givenUp with
    | false => exact kept.trans (unchanged _)
    | true => exact (callServer_sublist _ _ attempts).trans (kept.append_right _)
  | serverCall op attempts =>
    simp only [step, handle, givenIds, serverOp?]
    cases leg.isOwn op with
    | true => exact unchanged _
    | false => exact callServer_sublist leg op attempts
  | sendServerHello attempt =>
    simp only [step, handle]
    exact send_sublist _ _ attempt
  | setRemote remote =>
    simp only [step, handle, setRemote]
    split <;> exact unchanged _
  | close => exact nil_sublist _
  | pollError attempts =>
    refine (callServer_sublist _ _ attempts).trans ?_
    exact sublist_append_right _ _

theorem step_distinct {leg : UdpLeg Address} {event : UdpEvent Address}
    {limit : Nat} (round : limit < 0xFFFF) (distinct : leg.endpoint.pendingIds.Nodup)
    (fresh : leg.Fresh medkit limit event)
    : (leg.step medkit event).endpoint.pendingIds.Nodup := by
  obtain ⟨given, unused⟩ := givenIds_fresh round fresh
  refine (step_sublist leg event).nodup (nodup_append'.mpr ⟨distinct, given, ?_⟩)
  intro id waiting isGiven
  exact unused id isGiven waiting

end Steps

/-- While the numbers ahead are not open, the open transactions have different numbers, and an
acknowledgement takes out the one that has the number it names.
-/
theorem acknowledgement_closes_own [DecidableEq Address] (medkit : Medkit)
    {limit : Nat} (round : limit < 0xFFFF) (conferenceId userId : Int) (handle : Nat)
    (events : List (UdpEvent Address))
    (fresh
      : EachStep (step medkit) (Fresh medkit limit)
          { endpoint := { userId, handle }, server := { conferenceId } } events)
    : let endpoint :=
        (run (step medkit) { endpoint := { userId, handle }, server := { conferenceId } } events
          ).endpoint
      endpoint.pendingIds.Nodup
      ∧ ∀ data, (endpoint.dispatch medkit data).1.pending
          = endpoint.pending.filter (fun entry =>
              acknowledgedBy medkit endpoint.userId data ≠ some entry.transactionId) := by
  intro endpoint
  have distinct : endpoint.pendingIds.Nodup :=
    @run_invariant_of_eachStep _ _ (step medkit) _
      (fun leg : UdpLeg Address => leg.endpoint.pendingIds.Nodup)
      (fun _ _ distinct fresh => step_distinct round distinct fresh)
      { endpoint := { userId, handle }, server := { conferenceId } } nodup_nil events fresh
  exact ⟨distinct, dispatch_pending distinct⟩

/-- User 30 is known to conference 5 and at address 7. -/
def invitedLeg : List (UdpEvent Nat) := [.serverCall (.addUser 30) [], .setRemote 7]

/-- The hello of the peer, and its acknowledgement of transaction 1. -/
def peerHello : List BYTE := [64, 11, 0, 0, 0, 0, 0, 5, 0, 8, 0, 30]

def peerHelloAck : List BYTE := [80, 12, 0, 0, 0, 0, 0, 5, 0, 1, 0, 30]

/-- The peer says hello, the server greets back and the peer acknowledges that. -/
theorem acknowledgement_closes_own_hello
    : let leg := run (step Medkit.bigEndian)
        { endpoint := { userId := 30, handle := 1 }, server := { conferenceId := 5 } }
        (invitedLeg ++ [.receive 7 peerHello [⟨true, 0⟩, ⟨true, 0⟩]])
      leg.endpoint.pendingIds = [1]
      ∧ (leg.endpoint.dispatch Medkit.bigEndian peerHelloAck).1.pending = [] := by
  intro leg
  have settled := acknowledgement_closes_own Medkit.bigEndian (by decide : 2 < 0xFFFF) 5 30 1
    (invitedLeg ++ [.receive 7 peerHello [⟨true, 0⟩, ⟨true, 0⟩]]) (by decide +kernel)
  refine ⟨by decide +kernel, (settled.2 peerHelloAck).trans ?_⟩
  decide +kernel

/-- The endpoint greets the peer first, and the server's own hello takes the same number: the
peer acknowledges one of the two, and both are closed.
-/
theorem acknowledgement_closes_two
    : let leg := run (step Medkit.bigEndian)
        { endpoint := { userId := 30, handle := 1 }, server := { conferenceId := 5 } }
        (invitedLeg
          ++ [.sendServerHello ⟨true, 0⟩, .receive 7 peerHello [⟨true, 0⟩, ⟨true, 0⟩]])
      leg.endpoint.pendingIds = [1, 1]
      ∧ (leg.endpoint.dispatch Medkit.bigEndian peerHelloAck).1.pending = [] := by
  decide +kernel

end UdpLeg

end MediaServer.Bfcp
