import MediaServer.Bfcp.Answers
import MediaServer.Bfcp.UdpEndpoint

/-! A request that comes again over UDP gets the answer that was kept, octet for octet, and is
not served again. The answer is only kept when the socket took it.
-/

namespace MediaServer.Bfcp

open Foundation WireMessage BFCPUdpEndpoint List

namespace BFCPUdpEndpoint

variable {Address : Type} {medkit : Medkit} (endpoint : BFCPUdpEndpoint Address)

theorem find?_keepAnswer (answer : Cached) (cache : List Cached) (transactionId : Int)
    : (keepAnswer answer cache).find? (fun entry => entry.transactionId = transactionId)
      = if answer.transactionId = transactionId then some answer
        else cache.find? (fun entry => entry.transactionId = transactionId) := by
  induction cache with
  | nil =>
    simp only [keepAnswer, find?_cons, find?_nil]
    split_ifs with own <;> simp [own]
  | cons entry rest ih =>
    rw [keepAnswer]
    by_cases same : entry.transactionId = answer.transactionId
    · rw [if_pos same]
      by_cases own : answer.transactionId = transactionId
      · simp [own]
      · simp [own, same]
    · rw [if_neg same]
      by_cases other : entry.transactionId = transactionId
      · have foreign : answer.transactionId ≠ transactionId := by
          rintro rfl
          exact same other
        simp [other, foreign]
      · simp only [find?_cons, other, decide_false]
        exact ih

/-- Everything but the kept answers and the open transactions is as before. -/
structure SameLink (before after : BFCPUdpEndpoint Address) : Prop where
  userId : after.userId = before.userId
  handle : after.handle = before.handle
  opened : after.opened = before.opened
  remote : after.remote = before.remote
  latched : after.latched = before.latched
  peerVersion : after.peerVersion = before.peerVersion
  finished : after.finished = before.finished

namespace SameLink

theorem refl : SameLink endpoint endpoint :=
  ⟨rfl, rfl, rfl, rfl, rfl, rfl, rfl⟩

theorem trans {first second third : BFCPUdpEndpoint Address} (left : SameLink first second)
    (right : SameLink second third)
    : SameLink first third where
  userId := right.userId.trans left.userId
  handle := right.handle.trans left.handle
  opened := right.opened.trans left.opened
  remote := right.remote.trans left.remote
  latched := right.latched.trans left.latched
  peerVersion := right.peerVersion.trans left.peerVersion
  finished := right.finished.trans left.finished

end SameLink

theorem send_sameLink (msg : WireMessage) (attempt : Attempt)
    : SameLink endpoint (endpoint.send medkit msg attempt).1 := by
  simp only [send]
  split
  · exact .refl endpoint
  · split
    · exact .refl endpoint
    · split
      · exact .refl endpoint
      · split_ifs <;> exact ⟨rfl, rfl, rfl, rfl, rfl, rfl, rfl⟩

theorem sendAll_sameLink (msgs : List WireMessage) (attempts : List Attempt)
    : SameLink endpoint (endpoint.sendAll medkit msgs attempts).1 := by
  induction msgs generalizing endpoint attempts with
  | nil => exact .refl endpoint
  | cons msg rest ih => exact (send_sameLink endpoint msg _).trans (ih _ _)

variable {msg : WireMessage}

/-- A message that answers no request of this transaction leaves its answer alone. -/
theorem send_findCached (attempt : Attempt) {transactionId : Int}
    (foreign : msg.responder = true → msg.transactionId ≠ transactionId)
    : (endpoint.send medkit msg attempt).1.findCached transactionId
      = endpoint.findCached transactionId := by
  simp only [send]
  split
  · rfl
  · split
    · rfl
    · split
      · rfl
      · split_ifs with _ answers
        · rfl
        · simp only [findCached, find?_keepAnswer]
          rw [if_neg (foreign answers)]
        · rfl
        · rfl

variable {msgs : List WireMessage}

theorem sendAll_findCached (attempts : List Attempt) {transactionId : Int}
    (foreign : ∀ msg ∈ msgs, msg.responder = true → msg.transactionId ≠ transactionId)
    : (endpoint.sendAll medkit msgs attempts).1.findCached transactionId
      = endpoint.findCached transactionId := by
  induction msgs generalizing endpoint attempts with
  | nil => rfl
  | cons msg rest ih =>
    refine (ih _ _ (fun msg member => foreign msg (.tail _ member))).trans ?_
    exact send_findCached endpoint _ (foreign msg (.head _))

/-- The endpoint is up and knows its peer. -/
structure CanSend (endpoint : BFCPUdpEndpoint Address) : Prop where
  opened : endpoint.opened = true
  running : endpoint.finished = false
  known : endpoint.remote.isSome = true

theorem CanSend.of_sameLink {before after : BFCPUdpEndpoint Address} (can : CanSend before)
    (same : SameLink before after)
    : CanSend after :=
  ⟨same.opened.trans can.opened, same.finished.trans can.running, by rw [same.remote, can.known]⟩

def kept (medkit : Medkit) (version : Nat) (call : WireMessage × Attempt) : Option Cached :=
  if call.1.responder && call.2.delivered then
    (call.1.serialize medkit version maxDatagramLen).map (fun datagram =>
      { transactionId := call.1.transactionId, datagram
        expiresUs := call.2.timeUs + t1GiveUpMs * 1000 })
  else none

variable {endpoint} {cached : Cached}

theorem send_kept (can : CanSend endpoint) {attempt : Attempt}
    (answered : kept medkit endpoint.peerVersion (msg, attempt) = some cached)
    : (endpoint.send medkit msg attempt).1.findCached cached.transactionId = some cached
      ∧ (endpoint.send medkit msg attempt).2 = [cached.datagram] := by
  simp only [kept] at answered
  split at answered
  · rename_i both
    simp only [Bool.and_eq_true] at both
    obtain ⟨datagram, written, rfl⟩ := Option.map_eq_some_iff.mp answered
    have known : endpoint.remote.isNone = false := by
      rw [← Option.not_isSome, can.known]
      rfl
    simp [send, written, both.1, both.2, can.opened, can.running, known, findCached,
      find?_keepAnswer]
  · cases answered

theorem responder_of_kept {version : Nat} {call : WireMessage × Attempt}
    (answered : kept medkit version call = some cached)
    : call.1.responder = true := by
  by_contra plain
  simp [kept, plain] at answered

theorem transactionId_of_kept {version : Nat} {call : WireMessage × Attempt}
    (answered : kept medkit version call = some cached)
    : cached.transactionId = call.1.transactionId := by
  simp only [kept] at answered
  split at answered
  · obtain ⟨datagram, -, rfl⟩ := Option.map_eq_some_iff.mp answered
    rfl
  · cases answered

/-- The one answer among several messages is sent and kept, if the socket takes it. -/
theorem sendAll_kept (can : CanSend endpoint) {attempts : List Attempt} {answer : WireMessage}
    (single : msgs.filter responder = [answer])
    (answered
      : (msgs.zip attempts).findSome? (kept medkit endpoint.peerVersion) = some cached)
    : (endpoint.sendAll medkit msgs attempts).1.findCached cached.transactionId = some cached
      ∧ cached.datagram ∈ (endpoint.sendAll medkit msgs attempts).2 := by
  induction msgs generalizing endpoint attempts with
  | nil => cases single
  | cons msg rest ih =>
    cases attempts with
    | nil => cases answered
    | cons attempt attempts =>
      have same : SameLink endpoint (endpoint.send medkit msg attempt).1 :=
        send_sameLink endpoint msg attempt
      simp only [sendAll]
      simp only [zip_cons_cons, findSome?_cons] at answered
      cases isAnswer : msg.responder with
      | true =>
        -- the other messages answer nothing
        rw [filter_cons_of_pos isAnswer] at single
        have others : ∀ other ∈ rest, other.responder = false := by
          simpa [filter_eq_nil_iff] using (List.cons.inj single).2
        cases found : kept medkit endpoint.peerVersion (msg, attempt) with
        | some first =>
          rw [found] at answered
          cases answered
          obtain ⟨stored, sent⟩ := send_kept can found
          refine ⟨?_, by simp [sent]⟩
          rw [← stored]
          refine sendAll_findCached _ _ ?_
          intro other member responder
          rw [others other member] at responder
          cases responder
        | none =>
          rw [found] at answered
          obtain ⟨call, member, later⟩ := exists_of_findSome?_eq_some answered
          have plain := others call.1 (of_mem_zip member).1
          rw [responder_of_kept later] at plain
          cases plain
      | false =>
        have unkept : kept medkit endpoint.peerVersion (msg, attempt) = none := by
          simp [kept, isAnswer]
        rw [unkept, ← same.peerVersion] at answered
        rw [filter_cons_of_neg (by simp [isAnswer])] at single
        obtain ⟨stored, sent⟩ := ih (can.of_sameLink same) single answered
        exact ⟨stored, mem_append_right _ sent⟩

/-- Nothing of the link but the version that the peer speaks changes when a datagram is read. -/
theorem dispatch_endpoint (medkit : Medkit) (endpoint : BFCPUdpEndpoint Address) (data : List BYTE)
    : ∃ peerVersion pending,
        (endpoint.dispatch medkit data).1 = { endpoint with peerVersion, pending } := by
  simp only [dispatch]
  split
  · exact ⟨_, _, rfl⟩
  · exact ⟨_, _, rfl⟩
  · split_ifs
    all_goals
      first
        | exact ⟨_, _, rfl⟩
        | (split <;> exact ⟨_, _, rfl⟩)

variable {data : List BYTE}

theorem dispatch_handedUp (handed : (endpoint.dispatch medkit data).2 = .handedUp msg)
    : WireMessage.parse medkit data = .value msg ∧ msg.userId = endpoint.userId := by
  simp only [dispatch] at handed
  split at handed
  · cases handed
  · cases handed
  · rename_i read parsed
    by_cases own : read.userId = endpoint.userId
    · rw [if_neg (by simpa using own)] at handed
      split at handed
      · cases handed
      · dsimp only at handed
        split at handed
        · cases handed
        · cases handed
          exact ⟨parsed, own⟩
    · rw [if_pos own] at handed
      cases handed

@[simp] theorem findCached_ack (endpoint : BFCPUdpEndpoint Address) (transactionId other : Int)
    : (endpoint.ack transactionId).findCached other = endpoint.findCached other := rfl

theorem dispatch_replayed (read : WireMessage.parse medkit data = .value msg)
    (own : msg.userId = endpoint.userId) (request : msg.responder = false)
    (stored : endpoint.findCached msg.transactionId = some cached)
    : (endpoint.dispatch medkit data).2 = .replayed cached.datagram := by
  have found : ∀ peerVersion,
      findCached { endpoint with peerVersion } msg.transactionId = some cached :=
    fun _ => stored
  simp only [dispatch, read]
  rw [if_neg (by simpa using own)]
  simp only [request, Bool.false_eq_true, if_false]
  split_ifs <;> simp only [findCached_ack, found]

/-- The peer is known, and the answer is there for a request that comes again. -/
structure Remembers (endpoint : BFCPUdpEndpoint Address) (source : Address) (userId : Int)
    (cached : Cached) : Prop where
  latched : endpoint.latched = true
  remote : endpoint.remote = some source
  own : endpoint.userId = userId
  stored : endpoint.findCached cached.transactionId = some cached

namespace Remembers

variable {endpoint : BFCPUdpEndpoint Address} {source : Address} {userId : Int} {cached : Cached}

section

variable (remembers : Remembers endpoint source userId cached)
include remembers

theorem finish : Remembers endpoint.finish source userId cached :=
  { remembers with }

theorem count (nextTransactionId : Nat)
    : Remembers { endpoint with nextTransactionId } source userId cached :=
  { remembers with }

theorem setRemote (remote : Address)
    : Remembers (endpoint.setRemote remote) source userId cached := by
  rw [BFCPUdpEndpoint.setRemote, if_pos remembers.latched]
  exact remembers

theorem of_sameLink {after : BFCPUdpEndpoint Address} (same : SameLink endpoint after)
    (stored : after.findCached cached.transactionId = endpoint.findCached cached.transactionId)
    : Remembers after source userId cached :=
  ⟨same.latched.trans remembers.latched, same.remote.trans remembers.remote,
    same.userId.trans remembers.own, stored.trans remembers.stored⟩

theorem send {msg : WireMessage} (request : msg.responder = false) (attempt : Attempt)
    : Remembers (endpoint.send medkit msg attempt).1 source userId cached :=
  remembers.of_sameLink (send_sameLink endpoint msg attempt)
    (send_findCached endpoint attempt (by simp [request]))

theorem sendAll
    (foreign : ∀ msg ∈ msgs, msg.responder = true → msg.transactionId ≠ cached.transactionId)
    (attempts : List Attempt)
    : Remembers (endpoint.sendAll medkit msgs attempts).1 source userId cached :=
  remembers.of_sameLink (sendAll_sameLink endpoint msgs attempts)
    (sendAll_findCached endpoint attempts foreign)

theorem dispatch (data : List BYTE)
    : Remembers (endpoint.dispatch medkit data).1 source userId cached := by
  obtain ⟨peerVersion, pending, after⟩ := dispatch_endpoint medkit endpoint data
  rw [after]
  exact { remembers with }

theorem onPeriodic {nowUs : Nat} (fresh : nowUs < cached.expiresUs)
    : Remembers (endpoint.onPeriodic nowUs).1 source userId cached := by
  rw [BFCPUdpEndpoint.onPeriodic]
  split_ifs
  · exact remembers
  · refine { remembers with stored := ?_ }
    obtain ⟨same, before, after, split, others⟩ :=
      find?_eq_some_iff_append.mp remembers.stored
    simp only [findCached, find?_filter]
    refine find?_eq_some_iff_append.mpr ⟨by simp [fresh], before, after, split, ?_⟩
    intro entry member
    have foreign := others entry member
    simp only [Bool.not_eq_true', decide_eq_false_iff_not] at foreign ⊢
    simp [foreign]

end

variable [DecidableEq Address]

theorem onReadable (remembers : Remembers endpoint source userId cached) (sender : Address)
    (data : List BYTE)
    : Remembers (endpoint.onReadable medkit sender data).1 source userId cached := by
  simp only [BFCPUdpEndpoint.onReadable]
  split_ifs with finished latched
  · exact remembers
  · rw [remembers.latched] at latched
    cases latched
  · exact remembers
  · exact remembers.dispatch _

/-- The request that comes again gets the answer of the first time. -/
theorem replayed (remembers : Remembers endpoint source userId cached)
    (running : endpoint.finished = false) {data : List BYTE} {msg : WireMessage}
    (read : WireMessage.parse medkit (data.take maxDatagramLen) = .value msg)
    (own : msg.userId = userId) (request : msg.responder = false)
    (same : cached.transactionId = msg.transactionId)
    : (endpoint.onReadable medkit source data).2 = .replayed cached.datagram := by
  simp only [BFCPUdpEndpoint.onReadable, remembers.latched, running]
  rw [if_neg (by simp), if_neg (by simp), if_neg (by simpa using remembers.remote)]
  refine dispatch_replayed read (own.trans remembers.own.symm) request ?_
  rw [← same]
  exact remembers.stored

end Remembers

/-- What a datagram that is handed up says of the endpoint. -/
theorem onReadable_handedUp [DecidableEq Address] {endpoint : BFCPUdpEndpoint Address}
    {source : Address} (handed : (endpoint.onReadable medkit source data).2 = .handedUp msg)
    : WireMessage.parse medkit (data.take maxDatagramLen) = .value msg
      ∧ msg.userId = endpoint.userId ∧ endpoint.finished = false
      ∧ ∃ peerVersion pending,
          (endpoint.onReadable medkit source data).1
            = { endpoint with peerVersion, pending, remote := some source, latched := true } := by
  simp only [onReadable] at handed ⊢
  split_ifs at handed ⊢ with finished latched remote
  · obtain ⟨read, own⟩ := dispatch_handedUp handed
    obtain ⟨peerVersion, pending, after⟩ := dispatch_endpoint medkit
      { endpoint with remote := some source, latched := true } (data.take maxDatagramLen)
    exact ⟨read, own, by simpa using finished, peerVersion, pending, after⟩
  · obtain ⟨read, own⟩ := dispatch_handedUp handed
    obtain ⟨peerVersion, pending, after⟩ := dispatch_endpoint medkit
      endpoint (data.take maxDatagramLen)
    refine ⟨read, own, by simpa using finished, peerVersion, pending, ?_⟩
    rw [after]
    simp only [Bool.not_eq_true, Bool.not_eq_false'] at latched
    simp only [not_not] at remote
    rw [← remote, ← latched]

theorem onReadable_opened [DecidableEq Address] (endpoint : BFCPUdpEndpoint Address)
    (source : Address) (data : List BYTE)
    : (endpoint.onReadable medkit source data).1.opened = endpoint.opened := by
  have read : ∀ endpoint : BFCPUdpEndpoint Address,
      (endpoint.dispatch medkit (data.take maxDatagramLen)).1.opened = endpoint.opened := by
    intro endpoint
    obtain ⟨peerVersion, pending, after⟩ :=
      dispatch_endpoint medkit endpoint (data.take maxDatagramLen)
    rw [after]
  simp only [onReadable]
  split_ifs <;> simp only [read]

end BFCPUdpEndpoint

namespace UdpLeg

variable {Address : Type} {medkit : Medkit}

theorem outgoing_responses (leg : UdpLeg Address) (op : Op)
    : (leg.outgoing op).filter responder
      = ((Turn.apply { server := leg.server } op).answers.filter
          (fun entry => entry.1 = leg.endpoint.transport)).map (fun entry => entry.2.toWire) := by
  rw [outgoing, Turn.answers, filter_map, filter_filter, filter_filter]
  congr 1
  refine filter_congr (fun entry _ => ?_)
  exact Bool.and_comm _ _

/-- An answer only goes to the endpoint that the request came in on. -/
theorem outgoing_answers {leg : UdpLeg Address} (invariant : Invariant leg.server) (op : Op)
    : (leg.outgoing op).filter responder = []
      ∨ ∃ msg answer,
          op = .messageReceived msg leg.endpoint.transport
          ∧ (leg.outgoing op).filter responder = [answer]
          ∧ answer.transactionId = msg.transactionId := by
  rw [outgoing_responses]
  rcases Turn.apply_answers invariant op with none | ⟨msg, source, answer, rfl, same, single⟩
  · left
    rw [none]
    rfl
  · rw [single]
    by_cases own : source = leg.endpoint.transport
    · right
      refine ⟨msg, answer.toWire, by rw [own], ?_, same⟩
      rw [filter_cons_of_pos (by simpa using own)]
      rfl
    · left
      rw [filter_cons_of_neg (by simpa using own)]
      rfl

structure Keeps (source : Address) (userId : Int) (cached : Cached) (leg : UdpLeg Address)
    : Prop where
  server : Invariant leg.server
  endpoint : leg.endpoint.Remembers source userId cached

section Keeps

variable {source : Address} {userId : Int} {cached : Cached} {leg : UdpLeg Address}

/-- A section of the server that answers nothing of this transaction keeps the answer. -/
theorem callServer_keeps (keeps : Keeps source userId cached leg) {op : Op}
    (attempts : List Attempt)
    (foreign
      : ∀ msg, op = .messageReceived msg leg.endpoint.transport
        → msg.transactionId = cached.transactionId
        → (leg.outgoing op).filter responder = [])
    : Keeps source userId cached (leg.callServer medkit op attempts).1 := by
  have others : ∀ msg ∈ leg.outgoing op,
      msg.responder = true → msg.transactionId ≠ cached.transactionId := by
    intro msg member responder same
    have listed : msg ∈ (leg.outgoing op).filter WireMessage.responder :=
      mem_filter.mpr ⟨member, responder⟩
    rcases outgoing_answers keeps.server op with none | ⟨request, answer, called, single, answers⟩
    · rw [none] at listed
      cases listed
    · have answer_eq : msg = answer := by
        rw [single] at listed
        exact mem_singleton.mp listed
      have none := foreign request called (by rw [← answers, ← answer_eq, same])
      rw [none] at listed
      cases listed
  refine ⟨@Turn.apply_invariant { server := leg.server } keeps.server op, ?_⟩
  have remembers
      : (leg.endpoint.sendAll medkit (leg.outgoing op) attempts).1.Remembers source userId
          cached :=
    keeps.endpoint.sendAll others attempts
  simp only [callServer]
  split_ifs
  · exact remembers.finish
  · exact remembers

/-- The server's answer, when it goes out, is the one that is remembered. -/
theorem callServer_kept (server : Invariant leg.server) (can : leg.endpoint.CanSend)
    (latched : leg.endpoint.latched = true) (remote : leg.endpoint.remote = some source)
    {msg : BFCPMessage} {attempts : List Attempt}
    (answered
      : ((leg.outgoing (.messageReceived msg leg.endpoint.transport)).zip attempts).findSome?
          (BFCPUdpEndpoint.kept medkit leg.endpoint.peerVersion) = some cached)
    : Keeps source leg.endpoint.userId cached
        (leg.callServer medkit (.messageReceived msg leg.endpoint.transport) attempts).1
      ∧ cached.datagram
          ∈ (leg.callServer medkit (.messageReceived msg leg.endpoint.transport) attempts).2
      ∧ cached.transactionId = msg.transactionId := by
  obtain ⟨call, member, found⟩ := exists_of_findSome?_eq_some answered
  have listed := mem_filter.mpr ⟨(of_mem_zip member).1, responder_of_kept found⟩
  rcases outgoing_answers server (.messageReceived msg leg.endpoint.transport) with
    none | ⟨request, answer, called, single, same⟩
  · rw [none] at listed
    cases listed
  · obtain ⟨rfl, -⟩ := Op.messageReceived.inj called
    have isAnswer : call.1 = answer := by
      rw [single] at listed
      exact mem_singleton.mp listed
    obtain ⟨stored, sent⟩ := sendAll_kept can single answered
    have link := @sendAll_sameLink _ medkit leg.endpoint
      (leg.outgoing (.messageReceived msg leg.endpoint.transport)) attempts
    have remembers := BFCPUdpEndpoint.Remembers.mk (link.latched.trans latched)
      (link.remote.trans remote) link.userId stored
    refine ⟨⟨Turn.apply_invariant server _, ?_⟩, sent, ?_⟩
    · simp only [callServer]
      split_ifs
      · exact remembers.finish
      · exact remembers
    · rw [transactionId_of_kept found, isAnswer, same]

variable [DecidableEq Address]

/-- The server's answer to a datagram, as it is kept: it fits a datagram and the socket takes
it.
-/
def keptAnswer (medkit : Medkit) (leg : UdpLeg Address) (source : Address) (data : List BYTE)
    (attempts : List Attempt) : Option Cached :=
  match leg.endpoint.onReadable medkit source data with
  | (endpoint, .handedUp msg) =>
    ((outgoing { leg with endpoint }
        (.messageReceived msg.toServer leg.endpoint.transport)).zip attempts).findSome?
      (BFCPUdpEndpoint.kept medkit endpoint.peerVersion)
  | _ => none

/-- The event ends the life of a kept answer: its time is over, or a datagram that passes for
an answer of the peer is answered under the same transaction.
-/
def dropsAnswer (medkit : Medkit) (cached : Cached) (leg : UdpLeg Address)
    : UdpEvent Address → Bool
  | .receive source data _ =>
    match leg.endpoint.onReadable medkit source data with
    | (endpoint, .handedUp msg) =>
      msg.transactionId = cached.transactionId
        && (outgoing { leg with endpoint }
            (.messageReceived msg.toServer leg.endpoint.transport)).any WireMessage.responder
    | _ => false
  | .periodic nowUs _ => cached.expiresUs ≤ nowUs
  | _ => false

theorem receive_keeps (keeps : Keeps source userId cached leg) {sender : Address}
    {data : List BYTE} {attempts : List Attempt}
    (permitted : leg.dropsAnswer medkit cached (.receive sender data attempts) = false)
    : Keeps source userId cached (leg.step medkit (.receive sender data attempts)) := by
  have read : (leg.endpoint.onReadable medkit sender data).1.Remembers source userId cached :=
    keeps.endpoint.onReadable sender data
  simp only [step, handle]
  simp only [dropsAnswer] at permitted
  rcases result : leg.endpoint.onReadable medkit sender data with ⟨endpoint, outcome⟩
  rw [result] at read permitted
  have after : Keeps source userId cached { leg with endpoint } := ⟨keeps.server, read⟩
  cases outcome with
  | dropped | replayed datagram | acknowledged => exact after
  | handedUp msg =>
    refine callServer_keeps after attempts ?_
    intro request called same
    obtain ⟨rfl, -⟩ := Op.messageReceived.inj called
    replace same : msg.transactionId = cached.transactionId := same
    have silent :
        (outgoing { leg with endpoint }
          (.messageReceived msg.toServer leg.endpoint.transport)).any responder
          = false := by
      simpa [same] using permitted
    simpa [filter_eq_nil_iff] using silent

theorem step_keeps (keeps : Keeps source userId cached leg) (event : UdpEvent Address)
    (permitted : leg.dropsAnswer medkit cached event = false)
    : Keeps source userId cached (leg.step medkit event) := by
  cases event with
  | receive sender data attempts => exact receive_keeps keeps permitted
  | periodic nowUs attempts =>
    have fresh : nowUs < cached.expiresUs := by simpa [dropsAnswer] using permitted
    have after : Keeps source userId cached
        { leg with endpoint := (leg.endpoint.onPeriodic nowUs).1 } :=
      ⟨keeps.server, keeps.endpoint.onPeriodic fresh⟩
    simp only [step, handle]
    split_ifs
    · exact callServer_keeps after attempts (fun _ called => by cases called)
    · exact after
  | serverCall op attempts =>
    simp only [step, handle]
    split_ifs with own
    · exact keeps
    · refine callServer_keeps keeps attempts ?_
      rintro msg rfl
      simp [isOwn] at own
  | sendServerHello attempt =>
    simp only [step, handle]
    refine ⟨keeps.server, ?_⟩
    exact (keeps.endpoint.count _).send rfl attempt
  | setRemote remote => exact ⟨keeps.server, keeps.endpoint.setRemote remote⟩
  | close => exact ⟨keeps.server, keeps.endpoint.finish⟩
  | pollError attempts =>
    have after : Keeps source userId cached { leg with endpoint := leg.endpoint.finish } :=
      ⟨keeps.server, keeps.endpoint.finish⟩
    exact callServer_keeps after attempts (fun _ called => by cases called)

/-- A request whose answer goes out: it was read, and the answer is remembered. -/
theorem receive_kept (server : Invariant leg.server) (opened : leg.endpoint.opened = true)
    {data : List BYTE} {attempts : List Attempt} {msg : WireMessage}
    (served : (leg.handle medkit (.receive source data attempts)).2.received = [msg])
    (answered : leg.keptAnswer medkit source data attempts = some cached)
    : Keeps source msg.userId cached (leg.step medkit (.receive source data attempts))
      ∧ cached.datagram ∈ (leg.handle medkit (.receive source data attempts)).2.datagrams
      ∧ cached.transactionId = msg.transactionId
      ∧ WireMessage.parse medkit (data.take maxDatagramLen) = .value msg := by
  simp only [step, handle, keptAnswer] at served answered ⊢
  rcases result : leg.endpoint.onReadable medkit source data with ⟨endpoint, outcome⟩
  rw [result] at served answered
  cases outcome with
  | dropped | replayed datagram | acknowledged => cases answered
  | handedUp msg =>
    cases served
    obtain ⟨read, own, running, peerVersion, pending, after⟩ :=
      onReadable_handedUp (congrArg Prod.snd result)
    rw [result] at after
    cases after
    obtain ⟨keeps, sent, same⟩ :=
      @callServer_kept _ medkit source cached
        { leg with
          endpoint :=
            { leg.endpoint with peerVersion, pending, remote := some source, latched := true } }
        server ⟨opened, running, rfl⟩ rfl rfl _ _ answered
    rw [own]
    exact ⟨keeps, sent, same, read⟩

end Keeps

/-- The server is in order and the socket is open, as in every leg that a run reaches. -/
structure Ready (leg : UdpLeg Address) : Prop where
  server : Invariant leg.server
  opened : leg.endpoint.opened = true

theorem callServer_ready {leg : UdpLeg Address} (ready : leg.Ready) (op : Op)
    (attempts : List Attempt)
    : (leg.callServer medkit op attempts).1.Ready := by
  have link := @sendAll_sameLink _ medkit leg.endpoint (leg.outgoing op) attempts
  refine ⟨@Turn.apply_invariant { server := leg.server } ready.server op, ?_⟩
  simp only [callServer]
  split_ifs <;> exact link.opened.trans ready.opened

variable [DecidableEq Address]

theorem step_ready {leg : UdpLeg Address} (ready : leg.Ready) (event : UdpEvent Address)
    : (leg.step medkit event).Ready := by
  cases event with
  | receive source data attempts =>
    have opened : (leg.endpoint.onReadable medkit source data).1.opened = true :=
      (onReadable_opened leg.endpoint source data).trans ready.opened
    rcases result : leg.endpoint.onReadable medkit source data with ⟨endpoint, outcome⟩
    rw [result] at opened
    simp only [step, handle, result]
    have after : Ready { leg with endpoint } := ⟨ready.server, opened⟩
    cases outcome with
    | dropped | replayed datagram | acknowledged => exact after
    | handedUp msg => exact callServer_ready after _ attempts
  | periodic nowUs attempts =>
    have after : Ready { leg with endpoint := (leg.endpoint.onPeriodic nowUs).1 } := by
      refine ⟨ready.server, ?_⟩
      simp only [onPeriodic]
      split_ifs <;> exact ready.opened
    simp only [step, handle]
    split_ifs
    · exact callServer_ready after _ attempts
    · exact after
  | serverCall op attempts =>
    simp only [step, handle]
    split_ifs
    · exact ready
    · exact callServer_ready ready op attempts
  | sendServerHello attempt =>
    simp only [step, handle]
    exact ⟨ready.server, (send_sameLink _ _ attempt).opened.trans ready.opened⟩
  | setRemote remote =>
    refine ⟨ready.server, ?_⟩
    simp only [step, handle, setRemote]
    split_ifs <;> exact ready.opened
  | close => exact ⟨ready.server, ready.opened⟩
  | pollError attempts =>
    have after : Ready { leg with endpoint := leg.endpoint.finish } :=
      ⟨ready.server, ready.opened⟩
    exact callServer_ready after _ attempts

/-- A request that comes again, before the time of its answer is over, gets the same octets
and is not served again. The socket took the answer, and no datagram that passes for an answer
of the peer was answered under the same transaction.
-/
theorem repeated_request_replayed (medkit : Medkit) (conferenceId userId : Int) (handle : Nat)
    (before after : List (UdpEvent Address)) (source : Address) (data : List BYTE)
    (attempts others : List Attempt) (msg : WireMessage) (cached : Cached)
    (first second third : UdpLeg Address)
    (reached
      : first
        = run (step medkit) { endpoint := { userId, handle }, server := { conferenceId } } before)
    (served : (first.handle medkit (.receive source data attempts)).2.received = [msg])
    (request : msg.responder = false)
    (answered : first.keptAnswer medkit source data attempts = some cached)
    (received : second = first.step medkit (.receive source data attempts))
    (permitted
      : EachStep (step medkit) (fun leg event => leg.dropsAnswer medkit cached event = false)
          second after)
    (later : third = run (step medkit) second after) (running : third.endpoint.finished = false)
    : cached.datagram ∈ (first.handle medkit (.receive source data attempts)).2.datagrams
      ∧ (third.handle medkit (.receive source data others)).2
        = { datagrams := [cached.datagram], received := [] } := by
  have initially
      : ({ endpoint := { userId, handle }, server := { conferenceId } } : UdpLeg Address).Ready :=
    ⟨BFCPFloorControlServer.run_floorInvariant conferenceId [], rfl⟩
  have ready : first.Ready := by
    rw [reached]
    exact @run_invariant _ _ (step medkit) Ready (fun _ event ready => step_ready ready event) _
      initially before
  obtain ⟨keeps, sent, same, read⟩ := receive_kept ready.server ready.opened served answered
  refine ⟨sent, ?_⟩
  have still : Keeps source msg.userId cached third := by
    rw [later]
    rw [← received] at keeps
    exact @run_invariant_of_eachStep _ _ (step medkit) _ (Keeps source msg.userId cached)
      (fun _ event keeps => step_keeps keeps event) second keeps after permitted
  have replayed := still.endpoint.replayed running read rfl request same
  rcases result : third.endpoint.onReadable medkit source data with ⟨endpoint, outcome⟩
  rw [result] at replayed
  cases replayed
  simp only [UdpLeg.handle, result]

/-- User 30 says hello from address 7 in conference 5, which has one floor. -/
def greetedLeg : UdpLeg Nat :=
  run (step Medkit.bigEndian)
    { endpoint := { userId := 30, handle := 1 }, server := { conferenceId := 5 } }
    [.serverCall (.addUser 30) [], .serverCall (.addFloor 1) [],
      .receive 7 [64, 11, 0, 0, 0, 0, 0, 5, 0, 8, 0, 30] [⟨true, 0⟩]]

def askForFloor : List BYTE := [64, 1, 0, 1, 0, 0, 0, 5, 0, 9, 0, 30, 4, 4, 0, 1]

def askPending : List BYTE :=
  [80, 4, 0, 7, 0, 0, 0, 5, 0, 9, 0, 30, 31, 28, 0, 1, 36, 8, 0, 1, 10, 4, 1, 0, 35, 8, 0, 1,
    10, 4, 1, 0, 28, 4, 0, 30, 32, 4, 0, 30]

theorem repeated_request_replayed_floor
    : let second := greetedLeg.step Medkit.bigEndian (.receive 7 askForFloor [⟨true, 0⟩])
      let third := second.step Medkit.bigEndian (.periodic 15999999 [])
      (third.handle Medkit.bigEndian (.receive 7 askForFloor [])).2
        = { datagrams := [askPending], received := [] } := by
  refine (repeated_request_replayed Medkit.bigEndian 5 30 1 _ [.periodic 15999999 []] 7
    askForFloor [⟨true, 0⟩] []
    { attributes := .floorRequest [1] none none, transactionId := 9, conferenceId := 5
      userId := 30, version := 2 }
    { transactionId := 9, datagram := askPending, expiresUs := 16000000 }
    greetedLeg _ _ rfl ?_ rfl ?_ rfl ?_ rfl ?_).2
  · decide +kernel
  · decide +kernel
  · decide +kernel
  · decide +kernel

/-- The socket does not take the answer: the same datagram is served again, half a second
later, and there are two requests.
-/
theorem undelivered_answer_served_twice
    : let first := greetedLeg.handle Medkit.bigEndian (.receive 7 askForFloor [⟨false, 0⟩])
      let second := first.1.handle Medkit.bigEndian (.receive 7 askForFloor [⟨true, 500000⟩])
      first.2.datagrams = [askPending] ∧ first.1.endpoint.finished = false
      ∧ first.2.received.length = 1 ∧ second.2.received = first.2.received
      ∧ second.2.datagrams ≠ first.2.datagrams
      ∧ second.1.server.floorRequests.keys = [1, 2] := by
  decide +kernel

end UdpLeg

end MediaServer.Bfcp
