import MediaServer.Bfcp.UdpAnswers

/-! What the server starts over UDP is sent again until the peer acknowledges it or is given
up, on a schedule that depends on the ticks alone.
-/

namespace MediaServer.Bfcp

open Foundation List

/-- The transaction of the server that a datagram of the peer closes. -/
def acknowledgedBy (medkit : Medkit) (userId : Int) (data : List BYTE) : Option Int :=
  match WireMessage.parse medkit data with
  | .refused | .fault => none
  | .value msg =>
    if msg.userId = userId
        ∧ (msg.responder || msg.isAck || msg.attributes.primitive == Primitive.error.code) then
      some msg.transactionId
    else none

/-- When a message is sent again, and the time it waited for that. -/
structure Schedule where
  dueUs : Nat
  intervalMs : Nat
  deriving DecidableEq

namespace Schedule

def first (sentUs : Nat) : Schedule :=
  ⟨sentUs + BFCPUdpEndpoint.t1InitialMs * 1000, BFCPUdpEndpoint.t1InitialMs⟩

/-- A tick at or after the due time sends the message, and the next time is twice as far. -/
def tick (schedule : Schedule) (nowUs : Nat) : Schedule :=
  if schedule.dueUs ≤ nowUs then
    ⟨nowUs + schedule.intervalMs * 2 * 1000, schedule.intervalMs * 2⟩
  else schedule

def after (sentUs : Nat) (ticks : List Nat) : Schedule := ticks.foldl tick (first sentUs)

end Schedule

namespace BFCPUdpEndpoint

variable {Address : Type} {medkit : Medkit}

variable {endpoint : BFCPUdpEndpoint Address} {data : List BYTE}

theorem dispatch_unacknowledged (none : acknowledgedBy medkit endpoint.userId data = none)
    : (endpoint.dispatch medkit data).1.pending = endpoint.pending := by
  simp only [acknowledgedBy] at none
  simp only [dispatch]
  split
  · rfl
  · rfl
  · rename_i msg parsed
    rw [parsed] at none
    by_cases own : msg.userId = endpoint.userId
    · simp only [own, true_and, ite_eq_right_iff, reduceCtorEq, imp_false, Bool.or_eq_true,
        not_or, Bool.not_eq_true] at none
      obtain ⟨⟨notResponder, notAck⟩, notError⟩ := none
      rw [if_neg (by simpa using own)]
      simp only [notResponder, notAck, notError, Bool.or_self, Bool.false_eq_true, if_false]
      split <;> rfl
    · rw [if_pos own]

/-- An acknowledgement is looked for once, or twice when the primitive is one as well. -/
theorem dispatch_acknowledged {transactionId : Int}
    (closes : acknowledgedBy medkit endpoint.userId data = some transactionId)
    : (endpoint.dispatch medkit data).1.pending = (endpoint.ack transactionId).pending
      ∨ (endpoint.dispatch medkit data).1.pending
        = ((endpoint.ack transactionId).ack transactionId).pending := by
  simp only [acknowledgedBy] at closes
  simp only [dispatch]
  split
  · rename_i parsed
    rw [parsed] at closes
    cases closes
  · rename_i parsed
    rw [parsed] at closes
    cases closes
  · rename_i msg parsed
    rw [parsed] at closes
    dsimp only at closes
    split_ifs at closes with closing
    obtain ⟨own, closing⟩ := closing
    cases closes
    rw [if_neg (by simpa using own)]
    by_cases second : msg.isAck || msg.attributes.primitive == Primitive.error.code
    · cases responder : msg.responder with
      | false =>
        left
        simp only [second, Bool.false_eq_true, if_false, if_true]
        split <;> rfl
      | true =>
        right
        simp only [second, if_true]
        rfl
    · have responder : msg.responder = true := by
        rw [Bool.or_assoc, Bool.or_eq_true] at closing
        exact closing.resolve_right second
      left
      simp only [second, responder, if_true]
      rfl

theorem mem_ack {transactionId : Int} {entry : Pending}
    (other : entry.transactionId ≠ transactionId)
    : entry ∈ (endpoint.ack transactionId).pending ↔ entry ∈ endpoint.pending :=
  mem_eraseP_of_neg (by simpa using other)

/-- A transaction stays until it is acknowledged by its own number. -/
theorem mem_dispatch {entry : Pending}
    (unacknowledged
      : acknowledgedBy medkit endpoint.userId data ≠ some entry.transactionId)
    (waiting : entry ∈ endpoint.pending)
    : entry ∈ (endpoint.dispatch medkit data).1.pending := by
  cases closes : acknowledgedBy medkit endpoint.userId data with
  | none => rwa [dispatch_unacknowledged closes]
  | some transactionId =>
    have other : entry.transactionId ≠ transactionId := by
      rintro rfl
      exact unacknowledged closes
    rcases dispatch_acknowledged closes with once | twice
    · rwa [once, mem_ack other]
    · rwa [twice, mem_ack other, mem_ack other]

theorem mem_send (endpoint : BFCPUdpEndpoint Address) (msg : WireMessage) (attempt : Attempt)
    {entry : Pending} (waiting : entry ∈ endpoint.pending)
    : entry ∈ (endpoint.send medkit msg attempt).1.pending := by
  simp only [send]
  split
  · exact waiting
  · split
    · exact waiting
    · split
      · exact waiting
      · split_ifs
        · exact waiting
        · exact waiting
        · exact waiting
        · exact mem_append_left _ waiting

def entryAfter (transactionId : Int) (datagram : List BYTE) (sentUs : Nat) (ticks : List Nat)
    : Pending where
  transactionId
  datagram
  dueUs := (Schedule.after sentUs ticks).dueUs
  intervalMs := (Schedule.after sentUs ticks).intervalMs
  firstSentUs := sentUs

theorem again_entryAfter (transactionId : Int) (datagram : List BYTE) (sentUs : Nat)
    (ticks : List Nat) (nowUs : Nat)
    : (if isDue nowUs (entryAfter transactionId datagram sentUs ticks) then
        again nowUs (entryAfter transactionId datagram sentUs ticks)
      else entryAfter transactionId datagram sentUs ticks)
      = entryAfter transactionId datagram sentUs (ticks ++ [nowUs]) := by
  have next : Schedule.after sentUs (ticks ++ [nowUs])
      = (Schedule.after sentUs ticks).tick nowUs := by
    rw [Schedule.after, foldl_append]
    rfl
  by_cases due : (Schedule.after sentUs ticks).dueUs ≤ nowUs
  · have isDue : isDue nowUs (entryAfter transactionId datagram sentUs ticks) = true :=
      decide_eq_true due
    rw [if_pos isDue]
    simp only [again, entryAfter, next, Schedule.tick, due, if_true]
  · have notDue : ¬ isDue nowUs (entryAfter transactionId datagram sentUs ticks) = true :=
      fun now => due (of_decide_eq_true now)
    rw [if_neg notDue]
    simp only [entryAfter, next, Schedule.tick, due, if_false]

/-- A transaction of an endpoint that is not closed is open. -/
structure Waits (endpoint : BFCPUdpEndpoint Address) (userId : Int) (entry : Pending) : Prop where
  user : endpoint.userId = userId
  waiting : endpoint.finished = true ∨ entry ∈ endpoint.pending

namespace Waits

variable {endpoint : BFCPUdpEndpoint Address} {userId : Int} {entry : Pending}

theorem finish (waits : Waits endpoint userId entry) : Waits endpoint.finish userId entry :=
  ⟨waits.user, .inl rfl⟩

theorem of_kept (waits : Waits endpoint userId entry) {after : BFCPUdpEndpoint Address}
    (user : after.userId = endpoint.userId) (finished : after.finished = endpoint.finished)
    (kept : entry ∈ endpoint.pending → entry ∈ after.pending)
    : Waits after userId entry :=
  ⟨user.trans waits.user, waits.waiting.imp finished.trans kept⟩

theorem send (waits : Waits endpoint userId entry) (msg : WireMessage) (attempt : Attempt)
    : Waits (endpoint.send medkit msg attempt).1 userId entry :=
  have same := send_sameLink endpoint msg attempt
  waits.of_kept same.userId same.finished (mem_send endpoint msg attempt)

theorem sendAll (waits : Waits endpoint userId entry) (msgs : List WireMessage)
    (attempts : List Attempt)
    : Waits (endpoint.sendAll medkit msgs attempts).1 userId entry := by
  induction msgs generalizing endpoint attempts with
  | nil => exact waits
  | cons msg rest ih => exact ih (waits.send msg _) _

theorem dispatch (waits : Waits endpoint userId entry) {data : List BYTE}
    (unacknowledged : acknowledgedBy medkit userId data ≠ some entry.transactionId)
    : Waits (endpoint.dispatch medkit data).1 userId entry := by
  obtain ⟨peerVersion, pending, eq⟩ := dispatch_endpoint medkit endpoint data
  exact waits.of_kept (by rw [eq]) (by rw [eq]) (mem_dispatch (by rwa [waits.user]))

theorem onReadable [DecidableEq Address] (waits : Waits endpoint userId entry) {source : Address}
    {data : List BYTE}
    (unacknowledged
      : (endpoint.latched = true → endpoint.remote = some source)
        → acknowledgedBy medkit userId (data.take maxDatagramLen) ≠ some entry.transactionId)
    : Waits (endpoint.onReadable medkit source data).1 userId entry := by
  simp only [BFCPUdpEndpoint.onReadable]
  split_ifs with finished latched other
  · exact waits
  · have known : Waits { endpoint with remote := some source, latched := true } userId entry :=
      ⟨waits.user, waits.waiting⟩
    exact known.dispatch (unacknowledged fun before => by simp [before] at latched)
  · exact waits
  · exact waits.dispatch (unacknowledged fun _ => not_not.mp other)

section Ticks

variable {transactionId : Int} {datagram : List BYTE} {sentUs : Nat} {ticks : List Nat}
  (waits : Waits endpoint userId (entryAfter transactionId datagram sentUs ticks))
include waits

theorem onPeriodic {nowUs : Nat} (early : nowUs < sentUs + t1GiveUpMs * 1000)
    : Waits (endpoint.onPeriodic nowUs).1 userId
        (entryAfter transactionId datagram sentUs (ticks ++ [nowUs])) := by
  simp only [BFCPUdpEndpoint.onPeriodic]
  split_ifs with finished
  · exact ⟨waits.user, .inl finished⟩
  · have kept : entryAfter transactionId datagram sentUs ticks
        ∈ endpoint.pending.filter (fun entry => !isGivenUp nowUs entry) :=
      mem_filter.mpr ⟨waits.waiting.resolve_left finished,
        by simpa [isGivenUp, entryAfter] using early⟩
    refine ⟨waits.user, .inr ?_⟩
    rw [← again_entryAfter]
    exact mem_map_of_mem kept

variable (running : endpoint.finished = false)
include running

/-- What is due and not given up is sent again. -/
theorem resent {nowUs : Nat} (due : (Schedule.after sentUs ticks).dueUs ≤ nowUs)
    (early : nowUs < sentUs + t1GiveUpMs * 1000)
    : datagram ∈ (endpoint.onPeriodic nowUs).2.1 := by
  have waiting := waits.waiting.resolve_left (by simp [running])
  simp only [BFCPUdpEndpoint.onPeriodic, running, Bool.false_eq_true, if_false, mem_map,
    mem_filter]
  exact ⟨_, ⟨⟨waiting, by simpa [isGivenUp, entryAfter] using early⟩, decide_eq_true due⟩, rfl⟩

theorem givenUp {nowUs : Nat} (late : sentUs + t1GiveUpMs * 1000 ≤ nowUs)
    : (endpoint.onPeriodic nowUs).2.2 = true := by
  have waiting := waits.waiting.resolve_left (by simp [running])
  simp only [BFCPUdpEndpoint.onPeriodic, running, Bool.false_eq_true, if_false, any_eq_true]
  exact ⟨_, waiting, by simpa [isGivenUp, entryAfter] using late⟩

end Ticks

end Waits

/-- A message that the socket took is waited for from then on. -/
theorem send_waits {endpoint : BFCPUdpEndpoint Address} (can : endpoint.CanSend)
    {msg : WireMessage} {attempt : Attempt} {datagram : List BYTE}
    (written : msg.serialize medkit endpoint.peerVersion maxDatagramLen = some datagram)
    (started : msg.responder = false) (final : msg.isIntermediate = false)
    (taken : attempt.delivered = true)
    : Waits (endpoint.send medkit msg attempt).1 endpoint.userId
        (entryAfter msg.transactionId datagram attempt.timeUs []) := by
  refine ⟨(send_sameLink endpoint msg attempt).userId, .inr ?_⟩
  have known : endpoint.remote.isNone = false := by
    rw [← Option.not_isSome, can.known]
    rfl
  simp only [send, can.opened, can.running, known, written, started, final, taken, Bool.not_true,
    Bool.or_self, Bool.false_eq_true, if_false]
  exact mem_append_right _ (mem_singleton.mpr rfl)

end BFCPUdpEndpoint

/-- A call of `Send`, or anything else that happens to the leg. -/
inductive LegCall (Address : Type)
  | send (msg : WireMessage) (attempt : Attempt)
  | event (event : UdpEvent Address)

def LegCall.tick? {Address : Type} : LegCall Address → Option Nat
  | .event (.periodic nowUs _) => some nowUs
  | _ => none

namespace UdpLeg

open BFCPUdpEndpoint

variable {Address : Type} {medkit : Medkit}

theorem callServer_waits {leg : UdpLeg Address} {userId : Int} {entry : Pending}
    (waits : leg.endpoint.Waits userId entry) (op : Op) (attempts : List Attempt)
    : (leg.callServer medkit op attempts).1.endpoint.Waits userId entry := by
  have sent : (leg.endpoint.sendAll medkit (leg.outgoing op) attempts).1.Waits userId entry :=
    waits.sendAll _ attempts
  simp only [callServer]
  split_ifs
  · exact sent.finish
  · exact sent

variable [DecidableEq Address]

def call (medkit : Medkit) (leg : UdpLeg Address) : LegCall Address → UdpLeg Address
  | .send msg attempt => { leg with endpoint := (leg.endpoint.send medkit msg attempt).1 }
  | .event event => leg.step medkit event

/-- The peer does not acknowledge the transaction, and it is not time to give it up. -/
def Unanswered (medkit : Medkit) (transactionId : Int) (giveUpUs : Nat) (leg : UdpLeg Address)
    : LegCall Address → Prop
  | .event (.receive source data _) =>
    (leg.endpoint.latched = true → leg.endpoint.remote = some source)
      → acknowledgedBy medkit leg.endpoint.userId (data.take maxDatagramLen) ≠ some transactionId
  | .event (.periodic nowUs _) => nowUs < giveUpUs
  | _ => True

section

variable {leg : UdpLeg Address} {userId transactionId : Int} {datagram : List BYTE} {sentUs : Nat}
  {ticks : List Nat}
  (waits : leg.endpoint.Waits userId (entryAfter transactionId datagram sentUs ticks))
include waits

theorem call_waits {next : LegCall Address}
    (unanswered : leg.Unanswered medkit transactionId (sentUs + t1GiveUpMs * 1000) next)
    : (leg.call medkit next).endpoint.Waits userId
        (entryAfter transactionId datagram sentUs (ticks ++ next.tick?.toList)) := by
  have unchanged := (append_nil ticks).symm
  cases next with
  | send msg attempt => exact unchanged ▸ waits.send msg attempt
  | event event =>
    cases event with
    | periodic nowUs attempts =>
      have after := waits.onPeriodic unanswered
      simp only [call, step, handle]
      split_ifs
      · exact callServer_waits after _ attempts
      · exact after
    | receive source data attempts =>
      have read : (leg.endpoint.onReadable medkit source data).1.Waits userId _ :=
        waits.onReadable (by rw [← waits.user]; exact unanswered)
      simp only [call, step, handle]
      rcases result : leg.endpoint.onReadable medkit source data with ⟨endpoint, outcome⟩
      rw [result] at read
      cases outcome with
      | dropped | replayed _ | acknowledged => exact unchanged ▸ read
      | handedUp msg => exact unchanged ▸ callServer_waits read _ attempts
    | serverCall op attempts =>
      simp only [call, step, handle]
      split_ifs
      · exact unchanged ▸ waits
      · exact unchanged ▸ callServer_waits waits op attempts
    | sendServerHello attempt =>
      have numbered : Waits
          { leg.endpoint with nextTransactionId := leg.endpoint.nextTransactionId % 0xFFFF + 1 }
          userId _ := ⟨waits.user, waits.waiting⟩
      simp only [call, step, handle]
      exact unchanged ▸ numbered.send _ attempt
    | setRemote remote =>
      simp only [call, step, handle, setRemote]
      split_ifs
      · exact unchanged ▸ waits
      · exact unchanged ▸ ⟨waits.user, waits.waiting⟩
    | close => exact unchanged ▸ waits.finish
    | pollError attempts => exact unchanged ▸ callServer_waits waits.finish _ attempts

theorem run_waits {calls : List (LegCall Address)}
    (unanswered
      : EachStep (call medkit) (Unanswered medkit transactionId (sentUs + t1GiveUpMs * 1000)) leg
          calls)
    : (run (call medkit) leg calls).endpoint.Waits userId
        (entryAfter transactionId datagram sentUs (ticks ++ calls.filterMap LegCall.tick?)) := by
  induction calls generalizing leg ticks with
  | nil => simpa using waits
  | cons next rest ih =>
    have later := ih (call_waits waits unanswered.1) unanswered.2
    have split : (next :: rest).filterMap LegCall.tick?
        = next.tick?.toList ++ rest.filterMap LegCall.tick? := by
      rw [filterMap_cons]
      cases next.tick? <;> rfl
    rw [split, ← append_assoc]
    exact later

end

/-- A message that the server starts and the socket takes is sent again at every tick at or
after its due time, and the due times move apart by twice the last interval, until the peer
acknowledges the transaction or the endpoint is closed. The first tick after sixteen seconds
closes the transport.
-/
theorem retransmitted_until_acknowledged (medkit : Medkit) (leg : UdpLeg Address)
    (can : leg.endpoint.CanSend) (msg : WireMessage) (attempt : Attempt) (datagram : List BYTE)
    (written : msg.serialize medkit leg.endpoint.peerVersion maxDatagramLen = some datagram)
    (started : msg.responder = false) (final : msg.isIntermediate = false)
    (taken : attempt.delivered = true) (calls : List (LegCall Address))
    (unanswered
      : EachStep (call medkit)
          (Unanswered medkit msg.transactionId (attempt.timeUs + t1GiveUpMs * 1000))
          (leg.call medkit (.send msg attempt)) calls)
    (running
      : (run (call medkit) (leg.call medkit (.send msg attempt)) calls).endpoint.finished = false)
    (nowUs : Nat) (attempts : List Attempt)
    : let later := run (call medkit) (leg.call medkit (.send msg attempt)) calls
      let dueUs := (Schedule.after attempt.timeUs (calls.filterMap LegCall.tick?)).dueUs
      (dueUs ≤ nowUs → nowUs < attempt.timeUs + t1GiveUpMs * 1000
        → datagram ∈ (later.handle medkit (.periodic nowUs attempts)).2.datagrams)
      ∧ (attempt.timeUs + t1GiveUpMs * 1000 ≤ nowUs
        → (later.handle medkit (.periodic nowUs attempts)).1.server
          = later.server.step (.transportClosed later.endpoint.transport)) := by
  intro later dueUs
  have waits : later.endpoint.Waits leg.endpoint.userId
      (entryAfter msg.transactionId datagram attempt.timeUs
        ([] ++ calls.filterMap LegCall.tick?)) :=
    run_waits (send_waits can written started final taken) unanswered
  rw [nil_append] at waits
  simp only [handle]
  refine ⟨fun due early => ?_, fun late => ?_⟩
  · have sent := waits.resent running due early
    split_ifs
    · exact mem_append_left _ sent
    · exact sent
  · rw [if_pos (waits.givenUp running late)]
    rfl

end UdpLeg

namespace BFCPUdpEndpoint

def greeting : WireMessage where
  attributes := .hello
  transactionId := 1
  conferenceId := 5
  userId := 30

def calledEndpoint : BFCPUdpEndpoint Nat := { userId := 30, handle := 1, remote := some 7 }

/-- The hello goes out, and a tick after half a second sends it again. -/
def greetedTwice : UdpLeg Nat :=
  run (UdpLeg.call Medkit.bigEndian)
    (UdpLeg.call Medkit.bigEndian { endpoint := calledEndpoint, server := { conferenceId := 5 } }
      (.send greeting ⟨true, 0⟩))
    [.event (.periodic 500000 [])]

/-- It is sent again a second later, and the transport is closed sixteen seconds after it, when
nobody has answered.
-/
theorem retransmitted_until_acknowledged_greeting
    : [64, 11, 0, 0, 0, 0, 0, 5, 0, 1, 0, 30]
        ∈ (greetedTwice.handle Medkit.bigEndian (.periodic 1500000 [])).2.datagrams
      ∧ (greetedTwice.handle Medkit.bigEndian (.periodic 16000000 [])).1.server
        = greetedTwice.server.step (.transportClosed greetedTwice.endpoint.transport) := by
  have settled := UdpLeg.retransmitted_until_acknowledged Medkit.bigEndian
    { endpoint := calledEndpoint, server := { conferenceId := 5 } } ⟨rfl, rfl, rfl⟩ greeting
    ⟨true, 0⟩ [64, 11, 0, 0, 0, 0, 0, 5, 0, 1, 0, 30] (by decide +kernel) rfl rfl rfl
    [.event (.periodic 500000 [])] ⟨(by decide : 500000 < 0 + t1GiveUpMs * 1000), trivial⟩
    (by decide +kernel)
  rw [← greetedTwice] at settled
  have due : (Schedule.after 0 [500000]).dueUs ≤ 1500000 := by decide
  have early : 1500000 < 0 + t1GiveUpMs * 1000 := by decide
  have late : 0 + t1GiveUpMs * 1000 ≤ 16000000 := by decide
  exact ⟨(settled 1500000 []).1 due early, (settled 16000000 []).2 late⟩

/-- The socket does not take the hello: it is not sent again, and nobody is given up. -/
theorem refused_datagram_forgotten
    : let sent := calledEndpoint.send Medkit.bigEndian greeting ⟨false, 0⟩
      sent.2 = [[64, 11, 0, 0, 0, 0, 0, 5, 0, 1, 0, 30]]
      ∧ (sent.1.onPeriodic 500000).2 = ([], false)
      ∧ ((sent.1.onPeriodic 500000).1.onPeriodic 16000000).2 = ([], false) := by
  decide +kernel

end BFCPUdpEndpoint

end MediaServer.Bfcp
