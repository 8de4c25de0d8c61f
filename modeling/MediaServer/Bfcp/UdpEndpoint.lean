import MediaServer.Bfcp.Exchange

/-! The UDP leg of one participant: what the server starts is sent again until it is
acknowledged, and what the server answers is kept for a request that comes again.
-/

namespace MediaServer.Bfcp

open Foundation

/-- One message that the server started and the peer has not acknowledged. -/
structure Pending where
  transactionId : Int
  datagram : List BYTE
  dueUs : Nat
  intervalMs : Nat
  firstSentUs : Nat
  deriving DecidableEq

/-- One answer, kept so that a repeated request gets it again. -/
structure Cached where
  transactionId : Int
  datagram : List BYTE
  expiresUs : Nat
  deriving DecidableEq

/-- What one call of `Send` meets: whether the socket takes the datagram, and the clock. -/
structure Attempt where
  delivered : Bool := false
  timeUs : Nat := 0
  deriving DecidableEq, Inhabited

structure BFCPUdpEndpoint (Address : Type) where
  userId : Int
  /-- Which of the server's transports this is. -/
  handle : Nat
  opened : Bool := true
  remote : Option Address := none
  latched : Bool := false
  peerVersion : Nat := WireMessage.versionUnreliable
  nextTransactionId : Nat := 0
  pending : List Pending := []
  cache : List Cached := []
  finished : Bool := false

/-- What becomes of a datagram before the server is asked. -/
inductive Dispatched
  | dropped
  | replayed (datagram : List BYTE)
  | acknowledged
  | handedUp (msg : WireMessage)
  deriving DecidableEq

def WireMessage.isIntermediate (msg : WireMessage) : Bool :=
  match msg.attributes with
  | .floorRequestStatus (some information) =>
    (information.overallRequestStatus.bind
      BFCPAttrOverallRequestStatus.requestStatus).any (fun status =>
        status.status = .pending || status.status = .accepted)
  | _ => false

/-- The primitives that only close a transaction; the server never sees them. -/
def WireMessage.isAck (msg : WireMessage) : Bool :=
  msg.attributes.primitive
    ∈ [Primitive.helloAck.code, Primitive.goodbyeAck.code, Primitive.floorRequestStatusAck.code,
      Primitive.floorStatusAck.code]

namespace BFCPUdpEndpoint

def t1InitialMs : Nat := 500

def t1GiveUpMs : Nat := 16000

def maxDatagramLen : Nat := 8192

variable {Address : Type}
variable (endpoint : BFCPUdpEndpoint Address)

def transport : BFCPTransport := ⟨endpoint.handle, false⟩

/-- Only until the peer speaks: what it says beats what was announced. -/
def setRemote (remote : Address) : BFCPUdpEndpoint Address :=
  if endpoint.latched then endpoint else { endpoint with remote := some remote }

def finish : BFCPUdpEndpoint Address :=
  { endpoint with finished := true, pending := [] }

def keepAnswer (answer : Cached) : List Cached → List Cached
  | [] => [answer]
  | entry :: rest =>
    if entry.transactionId = answer.transactionId then answer :: rest
    else entry :: keepAnswer answer rest

def findCached (transactionId : Int) : Option Cached :=
  endpoint.cache.find? (fun entry => entry.transactionId = transactionId)

def ack (transactionId : Int) : BFCPUdpEndpoint Address :=
  { endpoint with
    pending := endpoint.pending.eraseP (fun entry => entry.transactionId = transactionId) }

section Codec

variable (medkit : Medkit)

/-- `Send`, with the datagrams that it gives to the socket. A datagram that the socket does not
take is neither kept nor waited for.
-/
def send (endpoint : BFCPUdpEndpoint Address) (msg : WireMessage) (attempt : Attempt)
    : BFCPUdpEndpoint Address × List (List BYTE) :=
  if endpoint.finished || !endpoint.opened then (endpoint, [])
  else if endpoint.remote.isNone then (endpoint, [])
  else
    match msg.serialize medkit endpoint.peerVersion maxDatagramLen with
    | none => (endpoint, [])
    | some datagram =>
      if !attempt.delivered then (endpoint, [datagram])
      else if msg.responder then
        ({ endpoint with
            cache :=
              keepAnswer
                { transactionId := msg.transactionId, datagram
                  expiresUs := attempt.timeUs + t1GiveUpMs * 1000 } endpoint.cache },
          [datagram])
      else if msg.isIntermediate then (endpoint, [datagram])
      else
        ({ endpoint with
            pending :=
              endpoint.pending
                ++ [{ transactionId := msg.transactionId, datagram
                      intervalMs := t1InitialMs, firstSentUs := attempt.timeUs
                      dueUs := attempt.timeUs + t1InitialMs * 1000 }] },
          [datagram])

def sendAll (endpoint : BFCPUdpEndpoint Address)
    : List WireMessage → List Attempt → BFCPUdpEndpoint Address × List (List BYTE)
  | [], _ => (endpoint, [])
  | msg :: rest, attempts =>
    let (endpoint, first) := endpoint.send medkit msg (attempts.headD {})
    let (endpoint, others) := sendAll endpoint rest attempts.tail
    (endpoint, first ++ others)

/-- The part of `Dispatch` under the lock, and where the message goes then. -/
def dispatch (endpoint : BFCPUdpEndpoint Address) (data : List BYTE)
    : BFCPUdpEndpoint Address × Dispatched :=
  match WireMessage.parse medkit data with
  | .refused | .fault => (endpoint, .dropped)
  | .value msg =>
    let endpoint := { endpoint with peerVersion := msg.version }
    if msg.userId ≠ endpoint.userId then (endpoint, .dropped)
    else
      let endpoint := if msg.responder then endpoint.ack msg.transactionId else endpoint
      let endpoint :=
        if msg.isAck || msg.attributes.primitive == Primitive.error.code then
          endpoint.ack msg.transactionId
        else endpoint
      match if msg.responder then none else endpoint.findCached msg.transactionId with
      | some cached => (endpoint, .replayed cached.datagram)
      | none => (endpoint, if msg.isAck then .acknowledged else .handedUp msg)

/-- One round of `OnReadable`. The first datagram latches the peer, and a datagram of
somebody else is not looked at.
-/
def onReadable [DecidableEq Address] (endpoint : BFCPUdpEndpoint Address) (source : Address)
    (data : List BYTE) : BFCPUdpEndpoint Address × Dispatched :=
  if endpoint.finished then (endpoint, .dropped)
  else if !endpoint.latched then
    dispatch medkit { endpoint with remote := some source, latched := true }
      (data.take maxDatagramLen)
  else if endpoint.remote ≠ some source then (endpoint, .dropped)
  else dispatch medkit endpoint (data.take maxDatagramLen)

end Codec

def isGivenUp (nowUs : Nat) (entry : Pending) : Bool :=
  nowUs ≥ entry.firstSentUs + t1GiveUpMs * 1000

def isDue (nowUs : Nat) (entry : Pending) : Bool := entry.dueUs ≤ nowUs

/-- The next retransmission comes after twice the time. -/
def again (nowUs : Nat) (entry : Pending) : Pending :=
  { entry with
    intervalMs := entry.intervalMs * 2
    dueUs := nowUs + entry.intervalMs * 2 * 1000 }

/-- The part of `OnPeriodic` under the lock: what is sent again, and whether a transaction was
given up.
-/
def onPeriodic (nowUs : Nat) : BFCPUdpEndpoint Address × List (List BYTE) × Bool :=
  if endpoint.finished then (endpoint, [], false)
  else
    let kept := endpoint.pending.filter (fun entry => !isGivenUp nowUs entry)
    ({ endpoint with
        pending := kept.map (fun entry => if isDue nowUs entry then again nowUs entry else entry)
        cache := endpoint.cache.filter (fun entry => nowUs < entry.expiresUs) },
      (kept.filter (isDue nowUs)).map Pending.datagram,
      endpoint.pending.any (isGivenUp nowUs))

end BFCPUdpEndpoint

structure UdpLeg (Address : Type) where
  endpoint : BFCPUdpEndpoint Address
  server : BFCPFloorControlServer

/-- What one event puts on the socket, and what it hands to `MessageReceived`. -/
structure UdpEffect where
  datagrams : List (List BYTE) := []
  received : List WireMessage := []
  deriving DecidableEq

inductive UdpEvent (Address : Type)
  | receive (source : Address) (data : List BYTE) (attempts : List Attempt)
  | periodic (nowUs : Nat) (attempts : List Attempt)
  /-- Somebody else calls the server: another transport, or the chair. -/
  | serverCall (op : Op) (attempts : List Attempt)
  | sendServerHello (attempt : Attempt)
  | setRemote (remote : Address)
  | close
  | pollError (attempts : List Attempt)

namespace UdpLeg

variable {Address : Type}

def outgoing (leg : UdpLeg Address) (op : Op) : List WireMessage :=
  ((Turn.apply { server := leg.server } op).sent.filter
    (fun entry => entry.1 = leg.endpoint.transport)).map (fun entry => entry.2.toWire)

section Codec

variable (medkit : Medkit)

def callServer (leg : UdpLeg Address) (op : Op) (attempts : List Attempt)
    : UdpLeg Address × List (List BYTE) :=
  let turn := Turn.apply { server := leg.server } op
  let (endpoint, datagrams) := leg.endpoint.sendAll medkit (leg.outgoing op) attempts
  ({ endpoint :=
        if leg.endpoint.transport ∈ turn.closed then endpoint.finish else endpoint
     server := turn.server },
    datagrams)

/-- A message that arrives on this endpoint reaches the server through it alone. -/
def isOwn (leg : UdpLeg Address) : Op → Bool
  | .messageReceived _ source => source = leg.endpoint.transport
  | _ => false

def handle [DecidableEq Address] (leg : UdpLeg Address)
    : UdpEvent Address → UdpLeg Address × UdpEffect
  | .receive source data attempts =>
    match leg.endpoint.onReadable medkit source data with
    | (endpoint, .dropped) | (endpoint, .acknowledged) => ({ leg with endpoint }, {})
    | (endpoint, .replayed datagram) =>
      ({ leg with endpoint }, { datagrams := [datagram] })
    | (endpoint, .handedUp msg) =>
      let (leg, datagrams) :=
        callServer medkit { leg with endpoint }
          (.messageReceived msg.toServer leg.endpoint.transport) attempts
      (leg, { datagrams, received := [msg] })
  | .periodic nowUs attempts =>
    let (endpoint, datagrams, givenUp) := leg.endpoint.onPeriodic nowUs
    if givenUp then
      let (leg, others) :=
        callServer medkit { leg with endpoint } (.transportClosed leg.endpoint.transport)
          attempts
      (leg, { datagrams := datagrams ++ others })
    else ({ leg with endpoint }, { datagrams })
  | .serverCall op attempts =>
    if leg.isOwn op then (leg, {})
    else
      let (leg, datagrams) := leg.callServer medkit op attempts
      (leg, { datagrams })
  | .sendServerHello attempt =>
    let transactionId := leg.endpoint.nextTransactionId % 0xFFFF + 1
    let (endpoint, datagrams) :=
      { leg.endpoint with nextTransactionId := transactionId }.send medkit
        { attributes := .hello, transactionId, conferenceId := leg.server.conferenceId
          userId := leg.endpoint.userId } attempt
    ({ leg with endpoint }, { datagrams })
  | .setRemote remote => ({ leg with endpoint := leg.endpoint.setRemote remote }, {})
  | .close => ({ leg with endpoint := leg.endpoint.finish }, {})
  | .pollError attempts =>
    let (leg, datagrams) :=
      callServer medkit { leg with endpoint := leg.endpoint.finish }
        (.transportClosed leg.endpoint.transport) attempts
    (leg, { datagrams })

def step [DecidableEq Address] (leg : UdpLeg Address) (event : UdpEvent Address) : UdpLeg Address :=
  (leg.handle medkit event).1

end Codec

end UdpLeg

end MediaServer.Bfcp
