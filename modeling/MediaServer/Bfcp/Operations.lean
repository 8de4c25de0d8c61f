import MediaServer.Bfcp.Server

/-! The primitives a floor control server answers and the operations it offers to the chair
and to the transports.
-/

namespace MediaServer.Bfcp

open Foundation

namespace Turn

/-- The request that a `FloorRequest` message asks for, under the next free identifier. -/
def createFloorRequest (server : BFCPFloorControlServer) (userId : Int) (floorIds : List Int)
    (beneficiaryId : Option Int) : BFCPFloorRequest :=
  floorIds.foldl BFCPFloorRequest.addFloorId
    { floorRequestId := server.floorRequestCounter
      userId
      conferenceId := server.conferenceId
      beneficiaryId := beneficiaryId.getD userId }

variable (turn : Turn)

def storeFloorRequest (request : BFCPFloorRequest) : Turn :=
  { turn with
    server :=
      { turn.server with
        floorRequestCounter := turn.server.floorRequestCounter + 1
        floorRequests := turn.server.floorRequests.insert request.floorRequestId request } }

def processFloorRequestLocked (req : BFCPMessage) (user : BFCPUser) (floorIds : List Int)
    (beneficiaryId : Option Int) : Turn :=
  if !floorIds.all turn.server.hasFloor then
    turn.replyError req user.transport .invalidFloorId "requested floor does not exist"
  else if beneficiaryId.any (fun id => (turn.server.users.find? id).isNone) then
    turn.replyError req user.transport .userDoesNotExist "beneficiary does not exist"
  else
    let request := createFloorRequest turn.server req.userId floorIds beneficiaryId
    let turn := turn.storeFloorRequest request
    let turn := turn.sendFloorRequestStatus request req.transactionId req.userId "" true
    if user.isChair then (turn.grantFloorRequestLocked request.floorRequestId).1
    else
      turn.notify (.onFloorRequest request.floorRequestId request.userId request.beneficiaryId
        request.floorIds.keys)

/-- The status a release gives to a request, `none` when it cannot be released. -/
def releasedStatus (request : BFCPFloorRequest) (sender : Int) : Option Status :=
  if request.isGranted then
    some (if sender = request.beneficiaryId then .released else .revoked)
  else if request.canBeGranted then some .cancelled
  else none

def processFloorReleaseLocked (req : BFCPMessage) (user : BFCPUser) (floorRequestId : Int) : Turn :=
  match turn.server.floorRequests.find? floorRequestId with
  | none =>
    turn.replyError req user.transport .floorRequestIdDoesNotExist
      "FloorRequest does not exist"
  | some request =>
    let sender := user.userId
    if sender ≠ request.userId ∧ sender ≠ request.beneficiaryId ∧ !user.isChair then
      turn.replyError req user.transport .unauthorizedOperation
        "you cannot release that FloorRequest"
    else
      match releasedStatus request sender with
      | none =>
        turn.replyError req user.transport .unauthorizedOperation
          "cannot release or cancel the FloorRequest due to its current status"
      | some status =>
        let released := { request with status }
        let turn :=
          { turn with server := turn.server.setStatus floorRequestId request status }
        let turn := turn.sendFloorRequestStatus released req.transactionId sender "" true
        let turn := if sender = request.userId then turn else turn.notifyRequester released ""
        let turn := turn.notifyForFloorRequest released
        let turn := turn.eraseFloorRequest floorRequestId
        if request.isGranted then
          turn.notify (.onFloorReleased floorRequestId request.beneficiaryId
            request.floorIds.keys)
        else turn

/-- The first `FloorStatus` answers the query, the others are notifications. -/
def answerFloorQuery (req : BFCPMessage) (user : BFCPUser) : Turn :=
  match user.queriedFloorIds with
  | [] =>
    turn.send user.transport
      { body := .floorStatus none []
        transactionId := req.transactionId
        conferenceId := turn.server.conferenceId
        userId := req.userId
        responder := true }
  | first :: others =>
    let answer := buildFloorStatus turn.server first req.transactionId req.userId
    let turn := turn.send user.transport { answer with responder := true }
    others.foldl (fun turn floorId => turn.sendFloorStatus user floorId) turn

def processFloorQueryLocked (req : BFCPMessage) (user : BFCPUser) (floorIds : List Int) : Turn :=
  if !floorIds.all turn.server.hasFloor then
    turn.replyError req user.transport .invalidFloorId "requested floor does not exist"
  else
    let user := floorIds.foldl BFCPUser.addQueriedFloorId { user with queriedFloorIds := [] }
    let queried := user.queriedFloorIds
    let turn :=
      { turn with
        server := turn.server.updateUser user.userId ({ · with queriedFloorIds := queried }) }
    turn.answerFloorQuery req user

def supportedPrimitives : List Primitive :=
  [.floorRequest, .floorRelease, .floorRequestStatus, .floorQuery, .floorStatus, .hello,
    .helloAck, .error, .floorRequestStatusAck, .floorStatusAck, .goodbye, .goodbyeAck]

def supportedAttributes : List AttributeName :=
  [.beneficiaryId, .floorId, .floorRequestId, .priority, .requestStatus, .errorCode,
    .errorInfo, .participantProvidedInfo, .statusInfo, .supportedAttributes,
    .supportedPrimitives, .beneficiaryInformation, .floorRequestInformation,
    .requestedByInformation, .floorRequestStatus, .overallRequestStatus]

def processHelloLocked (req : BFCPMessage) (user : BFCPUser) : Turn :=
  let turn :=
    turn.send user.transport
      { body := .helloAck supportedPrimitives supportedAttributes
        transactionId := req.transactionId
        conferenceId := turn.server.conferenceId
        userId := req.userId
        responder := true }
  let turn :=
    if user.isReliable then turn
    else
      let (turn, transactionId) := turn.nextTransactionId
      turn.send user.transport
        { body := .hello, transactionId, conferenceId := turn.server.conferenceId
          userId := req.userId }
  turn.notify (.onUserConnected user.userId)

def processGoodbyeLocked (req : BFCPMessage) (user : BFCPUser) : Turn :=
  let turn :=
    turn.send user.transport
      { body := .goodbyeAck
        transactionId := req.transactionId
        conferenceId := turn.server.conferenceId
        userId := req.userId
        responder := true }
  (turn.removeUserLocked user.userId false).1

def processMessage (msg : BFCPMessage) (user : BFCPUser) (source : BFCPTransport) : Turn :=
  match msg.body with
  | .floorRequest floorIds beneficiaryId =>
    turn.processFloorRequestLocked msg user floorIds beneficiaryId
  | .floorRelease floorRequestId => turn.processFloorReleaseLocked msg user floorRequestId
  | .floorQuery floorIds => turn.processFloorQueryLocked msg user floorIds
  | .hello => turn.processHelloLocked msg user
  | .goodbye => turn.processGoodbyeLocked msg user
  | .helloAck .. | .floorRequestStatusAck | .floorStatusAck | .goodbyeAck | .error .. => turn
  | .floorRequestStatus .. | .floorStatus .. | .unsupported _ =>
    turn.replyError msg (some source) .unknownPrimitive "unknown or unsupported primitive"

def addUser (userId : Int) : Turn × Bool :=
  if turn.server.ending then (turn, false)
  else if userId < 1 ∨ userId > 0xFFFF then (turn, false)
  else if (turn.server.users.find? userId).isSome then (turn, false)
  else
    ({ turn with
        server := { turn.server with users := turn.server.users.insert userId { userId } } },
      true)

def removeUser (userId : Int) : Turn × Bool :=
  if turn.server.ending then (turn, false) else turn.removeUserLocked userId true

def setChair (userId : Int) : Turn × Bool :=
  if turn.server.ending then (turn, false)
  else
    match turn.server.users.find? userId with
    | none => (turn, false)
    | some _ =>
      let unset :=
        (turn.server.users.entries.map Prod.fst).foldl
          (fun server id => server.updateUser id ({ · with isChair := false })) turn.server
      ({ turn with server := unset.updateUser userId ({ · with isChair := true }) }, true)

def addFloor (floorId : Int) : Turn × Bool :=
  if turn.server.ending then (turn, false)
  else if floorId < 1 ∨ floorId > 0xFFFF then (turn, false)
  else if turn.server.hasFloor floorId then (turn, false)
  else
    ({ turn with
        server := { turn.server with floors := turn.server.floors.insert floorId () } }, true)

def grantFloorRequest (floorRequestId : Int) : Turn × Bool :=
  if turn.server.ending then (turn, false) else turn.grantFloorRequestLocked floorRequestId

def notifyFloorStatus (userId floorId : Int) : Turn × Bool :=
  if turn.server.ending then (turn, false)
  else
    match turn.server.users.find? userId with
    | none => (turn, false)
    | some user =>
      if turn.server.hasFloor floorId then (turn.sendFloorStatus user floorId, user.isConnected)
      else (turn, false)

/-- `End`: every request and every user goes. -/
def endConference : Turn :=
  if turn.server.ending then turn
  else
    let turn := { turn with server := { turn.server with ending := true } }
    let turn := turn.server.floorRequests.keys.foldl (endFloorRequest · "conference ended") turn
    let turn := { turn with server := { turn.server with floorRequests := .empty } }
    let turn :=
      turn.server.users.keys.foldl
        (fun turn userId => (turn.sendGoodbye userId).closeUserTransport userId) turn
    { turn with server := { turn.server with users := .empty } }

def userConnected (userId : Int) (transport : BFCPTransport) : Turn × Bool :=
  if turn.server.ending then (turn, false)
  else
    match turn.server.users.find? userId with
    | none => (turn, false)
    | some _ => (turn.attachTransportLocked userId transport, true)

def userDisconnected (userId : Int) (transport : BFCPTransport) : Turn :=
  match turn.server.users.find? userId with
  | none => turn
  | some user =>
    if user.transport = some transport then turn.detachTransportLocked userId else turn

def transportClosed (transport : BFCPTransport) : Turn :=
  match turn.server.users.entries.find? (fun entry => entry.2.transport = some transport) with
  | none => turn
  | some entry => turn.detachTransportLocked entry.1

def messageReceived (msg : BFCPMessage) (source : BFCPTransport) : Turn :=
  if turn.server.ending then turn
  else if msg.conferenceId ≠ turn.server.conferenceId then
    turn.replyError msg (some source) .conferenceDoesNotExist "conference does not exist"
  else
    match turn.server.users.find? msg.userId with
    | none => turn.replyError msg (some source) .userDoesNotExist "user does not exist"
    | some user =>
      if user.transport ≠ some source ∧ user.isConnected ∧ msg.body ≠ .hello then
        turn.replyError msg (some source) .unauthorizedOperation "user is connected elsewhere"
      else
        let turn := turn.attachTransportLocked msg.userId source
        match turn.server.users.find? msg.userId with
        | none => turn
        | some user => turn.processMessage msg user source

end Turn

/-- The operations of a floor control server, each one a locked section. -/
inductive Op
  | addUser (userId : Int)
  | removeUser (userId : Int)
  | setChair (userId : Int)
  | addFloor (floorId : Int)
  | grantFloorRequest (floorRequestId : Int)
  | denyFloorRequest (floorRequestId : Int) (statusInfo : String)
  | revokeFloorRequest (floorRequestId : Int) (statusInfo : String)
  | notifyFloorStatus (userId floorId : Int)
  | endConference
  | userConnected (userId : Int) (transport : BFCPTransport)
  | userDisconnected (userId : Int) (transport : BFCPTransport)
  | transportClosed (transport : BFCPTransport)
  | messageReceived (msg : BFCPMessage) (source : BFCPTransport)
  deriving DecidableEq

def Turn.apply (turn : Turn) : Op → Turn
  | .addUser userId => (turn.addUser userId).1
  | .removeUser userId => (turn.removeUser userId).1
  | .setChair userId => (turn.setChair userId).1
  | .addFloor floorId => (turn.addFloor floorId).1
  | .grantFloorRequest floorRequestId => (turn.grantFloorRequest floorRequestId).1
  | .denyFloorRequest floorRequestId statusInfo =>
    (turn.denyFloorRequestLocked floorRequestId statusInfo).1
  | .revokeFloorRequest floorRequestId statusInfo =>
    (turn.revokeFloorRequestLocked floorRequestId statusInfo).1
  | .notifyFloorStatus userId floorId => (turn.notifyFloorStatus userId floorId).1
  | .endConference => turn.endConference
  | .userConnected userId transport => (turn.userConnected userId transport).1
  | .userDisconnected userId transport => turn.userDisconnected userId transport
  | .transportClosed transport => turn.transportClosed transport
  | .messageReceived msg source => turn.messageReceived msg source

namespace BFCPFloorControlServer

def step (server : BFCPFloorControlServer) (op : Op) : BFCPFloorControlServer :=
  (Turn.apply { server } op).server

end BFCPFloorControlServer

end MediaServer.Bfcp
