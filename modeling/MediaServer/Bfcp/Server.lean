import MediaServer.Bfcp.Message
import MediaServer.Foundation.Runs

/-! The floor control server of one BFCP conference.
A `Turn` is one locked section: the server with what it sends, closes and will notify.
-/

namespace MediaServer.Bfcp

open Foundation

structure BFCPUser where
  userId : Int
  isChair : Bool := false
  transport : Option BFCPTransport := none
  queriedFloorIds : List Int := []

namespace BFCPUser

def isConnected (user : BFCPUser) : Bool := user.transport.isSome

def isReliable (user : BFCPUser) : Bool := user.transport.elim true BFCPTransport.isReliable

def addQueriedFloorId (user : BFCPUser) (floorId : Int) : BFCPUser :=
  if floorId ∈ user.queriedFloorIds then user
  else { user with queriedFloorIds := user.queriedFloorIds ++ [floorId] }

end BFCPUser

structure BFCPFloorRequest where
  floorRequestId : Int
  userId : Int
  conferenceId : Int
  beneficiaryId : Int
  floorIds : OrderedMap Int Unit := .empty
  status : Status := .pending
  queuePosition : Int := 0

namespace BFCPFloorRequest

variable (request : BFCPFloorRequest)

def addFloorId (floorId : Int) : BFCPFloorRequest :=
  { request with floorIds := request.floorIds.insert floorId () }

def hasFloorId (floorId : Int) : Bool :=
  (request.floorIds.find? floorId).isSome

def isGranted : Bool := request.status = .granted

/-- Also `CanBeDenied` and `CanBeCancelled`. -/
def canBeGranted : Bool :=
  request.status = .pending || request.status = .accepted

def createFloorRequestInformation : FloorRequestInformation where
  floorRequestId := request.floorRequestId
  floorRequestStatuses :=
    request.floorIds.keys.map (fun floorId => (floorId, ⟨request.status, request.queuePosition⟩))
  overallRequestStatus := ⟨request.status, request.queuePosition⟩
  beneficiaryId := request.beneficiaryId
  requestedById := request.userId

end BFCPFloorRequest

structure BFCPFloorControlServer where
  conferenceId : Int
  users : OrderedMap Int BFCPUser := .empty
  floors : OrderedMap Int Unit := .empty
  floorRequests : OrderedMap Int BFCPFloorRequest := .empty
  floorRequestCounter : Int := 1
  transactionCounter : Nat := 0
  ending : Bool := false

namespace BFCPFloorControlServer

variable (server : BFCPFloorControlServer)

def hasFloor (floorId : Int) : Bool :=
  (server.floors.find? floorId).isSome

/-- Replace the stored user; a user that is not stored stays away. -/
def updateUser (userId : Int) (change : BFCPUser → BFCPUser) : BFCPFloorControlServer :=
  match server.users.find? userId with
  | none => server
  | some user => { server with users := server.users.insert userId (change user) }

def setStatus (floorRequestId : Int) (request : BFCPFloorRequest) (status : Status)
    : BFCPFloorControlServer :=
  { server with
    floorRequests := server.floorRequests.insert floorRequestId { request with status } }

def floorRequestsForFloor (floorId : Int) : List BFCPFloorRequest :=
  (server.floorRequests.entries.map Prod.snd).filter (fun request => request.hasFloorId floorId)

def floorRequestsForFloors (floorIds : List Int) : List BFCPFloorRequest :=
  (server.floorRequests.entries.map Prod.snd).filter
    (fun request => floorIds.any request.hasFloorId)

end BFCPFloorControlServer

structure Turn where
  server : BFCPFloorControlServer
  sent : List (BFCPTransport × BFCPMessage) := []
  closed : List BFCPTransport := []
  pending : List Notification := []

namespace Turn

variable (turn : Turn)

def send (target : Option BFCPTransport) (msg : BFCPMessage) : Turn :=
  match target with
  | none => turn
  | some transport => { turn with sent := turn.sent ++ [(transport, msg)] }

def notify (notification : Notification) : Turn :=
  { turn with pending := turn.pending ++ [notification] }

def closeTransport (transport : Option BFCPTransport) : Turn :=
  { turn with closed := turn.closed ++ transport.toList }

def nextTransactionId : Turn × Int :=
  let counter := turn.server.transactionCounter % 0xFFFF + 1
  ({ turn with server := { turn.server with transactionCounter := counter } }, counter)

/-- Zero towards a reliable transport, a fresh identifier over UDP. -/
def notificationTransactionId (user : Option BFCPUser) : Turn × Int :=
  match user with
  | some user => if user.isReliable then (turn, 0) else turn.nextTransactionId
  | none => (turn, 0)

def sendMessage (msg : BFCPMessage) : Turn :=
  match turn.server.users.find? msg.userId with
  | none => turn
  | some user => turn.send user.transport msg

def replyError (msg : BFCPMessage) (target : Option BFCPTransport) (errorCode : ErrorCode)
    (errorInfo : String) : Turn :=
  turn.send target
    { msg with body := .error errorCode (some errorInfo), responder := true }

def sendFloorRequestStatus (request : BFCPFloorRequest) (transactionId toUserId : Int)
    (statusInfo : String) (isResponse : Bool) : Turn :=
  let information := request.createFloorRequestInformation
  turn.sendMessage
    { body := .floorRequestStatus
        (if statusInfo.isEmpty then information
          else { information with statusInfo := some statusInfo })
      transactionId
      conferenceId := request.conferenceId
      userId := toUserId
      responder := isResponse }

def buildFloorStatus (server : BFCPFloorControlServer) (floorId transactionId userId : Int)
    : BFCPMessage where
  body := .floorStatus (some floorId)
    ((server.floorRequestsForFloor floorId).map BFCPFloorRequest.createFloorRequestInformation)
  transactionId := transactionId
  conferenceId := server.conferenceId
  userId := userId

def sendFloorStatus (user : BFCPUser) (floorId : Int) : Turn :=
  let (turn, transactionId) := turn.notificationTransactionId (some user)
  turn.send user.transport (buildFloorStatus turn.server floorId transactionId user.userId)

def notifyForFloorRequest (request : BFCPFloorRequest) : Turn :=
  (turn.server.users.entries.map Prod.snd).foldl
    (fun turn user =>
      (request.floorIds.keys.filter (· ∈ user.queriedFloorIds)).foldl
        (fun turn floorId => turn.sendFloorStatus user floorId) turn)
    turn

def notifyRequester (request : BFCPFloorRequest) (statusInfo : String) : Turn :=
  let requester := turn.server.users.find? request.userId
  let (turn, transactionId) := turn.notificationTransactionId requester
  turn.sendFloorRequestStatus request transactionId request.userId statusInfo false

def announceStatus (floorRequestId : Int) (request : BFCPFloorRequest) (status : Status)
    (statusInfo : String) : Turn :=
  notifyRequester { turn with server := turn.server.setStatus floorRequestId request status }
    { request with status } statusInfo

def eraseFloorRequest (floorRequestId : Int) : Turn :=
  { turn with
    server :=
      { turn.server with floorRequests := turn.server.floorRequests.erase floorRequestId } }

/-! Ending a floor request. -/

def denyFloorRequestLocked (floorRequestId : Int) (statusInfo : String) : Turn × Bool :=
  match turn.server.floorRequests.find? floorRequestId with
  | none => (turn, false)
  | some request =>
    if request.canBeGranted then
      let turn := turn.announceStatus floorRequestId request .denied statusInfo
      let turn := turn.notifyForFloorRequest request
      (turn.eraseFloorRequest floorRequestId, true)
    else (turn, false)

def revokeFloorRequestLocked (floorRequestId : Int) (statusInfo : String) : Turn × Bool :=
  match turn.server.floorRequests.find? floorRequestId with
  | none => (turn, false)
  | some request =>
    if request.isGranted then
      let turn := turn.announceStatus floorRequestId request .revoked statusInfo
      let turn := turn.notifyForFloorRequest request
      let turn := turn.eraseFloorRequest floorRequestId
      (if turn.server.ending then turn
        else turn.notify (.onFloorReleased floorRequestId request.beneficiaryId
          request.floorIds.keys), true)
    else (turn, false)

def endFloorRequest (statusInfo : String) (floorRequestId : Int) : Turn :=
  match turn.server.floorRequests.find? floorRequestId with
  | none => turn
  | some request =>
    if request.isGranted then (turn.revokeFloorRequestLocked floorRequestId statusInfo).1
    else (turn.denyFloorRequestLocked floorRequestId statusInfo).1

def revokeUserFloorRequestsLocked (userId : Int) : Turn :=
  let ids :=
    (turn.server.floorRequests.entries.filter
      (fun entry => entry.2.beneficiaryId = userId || entry.2.userId = userId)).map Prod.fst
  ids.foldl
    (endFloorRequest · "FloorRequests from this user have been revoked or denied") turn

def revokeOtherHolders (floorRequestId : Int) (request : BFCPFloorRequest) : Turn :=
  ((turn.server.floorRequestsForFloors request.floorIds.keys).filter
    (fun other => other.floorRequestId != floorRequestId && other.isGranted)).foldl
    (fun turn other =>
      (turn.revokeFloorRequestLocked other.floorRequestId "granted to other user").1)
    turn

def grantFloorRequestLocked (floorRequestId : Int) : Turn × Bool :=
  match turn.server.floorRequests.find? floorRequestId with
  | none => (turn, false)
  | some request =>
    if request.canBeGranted then
      let turn := turn.revokeOtherHolders floorRequestId request
      let turn := turn.announceStatus floorRequestId request .accepted ""
      let turn := turn.announceStatus floorRequestId request .granted ""
      let turn := turn.notifyForFloorRequest request
      (turn.notify
        (.onFloorGranted floorRequestId request.beneficiaryId request.floorIds.keys), true)
    else (turn, false)

def closeUserTransport (userId : Int) : Turn :=
  let transport := (turn.server.users.find? userId).bind BFCPUser.transport
  let turn := turn.closeTransport transport
  { turn with server := turn.server.updateUser userId ({ · with transport := none }) }

def sendGoodbye (userId : Int) : Turn :=
  match turn.server.users.find? userId with
  | none => turn
  | some user =>
    if user.isConnected then
      let (turn, transactionId) := turn.notificationTransactionId (some user)
      turn.send user.transport
        { body := .goodbye, transactionId, conferenceId := turn.server.conferenceId, userId }
    else turn

def removeUserLocked (userId : Int) (goodbye : Bool) : Turn × Bool :=
  match turn.server.users.find? userId with
  | none => (turn, false)
  | some _ =>
    let turn := turn.revokeUserFloorRequestsLocked userId
    let turn := if goodbye then turn.sendGoodbye userId else turn
    let turn := turn.closeUserTransport userId
    ({ turn with
        server := { turn.server with users := turn.server.users.erase userId } }, true)

def attachTransportLocked (userId : Int) (transport : BFCPTransport) : Turn :=
  match turn.server.users.find? userId with
  | none => turn
  | some user =>
    if user.transport = some transport then turn
    else
      let turn :=
        if user.isConnected then
          let turn :=
            { turn with
              server := turn.server.updateUser userId ({ · with queriedFloorIds := [] }) }
          let turn := turn.revokeUserFloorRequestsLocked userId
          turn.closeUserTransport userId
        else turn
      { turn with
        server := turn.server.updateUser userId ({ · with transport := some transport }) }

def detachTransportLocked (userId : Int) : Turn :=
  let turn :=
    { turn with
      server :=
        turn.server.updateUser userId ({ · with transport := none, queriedFloorIds := [] }) }
  if turn.server.ending then turn else turn.revokeUserFloorRequestsLocked userId

end Turn

end MediaServer.Bfcp
