import MediaServer.Bfcp.Exchange

/-! Document sharing in a conference: the chair of the one floor. It asks the controller about
each request, shows the participant that the floor was granted to, and keeps its own notes of
who asked and who shares.
-/

namespace MediaServer.Bfcp

open Foundation

inductive DocSharingMode
  | none
  | bfcpTcp
  | bfcpUdp
  deriving DecidableEq

/-- What the controller is told of a participant. -/
inductive SharingStatus
  | waitingAccept
  | active
  | none
  deriving DecidableEq

/-- The part of the conference that document sharing works with. -/
structure MultiConf where
  /-- The participants that exist. Their numbers are never given again. -/
  participants : OrderedMap Int DocSharingMode := .empty
  maxId : Int := 500
  presenterId : Int := 0
  told : List (Int × SharingStatus) := []

namespace MultiConf

variable (conf : MultiConf)

def has (partId : Int) : Bool := (conf.participants.find? partId).isSome

def startPresentation (partId : Int) : MultiConf :=
  { conf with presenterId := partId }

def stopPresentation (partId : Int) : MultiConf :=
  if conf.presenterId = partId then { conf with presenterId := 0 } else conf

def onRequestDocSharing (partId : Int) (status : SharingStatus) : MultiConf :=
  { conf with told := conf.told ++ [(partId, status)] }

end MultiConf

/-- The mixer holds its participants weakly: a number counts only as long as the conference has
the participant.
-/
structure SharedDocMixer where
  conf : MultiConf := {}
  part : Option Int := none
  bfcpServer : Option BFCPFloorControlServer := none
  floorRequests : OrderedMap Int Int := .empty
  participants : OrderedMap Int Unit := .empty
  sharedMosaic : Int := -1

namespace SharedDocMixer

def floorId : Int := 1

variable (mixer : SharedDocMixer)

/-- The participant that shares, if it still exists. -/
def sharing : Option Int := mixer.part.filter mixer.conf.has

def getParticipant (partId : Int) : Option Int :=
  if (mixer.participants.find? partId).isSome && mixer.conf.has partId then some partId else none

def getFloorRequestId (partId : Int) : Int :=
  (mixer.floorRequests.find? partId).getD 0

/-- The floor has been given back before. -/
def tearDownSharing : SharedDocMixer :=
  let p := mixer.sharing
  let mixer := { mixer with part := none }
  match p with
  | none => mixer
  | some p =>
    { mixer with conf := (mixer.conf.stopPresentation p).onRequestDocSharing p .none }

def shareSecondaryStream (part : Int) : SharedDocMixer :=
  let currentPart := mixer.sharing
  let mixer :=
    if currentPart.isSome ∧ currentPart ≠ some part then mixer.tearDownSharing else mixer
  let mixer := { mixer with part := some part }
  if currentPart = some part then mixer
  else
    { mixer with conf := (mixer.conf.startPresentation part).onRequestDocSharing part .active }

def onFloorGranted (beneficiaryId : Int) : SharedDocMixer :=
  match mixer.getParticipant beneficiaryId with
  | none => mixer
  | some granted => mixer.shareSecondaryStream granted

def onFloorReleased (beneficiaryId : Int) : SharedDocMixer :=
  let mixer := { mixer with floorRequests := mixer.floorRequests.erase beneficiaryId }
  if mixer.sharing = some beneficiaryId then mixer.tearDownSharing else mixer

/-- The notifications of a revocation that a notification has started: at most a release. -/
def notifyInner : Notification → SharedDocMixer
  | .onFloorGranted _ beneficiaryId _ => mixer.onFloorGranted beneficiaryId
  | .onFloorReleased _ beneficiaryId _ => mixer.onFloorReleased beneficiaryId
  | .onFloorRequest .. | .onUserConnected _ => mixer

def onFloorRequest (floorRequestId userId : Int) : SharedDocMixer :=
  if mixer.sharing = some userId then mixer
  else
    let previous := mixer.sharing.elim 0 mixer.getFloorRequestId
    let mixer :=
      match mixer.bfcpServer with
      | none => mixer
      | some server =>
        if previous = 0 then mixer
        else
          let turn :=
            (Turn.revokeFloorRequestLocked { server } previous "granted to other user").1
          turn.pending.foldl notifyInner { mixer with bfcpServer := some turn.server }
    { mixer with
      floorRequests := mixer.floorRequests.insert userId floorRequestId
      conf := mixer.conf.onRequestDocSharing userId .waitingAccept }

/-- `NotifyFloorStatus` of the server, which notifies nobody here. -/
def notifyFloorStatus (userId : Int) : SharedDocMixer :=
  { mixer with
    bfcpServer :=
      mixer.bfcpServer.map (fun server =>
        (Turn.notifyFloorStatus { server } userId floorId).1.server) }

def setSharedMosaic (mosaicId : Int) : SharedDocMixer :=
  let mixer := { mixer with sharedMosaic := mosaicId }
  match mixer.sharing with
  | none => mixer
  | some currentPart => mixer.notifyFloorStatus currentPart

def onUserConnected (userId : Int) : SharedDocMixer :=
  if mixer.sharedMosaic < 0 then mixer
  else (mixer.setSharedMosaic mixer.sharedMosaic).notifyFloorStatus userId

def notify : Notification → SharedDocMixer
  | .onFloorRequest floorRequestId userId _ _ => mixer.onFloorRequest floorRequestId userId
  | .onFloorGranted _ beneficiaryId _ => mixer.onFloorGranted beneficiaryId
  | .onFloorReleased _ beneficiaryId _ => mixer.onFloorReleased beneficiaryId
  | .onUserConnected userId => mixer.onUserConnected userId

/-- The notifications of a locked section, in order. -/
def fire (turn : Turn) : SharedDocMixer :=
  turn.pending.foldl notify { mixer with bfcpServer := some turn.server }

/-- One operation of the server: the locked section, then its notifications. -/
def callServer (op : Op) : SharedDocMixer :=
  match mixer.bfcpServer with
  | none => mixer
  | some server => mixer.fire (Turn.apply { server } op)

/-! What the controller and the conference ask for. -/

def acceptDocSharingRequest (partId : Int) : SharedDocMixer :=
  if mixer.getFloorRequestId partId = 0 then mixer
  else mixer.callServer (.grantFloorRequest (mixer.getFloorRequestId partId))

def refuseDocSharingRequest (partId : Int) : SharedDocMixer :=
  let floorRequestId := mixer.getFloorRequestId partId
  match mixer.bfcpServer with
  | none => mixer
  | some server =>
    if floorRequestId = 0 then mixer
    else if
      (Turn.denyFloorRequestLocked { server } floorRequestId "refused by the conference").2
    then
      let mixer :=
        mixer.callServer (.denyFloorRequest floorRequestId "refused by the conference")
      { mixer with
        floorRequests := mixer.floorRequests.erase partId
        conf := mixer.conf.onRequestDocSharing partId .none }
    else mixer

/-- The floor is given back first, and its release leads to the rest. -/
def stopSharing : SharedDocMixer :=
  let floorRequestId := mixer.sharing.elim 0 mixer.getFloorRequestId
  if mixer.bfcpServer.isSome ∧ floorRequestId ≠ 0 then
    mixer.callServer (.revokeFloorRequest floorRequestId "stopped by the conference")
  else mixer.tearDownSharing

def stopSharingOf (partId : Int) : SharedDocMixer :=
  if mixer.sharing = some partId then mixer.stopSharing else mixer

def startBfcpServer (confId partId : Int) : SharedDocMixer :=
  let server :=
    mixer.bfcpServer.getD
      (Turn.addFloor { server := { conferenceId := confId } } floorId).1.server
  { mixer with
    bfcpServer := some (Turn.addUser { server } partId).1.server
    participants := mixer.participants.insert partId () }

def addParticipant (confId partId : Int) (mode : DocSharingMode) : SharedDocMixer :=
  let mixer :=
    { mixer with
      conf :=
        { mixer.conf with participants := mixer.conf.participants.insert partId mode } }
  match mode with
  | .none => mixer
  | .bfcpTcp | .bfcpUdp => mixer.startBfcpServer confId partId

def removeParticipant (partId : Int) : SharedDocMixer :=
  match mixer.conf.participants.find? partId with
  | none | some .none => mixer
  | some .bfcpTcp | some .bfcpUdp =>
    let mixer := mixer.callServer (.removeUser partId)
    { mixer with
      floorRequests := mixer.floorRequests.erase partId
      participants := mixer.participants.erase partId }

def stopBfcpServer : SharedDocMixer :=
  let mixer := { mixer with floorRequests := .empty, participants := .empty }
  { mixer.callServer .endConference with bfcpServer := none }

def deleteParticipant (partId : Int) : SharedDocMixer :=
  let mixer := (mixer.stopSharingOf partId).removeParticipant partId
  let mixer :=
    { mixer with
      conf := { mixer.conf with participants := mixer.conf.participants.erase partId } }
  if mixer.conf.participants.entries.isEmpty then mixer.stopBfcpServer else mixer

def createParticipant (partId : Int) : SharedDocMixer :=
  if partId < mixer.conf.maxId then mixer
  else
    { mixer with
      conf :=
        { mixer.conf with
          participants := mixer.conf.participants.insert partId .none
          maxId := partId + 1 } }

end SharedDocMixer

/-- A message is given to the server only when nothing mandatory is missing in it. -/
structure ValidMessage where
  msg : WireMessage
  valid : msg.attributes.isValid = true

/-- What happens to a conference with document sharing. The other sources of a conference take
numbers too, so a new participant may skip some.
-/
inductive SharingEvent
  | create (partId : Int)
  | addParticipant (confId partId : Int) (mode : DocSharingMode)
  | deleteParticipant (partId : Int)
  | accept (partId : Int)
  | refuse (partId : Int)
  | stopSharing
  | stopSharingOf (partId : Int)
  | setSharedMosaic (mosaicId : Int)
  | received (message : ValidMessage) (source : BFCPTransport)
  | userConnected (userId : Int) (transport : BFCPTransport)
  | userDisconnected (userId : Int) (transport : BFCPTransport)
  | transportClosed (transport : BFCPTransport)

namespace SharedDocMixer

/-- The calls by number do nothing for a participant that does not exist. -/
def step (mixer : SharedDocMixer) : SharingEvent → SharedDocMixer
  | .create partId => mixer.createParticipant partId
  | .addParticipant confId partId mode =>
    if mixer.conf.has partId then mixer.addParticipant confId partId mode else mixer
  | .deleteParticipant partId =>
    if mixer.conf.has partId then mixer.deleteParticipant partId else mixer
  | .accept partId =>
    if mixer.conf.has partId then mixer.acceptDocSharingRequest partId else mixer
  | .refuse partId =>
    if mixer.conf.has partId then mixer.refuseDocSharingRequest partId else mixer
  | .stopSharing => mixer.stopSharing
  | .stopSharingOf partId =>
    if mixer.conf.has partId then mixer.stopSharingOf partId else mixer
  | .setSharedMosaic mosaicId => mixer.setSharedMosaic mosaicId
  | .received message source =>
    mixer.callServer (.messageReceived message.msg.toServer source)
  | .userConnected userId transport => mixer.callServer (.userConnected userId transport)
  | .userDisconnected userId transport => mixer.callServer (.userDisconnected userId transport)
  | .transportClosed transport => mixer.callServer (.transportClosed transport)

end SharedDocMixer

end MediaServer.Bfcp
