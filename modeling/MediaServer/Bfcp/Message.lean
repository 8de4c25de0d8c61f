import Mathlib.Data.Int.Order.Basic
import MediaServer.Rtp.Packet

/-! The BFCP messages that a floor control server receives and builds.
Identifiers are the signed integers of the interface, not only their wire range.
-/

namespace MediaServer.Bfcp

inductive Primitive
  | floorRequest | floorRelease | floorRequestQuery | floorRequestStatus | userQuery
  | userStatus | floorQuery | floorStatus | chairAction | chairActionAck | hello | helloAck
  | error | floorRequestStatusAck | floorStatusAck | goodbye | goodbyeAck
  deriving DecidableEq

inductive AttributeName
  | beneficiaryId | floorId | floorRequestId | priority | requestStatus | errorCode
  | errorInfo | participantProvidedInfo | statusInfo | supportedAttributes
  | supportedPrimitives | userDisplayName | userUri | beneficiaryInformation
  | floorRequestInformation | requestedByInformation | floorRequestStatus
  | overallRequestStatus
  deriving DecidableEq

inductive ErrorCode
  | conferenceDoesNotExist | userDoesNotExist | unknownPrimitive
  | unknownMandatoryAttribute | unauthorizedOperation | invalidFloorId
  | floorRequestIdDoesNotExist | floorRequestMaxNumberReached | useTls | unableToParse
  | useDtls | unsupportedVersion | incorrectMessageLength | genericError
  deriving DecidableEq

inductive Status
  | pending | accepted | granted | denied | cancelled | released | revoked
  deriving DecidableEq

structure RequestStatus where
  status : Status
  queuePosition : Int
  deriving DecidableEq

structure FloorRequestInformation where
  floorRequestId : Int
  floorRequestStatuses : List (Int × RequestStatus)
  overallRequestStatus : RequestStatus
  statusInfo : Option String := none
  beneficiaryId : Int
  requestedById : Int
  deriving DecidableEq

/-- The attributes of a valid message. A mandatory attribute is a plain field, so a message
that lacks one cannot be built.
-/
inductive Body
  | floorRequest (floorIds : List Int) (beneficiaryId : Option Int)
  | floorRelease (floorRequestId : Int)
  | floorQuery (floorIds : List Int)
  | floorRequestStatus (information : FloorRequestInformation)
  | floorStatus (floorId : Option Int) (informations : List FloorRequestInformation)
  | hello
  | helloAck (primitives : List Primitive) (attributes : List AttributeName)
  | error (errorCode : ErrorCode) (errorInfo : Option String)
  | floorRequestStatusAck
  | floorStatusAck
  | goodbye
  | goodbyeAck
  /-- A primitive that the codec hands up without reading its attributes. -/
  | unsupported (primitive : BYTE)
  deriving DecidableEq

structure BFCPMessage where
  body : Body
  transactionId : Int
  conferenceId : Int
  userId : Int
  responder : Bool := false
  deriving DecidableEq

/-- The wire side of one user. -/
structure BFCPTransport where
  handle : Nat
  isReliable : Bool
  deriving DecidableEq

/-- What the listener is told once the lock is released. -/
inductive Notification
  | onFloorRequest (floorRequestId userId beneficiaryId : Int) (floorIds : List Int)
  | onFloorGranted (floorRequestId beneficiaryId : Int) (floorIds : List Int)
  | onFloorReleased (floorRequestId beneficiaryId : Int) (floorIds : List Int)
  | onUserConnected (userId : Int)
  deriving DecidableEq

end MediaServer.Bfcp
