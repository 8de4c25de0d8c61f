import MediaServer.Bfcp.Operations
import MediaServer.Bfcp.Wire

/-! Between the wire and the floor control server: the octets that stand for what the server
sends, and what the server sees of a message that was read.
-/

namespace MediaServer.Bfcp

open Foundation

namespace ErrorCode

def code : ErrorCode → BYTE
  | .conferenceDoesNotExist => 1
  | .userDoesNotExist => 2
  | .unknownPrimitive => 3
  | .unknownMandatoryAttribute => 4
  | .unauthorizedOperation => 5
  | .invalidFloorId => 6
  | .floorRequestIdDoesNotExist => 7
  | .floorRequestMaxNumberReached => 8
  | .useTls => 9
  | .unableToParse => 10
  | .useDtls => 11
  | .unsupportedVersion => 12
  | .incorrectMessageLength => 13
  | .genericError => 14

end ErrorCode

def octetsOf (text : String) : List BYTE := text.toUTF8.data.toList

/-- One `FloorRequestStatus` a floor, and the overall status under the identifier of the
request.
-/
def FloorRequestInformation.toAttribute (information : FloorRequestInformation)
    : BFCPAttrFloorRequestInformation where
  floorRequestId := information.floorRequestId
  overallRequestStatus :=
    some
      { floorRequestId := information.floorRequestId
        requestStatus := some information.overallRequestStatus
        statusInfo := information.statusInfo.map octetsOf }
  floorRequestStatuses :=
    information.floorRequestStatuses.map (fun entry =>
      { floorId := entry.1, requestStatus := some entry.2 })
  beneficiaryInformation := some information.beneficiaryId
  requestedByInformation := some information.requestedById

namespace Body

def toAttributes : Body → MessageAttributes
  | .floorRequest floorIds beneficiaryId => .floorRequest floorIds beneficiaryId none
  | .floorRelease floorRequestId => .floorRelease (some floorRequestId)
  | .floorQuery floorIds => .floorQuery floorIds
  | .floorRequestStatus information => .floorRequestStatus (some information.toAttribute)
  | .floorStatus floorId informations =>
    .floorStatus floorId (informations.map FloorRequestInformation.toAttribute)
  | .hello => .hello
  | .helloAck primitives attributes =>
    .helloAck ((primitives.map Primitive.code).foldl SupportedCodes.add .empty)
      ((attributes.map AttributeName.code).foldl SupportedCodes.add .empty)
  | .error errorCode errorInfo => .error (some errorCode.code) (errorInfo.map octetsOf)
  | .floorRequestStatusAck => .base ⟨Primitive.floorRequestStatusAck.code, by decide⟩
  | .floorStatusAck => .base ⟨Primitive.floorStatusAck.code, by decide⟩
  | .goodbye => .base ⟨Primitive.goodbye.code, by decide⟩
  | .goodbyeAck => .base ⟨Primitive.goodbyeAck.code, by decide⟩
  | .unsupported primitive => .ofPrimitive primitive

end Body

def BFCPMessage.toWire (msg : BFCPMessage) : WireMessage where
  attributes := msg.body.toAttributes
  transactionId := msg.transactionId
  conferenceId := msg.conferenceId
  userId := msg.userId
  responder := msg.responder

/-- What the server looks at. It answers a `FloorRequestStatus` or a `FloorStatus` like a
primitive that it does not know, and reads nothing of a `HelloAck` or an `Error`.
-/
def MessageAttributes.toBody : MessageAttributes → Body
  | .floorRequest floorIds beneficiaryId _ => .floorRequest floorIds beneficiaryId
  | .floorRelease floorRequestId => .floorRelease (floorRequestId.getD 0)
  | .floorQuery floorIds => .floorQuery floorIds
  | .floorRequestStatus _ => .unsupported Primitive.floorRequestStatus.code
  | .floorStatus .. => .unsupported Primitive.floorStatus.code
  | .hello => .hello
  | .helloAck .. => .helloAck [] []
  | .error .. => .error .genericError none
  | .base primitive =>
    if primitive.val = Primitive.floorRequestStatusAck.code then .floorRequestStatusAck
    else if primitive.val = Primitive.floorStatusAck.code then .floorStatusAck
    else if primitive.val = Primitive.goodbye.code then .goodbye
    else if primitive.val = Primitive.goodbyeAck.code then .goodbyeAck
    else .unsupported primitive.val

def WireMessage.toServer (msg : WireMessage) : BFCPMessage where
  body := msg.attributes.toBody
  transactionId := msg.transactionId
  conferenceId := msg.conferenceId
  userId := msg.userId
  responder := msg.responder

end MediaServer.Bfcp
