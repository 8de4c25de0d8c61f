import MediaServer.Bfcp.Attribute

/-! BFCP messages on the wire: the common header of twelve octets and the attributes that
the class of the primitive holds.
-/

namespace MediaServer.Bfcp

open Foundation BFCPAttribute

namespace Primitive

def code : Primitive → BYTE
  | .floorRequest => 1
  | .floorRelease => 2
  | .floorRequestQuery => 3
  | .floorRequestStatus => 4
  | .userQuery => 5
  | .userStatus => 6
  | .floorQuery => 7
  | .floorStatus => 8
  | .chairAction => 9
  | .chairActionAck => 10
  | .hello => 11
  | .helloAck => 12
  | .error => 13
  | .floorRequestStatusAck => 14
  | .floorStatusAck => 15
  | .goodbye => 16
  | .goodbyeAck => 17

end Primitive

def typedPrimitives : List BYTE :=
  [Primitive.floorRequest.code, Primitive.floorRelease.code, Primitive.floorQuery.code,
    Primitive.floorRequestStatus.code, Primitive.floorStatus.code, Primitive.hello.code,
    Primitive.helloAck.code, Primitive.error.code]

/-- A message class with the attributes it holds. A message of the base class carries any
other primitive and no attribute.
-/
inductive MessageAttributes
  | floorRequest (floorIds : List Int) (beneficiaryId : Option Int)
    (participantProvidedInfo : Option (List BYTE))
  | floorRelease (floorRequestId : Option Int)
  | floorQuery (floorIds : List Int)
  | floorRequestStatus (floorRequestInformation : Option BFCPAttrFloorRequestInformation)
  | floorStatus (floorId : Option Int)
    (floorRequestInformations : List BFCPAttrFloorRequestInformation)
  | hello
  | helloAck (supportedPrimitives supportedAttributes : SupportedCodes)
  | error (errorCode : Option BYTE) (errorInfo : Option (List BYTE))
  | base (primitive : { code : BYTE // code ∉ typedPrimitives })
  deriving DecidableEq

structure WireMessage where
  attributes : MessageAttributes
  transactionId : Int
  conferenceId : Int
  userId : Int
  version : Nat := 1
  responder : Bool := false
  deriving DecidableEq

namespace MessageAttributes

def primitive : MessageAttributes → BYTE
  | .floorRequest .. => Primitive.floorRequest.code
  | .floorRelease .. => Primitive.floorRelease.code
  | .floorQuery .. => Primitive.floorQuery.code
  | .floorRequestStatus .. => Primitive.floorRequestStatus.code
  | .floorStatus .. => Primitive.floorStatus.code
  | .hello => Primitive.hello.code
  | .helloAck .. => Primitive.helloAck.code
  | .error .. => Primitive.error.code
  | .base primitive => primitive.val

def ofPrimitive (primitive : BYTE) : MessageAttributes :=
  if untyped : primitive ∉ typedPrimitives then .base ⟨primitive, untyped⟩
  else if primitive = Primitive.floorRequest.code then .floorRequest [] none none
  else if primitive = Primitive.floorRelease.code then .floorRelease none
  else if primitive = Primitive.floorQuery.code then .floorQuery []
  else if primitive = Primitive.floorRequestStatus.code then .floorRequestStatus none
  else if primitive = Primitive.floorStatus.code then .floorStatus none []
  else if primitive = Primitive.hello.code then .hello
  else if primitive = Primitive.helloAck.code then .helloAck .empty .empty
  else .error none none

/-- Nothing mandatory is missing. A HelloAck is taken without its lists. -/
def isValid : MessageAttributes → Bool
  | .floorRequest floorIds _ _ => 1 ≤ floorIds.length
  | .floorRelease floorRequestId => floorRequestId.isSome
  | .floorRequestStatus floorRequestInformation => floorRequestInformation.isSome
  | .error errorCode _ => errorCode.isSome
  | .floorQuery _ | .floorStatus .. | .hello | .helloAck .. | .base _ => true

section Codec

variable (medkit : Medkit)

/-- What each class writes, one attribute after the other; `none` where it holds no attribute
that it has to write.
-/
def writers : MessageAttributes → Option (List (Writer BYTE))
  | .floorRequest floorIds beneficiaryId participantProvidedInfo =>
    some (floorIds.map (BFCPAttrFloorId.serialize medkit · true)
      ++ beneficiaryId.toList.map (BFCPAttrBeneficiaryId.serialize medkit · false)
      ++ participantProvidedInfo.toList.map (BFCPAttrParticipantProvidedInfo.serialize · false))
  | .floorRelease floorRequestId =>
    floorRequestId.map (fun id => [BFCPAttrFloorRequestId.serialize medkit id true])
  | .floorQuery floorIds => some (floorIds.map (BFCPAttrFloorId.serialize medkit · false))
  | .floorRequestStatus floorRequestInformation =>
    floorRequestInformation.map (fun information => [information.serialize medkit true])
  | .floorStatus floorId floorRequestInformations =>
    some (floorId.toList.map (BFCPAttrFloorId.serialize medkit · false)
      ++ floorRequestInformations.map (·.serialize medkit false))
  | .helloAck supportedPrimitives supportedAttributes =>
    some [BFCPAttrSupportedPrimitives.serialize supportedPrimitives true,
      BFCPAttrSupportedAttributes.serialize supportedAttributes true]
  | .error errorCode errorInfo =>
    errorCode.map (fun code =>
      BFCPAttrErrorCode.serialize code true
        :: errorInfo.toList.map (BFCPAttrErrorInfo.serialize · false))
  | .hello | .base _ => some []

def serializeAttributes (attributes : MessageAttributes) : Writer BYTE :=
  fun max => (attributes.writers medkit).bind (Writer.sequence · max)

/-- One round of `ParseAttributes`. The base class keeps no attribute, mandatory or not. -/
def parseAttribute (attributes : MessageAttributes) (item : Attribute)
    : Outcome MessageAttributes :=
  match attributes with
  | .floorRequest floorIds beneficiaryId participantProvidedInfo =>
    match AttributeName.ofCode? item.type with
    | some .floorId => do
        let floorId ← readWord medkit item.contents
        return .floorRequest (floorIds ++ [floorId]) beneficiaryId participantProvidedInfo
    | some .beneficiaryId => do
        let beneficiaryId ← readWord medkit item.contents
        return .floorRequest floorIds (some beneficiaryId) participantProvidedInfo
    | some .participantProvidedInfo =>
      return .floorRequest floorIds beneficiaryId (some item.contents)
    | some .priority => return attributes
    | _ => skipUnknown attributes item
  | .floorRelease _ =>
    match AttributeName.ofCode? item.type with
    | some .floorRequestId => do
        return .floorRelease (some (← readWord medkit item.contents))
    | _ => skipUnknown attributes item
  | .floorQuery floorIds =>
    match AttributeName.ofCode? item.type with
    | some .floorId => do
        return .floorQuery (floorIds ++ [← readWord medkit item.contents])
    | _ => skipUnknown attributes item
  | .floorRequestStatus _ =>
    match AttributeName.ofCode? item.type with
    | some .floorRequestInformation => do
        let information ← BFCPAttrFloorRequestInformation.parse medkit item.contents
        return .floorRequestStatus (some information)
    | _ => skipUnknown attributes item
  | .floorStatus floorId floorRequestInformations =>
    match AttributeName.ofCode? item.type with
    | some .floorId => do
        return .floorStatus (some (← readWord medkit item.contents)) floorRequestInformations
    | some .floorRequestInformation => do
        let information ← BFCPAttrFloorRequestInformation.parse medkit item.contents
        return .floorStatus floorId (floorRequestInformations ++ [information])
    | _ => skipUnknown attributes item
  | .helloAck supportedPrimitives supportedAttributes =>
    match AttributeName.ofCode? item.type with
    | some .supportedPrimitives =>
      return .helloAck (item.contents.foldl SupportedCodes.add supportedPrimitives)
        supportedAttributes
    | some .supportedAttributes =>
      return .helloAck supportedPrimitives
        ((item.contents.map (fun octet => octet >>> (1 : BYTE))).foldl SupportedCodes.add
          supportedAttributes)
    | _ => skipUnknown attributes item
  | .error errorCode errorInfo =>
    match AttributeName.ofCode? item.type with
    | some .errorCode => do
        return .error (some (← BFCPAttrErrorCode.parse item.contents)) errorInfo
    | some .errorInfo => return .error errorCode (some item.contents)
    | _ => skipUnknown attributes item
  | .hello | .base _ => return attributes

def parseAttributes (attributes : MessageAttributes) (octets : List BYTE)
    : Outcome MessageAttributes :=
  BFCPAttrCursor.walk (parseAttribute medkit) octets attributes

end Codec

end MessageAttributes

namespace WireMessage

def headerLen : Nat := 12

def versionReliable : Nat := 1

def versionUnreliable : Nat := 2

section Codec

variable (medkit : Medkit)

/-- The common header. The payload length counts units of four octets. -/
def header (msg : WireMessage) (version payload : Nat) : List BYTE :=
  [.ofNat (version <<< 5 ||| (if msg.responder then 0x10 else 0)), msg.attributes.primitive]
    ++ put2 medkit (.ofNat (payload / 4)) ++ put4 medkit (.ofInt msg.conferenceId)
    ++ put2 medkit (.ofInt msg.transactionId) ++ put2 medkit (.ofInt msg.userId)

/-- The octets of the message in the version that the transport wants, if they fit. -/
def serialize (msg : WireMessage) (version : Nat) : Writer BYTE :=
  fun max =>
    if max < headerLen then none
    else do
      let payload ← msg.attributes.serializeAttributes medkit (max - headerLen)
      if payload.length % 4 ≠ 0 then none
      else if payload.length / 4 > 0xFFFF then none
      else some (msg.header medkit version payload.length ++ payload)

def get2At (data : List BYTE) (position : Nat) : Outcome WORD := do
  return medkit.get2 (← elementAt data position) (← elementAt data (position + 1))

def get4At (data : List BYTE) (position : Nat) : Outcome DWORD := do
  return medkit.get4 (← elementAt data position) (← elementAt data (position + 1))
    (← elementAt data (position + 2)) (← elementAt data (position + 3))

/-- The message that the octets describe, refused when they do not describe one. -/
def parse (data : List BYTE) : Outcome WireMessage :=
  if data.length < headerLen then .refused
  else do
    let flags ← elementAt data 0
    let version := (flags >>> 5).toNat
    if version ≠ versionReliable ∧ version ≠ versionUnreliable then .refused
    else if (flags &&& 0x08) ≠ 0 then .refused
    else do
      let payload := (← get2At medkit data 2).toNat * 4
      if headerLen + payload > data.length then .refused
      else do
        let primitive ← elementAt data 1
        let conferenceId ← get4At medkit data 4
        let transactionId ← get2At medkit data 8
        let userId ← get2At medkit data 10
        let octets ← slice data headerLen payload
        let attributes ← (MessageAttributes.ofPrimitive primitive).parseAttributes medkit octets
        if !attributes.isValid then .refused
        else
          return { attributes, version, transactionId := transactionId.toNat
                   -- a 32-bit word becomes a signed int
                   conferenceId := (conferenceId.toNat : Int).bmod (2 ^ 32)
                   userId := userId.toNat, responder := (flags &&& 0x10) != 0 }

end Codec

end WireMessage

end MediaServer.Bfcp
