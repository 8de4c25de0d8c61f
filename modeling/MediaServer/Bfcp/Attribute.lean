import MediaServer.Bfcp.Message
import MediaServer.Foundation.Buffers
import MediaServer.Medkit

/-! The attributes of BFCP messages on the wire: a type, a length that counts the header and
not the padding, the contents, and the padding up to the next four octets.
-/

namespace MediaServer.Bfcp

open Foundation

namespace AttributeName

def code : AttributeName → BYTE
  | .beneficiaryId => 1
  | .floorId => 2
  | .floorRequestId => 3
  | .priority => 4
  | .requestStatus => 5
  | .errorCode => 6
  | .errorInfo => 7
  | .participantProvidedInfo => 8
  | .statusInfo => 9
  | .supportedAttributes => 10
  | .supportedPrimitives => 11
  | .userDisplayName => 12
  | .userUri => 13
  | .beneficiaryInformation => 14
  | .floorRequestInformation => 15
  | .requestedByInformation => 16
  | .floorRequestStatus => 17
  | .overallRequestStatus => 18

def all : List AttributeName :=
  [.beneficiaryId, .floorId, .floorRequestId, .priority, .requestStatus, .errorCode,
    .errorInfo, .participantProvidedInfo, .statusInfo, .supportedAttributes,
    .supportedPrimitives, .userDisplayName, .userUri, .beneficiaryInformation,
    .floorRequestInformation, .requestedByInformation, .floorRequestStatus,
    .overallRequestStatus]

def ofCode? (type : BYTE) : Option AttributeName := all.find? (fun name => name.code = type)

end AttributeName

namespace Status

def code : Status → BYTE
  | .pending => 1
  | .accepted => 2
  | .granted => 3
  | .denied => 4
  | .cancelled => 5
  | .released => 6
  | .revoked => 7

/-- A status outside of the enumeration is refused. -/
def ofCode? (status : BYTE) : Option Status :=
  [Status.pending, .accepted, .granted, .denied, .cancelled, .released, .revoked].find?
    (fun name => name.code = status)

end Status

namespace BFCPAttribute

def headerLen : Nat := 2

def maxLength : Nat := 255

/-- `(length + 3) & ~3`. -/
def padded (length : Nat) : Nat := (length + 3) / 4 * 4

def write (type : AttributeName) (mandatory : Bool) (contents : List BYTE) : Writer BYTE :=
  fun max =>
    let length := headerLen + contents.length
    if length > maxLength then none
    else if padded length > max then none
    else
      some ([(type.code <<< 1) ||| (if mandatory then 1 else 0), .ofNat length] ++ contents
        ++ List.replicate (padded length - length) 0)

def readWord (medkit : Medkit) (contents : List BYTE) : Outcome Int :=
  if contents.length < 2 then .refused
  else do
    let high ← elementAt contents 0
    let low ← elementAt contents 1
    return (medkit.get2 high low).toNat

end BFCPAttribute

/-- What a cursor gives away about the attribute it stands on. -/
structure Attribute where
  type : BYTE
  mandatory : Bool
  contents : List BYTE
  deriving DecidableEq

/-- Walks a sequence of attributes, represented by what is left of it. -/
structure BFCPAttrCursor where
  left : List BYTE

namespace BFCPAttrCursor

open BFCPAttribute

/-- The next attribute. There is none at a clean end, and a malformed one is refused. -/
def next (cursor : BFCPAttrCursor) : Outcome (Option (Attribute × BFCPAttrCursor)) :=
  if cursor.left.length = 0 then .value none
  else if headerLen > cursor.left.length then .refused
  else do
    let length := (← elementAt cursor.left 1).toNat
    -- a length below its own header would leave the cursor in place
    if length < headerLen then .refused
    else if padded length > cursor.left.length then .refused
    else do
      let octets ← slice cursor.left 0 (padded length)
      let tag ← elementAt octets 0
      let contents ← slice octets headerLen (length - headerLen)
      return some (⟨tag >>> 1, (tag &&& 1) != 0, contents⟩, ⟨cursor.left.drop (padded length)⟩)

/-- `while (cursor.Next()) ...` with a bound on the number of rounds. -/
def walkFor {σ : Type} (body : σ → Attribute → Outcome σ)
    : Nat → BFCPAttrCursor → σ → Outcome σ
  | 0, _, _ => .fault
  | rounds + 1, cursor, state => do
      match ← cursor.next with
      | none => return state
      | some (item, rest) => walkFor body rounds rest (← body state item)

/-- The loop over all attributes of some octets; the bound is never reached. -/
def walk {σ : Type} (body : σ → Attribute → Outcome σ) (octets : List BYTE) (state : σ)
    : Outcome σ :=
  walkFor body (octets.length + 1) ⟨octets⟩ state

end BFCPAttrCursor

def skipUnknown {σ : Type} (state : σ) (item : Attribute) : Outcome σ :=
  if item.mandatory then .refused else .value state

section Scalars

open BFCPAttribute

variable (medkit : Medkit)

def serializeWord (type : AttributeName) (value : Int) (mandatory : Bool) : Writer BYTE :=
  write type mandatory (put2 medkit (.ofInt value))

variable (contents : List BYTE)

def parseGroup : Outcome (Int × List BYTE) := do
  let id ← readWord medkit contents
  let children ← slice contents 2 (contents.length - 2)
  return (id, children)

/-- The children of a group that keeps none of them still have to be well formed. -/
def parseWord : Outcome Int := do
  let (id, children) ← parseGroup medkit contents
  BFCPAttrCursor.walk (fun id _ => .value id) children id

def BFCPAttrFloorId.serialize : Int → Bool → Writer BYTE := serializeWord medkit .floorId

def BFCPAttrBeneficiaryId.serialize : Int → Bool → Writer BYTE :=
  serializeWord medkit .beneficiaryId

def BFCPAttrFloorRequestId.serialize : Int → Bool → Writer BYTE :=
  serializeWord medkit .floorRequestId

def BFCPAttrBeneficiaryInformation.serialize : Int → Bool → Writer BYTE :=
  serializeWord medkit .beneficiaryInformation

def BFCPAttrBeneficiaryInformation.parse : List BYTE → Outcome Int := parseWord medkit

def BFCPAttrRequestedByInformation.serialize : Int → Bool → Writer BYTE :=
  serializeWord medkit .requestedByInformation

def BFCPAttrRequestedByInformation.parse : List BYTE → Outcome Int := parseWord medkit

def BFCPAttrErrorInfo.serialize (value : List BYTE) (mandatory : Bool) : Writer BYTE :=
  write .errorInfo mandatory value

def BFCPAttrParticipantProvidedInfo.serialize (value : List BYTE) (mandatory : Bool)
    : Writer BYTE :=
  write .participantProvidedInfo mandatory value

def BFCPAttrStatusInfo.serialize (value : List BYTE) (mandatory : Bool) : Writer BYTE :=
  write .statusInfo mandatory value

def BFCPAttrErrorCode.serialize (value : BYTE) (mandatory : Bool) : Writer BYTE :=
  write .errorCode mandatory [value]

/-- Error specific details are skipped. -/
def BFCPAttrErrorCode.parse : Outcome BYTE :=
  if contents.length < 1 then .refused else elementAt contents 0

def RequestStatus.serialize (status : RequestStatus) (mandatory : Bool) : Writer BYTE :=
  write .requestStatus mandatory [status.status.code, .ofInt status.queuePosition]

def RequestStatus.parse : Outcome RequestStatus :=
  if contents.length < 2 then .refused
  else do
    let status ← .ofOption (Status.ofCode? (← elementAt contents 0))
    return ⟨status, (← elementAt contents 1).toNat⟩

end Scalars

/-- Codes without repetition, in the order in which they were added. -/
abbrev SupportedCodes := { codes : List BYTE // codes.Nodup }

namespace SupportedCodes

def empty : SupportedCodes := ⟨[], .nil⟩

def add (supported : SupportedCodes) (code : BYTE) : SupportedCodes :=
  if present : code ∈ supported.val then supported
  else
    ⟨supported.val ++ [code], by
      have fresh : ∀ other ∈ supported.val, other ≠ code := by
        rintro other member rfl
        exact present member
      simpa [List.nodup_append, supported.property] using fresh⟩

end SupportedCodes

open BFCPAttribute

/-- The contents buffer holds `MaxLength` octets; what does not fit would be cut off here, and
is refused by `Write`, whose limit is lower.
-/
def BFCPAttrSupportedPrimitives.serialize (supported : SupportedCodes) (mandatory : Bool)
    : Writer BYTE :=
  write .supportedPrimitives mandatory (supported.val.take maxLength)

/-- An attribute type has seven bits and is shifted as in an attribute header. -/
def BFCPAttrSupportedAttributes.serialize (supported : SupportedCodes) (mandatory : Bool)
    : Writer BYTE :=
  write .supportedAttributes mandatory
    ((supported.val.take maxLength).map (fun code => code <<< (1 : BYTE)))

structure BFCPAttrFloorRequestStatus where
  floorId : Int
  requestStatus : Option RequestStatus := none
  deriving DecidableEq

structure BFCPAttrOverallRequestStatus where
  floorRequestId : Int
  requestStatus : Option RequestStatus := none
  statusInfo : Option (List BYTE) := none
  deriving DecidableEq

structure BFCPAttrFloorRequestInformation where
  floorRequestId : Int
  overallRequestStatus : Option BFCPAttrOverallRequestStatus := none
  floorRequestStatuses : List BFCPAttrFloorRequestStatus := []
  beneficiaryInformation : Option Int := none
  requestedByInformation : Option Int := none
  deriving DecidableEq

section Groups

variable (medkit : Medkit)

/-- A grouped attribute: its identifier and its children in a buffer of `MaxLength` octets. -/
def serializeGroup (type : AttributeName) (id : Int) (children : List (Writer BYTE))
    (mandatory : Bool) : Writer BYTE :=
  fun max => do
    let contents ← Writer.sequence children (maxLength - 2)
    write type mandatory (put2 medkit (.ofInt id) ++ contents) max

namespace BFCPAttrFloorRequestStatus

def serialize (attr : BFCPAttrFloorRequestStatus) : Bool → Writer BYTE :=
  serializeGroup medkit .floorRequestStatus attr.floorId
    (attr.requestStatus.toList.map (·.serialize false))

def parseChild (attr : BFCPAttrFloorRequestStatus) (child : Attribute)
    : Outcome BFCPAttrFloorRequestStatus :=
  match AttributeName.ofCode? child.type with
  | some .requestStatus => do
      return { attr with requestStatus := some (← RequestStatus.parse child.contents) }
  | _ => skipUnknown attr child

def parse (contents : List BYTE) : Outcome BFCPAttrFloorRequestStatus := do
  let (floorId, children) ← parseGroup medkit contents
  BFCPAttrCursor.walk parseChild children { floorId }

end BFCPAttrFloorRequestStatus

namespace BFCPAttrOverallRequestStatus

def serialize (attr : BFCPAttrOverallRequestStatus) : Bool → Writer BYTE :=
  serializeGroup medkit .overallRequestStatus attr.floorRequestId
    (attr.requestStatus.toList.map (·.serialize false)
      ++ attr.statusInfo.toList.map (BFCPAttrStatusInfo.serialize · false))

def parseChild (attr : BFCPAttrOverallRequestStatus) (child : Attribute)
    : Outcome BFCPAttrOverallRequestStatus :=
  match AttributeName.ofCode? child.type with
  | some .requestStatus => do
      return { attr with requestStatus := some (← RequestStatus.parse child.contents) }
  | some .statusInfo => return { attr with statusInfo := some child.contents }
  | _ => skipUnknown attr child

def parse (contents : List BYTE) : Outcome BFCPAttrOverallRequestStatus := do
  let (floorRequestId, children) ← parseGroup medkit contents
  BFCPAttrCursor.walk parseChild children { floorRequestId }

end BFCPAttrOverallRequestStatus

namespace BFCPAttrFloorRequestInformation

def serialize (attr : BFCPAttrFloorRequestInformation) : Bool → Writer BYTE :=
  serializeGroup medkit .floorRequestInformation attr.floorRequestId
    (attr.overallRequestStatus.toList.map (·.serialize medkit false)
      ++ attr.floorRequestStatuses.map (·.serialize medkit true)
      ++ attr.beneficiaryInformation.toList.map
        (BFCPAttrBeneficiaryInformation.serialize medkit · false)
      ++ attr.requestedByInformation.toList.map
        (BFCPAttrRequestedByInformation.serialize medkit · false))

def parseChild (attr : BFCPAttrFloorRequestInformation) (child : Attribute)
    : Outcome BFCPAttrFloorRequestInformation :=
  match AttributeName.ofCode? child.type with
  | some .overallRequestStatus => do
      let overall ← BFCPAttrOverallRequestStatus.parse medkit child.contents
      return { attr with overallRequestStatus := some overall }
  | some .floorRequestStatus => do
      let status ← BFCPAttrFloorRequestStatus.parse medkit child.contents
      return { attr with floorRequestStatuses := attr.floorRequestStatuses ++ [status] }
  | some .beneficiaryInformation => do
      let beneficiary ← BFCPAttrBeneficiaryInformation.parse medkit child.contents
      return { attr with beneficiaryInformation := some beneficiary }
  | some .requestedByInformation => do
      let requestedBy ← BFCPAttrRequestedByInformation.parse medkit child.contents
      return { attr with requestedByInformation := some requestedBy }
  | _ => skipUnknown attr child

def parse (contents : List BYTE) : Outcome BFCPAttrFloorRequestInformation := do
  let (floorRequestId, children) ← parseGroup medkit contents
  BFCPAttrCursor.walk (parseChild medkit) children { floorRequestId }

end BFCPAttrFloorRequestInformation

end Groups

end MediaServer.Bfcp
