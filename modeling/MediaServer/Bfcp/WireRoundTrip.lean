import MediaServer.Bfcp.AttributeRoundTrip
import MediaServer.Bfcp.Wire

/-! BFCP messages come back from the wire as they were sent, and reading any octets at all
stays inside of them and comes to an end.
-/

namespace MediaServer.Bfcp

open Foundation BFCPAttribute BFCPAttrCursor MessageAttributes List

/-! Reading arbitrary octets. -/

section Sound

variable (medkit : Medkit)
variable (contents : List BYTE)

theorem readWord_sound : (readWord medkit contents).Sound := by
  rw [readWord]
  split
  · exact .refused
  · refine (elementAt_sound (by omega)).bind (fun high _ => ?_)
    exact (elementAt_sound (by omega)).bind (fun low _ => .value _)

/-- The identifier is read first, so the children start inside of the contents. -/
theorem parseGroup_sound : (parseGroup medkit contents).Sound := by
  refine (readWord_sound medkit contents).bind ?_
  intro id read
  have long : 2 ≤ contents.length := by
    by_contra short
    rw [readWord, if_pos (by omega)] at read
    cases read
  exact (slice_sound (by omega)).bind (fun children _ => .value _)

theorem parseWord_sound : (parseWord medkit contents).Sound :=
  (parseGroup_sound medkit contents).bind
    (fun group _ => walk_sound (fun id _ => .value id) group.2 group.1)

theorem RequestStatus.parse_sound : (parse contents).Sound := by
  rw [parse]
  split
  · exact .refused
  · refine (elementAt_sound (by omega)).bind (fun code _ => ?_)
    refine (Outcome.Sound.ofOption _).bind (fun status _ => ?_)
    exact (elementAt_sound (by omega)).bind (fun position _ => .value _)

theorem BFCPAttrErrorCode.parse_sound : (parse contents).Sound := by
  rw [parse]
  split
  · exact .refused
  · exact elementAt_sound (by omega)

theorem skipUnknown_sound {σ : Type} (state : σ) (item : Attribute)
    : (skipUnknown state item).Sound := by
  rw [skipUnknown]
  split
  · exact .refused
  · exact .value state

theorem BFCPAttrFloorRequestStatus.parse_sound : (parse medkit contents).Sound := by
  refine (parseGroup_sound medkit contents).bind (fun group _ => ?_)
  refine walk_sound ?_ group.2 _
  intro attr child
  rw [parseChild]
  split
  · exact (RequestStatus.parse_sound _).bind (fun status _ => .value _)
  · exact skipUnknown_sound attr child

theorem BFCPAttrOverallRequestStatus.parse_sound : (parse medkit contents).Sound := by
  refine (parseGroup_sound medkit contents).bind (fun group _ => ?_)
  refine walk_sound ?_ group.2 _
  intro attr child
  rw [parseChild]
  split
  · exact (RequestStatus.parse_sound _).bind (fun status _ => .value _)
  · exact .value _
  · exact skipUnknown_sound attr child

theorem BFCPAttrFloorRequestInformation.parse_sound : (parse medkit contents).Sound := by
  refine (parseGroup_sound medkit contents).bind (fun group _ => ?_)
  refine walk_sound ?_ group.2 _
  intro attr child
  rw [parseChild]
  split
  · exact (BFCPAttrOverallRequestStatus.parse_sound medkit _).bind (fun overall _ => .value _)
  · exact (BFCPAttrFloorRequestStatus.parse_sound medkit _).bind (fun status _ => .value _)
  · exact (parseWord_sound medkit _).bind (fun beneficiary _ => .value _)
  · exact (parseWord_sound medkit _).bind (fun requestedBy _ => .value _)
  · exact skipUnknown_sound attr child

theorem MessageAttributes.parseAttribute_sound (attributes : MessageAttributes) (item : Attribute)
    : (attributes.parseAttribute medkit item).Sound := by
  have word := (readWord_sound medkit item.contents)
  have information := BFCPAttrFloorRequestInformation.parse_sound medkit item.contents
  cases attributes with
  | floorRequest floorIds beneficiaryId participantProvidedInfo =>
    rw [parseAttribute]
    split
    · exact word.bind (fun _ _ => .value _)
    · exact word.bind (fun _ _ => .value _)
    · exact .value _
    · exact .value _
    · exact skipUnknown_sound _ item
  | floorRelease floorRequestId | floorQuery floorIds =>
    rw [parseAttribute]
    split
    · exact word.bind (fun _ _ => .value _)
    · exact skipUnknown_sound _ item
  | floorRequestStatus floorRequestInformation =>
    rw [parseAttribute]
    split
    · exact information.bind (fun _ _ => .value _)
    · exact skipUnknown_sound _ item
  | floorStatus floorId floorRequestInformations =>
    rw [parseAttribute]
    split
    · exact word.bind (fun _ _ => .value _)
    · exact information.bind (fun _ _ => .value _)
    · exact skipUnknown_sound _ item
  | helloAck supportedPrimitives supportedAttributes =>
    rw [parseAttribute]
    split
    · exact .value _
    · exact .value _
    · exact skipUnknown_sound _ item
  | error errorCode errorInfo =>
    rw [parseAttribute]
    split
    · exact (BFCPAttrErrorCode.parse_sound item.contents).bind (fun _ _ => .value _)
    · exact .value _
    · exact skipUnknown_sound _ item
  | hello | base primitive => exact .value _

namespace WireMessage

theorem get2At_sound {data : List BYTE} {position : Nat} (inside : position + 1 < data.length)
    : (get2At medkit data position).Sound := by
  refine (elementAt_sound (by omega)).bind (fun high _ => ?_)
  exact (elementAt_sound (by omega)).bind (fun low _ => .value _)

theorem get4At_sound {data : List BYTE} {position : Nat} (inside : position + 3 < data.length)
    : (get4At medkit data position).Sound := by
  refine (elementAt_sound (by omega)).bind (fun _ _ => ?_)
  refine (elementAt_sound (by omega)).bind (fun _ _ => ?_)
  refine (elementAt_sound (by omega)).bind (fun _ _ => ?_)
  exact (elementAt_sound (by omega)).bind (fun _ _ => .value _)

theorem parse_sound (data : List BYTE) : (parse medkit data).Sound := by
  rw [parse]
  split
  · exact .refused
  · rename_i headed
    rw [headerLen] at headed
    refine (elementAt_sound (by omega)).bind (fun flags _ => ?_)
    dsimp only
    split
    · exact .refused
    · split
      · exact .refused
      · refine (get2At_sound medkit (by omega)).bind (fun units _ => ?_)
        split
        · exact .refused
        · rename_i announced
          refine (elementAt_sound (by omega)).bind (fun primitive _ => ?_)
          refine (get4At_sound medkit (by omega)).bind (fun conferenceId _ => ?_)
          refine (get2At_sound medkit (by omega)).bind (fun transactionId _ => ?_)
          refine (get2At_sound medkit (by omega)).bind (fun userId _ => ?_)
          refine (slice_sound (by omega)).bind (fun octets _ => ?_)
          have walked :=
            walk_sound (parseAttribute_sound medkit) octets (ofPrimitive primitive)
          refine Outcome.Sound.bind walked (fun attributes _ => ?_)
          split
          · exact .refused
          · exact .value _

end WireMessage

end Sound

/-! Reading what was written. -/

namespace MessageAttributes

/-- Identifiers, queue positions and attribute types fit their fields. -/
def Fits : MessageAttributes → Prop
  | .floorRequest floorIds beneficiaryId _ =>
    (∀ id ∈ floorIds, IsWord id) ∧ ∀ id ∈ beneficiaryId, IsWord id
  | .floorRelease floorRequestId => ∀ id ∈ floorRequestId, IsWord id
  | .floorQuery floorIds => ∀ id ∈ floorIds, IsWord id
  | .floorRequestStatus information => ∀ attr ∈ information, attr.Fits
  | .floorStatus floorId informations =>
    (∀ id ∈ floorId, IsWord id) ∧ ∀ attr ∈ informations, attr.Fits
  | .helloAck _ supportedAttributes => ∀ code ∈ supportedAttributes.val, code.toNat < 2 ^ 7
  | .hello | .error .. | .base _ => True

section Reads

variable {medkit : Medkit} (network : medkit.NetworkOrder)
include network

theorem reads_word {type : AttributeName} {value : Int} (fits : IsWord value) {mandatory : Bool}
    {before : MessageAttributes} (after : Int → MessageAttributes)
    (body
      : ∀ contents, before.parseAttribute medkit ⟨type.code, mandatory, contents⟩
        = readWord medkit contents >>= fun id => .value (after id))
    : Reads (parseAttribute medkit) before (serializeWord medkit type value mandatory)
        (after value) := by
  intro room part written
  have read := readWord_put2 network fits []
  rw [append_nil] at read
  exact ⟨type, mandatory, _, serializeWord_written written, by rw [body, read]; rfl⟩

theorem reads_information {attr : BFCPAttrFloorRequestInformation} (fits : attr.Fits)
    {mandatory : Bool} {before : MessageAttributes}
    (after : BFCPAttrFloorRequestInformation → MessageAttributes)
    (body
      : ∀ contents, before.parseAttribute medkit
          ⟨AttributeName.floorRequestInformation.code, mandatory, contents⟩
        = BFCPAttrFloorRequestInformation.parse medkit contents >>= fun attr =>
          .value (after attr))
    : Reads (parseAttribute medkit) before (attr.serialize medkit mandatory) (after attr) := by
  intro room part written
  obtain ⟨contents, isWritten, read⟩ := attr.serialize_read network fits written
  exact ⟨_, mandatory, contents, isWritten, by rw [body, read]; rfl⟩

theorem reads_floorRequest {floorIds : List Int} {beneficiaryId : Option Int}
    {info : Option (List BYTE)} (fits : (floorRequest floorIds beneficiaryId info).Fits)
    : ReadsAll (parseAttribute medkit) (floorRequest [] none none)
        (floorIds.map (BFCPAttrFloorId.serialize medkit · true)
          ++ beneficiaryId.toList.map (BFCPAttrBeneficiaryId.serialize medkit · false)
          ++ info.toList.map (BFCPAttrParticipantProvidedInfo.serialize · false))
        (floorRequest floorIds beneficiaryId info) := by
  refine .append (.append (.map (floorRequest · none none) ?_ [])
    (.optional (floorRequest floorIds · none) ?_)) (.optional (floorRequest floorIds _) ?_)
  · intro before id member
    exact reads_word network (fits.1 id member) (fun id => floorRequest (before ++ [id]) none none)
      (fun _ => rfl)
  · intro id present
    exact reads_word network (fits.2 id present) (fun id => floorRequest floorIds (some id) none)
      (fun _ => rfl)
  · intro text _ room part written
    refine ⟨_, _, _, write_written written, ?_⟩
    simp only [parseAttribute, AttributeName.ofCode?_code]
    rfl

theorem reads_floorStatus {floorId : Option Int}
    {informations : List BFCPAttrFloorRequestInformation}
    (fits : (floorStatus floorId informations).Fits)
    : ReadsAll (parseAttribute medkit) (floorStatus none [])
        (floorId.toList.map (BFCPAttrFloorId.serialize medkit · false)
          ++ informations.map (·.serialize medkit false))
        (floorStatus floorId informations) := by
  refine .append (.optional (floorStatus · []) ?_) (.map (floorStatus floorId) ?_ [])
  · intro id present
    exact reads_word network (fits.1 id present) (fun id => floorStatus (some id) []) (fun _ => rfl)
  · intro before attr member
    exact reads_information network (fits.2 attr member)
      (fun attr => floorStatus floorId (before ++ [attr])) (fun _ => rfl)

omit network in
/-- The contents buffer cuts nothing off that `Write` would accept. -/
theorem take_of_written {type : AttributeName} {mandatory : Bool} {codes part : List BYTE}
    (written : Written type mandatory (codes.take maxLength) part)
    : codes.take maxLength = codes := by
  apply take_of_length_le
  have short := written.short
  rw [length_take, headerLen, maxLength] at short
  rw [maxLength]
  omega

omit network in
theorem shift_codes {codes : List BYTE} (fits : ∀ code ∈ codes, code.toNat < 2 ^ 7)
    : (codes.map (fun code => code <<< (1 : BYTE))).map (fun octet => octet >>> (1 : BYTE))
      = codes := by
  rw [map_map]
  refine (map_congr_left ?_).trans (map_id codes)
  intro code member
  have small := fits code member
  apply UInt8.toNat_inj.mp
  simp only [Function.comp, UInt8.toNat_shiftRight, UInt8.toNat_shiftLeft]
  simp [Nat.shiftLeft_eq, Nat.shiftRight_eq_div_pow]
  omega

omit network in
theorem reads_helloAck {primitives attributes : SupportedCodes}
    (fits : (helloAck primitives attributes).Fits)
    : ReadsAll (parseAttribute medkit) (helloAck .empty .empty)
        [BFCPAttrSupportedPrimitives.serialize primitives true,
          BFCPAttrSupportedAttributes.serialize attributes true]
        (helloAck primitives attributes) := by
  have first :
      Reads (parseAttribute medkit) (helloAck .empty .empty)
        (BFCPAttrSupportedPrimitives.serialize primitives true)
        (helloAck primitives .empty) := by
    intro room part written
    have isWritten := write_written written
    rw [take_of_written isWritten] at isWritten
    refine ⟨_, _, _, isWritten, ?_⟩
    simp only [parseAttribute, AttributeName.ofCode?_code, SupportedCodes.foldl_add_empty]
    rfl
  have second :
      Reads (parseAttribute medkit) (helloAck primitives .empty)
        (BFCPAttrSupportedAttributes.serialize attributes true)
        (helloAck primitives attributes) := by
    intro room part written
    have isWritten := write_written written
    rw [map_take] at isWritten
    rw [take_of_written isWritten] at isWritten
    refine ⟨_, _, _, isWritten, ?_⟩
    simp only [parseAttribute, AttributeName.ofCode?_code, shift_codes fits,
      SupportedCodes.foldl_add_empty]
    rfl
  exact .cons first (.cons second .nil)

/-- Every class reads back what it writes. -/
theorem reads {attributes : MessageAttributes} (fits : attributes.Fits)
    {writers : List (Writer BYTE)} (writes : attributes.writers medkit = some writers)
    : ReadsAll (parseAttribute medkit) (ofPrimitive attributes.primitive) writers
        attributes := by
  cases attributes with
  | floorRequest floorIds beneficiaryId info =>
    cases writes
    exact reads_floorRequest network fits
  | floorRelease floorRequestId =>
    obtain ⟨id, rfl, rfl⟩ := Option.map_eq_some_iff.mp writes
    exact .cons (@reads_word _ network _ _ (fits id rfl) _ (floorRelease none)
      (fun id => floorRelease (some id)) (fun _ => rfl)) .nil
  | floorQuery floorIds =>
    cases writes
    refine .map floorQuery ?_ []
    intro before id member
    exact reads_word network (fits id member) (fun id => floorQuery (before ++ [id])) (fun _ => rfl)
  | floorRequestStatus information =>
    obtain ⟨attr, rfl, rfl⟩ := Option.map_eq_some_iff.mp writes
    exact .cons (@reads_information _ network _ (fits attr rfl) _ (floorRequestStatus none)
      (fun attr => floorRequestStatus (some attr)) (fun _ => rfl)) .nil
  | floorStatus floorId informations =>
    cases writes
    exact reads_floorStatus network fits
  | hello =>
    cases writes
    exact .nil
  | helloAck primitives supported =>
    cases writes
    exact reads_helloAck fits
  | error errorCode errorInfo =>
    obtain ⟨code, rfl, rfl⟩ := Option.map_eq_some_iff.mp writes
    refine .cons ?_ (.optional (error (some code)) ?_)
    · intro room part written
      exact ⟨_, _, _, write_written written, rfl⟩
    · intro text _ room part written
      exact ⟨_, _, _, write_written written, rfl⟩
  | base primitive =>
    cases writes
    rw [MessageAttributes.primitive, ofPrimitive, dif_pos primitive.property]
    exact .nil

end Reads

end MessageAttributes

namespace WireMessage

/-- The identifiers of the header and the attributes fit their fields. The conference
identifier is a signed integer of 32 bits.
-/
structure Fits (msg : WireMessage) : Prop where
  transactionId : IsWord msg.transactionId
  userId : IsWord msg.userId
  conferenceId : -2 ^ 31 ≤ msg.conferenceId ∧ msg.conferenceId < 2 ^ 31
  attributes : msg.attributes.Fits

theorem flags_octet (responder : Bool) {version : Nat}
    (known : version = versionReliable ∨ version = versionUnreliable)
    : ((UInt8.ofNat (version <<< 5 ||| (if responder then 0x10 else 0))) >>> 5).toNat = version
      ∧ (UInt8.ofNat (version <<< 5 ||| (if responder then 0x10 else 0))) &&& 0x08 = 0
      ∧ ((UInt8.ofNat (version <<< 5 ||| (if responder then 0x10 else 0)) &&& 0x10) != 0)
        = responder := by
  rcases known with rfl | rfl <;> cases responder <;> decide

theorem ofInt_conferenceId {value : Int} (fits : -2 ^ 31 ≤ value ∧ value < 2 ^ 31)
    : ((UInt32.ofInt value).toNat : Int).bmod (2 ^ 32) = value := by
  have word : ((UInt32.ofInt value).toNat : Int) = value % 2 ^ 32 := by
    rw [UInt32.ofInt]
    simp
    omega
  rw [word, Int.bmod_def]
  push_cast
  split
  · omega
  · omega

section RoundTrip

variable {medkit : Medkit} (network : medkit.NetworkOrder) {msg : WireMessage} {version max : Nat}
  {octets : List BYTE}

theorem serialize_eq (success : msg.serialize medkit version max = some octets)
    : ∃ payload, msg.attributes.serializeAttributes medkit (max - headerLen) = some payload
      ∧ payload.length % 4 = 0 ∧ payload.length / 4 ≤ 0xFFFF
      ∧ octets = msg.header medkit version payload.length ++ payload := by
  simp only [serialize] at success
  split at success
  · cases success
  · simp only [Option.bind_eq_bind, Option.bind_eq_some_iff] at success
    obtain ⟨payload, written, rest⟩ := success
    split at rest
    · cases rest
    · rename_i whole
      split at rest
      · cases rest
      · cases rest
        exact ⟨payload, written, by omega, by omega, rfl⟩

theorem length_header (payload : Nat) : (msg.header medkit version payload).length = headerLen := by
  simp [header, put2, put4, headerLen]

include network

theorem parse_header {payload : List BYTE} (valid : msg.attributes.isValid = true)
    (fits : msg.Fits) (known : version = versionReliable ∨ version = versionUnreliable)
    (whole : payload.length % 4 = 0) (short : payload.length / 4 ≤ 0xFFFF)
    (read
      : (ofPrimitive msg.attributes.primitive).parseAttributes medkit payload
        = .value msg.attributes)
    : parse medkit (msg.header medkit version payload.length ++ payload)
      = .value { msg with version } := by
  obtain ⟨versionRead, unfragmented, responderRead⟩ := flags_octet msg.responder known
  have headed := @length_header medkit msg version payload.length
  have units : (UInt16.ofNat (payload.length / 4)).toNat * 4 = payload.length := by
    rw [UInt16.toNat_ofNat']
    omega
  let wire := msg.header medkit version payload.length ++ payload
  have total : wire.length = headerLen + payload.length := by
    rw [length_append, headed]
  have flags : elementAt wire 0
      = .value (.ofNat (version <<< 5 ||| (if msg.responder then 0x10 else 0))) := rfl
  have primitive : elementAt wire 1 = .value msg.attributes.primitive := rfl
  have length : get2At medkit wire 2 = .value (.ofNat (payload.length / 4)) :=
    congrArg Outcome.value (network.get2_set2 _)
  have conferenceId : get4At medkit wire 4 = .value (.ofInt msg.conferenceId) :=
    congrArg Outcome.value (network.get4_set4 _)
  have transactionId : get2At medkit wire 8 = .value (.ofInt msg.transactionId) :=
    congrArg Outcome.value (network.get2_set2 _)
  have userId : get2At medkit wire 10 = .value (.ofInt msg.userId) :=
    congrArg Outcome.value (network.get2_set2 _)
  have attributes : slice wire headerLen payload.length = .value payload := by
    rw [slice_inside (Nat.le_of_eq total.symm), ← headed, drop_left, take_length]
  show parse medkit wire = _
  rw [parse, if_neg (by omega), flags, Outcome.value_bind]
  dsimp only
  rw [versionRead, if_neg (by tauto), if_neg (by simpa using unfragmented), length,
    Outcome.value_bind, units, if_neg (by omega), primitive, conferenceId, transactionId, userId,
    attributes]
  simp only [Outcome.value_bind, read, valid, Bool.not_true, Bool.false_eq_true, if_false,
    responderRead, ofInt_conferenceId fits.conferenceId, ofInt_word fits.transactionId,
    ofInt_word fits.userId]
  rfl

end RoundTrip

/-- What was written is read back, in whole units of four octets that the header counts; and
no octets at all make the reader leave an attribute or the message, or run on for ever.
-/
theorem messages_round_trip {medkit : Medkit} (network : medkit.NetworkOrder)
    : (∀ (msg : WireMessage) (version max : Nat) (octets : List BYTE),
        msg.attributes.isValid = true → msg.Fits
        → version = versionReliable ∨ version = versionUnreliable
        → msg.serialize medkit version max = some octets
        → octets.length % 4 = 0
          ∧ (∃ units, get2At medkit octets 2 = .value units
            ∧ octets.length = headerLen + 4 * units.toNat)
          ∧ parse medkit octets = .value { msg with version })
      ∧ ∀ data, (parse medkit data).Sound := by
  refine ⟨?_, parse_sound medkit⟩
  intro msg version max octets valid fits known success
  obtain ⟨payload, written, whole, short, rfl⟩ := serialize_eq success
  have headed := @length_header medkit msg version payload.length
  have twelve : headerLen = 12 := rfl
  refine ⟨?_, ⟨.ofNat (payload.length / 4), congrArg Outcome.value (network.get2_set2 _), ?_⟩, ?_⟩
  · rw [length_append]
    omega
  · rw [length_append, headed, UInt16.toNat_ofNat']
    omega
  · simp only [serializeAttributes, Option.bind_eq_some_iff] at written
    obtain ⟨writers, writes, written⟩ := written
    exact parse_header network valid fits known whole short
      ((reads network fits.attributes writes).walk written)

def grantedStatus (queuePosition : Int) : WireMessage where
  attributes := .floorStatus (some 1)
    [{ floorRequestId := 7
       overallRequestStatus :=
         some { floorRequestId := 7, requestStatus := some ⟨.granted, queuePosition⟩
                statusInfo := some [111, 107] }
       floorRequestStatuses := [{ floorId := 1 }]
       beneficiaryInformation := some 30 }]
  transactionId := 9
  conferenceId := -5
  userId := 30
  responder := true

theorem messages_round_trip_granted
    : ∃ octets, (grantedStatus 0).serialize Medkit.bigEndian 2 64 = some octets
      ∧ octets.length = 40
      ∧ parse Medkit.bigEndian octets = .value { grantedStatus 0 with version := 2 } := by
  refine ⟨_, rfl, rfl, ?_⟩
  refine ((messages_round_trip Medkit.bigEndian_networkOrder).1 (grantedStatus 0) 2 64 _ rfl ?_
    (.inr rfl) rfl).2.2
  refine ⟨by decide, by decide, by decide, ?_, ?_⟩
  · rintro id ⟨⟩
    decide
  · intro attr member
    cases mem_singleton.mp member
    refine ⟨by decide, ?_, ?_, ?_, nofun⟩
    · rintro overall ⟨⟩
      exact ⟨by decide, by rintro status ⟨⟩; decide⟩
    · intro status member
      cases mem_singleton.mp member
      exact ⟨by decide, nofun⟩
    · rintro id ⟨⟩
      decide

/-- A queue position of more than 8 bits is cut without an error. -/
theorem long_queue_position_cut
    : ∃ octets, (grantedStatus 256).serialize Medkit.bigEndian 1 64 = some octets
      ∧ (grantedStatus 256).attributes.isValid = true
      ∧ parse Medkit.bigEndian octets = .value (grantedStatus 0) := by
  refine ⟨[48, 8, 0, 7, 255, 255, 255, 251, 0, 9, 0, 30, 4, 4, 0, 1, 30, 24, 0, 7, 36, 12, 0, 7,
    10, 4, 3, 0, 18, 4, 111, 107, 35, 4, 0, 1, 28, 4, 0, 30], ?_, ?_, ?_⟩
  · rfl
  · rfl
  · decide

end WireMessage

end MediaServer.Bfcp
