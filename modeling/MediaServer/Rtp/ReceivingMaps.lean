import Mathlib.Order.Fin.Basic
import MediaServer.Foundation.OrderedMap
import MediaServer.Foundation.Runs
import MediaServer.Rtp.Packet

/-! Codecs of received packets: the receiving map of an RTP session and, for a while after a
renegotiation, the map before it.
-/

namespace MediaServer.Rtp

open Foundation

/-- `RTPMap`: the codec of each payload type. -/
abbrev RTPMap := OrderedMap (Fin UInt8.size) BYTE

namespace RTPMap

def notFound : BYTE := 0xFF

def getCodecForType (map : RTPMap) (type : BYTE) : BYTE := (map.find? type.toFin).getD notFound

end RTPMap

open RTPMap

def rtpMapFallbackMs : Nat := 5000

/-- What a session and its code take from elsewhere: the codecs of redundant packets and the
microseconds from a time to another.
-/
structure CodecPlatform where
  t140Red : BYTE
  videoRed : BYTE
  getDifTime : Nat → Nat → Nat

/-- A payload type that is looked up, and when. -/
structure Lookup where
  type : BYTE
  now : Nat

/-- A packet with its own payload type and those of the blocks that it has if it is redundant, the
primary one first.
-/
structure TypedPacket extends Lookup where
  blocks : List Lookup := []

structure Resolved where
  type : BYTE
  codec : BYTE
  deriving DecidableEq

/-- The maps of an `RTPSession`. The time is zero where the map before is not in use. -/
structure ReceivingMaps where
  rtpMapIn : Option RTPMap := none
  rtpMapInPrev : Option RTPMap := none
  rtpMapInPrevSince : Nat := 0

namespace ReceivingMaps

variable (platform : CodecPlatform) (session : ReceivingMaps)

def setReceivingRTPMap (map : RTPMap) (now : Nat) : ReceivingMaps where
  rtpMapIn := some map
  rtpMapInPrev := session.rtpMapIn
  rtpMapInPrevSince := if session.rtpMapIn.isSome then now else session.rtpMapInPrevSince

def retirePreviousMap (type : BYTE) : ReceivingMaps :=
  match session.rtpMapInPrev with
  | none => session
  | some previous =>
    if session.rtpMapInPrevSince = 0 ∨ previous.getCodecForType type ≠ notFound then session
    else { session with rtpMapInPrevSince := 0 }

def currentTypeForCodec (codec : BYTE) : BYTE :=
  match session.rtpMapIn with
  | none => notFound
  | some map => ((map.entries.find? (·.2 = codec)).map fun entry => .ofFin entry.1).getD notFound

def codecFromPreviousMap (lookup : Lookup) : BYTE :=
  match session.rtpMapInPrev with
  | none => notFound
  | some previous =>
    if session.rtpMapInPrevSince = 0
        ∨ platform.getDifTime lookup.now session.rtpMapInPrevSince / 1000 > rtpMapFallbackMs then
      notFound
    else
      let codec := previous.getCodecForType lookup.type
      if codec = notFound then notFound
      else if session.currentTypeForCodec codec = notFound then notFound
      else codec

def resolve (map : RTPMap) (lookup : Lookup) : Resolved :=
  let codec := map.getCodecForType lookup.type
  ⟨lookup.type, if codec = notFound then session.codecFromPreviousMap platform lookup else codec⟩

/-- `ProcessIncomingRTP` up to the codecs of the packet and of its blocks. -/
def processIncomingRTP (packet : TypedPacket) : ReceivingMaps × Option (List Resolved) :=
  match session.rtpMapIn with
  | none => (session, none)
  | some map =>
    let own := session.resolve platform map packet.toLookup
    let retired :=
      if map.getCodecForType packet.type ≠ notFound then session.retirePreviousMap packet.type
      else session
    (retired,
      if own.codec = notFound then none
      else if own.codec = platform.t140Red ∨ own.codec = platform.videoRed then
        let blocks := packet.blocks.map (retired.resolve platform map)
        if blocks.any (·.codec = notFound) then none else some (own :: blocks)
      else some [own])

inductive Event where
  | setReceivingRTPMap (map : RTPMap) (now : Nat)
  | packet (packet : TypedPacket)

def step : ReceivingMaps → Event → ReceivingMaps
  | session, .setReceivingRTPMap map now => session.setReceivingRTPMap map now
  | session, .packet packet => (session.processIncomingRTP platform packet).1

/-! What a packet does to the maps. -/

variable {platform session} {map : RTPMap}

structure Has (session : ReceivingMaps) (map : RTPMap) (previous : Option RTPMap) : Prop where
  current : session.rtpMapIn = some map
  previous : session.rtpMapInPrev = previous

def Retired (session : ReceivingMaps) : Prop :=
  session.rtpMapInPrev = none ∨ session.rtpMapInPrevSince = 0

/-- A payload type that only the current map carries. -/
def Switches (map : RTPMap) (previous : Option RTPMap) (type : BYTE) : Prop :=
  map.getCodecForType type ≠ notFound
    ∧ ∀ old, previous = some old → old.getCodecForType type = notFound

variable {previous : Option RTPMap}

theorem retired_of_switches (has : session.Has map previous) {type : BYTE}
    (switches : Switches map previous type)
    : (session.retirePreviousMap type).Retired := by
  simp only [ReceivingMaps.retirePreviousMap]
  split
  · rename_i absent
    exact .inl absent
  · rename_i old present
    have missing := switches.2 old (has.previous.symm.trans present)
    split_ifs with closed
    · exact .inr (closed.resolve_right (not_not.mpr missing))
    · exact .inr rfl

theorem step_packet (has : session.Has map previous) (packet : TypedPacket)
    : session.step platform (.packet packet)
      = if map.getCodecForType packet.type ≠ notFound then session.retirePreviousMap packet.type
        else session := by
  simp only [step, processIncomingRTP, has.current]

section

variable (platform : CodecPlatform) (has : session.Has map previous)
include has

/-- A packet at most puts the map before out of use. -/
theorem step_packet_cases (packet : TypedPacket)
    : session.step platform (.packet packet) = session
      ∨ session.step platform (.packet packet) = { session with rtpMapInPrevSince := 0 } := by
  rw [step_packet has, retirePreviousMap]
  split_ifs
  · split
    · exact .inl rfl
    · split_ifs
      · exact .inl rfl
      · exact .inr rfl
  · exact .inl rfl

theorem Has.step (packet : TypedPacket)
    : (session.step platform (.packet packet)).Has map previous := by
  rcases step_packet_cases platform has packet with same | closed
  · exact same.symm ▸ has
  · exact closed ▸ ⟨has.current, has.previous⟩

theorem Retired.step (retired : session.Retired) (packet : TypedPacket)
    : (session.step platform (.packet packet)).Retired := by
  rcases step_packet_cases platform has packet with same | closed
  · exact same.symm ▸ retired
  · exact closed ▸ .inr rfl

/-- The maps stay until the next renegotiation, and a map that is not in use stays so. -/
theorem run_packets (packets : List TypedPacket)
    : let after := run (step platform) session (packets.map .packet)
      after.Has map previous
        ∧ ((session.Retired ∨ ∃ packet ∈ packets, Switches map previous packet.type)
          → after.Retired) := by
  induction packets generalizing session with
  | nil => exact ⟨has, fun retired => by simpa using retired⟩
  | cons packet rest ih =>
    obtain ⟨kept, closes⟩ := ih (has.step platform packet)
    refine ⟨kept, fun before => closes ?_⟩
    rcases before with retired | ⟨switch, member, switches⟩
    · exact .inl (retired.step platform has packet)
    · rcases List.mem_cons.mp member with rfl | later
      · left
        rw [step_packet has, if_pos switches.1]
        exact retired_of_switches has switches
      · exact .inr ⟨switch, later, switches⟩

end

/-! The codec of a payload type. -/

/-- The right codec of a payload type: that of the current map, if it carries the type, and else one
that the current map carries and that the map before, still in use, has for the type.
-/
def Right (map : RTPMap) (previous : Option RTPMap) (retired : Prop) (given : Resolved) : Prop :=
  (map.getCodecForType given.type ≠ notFound → given.codec = map.getCodecForType given.type)
    ∧ (map.getCodecForType given.type = notFound
      → ¬ retired
        ∧ (∃ old, previous = some old ∧ old.getCodecForType given.type = given.codec)
        ∧ ∃ type, map.find? type = some given.codec)

theorem find?_of_currentTypeForCodec (has : session.Has map previous) {codec : BYTE}
    (carried : session.currentTypeForCodec codec ≠ notFound)
    : ∃ type, map.find? type = some codec := by
  simp only [currentTypeForCodec, has.current] at carried
  cases found : map.entries.find? (·.2 = codec) with
  | none => simp [found] at carried
  | some entry =>
    have same : entry.2 = codec := by simpa using List.find?_some found
    exact ⟨entry.1, (map.find?_eq_some_iff).mpr (same ▸ List.mem_of_find?_eq_some found)⟩

theorem codecFromPreviousMap_spec (has : session.Has map previous) {lookup : Lookup}
    (found : session.codecFromPreviousMap platform lookup ≠ notFound)
    : ¬ session.Retired
      ∧ (∃ old, previous = some old
        ∧ old.getCodecForType lookup.type = session.codecFromPreviousMap platform lookup)
      ∧ ∃ type, map.find? type = some (session.codecFromPreviousMap platform lookup) := by
  simp only [codecFromPreviousMap] at found ⊢
  split at found
  · exact absurd rfl found
  · rename_i old present
    split_ifs at found with closed unknown dropped
    · exact absurd rfl found
    · exact absurd rfl found
    · exact absurd rfl found
    · rw [if_neg closed, if_neg unknown, if_neg dropped]
      refine ⟨?_, ⟨old, has.previous.symm.trans present, rfl⟩,
        find?_of_currentTypeForCodec has dropped⟩
      rintro (absent | zero)
      · exact nomatch present.symm.trans absent
      · exact closed (.inl zero)

theorem Right.mono {retired closed : Prop} {given : Resolved} (imp : closed → retired)
    (right : Right map previous retired given)
    : Right map previous closed given :=
  ⟨right.1, fun absent => (right.2 absent).imp_left fun opened done => opened (imp done)⟩

theorem resolve_right (has : session.Has map previous) {lookup : Lookup}
    (found : (session.resolve platform map lookup).codec ≠ notFound)
    : Right map previous session.Retired (session.resolve platform map lookup) := by
  simp only [resolve] at found ⊢
  split_ifs at found ⊢ with absent
  · exact ⟨fun carried => absurd absent carried, fun _ => codecFromPreviousMap_spec has found⟩
  · exact ⟨fun _ => rfl, fun none => absurd none absent⟩

/-- Where its own type puts the map before out of use, a packet has the codec of the current map.
-/
theorem resolve_own_right (has : session.Has map previous) {packet : TypedPacket}
    (found : (session.resolve platform map packet.toLookup).codec ≠ notFound)
    : Right map previous (session.step platform (.packet packet)).Retired
      (session.resolve platform map packet.toLookup) := by
  by_cases absent : map.getCodecForType packet.type = notFound
  · rw [step_packet has, if_neg (not_not.mpr absent)]
    exact resolve_right has found
  · exact ⟨(resolve_right has found).1, fun none => absurd none absent⟩

theorem processIncomingRTP_right (has : session.Has map previous) {packet : TypedPacket}
    {received : List Resolved}
    (success : (session.processIncomingRTP platform packet).2 = some received)
    {given : Resolved} (member : given ∈ received)
    : Right map previous (session.step platform (.packet packet)).Retired given := by
  have after := has.step platform packet
  have own := @resolve_own_right platform session map previous has packet
  rw [step_packet has] at after own ⊢
  simp only [processIncomingRTP, has.current] at success
  generalize (if map.getCodecForType packet.type ≠ notFound then _ else _) = retired
    at after own success ⊢
  split_ifs at success with missing red absent
  · obtain rfl := Option.some.inj success
    rcases List.mem_cons.mp member with rfl | later
    · exact own missing
    · obtain ⟨block, isBlock, rfl⟩ := List.mem_map.mp later
      simp only [List.any_map, List.any_eq_true, Function.comp, decide_eq_true_eq,
        not_exists, not_and] at absent
      exact resolve_right after (absent block isBlock)
  · obtain rfl := Option.some.inj success
    exact List.mem_singleton.mp member ▸ own missing

/-- After a renegotiation every codec is from the right map: a payload type of the current map has
the codec of that map, and the map before is used only for other types, only for codecs that are
still negotiated, and no more once a packet with a type of the current map alone has arrived, not
even for the blocks of that packet.
-/
theorem codecs_of_right_map (platform : CodecPlatform) (before : List Event) (map : RTPMap)
    (now : Nat) (packets : List TypedPacket) (packet : TypedPacket)
    : let previous := (run (step platform) {} before).rtpMapIn
      let session := run (step platform) {}
        (before ++ .setReceivingRTPMap map now :: packets.map .packet)
      let codec := map.getCodecForType packet.type
      (codec ≠ notFound → codec ≠ platform.t140Red → codec ≠ platform.videoRed
        → (session.processIncomingRTP platform packet).2 = some [⟨packet.type, codec⟩])
      ∧ ∀ received, (session.processIncomingRTP platform packet).2 = some received
        → ∀ given ∈ received,
          Right map previous (∃ arrived ∈ packets ++ [packet], Switches map previous arrived.type)
            given := by
  intro previous session codec
  have isSession : session = run (step platform)
      ((run (step platform) {} before).setReceivingRTPMap map now) (packets.map .packet) :=
    run_append _ _ _ _
  have renegotiated : Has (.setReceivingRTPMap _ map now) map previous := ⟨rfl, rfl⟩
  have has := (run_packets platform renegotiated packets).1
  have closes := (run_packets platform renegotiated (packets ++ [packet])).2
  rw [List.map_append, run_append] at closes
  rw [← isSession] at has closes
  refine ⟨fun found noText noVideo => ?_, fun received success given member => ?_⟩
  · have own : session.resolve platform map packet.toLookup = ⟨packet.type, codec⟩ := by
      rw [resolve, if_neg found]
    simp only [processIncomingRTP, has.current, own, found, noText, noVideo, or_self, if_false]
  · exact (processIncomingRTP_right has success member).mono fun switched => closes (.inr switched)

/-- A type whose entry in the current map is the value for "not found" gets the codec of the map
before.
-/
theorem entry_without_codec
    : let map : RTPMap := (OrderedMap.empty.insert 96 0xFF).insert 97 9
      let session := run (step ⟨106, 109, fun now since => now - since⟩) {}
        [.setReceivingRTPMap (OrderedMap.empty.insert 96 9) 1000, .setReceivingRTPMap map 2000]
      map.find? 96 = some 0xFF
        ∧ (session.processIncomingRTP ⟨106, 109, fun now since => now - since⟩ ⟨⟨96, 3000⟩, []⟩).2
          = some [⟨96, 9⟩] := by
  decide

end ReceivingMaps

end MediaServer.Rtp
