import MediaServer.Bfcp.AttributeRoundTrip
import MediaServer.Bfcp.Exchange
import MediaServer.Bfcp.RequestChanges

/-! Whose floor request a message can end: never one of somebody else, and one's own under the
identifier that was announced for it, as long as that identifier is the number of the request.
-/

namespace MediaServer.Bfcp

open Foundation Turn BFCPFloorRequest

namespace Turn

variable {touched : BFCPFloorRequest → Prop} {request : BFCPFloorRequest}

theorem endConference_numbered {turn : Turn} (numbered : turn.server.Numbered)
    : turn.endConference.server.Numbered := by
  have closed := @changes_closed (fun _ => True) False
  simp only [endConference]
  split
  · exact numbered
  · have ends (turn : Turn) (id : Int) : Changes (fun _ => True) turn
        (turn.endFloorRequest "conference ended" id) :=
      closed.ends (endFloorRequest_ends _ fun _ _ => trivial)
    have ended := closed.foldl ends turn.server.floorRequests.keys
      { turn with server := { turn.server with ending := true } }
    have positive := (Changes.numbered ended ⟨numbered.positive, numbered.given⟩).positive
    refine BFCPFloorControlServer.Numbered.of_same
      (Changes.numbered (closed.foldl closed.farewell _ _) ?_) rfl rfl
    exact ⟨positive, by simp⟩

theorem Changes.retired {before after : Turn} (changes : Changes touched before after) {id : Int}
    (given : id < before.server.floorRequestCounter)
    : id < after.server.floorRequestCounter
      ∧ (before.server.floorRequests.find? id = none
        → after.server.floorRequests.find? id = none) := by
  induction changes with
  | refl => exact ⟨given, fun gone => gone⟩
  | tail _ change ih =>
    cases change with
    | elsewhere requests counter =>
      rw [counter, requests]
      exact ih
    | ended found _ stores | granted found _ _ stores =>
      rw [stores.counter, stores.table]
      refine ⟨ih.1, fun gone => ?_⟩
      rw [if_neg, ih.2 gone]
      rintro rfl
      cases found.symm.trans (ih.2 gone)
    | created _ table counter =>
      rw [counter, table, if_neg ih.1.ne]
      exact ⟨by omega, ih.2⟩

end Turn

namespace BFCPFloorControlServer

theorem step_numbered {server : BFCPFloorControlServer} (op : Op) (numbered : server.Numbered)
    : (step server op).Numbered := by
  by_cases last : op = .endConference
  · rw [last]
    exact endConference_numbered numbered
  · exact Turn.Changes.numbered (@apply_changes _ { server } op last (MayTouch.all _ op)) numbered

theorem run_numbered (conferenceId : Int) (ops : List Op)
    : (run step { conferenceId } ops).Numbered := by
  exact run_invariant (fun _ op numbered => step_numbered op numbered) ⟨by simp, by simp⟩ ops

/-- A message of a user who is no chair leaves the requests of the others as they are. -/
theorem other_requests_untouched (conferenceId : Int) (ops : List Op) (msg : BFCPMessage)
    (source : BFCPTransport)
    (noChair
      : ∀ user, (run step { conferenceId } ops).users.find? msg.userId = some user
        → user.isChair = false)
    (id : Int) (request : BFCPFloorRequest)
    (found : (run step { conferenceId } ops).floorRequests.find? id = some request)
    (notRequester : request.userId ≠ msg.userId)
    (notBeneficiary : request.beneficiaryId ≠ msg.userId)
    : (step (run step { conferenceId } ops) (.messageReceived msg source)).floorRequests.find? id
      = some request := by
  generalize reached : run step { conferenceId } ops = server at noChair found
  have invariant : Invariant server := reached ▸ run_floorInvariant conferenceId ops
  have numbered : server.Numbered := reached ▸ run_numbered conferenceId ops
  have changes : Turn.Changes (Turn.Names msg.userId) { server }
      (messageReceived { server } msg source) := by
    refine @apply_changes _ { server } (.messageReceived msg source) Op.noConfusion ?_
    intro _ user stored
    have isUser := invariant.userKeyed msg.userId user stored
    refine ⟨fun _ _ _ _ named => named, fun id request _ _ asked => ?_,
      fun _ request named => ?_, ?_⟩
    · rw [noChair user stored, isUser] at asked
      exact asked.resolve_left Bool.false_ne_true
    · rw [isUser] at named
      exact named
    · intro isChair
      rw [noChair user stored] at isChair
      cases isChair
  refine Turn.Changes.keeps changes numbered ?_ found
  rintro (same | same)
  · exact notRequester same
  · exact notBeneficiary same

/-- A participant asks for the floor, and another one tries to release that request. -/
theorem other_requests_untouched_release
    : let ops : List Op := [.addUser 1, .addUser 2, .addFloor 7,
        .messageReceived ⟨.floorRequest [7] none, 1, 5, 1, false⟩ ⟨0, true⟩]
      let server := run step { conferenceId := 5 } ops
      ∃ request, server.floorRequests.find? 1 = some request
        ∧ request.userId = 1 ∧ request.beneficiaryId = 1
        ∧ (step server (.messageReceived ⟨.floorRelease 1, 1, 5, 2, false⟩ ⟨1, true⟩)
            ).floorRequests.find? 1 = some request := by
  intro ops server
  have stored : (server.floorRequests.find? 1).map
      (fun request => (request.userId, request.beneficiaryId)) = some (1, 1) := by
    decide +kernel
  have noChair : (server.users.find? 2).all (fun user => user.isChair = false) := by
    decide +kernel
  obtain ⟨request, found, same⟩ := Option.map_eq_some_iff.mp stored
  obtain ⟨requester, beneficiary⟩ := Prod.mk.inj same
  refine ⟨request, found, requester, beneficiary, ?_⟩
  refine other_requests_untouched 5 ops ⟨.floorRelease 1, 1, 5, 2, false⟩ ⟨1, true⟩ ?_ 1 request
    found (by rw [requester]; decide) (by rw [beneficiary]; decide)
  intro user here
  rw [show (run step { conferenceId := 5 } ops).users.find? 2 = some user from here] at noChair
  simpa using noChair

end BFCPFloorControlServer

/-! Releasing a request under the identifier it was announced with. -/

/-- The identifier of a request on the wire. -/
def BFCPFloorRequest.announcedId (request : BFCPFloorRequest) : WORD :=
  .ofInt request.floorRequestId

def BFCPFloorRequest.announcement (request : BFCPFloorRequest) (statusInfo : Option String)
    : BFCPAttrFloorRequestInformation :=
  FloorRequestInformation.toAttribute { request.createFloorRequestInformation with statusInfo }

namespace Turn

/-- A release either changes no table or ends the request it names. -/
theorem processFloorReleaseLocked_table (turn : Turn) (req : BFCPMessage) (user : BFCPUser)
    (floorRequestId : Int)
    : SameTables turn (turn.processFloorReleaseLocked req user floorRequestId)
      ∨ ∀ other,
          (turn.processFloorReleaseLocked req user floorRequestId).server.floorRequests.find? other
          = if other = floorRequestId then none else turn.server.floorRequests.find? other := by
  rcases processFloorReleaseLocked_cases trivial turn req user floorRequestId
    with talks | ⟨_, _, _, _, _, told, eq⟩
  · exact .inl (Talks.sameTables talks)
  · rw [eq]
    exact .inr (eraseFloorRequest_find? (Talks.sameTables told))

/-- The requester ends a live request by naming it. -/
theorem processFloorReleaseLocked_gone {turn : Turn} (req : BFCPMessage) {user : BFCPUser}
    {floorRequestId : Int} (found : turn.server.floorRequests.find? floorRequestId = some request)
    (own : user.userId = request.userId) (live : canEnd request)
    : (turn.processFloorReleaseLocked req user floorRequestId).server.floorRequests.find?
        floorRequestId = none := by
  obtain ⟨status, ends⟩ : ∃ status, releasedStatus request user.userId = some status := by
    simp only [canEnd, Bool.or_eq_true] at live
    simp only [releasedStatus]
    split_ifs <;> simp_all
  simp only [processFloorReleaseLocked, found, ends]
  rw [if_neg (fun refused => refused.1 own)]
  split <;> simp [eraseFloorRequest, notify]

end Turn

namespace BFCPFloorControlServer

def releaseMessage (server : BFCPFloorControlServer) (request : BFCPFloorRequest)
    (transactionId : Int) : BFCPMessage where
  body := .floorRelease request.announcedId.toNat
  transactionId
  conferenceId := server.conferenceId
  userId := request.userId

/-- The live requests are announced under different identifiers, and each one ends alone when
its requester releases it under the announced identifier.
-/
structure Releasable (server : BFCPFloorControlServer) : Prop where
  distinct
    : ∀ first second left right, server.floorRequests.find? first = some left
      → server.floorRequests.find? second = some right
      → left.announcedId = right.announcedId → first = second
  ends
    : ∀ id request user source transactionId,
      server.floorRequests.find? id = some request
      → server.users.find? request.userId = some user → user.transport = some source
      → ∀ other, (step server (.messageReceived (server.releaseMessage request transactionId)
            source)).floorRequests.find? other
          = if other = id then none else server.floorRequests.find? other

section Reached

variable {server : BFCPFloorControlServer}

theorem running_of_stored (invariant : Invariant server) {id : Int}
    (found : server.floorRequests.find? id = some request)
    : server.ending = false := by
  rw [← Bool.not_eq_true]
  intro finished
  cases (invariant.ended finished id).symm.trans found

/-- On the connection of its sender a release is not held up. -/
theorem step_release (invariant : Invariant server) {id : Int} {user : BFCPUser}
    {source : BFCPTransport} (transactionId : Int)
    (found : server.floorRequests.find? id = some request)
    (stored : server.users.find? request.userId = some user) (own : user.transport = some source)
    : step server (.messageReceived (server.releaseMessage request transactionId) source)
      = (processFloorReleaseLocked { server } (server.releaseMessage request transactionId)
          user request.announcedId.toNat).server := by
  have running := running_of_stored invariant found
  have attached : attachTransportLocked { server } request.userId source = { server } := by
    simp only [attachTransportLocked, stored, own, if_true]
  simp only [step, Turn.apply, messageReceived, releaseMessage, running, stored, attached,
    processMessage]
  simp [own]

/-- A number that fits on the wire is the announced identifier. -/
theorem announcedId_eq (invariant : Invariant server) (numbered : server.Numbered) {id : Int}
    (found : server.floorRequests.find? id = some request)
    : (request.announcedId.toNat : Int) = id ↔ id ≤ 0xFFFF := by
  have key := invariant.keyed id request found
  have given := numbered.given id request found
  constructor
  · intro same
    have bound := request.announcedId.toNat_lt
    omega
  · intro fits
    rw [announcedId, ofInt_word, key]
    exact ⟨by omega, by omega⟩

theorem releasable_iff (invariant : Invariant server) (numbered : server.Numbered)
    : server.Releasable
      ↔ ∀ id request, server.floorRequests.find? id = some request → id ≤ 0xFFFF := by
  constructor
  · intro releasable id request found
    rw [← announcedId_eq invariant numbered found]
    by_contra different
    obtain ⟨user, stored, connected⟩ := (invariant.requests id request found).requesterConnected
    obtain ⟨source, own⟩ := Option.isSome_iff_exists.mp connected
    have gone := releasable.ends id request user source 0 found stored own id
    rw [step_release invariant 0 found stored own, if_pos rfl] at gone
    -- the release names another number, so the request is still there
    rcases processFloorReleaseLocked_table { server } (server.releaseMessage request 0) user
      request.announcedId.toNat with ⟨counter, eq⟩ | table
    · rw [eq] at gone
      cases gone.symm.trans found
    · rw [table, if_neg (Ne.symm different)] at gone
      cases gone.symm.trans found
  · intro fits
    refine ⟨?_, ?_⟩
    · intro first second left right foundLeft foundRight same
      have leftEq := (announcedId_eq invariant numbered foundLeft).mpr (fits _ _ foundLeft)
      have rightEq := (announcedId_eq invariant numbered foundRight).mpr (fits _ _ foundRight)
      rw [← leftEq, ← rightEq, same]
    · intro id request user source transactionId found stored own other
      have name := (announcedId_eq invariant numbered found).mpr (fits _ _ found)
      have sender : user.userId = request.userId := invariant.userKeyed _ _ stored
      have gone := @processFloorReleaseLocked_gone request { server }
        (server.releaseMessage request transactionId) user id found sender
        (invariant.canEnd id request found)
      rw [step_release invariant transactionId found stored own, name]
      rcases processFloorReleaseLocked_table { server }
        (server.releaseMessage request transactionId) user id with ⟨counter, eq⟩ | table
      · rw [eq] at gone
        cases gone.symm.trans found
      · exact table other

end Reached

/-- What a message says of a request is the 16-bit identifier, and the requests can be told
apart and released by it exactly while all live ones have a number of 16 bits.
-/
theorem released_by_announced_id_iff (conferenceId : Int) (ops : List Op)
    : let server := run step { conferenceId } ops
      (∀ id request, server.floorRequests.find? id = some request
        → ∀ medkit statusInfo mandatory max octets,
          (request.announcement statusInfo).serialize medkit mandatory max = some octets
          → (octets.drop BFCPAttribute.headerLen).take 2 = put2 medkit request.announcedId)
      ∧ (server.Releasable
        ↔ ∀ id request, server.floorRequests.find? id = some request → id ≤ 0xFFFF) := by
  intro server
  refine ⟨?_, releasable_iff (run_floorInvariant conferenceId ops)
    (run_numbered conferenceId ops)⟩
  intro id request _ medkit statusInfo mandatory max octets written
  simp only [BFCPAttrFloorRequestInformation.serialize, serializeGroup, Option.bind_eq_bind,
    Option.bind_eq_some_iff] at written
  obtain ⟨contents, -, eq⟩ := written
  simp only [BFCPAttribute.write] at eq
  split_ifs at eq <;> (cases eq; rfl)

/-- A participant asks for the floor, again and again. -/
def crowdingRequest : Op :=
  .messageReceived ⟨.floorRequest [7] none, 1, 5, 1, false⟩ ⟨0, true⟩

def crowdingOps (requests : Nat) : List Op :=
  [.addUser 1, .addFloor 7, crowdingRequest] ++ List.replicate requests crowdingRequest

structure Crowded (requests : Nat) (server : BFCPFloorControlServer) : Prop where
  running : server.ending = false
  conference : server.conferenceId = 5
  user : server.users.find? 1 = some { userId := 1, transport := some ⟨0, true⟩ }
  floor : server.hasFloor 7
  counter : server.floorRequestCounter = requests + 2
  live : ∀ id : Int, 0 < id → id < requests + 2 → (server.floorRequests.find? id).isSome

theorem Crowded.step {requests : Nat} {server : BFCPFloorControlServer}
    (crowded : Crowded requests server)
    : Crowded (requests + 1) (step server crowdingRequest) := by
  obtain ⟨running, conference, user, floor, counter, live⟩ := crowded
  have stored : BFCPFloorControlServer.step server crowdingRequest
      = (storeFloorRequest { server }
          (createFloorRequest server 1 [7] none)).server := by
    simp only [BFCPFloorControlServer.step, Turn.apply, crowdingRequest, messageReceived,
      running, conference, user, attachTransportLocked, processMessage,
      processFloorRequestLocked]
    simp [floor, storeFloorRequest, sendFloorRequestStatus, sendMessage, user, Turn.send, notify]
  rw [stored]
  refine ⟨running, conference, user, floor, ?_, ?_⟩
  · simp only [storeFloorRequest]
    omega
  · intro id positive small
    simp only [storeFloorRequest, OrderedMap.find?_insert, createFloorRequest, foldl_addFloorId]
    split_ifs with same
    · rfl
    · exact live id positive (by omega)

theorem run_crowded (requests : Nat)
    : Crowded requests (run step { conferenceId := 5 } (crowdingOps requests)) := by
  induction requests with
  | zero =>
    refine ⟨by decide, by decide, by rfl, by decide, by decide, ?_⟩
    intro id positive small
    have one : id = 1 := by omega
    rw [one]
    decide
  | succ requests ih =>
    rw [crowdingOps, List.replicate_succ', ← List.append_assoc, run_append]
    exact ih.step

/-- After 65537 requests the last one is announced under the identifier of the first. -/
theorem announced_id_taken_twice
    : let server := run step { conferenceId := 5 } (crowdingOps 65536)
      (server.floorRequests.find? 1).map BFCPFloorRequest.announcedId = some 1
      ∧ (server.floorRequests.find? 65537).map BFCPFloorRequest.announcedId = some 1
      ∧ ¬ server.Releasable := by
  intro server
  have crowded : Crowded 65536 server := run_crowded 65536
  have invariant : Invariant server := run_floorInvariant 5 (crowdingOps 65536)
  have announced : ∀ id, 0 < id → id < 65538
      → (server.floorRequests.find? id).map announcedId
        = some (UInt16.ofInt id) := by
    intro id positive small
    obtain ⟨request, found⟩ := Option.isSome_iff_exists.mp (crowded.live id positive small)
    rw [found, Option.map_some, announcedId, invariant.keyed id request found]
  have first := announced 1 (by decide) (by decide)
  have last := announced 65537 (by decide) (by decide)
  refine ⟨first, last, fun releasable => ?_⟩
  obtain ⟨request, found⟩ := Option.isSome_iff_exists.mp
    (crowded.live 65537 (by decide) (by decide))
  have fits := (releasable_iff invariant (run_numbered 5 _)).mp releasable 65537 request found
  omega

/-! Identifiers are not used twice. -/

variable {server : BFCPFloorControlServer} {id : Int}

theorem step_retired (op : Op) (given : server.ending = true ∨ id < server.floorRequestCounter)
    : (step server op).ending = true
      ∨ id < (step server op).floorRequestCounter
        ∧ (server.floorRequests.find? id = none
          → (step server op).floorRequests.find? id = none) := by
  by_cases last : op = .endConference
  · rw [last]
    exact .inl (endConference_ending _)
  · exact given.imp (fun ended => step_ending ended op)
      (Turn.Changes.retired (@apply_changes _ { server } op last (MayTouch.all _ op)))

/-- Once the request with an identifier has ended, no request ever gets that identifier again. -/
theorem identifier_not_reused (conferenceId : Int) (before middle after : List Op) (id : Int)
    (used : (run step { conferenceId } before).floorRequests.find? id ≠ none)
    (gone : (run step { conferenceId } (before ++ middle)).floorRequests.find? id = none)
    : (run step { conferenceId } (before ++ middle ++ after)).floorRequests.find? id = none := by
  obtain ⟨request, stored⟩ := Option.ne_none_iff_exists'.mp used
  have given := @run_invariant _ _ step
    (fun server => server.ending = true ∨ id < server.floorRequestCounter)
    (fun _ op given => (step_retired op given).imp_right And.left) _
    (.inr ((run_numbered conferenceId before).given id request stored).2) middle
  have retired := @run_invariant _ _ step
    (fun server => server.ending = true
      ∨ id < server.floorRequestCounter ∧ server.floorRequests.find? id = none)
    (fun _ op given => given.elim (fun ended => .inl (step_ending ended op))
      fun given => (step_retired op (.inr given.1)).imp_right (.imp_right (· given.2))) _
    (given.imp_right (⟨·, run_append step _ before middle ▸ gone⟩)) after
  rw [← run_append, ← run_append, ← List.append_assoc] at retired
  exact retired.elim (fun ended => (run_floorInvariant conferenceId _).ended ended id) And.right

/-- Request 1 is released, and the next one is number 2. -/
theorem identifier_not_reused_released
    : let request : Op := .messageReceived ⟨.floorRequest [7] none, 1, 5, 1, false⟩ ⟨0, true⟩
      let asked : List Op := [.addUser 1, .addFloor 7, request]
      let release : Op := .messageReceived ⟨.floorRelease 1, 2, 5, 1, false⟩ ⟨0, true⟩
      (run step { conferenceId := 5 } (asked ++ [release] ++ [request])).floorRequests.keys = [2]
      ∧ (run step { conferenceId := 5 } (asked ++ [release] ++ [request])).floorRequests.find? 1
        = none :=
  ⟨by decide, identifier_not_reused 5 _ _ _ 1 (by decide) (by decide)⟩

end BFCPFloorControlServer

end MediaServer.Bfcp
