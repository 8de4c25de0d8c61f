import MediaServer.Bfcp.RequestLifecycle

/-! Floor control stays exclusive and consistent: every stored request has its floors, its
beneficiary and a connected requester, and a floor is granted to one request at most.
-/

namespace MediaServer.Bfcp

open Foundation BFCPFloorControlServer

/-- A request that may be stored between two operations. -/
structure RequestOk (server : BFCPFloorControlServer) (request : BFCPFloorRequest) : Prop where
  live : request.status = .pending ∨ request.status = .granted
  floorsExist : ∀ floorId, request.hasFloorId floorId → server.hasFloor floorId
  requesterConnected
    : ∃ user, server.users.find? request.userId = some user ∧ user.isConnected
  beneficiaryExists : ∃ user, server.users.find? request.beneficiaryId = some user

variable {before after : BFCPFloorControlServer}

theorem RequestOk.congr {request : BFCPFloorRequest} (ok : RequestOk before request)
    (users : after.users = before.users) (floors : after.floors = before.floors)
    : RequestOk after request where
  live := ok.live
  floorsExist floorId named := by
    simpa only [hasFloor, floors] using ok.floorsExist floorId named
  requesterConnected := users ▸ ok.requesterConnected
  beneficiaryExists := users ▸ ok.beneficiaryExists

/-- Every stored request may be stored, and no floor is granted twice. -/
structure Consistent (server : BFCPFloorControlServer) : Prop where
  requests
    : ∀ id request, server.floorRequests.find? id = some request → RequestOk server request
  exclusive
    : ∀ floorId first second left right,
      server.floorRequests.find? first = some left
      → server.floorRequests.find? second = some right
      → left.isGranted → right.isGranted
      → left.hasFloorId floorId → right.hasFloorId floorId
      → first = second

/-- Consistency with what its preservation rests on: requests and users know their own
identifiers, and an ended conference has no request.
-/
structure Invariant (server : BFCPFloorControlServer) : Prop extends Consistent server where
  keyed
    : ∀ id request, server.floorRequests.find? id = some request
      → request.floorRequestId = id
  userKeyed : ∀ id user, server.users.find? id = some user → user.userId = id
  ended : server.ending → ∀ id, server.floorRequests.find? id = none

namespace Invariant

theorem of_none {server : BFCPFloorControlServer}
    (absent : ∀ id, server.floorRequests.find? id = none)
    (userKeyed : ∀ id user, server.users.find? id = some user → user.userId = id)
    : Invariant server where
  requests := fun id request found => by simp [absent] at found
  exclusive := fun _ id _ request _ found => by simp [absent] at found
  keyed := fun id request found => by simp [absent] at found
  userKeyed := userKeyed
  ended := fun _ => absent

theorem canEnd {server : BFCPFloorControlServer} (invariant : Invariant server)
    : ∀ id request, server.floorRequests.find? id = some request → Turn.canEnd request := by
  intro id request found
  rcases (invariant.requests id request found).live with pending | granted
  · simp [Turn.canEnd, BFCPFloorRequest.canBeGranted, pending]
  · simp [Turn.canEnd, BFCPFloorRequest.isGranted, granted]

/-- Where no request is stored, only their surroundings have to be looked at. -/
theorem of_kept (invariant : Invariant before)
    (kept
      : ∀ id request, after.floorRequests.find? id = some request
        → before.floorRequests.find? id = some request) (ending : after.ending = before.ending)
    (placed
      : ∀ id request, after.floorRequests.find? id = some request
        → RequestOk before request → RequestOk after request)
    (userKeyed : ∀ id user, after.users.find? id = some user → user.userId = id)
    : Invariant after where
  requests := fun id request found =>
    placed id request found (invariant.requests id request (kept id request found))
  exclusive := fun floorId first second left right foundLeft foundRight =>
    invariant.exclusive floorId first second left right (kept first left foundLeft)
      (kept second right foundRight)
  keyed := fun id request found => invariant.keyed id request (kept id request found)
  userKeyed := userKeyed
  ended := by
    intro finished id
    rw [Option.eq_none_iff_forall_ne_some]
    intro request found
    have stored := kept id request found
    rw [invariant.ended (ending ▸ finished) id] at stored
    cases stored

theorem of_onlyEnds {before after : Turn} (invariant : Invariant before.server)
    (only : Turn.OnlyEnds before after)
    : Invariant after.server :=
  invariant.of_kept only.kept only.ending (fun _ _ _ ok => ok.congr only.users only.floors)
    (only.users ▸ invariant.userKeyed)

/-- One user may change as long as the requests that name that user still find it. -/
theorem of_changesUser {userId : Int} {before after : Turn} (invariant : Invariant before.server)
    (changes : Turn.ChangesUser userId before after)
    (requester
      : ∀ id request, after.server.floorRequests.find? id = some request
        → request.userId = userId
        → ∃ user, after.server.users.find? userId = some user ∧ user.isConnected)
    (beneficiary
      : ∀ id request, after.server.floorRequests.find? id = some request
        → request.beneficiaryId = userId
        → ∃ user, after.server.users.find? userId = some user)
    (own : ∀ user, after.server.users.find? userId = some user → user.userId = userId)
    : Invariant after.server := by
  have userKeyed : ∀ id user, after.server.users.find? id = some user → user.userId = id := by
    intro id user found
    by_cases same : id = userId
    · rw [same] at found ⊢
      exact own user found
    · rw [changes.others id same] at found
      exact invariant.userKeyed id user found
  refine invariant.of_kept changes.kept changes.ending ?_ userKeyed
  intro id request found ok
  refine ⟨ok.live, ?_, ?_, ?_⟩
  · intro floorId named
    simpa [hasFloor, changes.floors] using ok.floorsExist floorId named
  · by_cases same : request.userId = userId
    · rw [same]
      exact requester id request found same
    · rw [changes.others _ same]
      exact ok.requesterConnected
  · by_cases same : request.beneficiaryId = userId
    · rw [same]
      exact beneficiary id request found same
    · rw [changes.others _ same]
      exact ok.beneficiaryExists

/-- A request may be stored when no other granted request has one of its floors. -/
theorem of_inserted {id : Int} {request : BFCPFloorRequest} (invariant : Invariant before)
    (users : after.users = before.users) (floors : after.floors = before.floors)
    (running : after.ending = false)
    (table
      : ∀ other, after.floorRequests.find? other
        = if other = id then some request else before.floorRequests.find? other)
    (ok : RequestOk before request) (key : request.floorRequestId = id)
    (free
      : request.isGranted → ∀ other held, other ≠ id
        → before.floorRequests.find? other = some held → held.isGranted
        → ∀ floorId, request.hasFloorId floorId → held.hasFloorId floorId = false)
    : Invariant after where
  requests := by
    intro other stored found
    rw [table] at found
    split at found
    · cases found
      exact ok.congr users floors
    · exact (invariant.requests other stored found).congr users floors
  exclusive := by
    intro floorId first second left right foundLeft foundRight
    rw [table] at foundLeft foundRight
    intro leftGranted rightGranted leftNamed rightNamed
    split at foundLeft
    · split at foundRight
      · rename_i same sameToo
        exact same.trans sameToo.symm
      · rename_i different
        cases foundLeft
        have apart := free leftGranted second right different foundRight rightGranted
          floorId leftNamed
        rw [apart] at rightNamed
        cases rightNamed
    · rename_i different
      split at foundRight
      · cases foundRight
        have apart := free rightGranted first left different foundLeft leftGranted
          floorId rightNamed
        rw [apart] at leftNamed
        cases leftNamed
      · exact invariant.exclusive floorId first second left right foundLeft foundRight
          leftGranted rightGranted leftNamed rightNamed
  keyed := by
    intro other stored found
    rw [table] at found
    split at found
    · rename_i same
      cases found
      exact key.trans same.symm
    · exact invariant.keyed other stored found
  userKeyed := users ▸ invariant.userKeyed
  ended := by
    intro finished
    rw [running] at finished
    cases finished

end Invariant

namespace Turn

/-- After the revocations no other granted request has a floor of the request. -/
theorem revokeOtherHolders_free {turn : Turn} (invariant : Invariant turn.server)
    (floorRequestId : Int) (request : BFCPFloorRequest) {other : Int} {held : BFCPFloorRequest}
    (different : other ≠ floorRequestId)
    (found
      : (turn.revokeOtherHolders floorRequestId request).server.floorRequests.find? other
        = some held)
    (granted : held.isGranted) (floorId : Int) (named : request.hasFloorId floorId)
    : held.hasFloorId floorId = false := by
  -- otherwise it is among the requests to revoke, and none of them is left
  rw [← Bool.not_eq_true]
  intro alsoNamed
  have stored :=
    (revokeOtherHolders_onlyEnds turn floorRequestId request).kept other held found
  have key := invariant.keyed other held stored
  have selected :
      held ∈ (turn.server.floorRequestsForFloors request.floorIds.keys).filter
        (fun other => other.floorRequestId != floorRequestId && other.isGranted) := by
    simp only [floorRequestsForFloors, List.mem_filter, List.mem_map,
      List.any_eq_true, Bool.and_eq_true, bne_iff_ne, ne_eq]
    refine ⟨⟨⟨(other, held), OrderedMap.find?_eq_some_iff.mp stored, rfl⟩, floorId, ?_,
      alsoNamed⟩, key ▸ different, granted⟩
    exact OrderedMap.mem_keys.mpr named
  have gone :=
    foldl_gone
      (fun turn other =>
        (turn.revokeFloorRequestLocked other.floorRequestId "granted to other user").1)
      BFCPFloorRequest.floorRequestId BFCPFloorRequest.isGranted
      (fun turn other => revokeFloorRequestLocked_onlyEnds turn other.floorRequestId _)
      (fun turn other ready => by
        cases eq : turn.server.floorRequests.find? other.floorRequestId with
        | none => exact (revokeFloorRequestLocked_onlyEnds turn _ _).gone eq
        | some request => exact revokeFloorRequestLocked_gone _ eq (ready request eq))
      _ turn (by
        intro item member request foundItem
        simp only [floorRequestsForFloors, List.mem_filter,
          List.mem_map, Bool.and_eq_true] at member
        obtain ⟨⟨⟨⟨id, _⟩, inTable, rfl⟩, _⟩, _, itemGranted⟩ := member
        have here := OrderedMap.find?_eq_some_iff.mpr inTable
        rw [invariant.keyed id _ here, here] at foundItem
        cases foundItem
        exact itemGranted)
      held selected
  rw [key] at gone
  exact Option.some_ne_none held (found.symm.trans gone)

theorem grantFloorRequestLocked_users (turn : Turn) (floorRequestId : Int)
    : (turn.grantFloorRequestLocked floorRequestId).1.server.users = turn.server.users := by
  rcases grantFloorRequestLocked_cases False turn floorRequestId
    with unchanged | ⟨request, _, _, granting⟩
  · rw [unchanged]
  · exact granting.stores.users.trans
      (revokeOtherHolders_onlyEnds turn floorRequestId request).users

theorem grantFloorRequestLocked_invariant {turn : Turn} (invariant : Invariant turn.server)
    (running : turn.server.ending = false) (floorRequestId : Int)
    : Invariant (turn.grantFloorRequestLocked floorRequestId).1.server := by
  rcases grantFloorRequestLocked_cases False turn floorRequestId
    with unchanged | ⟨request, found, _, granting⟩
  · rwa [unchanged]
  · have only := revokeOtherHolders_onlyEnds turn floorRequestId request
    have middle := invariant.of_onlyEnds only
    have ok := invariant.requests floorRequestId request found
    have stores := granting.stores
    have granted : RequestOk turn.server { request with status := .granted } :=
      { ok with live := .inr rfl }
    refine middle.of_inserted stores.users stores.floors
      (stores.ending.trans (only.ending.trans running)) stores.table
      (granted.congr only.users only.floors) (invariant.keyed floorRequestId request found) ?_
    intro _ other held different stored granted
    exact revokeOtherHolders_free invariant floorRequestId request different stored granted

end Turn

end MediaServer.Bfcp
