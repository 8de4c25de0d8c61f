import MediaServer.Bfcp.Sections

/-! Every operation and every message keeps the floor invariant, hence every run does. -/

namespace MediaServer.Bfcp

open Foundation OrderedMap

namespace Turn

variable {turn : Turn} {userId : Int}

theorem storeFloorRequest_invariant {floorIds : List Int} {beneficiaryId : Option Int}
    (invariant : Invariant turn.server) (running : turn.server.ending = false)
    (ok : RequestOk turn.server
      (createFloorRequest turn.server userId floorIds beneficiaryId))
    : Invariant
        (turn.storeFloorRequest
          (createFloorRequest turn.server userId floorIds beneficiaryId)).server := by
  refine invariant.of_inserted rfl rfl running ?_ ok rfl ?_
  · intro other
    simp [storeFloorRequest]
  · -- a new request is pending
    intro granted
    simp [createFloorRequest, foldl_addFloorId, BFCPFloorRequest.isGranted] at granted

/-- A change that keeps the user stored and connected. -/
theorem updateUser_invariant {server : BFCPFloorControlServer} (invariant : Invariant server)
    (userId : Int) (change : BFCPUser → BFCPUser)
    (connected : ∀ user, user.isConnected → (change user).isConnected)
    (named : ∀ user, (change user).userId = user.userId)
    : Invariant (server.updateUser userId change) := by
  have changes := updateUser_changesUser { server } userId change
  refine invariant.of_changesUser changes ?_ ?_ ?_
  · intro id request found own
    obtain ⟨user, stored, attached⟩ :=
      (invariant.requests id request (changes.kept id request found)).requesterConnected
    exact ⟨change user, by simp [← own, stored], connected user attached⟩
  · intro id request found own
    obtain ⟨user, stored⟩ :=
      (invariant.requests id request (changes.kept id request found)).beneficiaryExists
    exact ⟨change user, by simp [← own, stored]⟩
  · intro user found
    simp only [updateUser_find?, if_true, Option.map_eq_some_iff] at found
    obtain ⟨old, stored, rfl⟩ := found
    exact (named old).trans (invariant.userKeyed userId old stored)

theorem attachTransportLocked_invariant {user : BFCPUser} (invariant : Invariant turn.server)
    (transport : BFCPTransport) (found : turn.server.users.find? userId = some user)
    : Invariant (turn.attachTransportLocked userId transport).server := by
  obtain ⟨attached, stored, own, named⟩ := attachTransportLocked_attached transport found
  refine invariant.of_changesUser
    (attachTransportLocked_changesUser turn userId transport) ?_ ?_ ?_
  · intro _ _ _ _
    exact ⟨attached, stored, by simp [BFCPUser.isConnected, own]⟩
  · intro _ _ _ _
    exact ⟨attached, stored⟩
  · intro other also
    rw [stored] at also
    cases also
    exact named.trans (invariant.userKeyed userId user found)

theorem detachTransportLocked_released (invariant : Invariant turn.server) (userId : Int)
    : (turn.detachTransportLocked userId).Unnamed userId := by
  cases finished : turn.server.ending with
  | false => exact detachTransportLocked_named invariant.canEnd finished
  | true =>
    intro id request found
    have stored := (detachTransportLocked_changesUser turn userId).kept id request found
    rw [invariant.ended finished id] at stored
    cases stored

variable {before after : Turn}

/-- A user that no request names may change. -/
theorem of_unnamed (invariant : Invariant before.server) (changes : ChangesUser userId before after)
    (named : after.Unnamed userId)
    (own : ∀ user, after.server.users.find? userId = some user → user.userId = userId)
    : Invariant after.server :=
  invariant.of_changesUser changes
    (fun id request found same => absurd same (named id request found).1)
    (fun id request found same => absurd same (named id request found).2) own

theorem detachTransportLocked_invariant (invariant : Invariant turn.server) (userId : Int)
    : Invariant (turn.detachTransportLocked userId).server := by
  refine of_unnamed invariant (detachTransportLocked_changesUser turn userId)
    (detachTransportLocked_released invariant userId) ?_
  intro user found
  rw [detachTransportLocked_find?, Option.map_eq_some_iff] at found
  obtain ⟨old, stored, rfl⟩ := found
  exact invariant.userKeyed userId old stored

theorem removeUserLocked_invariant (invariant : Invariant turn.server) (userId : Int)
    (goodbye : Bool)
    : Invariant (turn.removeUserLocked userId goodbye).1.server := by
  cases found : turn.server.users.find? userId with
  | none => simpa [removeUserLocked, found] using invariant
  | some user =>
    refine of_unnamed invariant (removeUserLocked_changesUser turn userId goodbye)
      (removeUserLocked_named goodbye invariant.canEnd found) ?_
    intro other stored
    rw [removeUserLocked_find?] at stored
    cases stored

theorem addUser_invariant {turn : Turn} (invariant : Invariant turn.server) (userId : Int)
    : Invariant (turn.addUser userId).1.server := by
  simp only [addUser]
  split_ifs with finished bad known
  · exact invariant
  · exact invariant
  · exact invariant
  · -- the new user is none of those that the requests name
    have other : ∀ id user, turn.server.users.find? id = some user → id ≠ userId := by
      rintro id user found rfl
      simp [found] at known
    refine invariant.of_kept (fun _ _ found => found) rfl (fun id request _ ok => ?_) ?_
    · refine ⟨ok.live, ok.floorsExist, ?_, ?_⟩
      · obtain ⟨user, found, connected⟩ := ok.requesterConnected
        exact ⟨user, by simp [other _ user found, found], connected⟩
      · obtain ⟨user, found⟩ := ok.beneficiaryExists
        exact ⟨user, by simp [other _ user found, found]⟩
    · exact forall_insert invariant.userKeyed rfl

theorem addFloor_invariant (invariant : Invariant turn.server) (floorId : Int)
    : Invariant (turn.addFloor floorId).1.server := by
  simp only [addFloor]
  split_ifs
  · exact invariant
  · exact invariant
  · exact invariant
  · refine invariant.of_kept (fun _ _ found => found) rfl ?_ invariant.userKeyed
    intro id request _ ok
    refine { ok with floorsExist := ?_ }
    intro named asked
    have known := ok.floorsExist named asked
    simp only [BFCPFloorControlServer.hasFloor, find?_insert] at known ⊢
    split_ifs
    · rfl
    · exact known

/-- The farewell to the users brings back no request, and leaves the end of the conference. -/
theorem farewell_kept (userIds : List Int) (turn : Turn)
    : let after := userIds.foldl
        (fun turn userId => (turn.sendGoodbye userId).closeUserTransport userId) turn
      (∀ id, turn.server.floorRequests.find? id = none
        → after.server.floorRequests.find? id = none)
      ∧ after.server.ending = turn.server.ending := by
  induction userIds generalizing turn with
  | nil => exact ⟨fun _ => id, rfl⟩
  | cons userId rest ih =>
    have goodbye := sendGoodbye_onlyEnds turn userId
    have closes := closeUserTransport_changesUser (turn.sendGoodbye userId) userId
    obtain ⟨gone, ending⟩ := ih ((turn.sendGoodbye userId).closeUserTransport userId)
    exact ⟨fun id absent => gone id (closes.gone (goodbye.gone absent)),
      ending.trans (closes.ending.trans goodbye.ending)⟩

theorem endConference_invariant (invariant : Invariant turn.server)
    : Invariant turn.endConference.server := by
  simp only [endConference]
  split
  · exact invariant
  · apply Invariant.of_none
    · exact fun id => (farewell_kept _ _).1 id (find?_empty id)
    · intro id user found
      simp at found

theorem Act.invariant {answering : Prop} {touched : BFCPFloorRequest → Prop}
    {fresh : OrderedMap Int Unit → Prop} (act : Act answering touched fresh before after)
    (invariant : Invariant before.server)
    : Invariant after.server := by
  cases act with
  | ends ending => exact invariant.of_onlyEnds ending.onlyEnds
  | updates userId change transport key =>
    refine updateUser_invariant invariant userId change (fun user connected => ?_) key
    rwa [BFCPUser.isConnected, transport]
  | attaches transport found => exact attachTransportLocked_invariant invariant transport found
  | detaches => exact detachTransportLocked_invariant invariant _
  | removes goodbye => exact removeUserLocked_invariant invariant _ goodbye
  | greets userId => exact invariant
  | stores running ok => exact storeFloorRequest_invariant invariant running ok
  | grants id running => exact grantFloorRequestLocked_invariant invariant running id

/-! Runs. -/

theorem apply_invariant {turn : Turn} (invariant : Invariant turn.server) (op : Op)
    : Invariant (turn.apply op).server := by
  cases op with
  | addUser userId => exact addUser_invariant invariant userId
  | addFloor floorId => exact addFloor_invariant invariant floorId
  | endConference => exact endConference_invariant invariant
  | _ =>
    exact @apply_preserves turn _ (fun turn => Invariant turn.server)
      (fun _ _ act => act.invariant) (fun _ _ _ _ _ kept => kept) invariant trivial

theorem Act.ending {answering : Prop} {touched : BFCPFloorRequest → Prop}
    {fresh : OrderedMap Int Unit → Prop} (act : Act answering touched fresh before after)
    : after.server.ending = before.server.ending := by
  cases act with
  | ends ending => exact ending.onlyEnds.ending
  | updates userId change => rw [updateUser_eq]
  | attaches => exact (attachTransportLocked_changesUser _ _ _).ending
  | detaches => exact (detachTransportLocked_changesUser _ _).ending
  | removes => exact (removeUserLocked_changesUser _ _ _).ending
  | greets | stores => rfl
  | grants id =>
    rcases grantFloorRequestLocked_cases False before id with unchanged | ⟨_, _, _, granting⟩
    · rw [unchanged]
    · exact granting.stores.ending.trans (revokeOtherHolders_onlyEnds _ _ _).ending

theorem endConference_ending (turn : Turn) : turn.endConference.server.ending = true := by
  simp only [endConference]
  split
  · assumption
  · refine (farewell_kept _ _).2.trans ?_
    exact (OnlyEnds.foldl (fun turn id => endFloorRequest_onlyEnds turn _ id) _ _).ending

end Turn

namespace BFCPFloorControlServer

variable {server : BFCPFloorControlServer}

theorem step_running {op : Op} (goesOn : op ≠ .endConference)
    : (step server op).ending = server.ending := by
  cases op with
  | endConference => contradiction
  | addUser userId =>
    rw [step, Turn.apply, Turn.addUser]
    split_ifs <;> rfl
  | addFloor floorId =>
    rw [step, Turn.apply, Turn.addFloor]
    split_ifs <;> rfl
  | _ =>
    exact @Turn.apply_preserves { server } _ (fun turn => turn.server.ending = server.ending)
      (fun _ _ act kept => act.ending.trans kept) (fun _ _ _ _ _ kept => kept) rfl trivial

/-- Once the conference has ended no operation starts it again. -/
theorem step_ending (finished : server.ending = true) (op : Op)
    : (step server op).ending = true := by
  by_cases last : op = .endConference
  · rw [last]
    exact Turn.endConference_ending _
  · exact (step_running last).trans finished

theorem run_ending (before after : List Op)
    : (run step server (before ++ .endConference :: after)).ending = true := by
  rw [run_append, run_cons]
  exact @run_invariant _ _ step (·.ending = true) (fun _ op finished => step_ending finished op) _
    (Turn.endConference_ending _) after

theorem step_floorInvariant (server : BFCPFloorControlServer) (op : Op)
    (invariant : Invariant server)
    : Invariant (step server op) := Turn.apply_invariant invariant op

theorem run_floorInvariant (conferenceId : Int) (ops : List Op)
    : Invariant (run step { conferenceId } ops) :=
  run_invariant step_floorInvariant
    (Invariant.of_none find?_empty (fun _ _ found => by simp at found)) ops

/-- Between two operations the stored requests are consistent and no floor is granted twice;
once the conference has ended there is no request at all.
-/
theorem floor_control_consistent (conferenceId : Int) (ops : List Op)
    : Consistent (run step { conferenceId } ops)
      ∧ (Op.endConference ∈ ops
        → (run step { conferenceId } ops).floorRequests.entries = []) := by
  have invariant := run_floorInvariant conferenceId ops
  refine ⟨invariant.toConsistent, ?_⟩
  intro member
  obtain ⟨before, after, rfl⟩ := List.append_of_mem member
  exact entries_eq_nil (invariant.ended (run_ending before after))

def preemptingOps : List Op :=
  [.addUser 1, .addUser 2, .setChair 1, .addFloor 7,
    .messageReceived ⟨.floorRequest [7] none, 1, 5, 1, false⟩ ⟨0, true⟩,
    .messageReceived ⟨.floorRequest [7] none, 1, 5, 2, false⟩ ⟨1, true⟩,
    .grantFloorRequest 2]

theorem floor_control_consistent_preempting
    : (run step { conferenceId := 5 } preemptingOps).floorRequests.keys = [2]
      ∧ Consistent (run step { conferenceId := 5 } preemptingOps) :=
  ⟨by decide, (floor_control_consistent 5 preemptingOps).1⟩

/-! After the end. -/

theorem apply_ended (invariant : Invariant server) (finished : server.ending = true)
    (nobody : server.users = .empty) (op : Op)
    : Turn.apply { server } op = { server } := by
  have none : (empty : OrderedMap Int BFCPUser).entries = [] := rfl
  cases op <;>
    simp [Turn.apply, Turn.addUser, Turn.removeUser, Turn.setChair, Turn.addFloor,
      Turn.grantFloorRequest, Turn.denyFloorRequestLocked, Turn.revokeFloorRequestLocked,
      Turn.notifyFloorStatus, Turn.endConference, Turn.userConnected, Turn.userDisconnected,
      Turn.transportClosed, Turn.messageReceived, finished, nobody, invariant.ended finished, none]

theorem step_nobody (invariant : Invariant server)
    (nobody : server.ending = true → server.users = .empty) (op : Op)
    (finished : (step server op).ending = true)
    : (step server op).users = .empty := by
  cases before : server.ending with
  | true =>
    rw [step, apply_ended invariant before (nobody before)]
    exact nobody before
  | false =>
    by_cases last : op = .endConference
    · rw [last]
      simp [step, Turn.apply, Turn.endConference, before]
    · rw [step_running last, before] at finished
      cases finished

/-- A conference that has ended stays as it is: whatever is still asked of it or received, it
sends nothing and tells nobody.
-/
theorem ended_inert (conferenceId : Int) (before after : List Op) (op : Op)
    : let server := run step { conferenceId } (before ++ .endConference :: after)
      Turn.apply { server } op = { server } := by
  intro server
  obtain ⟨invariant, nobody⟩ := @run_invariant _ _ step
    (fun server => Invariant server ∧ (server.ending = true → server.users = .empty))
    (fun _ op kept => ⟨step_floorInvariant _ op kept.1, step_nobody kept.1 kept.2 op⟩)
    { conferenceId } ⟨run_floorInvariant conferenceId [], fun _ => rfl⟩
    (before ++ .endConference :: after)
  have finished : server.ending = true := run_ending before after
  exact apply_ended invariant finished (nobody finished) op

end BFCPFloorControlServer

end MediaServer.Bfcp
