import MediaServer.Bfcp.FloorControl

/-! Which users a transport is attached to. A user id is taken from each message, so a
transport may come to carry several users; it carries one as long as nobody else's
transport is attached.
-/

namespace MediaServer.Bfcp

open Foundation

namespace BFCPFloorControlServer

def transportOf (server : BFCPFloorControlServer) (userId : Int) : Option BFCPTransport :=
  (server.users.find? userId).bind BFCPUser.transport

def OneUserPerTransport (server : BFCPFloorControlServer) : Prop :=
  ∀ transport first second, server.transportOf first = some transport
    → server.transportOf second = some transport → first = second

def attaches (server : BFCPFloorControlServer) : Op → Option (Int × BFCPTransport)
  | .userConnected userId transport =>
    if server.ending then none
    else
      (server.users.find? userId).bind (fun user =>
        if user.transport = some transport then none else some (userId, transport))
  | .messageReceived msg source =>
    if server.ending then none
    else if msg.conferenceId ≠ server.conferenceId then none
    else
      (server.users.find? msg.userId).bind (fun user =>
        if user.transport = some source ∨ (user.isConnected ∧ msg.body ≠ .hello)
          ∨ msg.body = .goodbye then none
        else some (msg.userId, source))
  | _ => none

def AttachesFree (server : BFCPFloorControlServer) (op : Op) : Prop :=
  ∀ userId transport, server.attaches op = some (userId, transport)
    → ∀ other, server.transportOf other = some transport → other = userId

end BFCPFloorControlServer

namespace Turn

open BFCPFloorControlServer

variable {userId : Int}

theorem transportOf_congr {server other : BFCPFloorControlServer}
    (same : other.users.find? userId = server.users.find? userId)
    : other.transportOf userId = server.transportOf userId := by
  rw [transportOf, transportOf, same]

theorem updateUser_transportOf (server : BFCPFloorControlServer) (userId id : Int)
    (change : BFCPUser → BFCPUser) (keeps : ∀ user, (change user).transport = user.transport)
    : (server.updateUser userId change).transportOf id = server.transportOf id := by
  simp only [transportOf, updateUser_find?]
  split
  · rename_i same
    cases found : server.users.find? userId with
    | none => simp [same, found]
    | some user => simp [same, found, keeps]
  · rfl

variable {before after : Turn}

theorem OnlyEnds.transportOf (only : OnlyEnds before after) (id : Int)
    : after.server.transportOf id = before.server.transportOf id :=
  transportOf_congr (by rw [only.users])

theorem Talks.users (talks : Talks True before after) : after.server.users = before.server.users :=
  (Talks.sameTables talks).onlyEnds.users

theorem Talks.transportOf (talks : Talks True before after) (id : Int)
    : after.server.transportOf id = before.server.transportOf id :=
  transportOf_congr (by rw [talks.users])

theorem processFloorRequestLocked_users (turn : Turn) (req : BFCPMessage) (user : BFCPUser)
    (floorIds : List Int) (beneficiaryId : Option Int)
    : (turn.processFloorRequestLocked req user floorIds beneficiaryId).server.users
      = turn.server.users := by
  simp only [processFloorRequestLocked]
  split
  · exact Talks.users (replyError_talks trivial _ _ _ _ _)
  · split
    · exact Talks.users (replyError_talks trivial _ _ _ _ _)
    · have answered := Talks.users
        (sendFloorRequestStatus_talks trivial
          (turn.storeFloorRequest
            (createFloorRequest turn.server req.userId floorIds beneficiaryId))
          (createFloorRequest turn.server req.userId floorIds beneficiaryId)
          req.transactionId req.userId "")
      split
      · exact (grantFloorRequestLocked_users _ _).trans answered
      · exact answered

variable {turn : Turn} {msg : BFCPMessage}

/-- Every primitive but `Goodbye` leaves all users on their transports. -/
theorem processMessage_transportOf (user : BFCPUser) (source : BFCPTransport)
    (stays : msg.body ≠ .goodbye) (id : Int)
    : (turn.processMessage msg user source).server.transportOf id
      = turn.server.transportOf id := by
  cases body : msg.body with
  | floorRequest floorIds beneficiaryId =>
    simp only [processMessage, body]
    exact transportOf_congr (by rw [processFloorRequestLocked_users])
  | floorRelease floorRequestId =>
    simp only [processMessage, body]
    exact (Ends.onlyEnds (processFloorReleaseLocked_ends trivial turn msg user _
      (fun _ _ _ => trivial))).transportOf id
  | floorQuery floorIds =>
    simp only [processMessage, body, processFloorQueryLocked]
    split
    · exact Talks.transportOf (replyError_talks trivial _ _ _ _ _) id
    · refine (Talks.transportOf (answerFloorQuery_talks trivial _ _ _) id).trans ?_
      exact updateUser_transportOf _ _ id _ (fun _ => rfl)
  | hello =>
    simp only [processMessage, body]
    obtain ⟨greeted, talks, eq⟩ := processHelloLocked_talks trivial turn msg user
    rw [eq]
    exact Talks.transportOf talks id
  | goodbye => exact absurd body stays
  | helloAck _ _ | floorRequestStatusAck | floorStatusAck | goodbyeAck | error _ _ =>
    simp only [processMessage, body]
  | floorRequestStatus _ | floorStatus _ _ | unsupported _ =>
    simp only [processMessage, body]
    exact Talks.transportOf (replyError_talks trivial _ _ _ _ _) id

structure Attached (before after : BFCPFloorControlServer) (userId : Int)
    (transport : BFCPTransport) : Prop where
  own : after.transportOf userId = some transport
  others : ∀ id, id ≠ userId → after.transportOf id = before.transportOf id

theorem attachTransportLocked_transportOf {user : BFCPUser} (transport : BFCPTransport)
    (found : turn.server.users.find? userId = some user)
    : Attached turn.server (turn.attachTransportLocked userId transport).server userId
        transport := by
  obtain ⟨attached, stored, own, _⟩ := attachTransportLocked_attached transport found
  refine ⟨by simp [transportOf, stored, own], ?_⟩
  intro id other
  exact transportOf_congr
    ((attachTransportLocked_changesUser turn userId transport).others id other)

/-- Nobody is newly attached. -/
def KeepsTransports (before after : BFCPFloorControlServer) : Prop :=
  ∀ id transport, after.transportOf id = some transport
    → before.transportOf id = some transport

theorem KeepsTransports.of_eq {before after : BFCPFloorControlServer}
    (same : ∀ id, after.transportOf id = before.transportOf id)
    : KeepsTransports before after := by
  intro id transport attached
  rwa [same id] at attached

/-- A change to one user that leaves that user without a transport. -/
theorem ChangesUser.keepsTransports (changes : ChangesUser userId before after)
    (unset : after.server.transportOf userId = none)
    : KeepsTransports before.server after.server := by
  intro id transport attached
  by_cases own : id = userId
  · rw [own, unset] at attached
    cases attached
  · rwa [transportOf_congr (changes.others id own)] at attached

theorem detachTransportLocked_transportOf (turn : Turn) (userId : Int)
    : (turn.detachTransportLocked userId).server.transportOf userId = none := by
  rw [transportOf, detachTransportLocked_find?]
  cases turn.server.users.find? userId <;> rfl

theorem removeUserLocked_keepsTransports (turn : Turn) (userId : Int) (goodbye : Bool)
    : KeepsTransports turn.server (turn.removeUserLocked userId goodbye).1.server :=
  (removeUserLocked_changesUser turn userId goodbye).keepsTransports (by
    rw [transportOf, removeUserLocked_find?]
    rfl)

theorem addUser_keepsTransports (turn : Turn) (userId : Int)
    : KeepsTransports turn.server (turn.addUser userId).1.server := by
  intro id transport attached
  simp only [addUser] at attached
  split_ifs at attached
  any_goals exact attached
  simp only [transportOf, OrderedMap.find?_insert] at attached
  split_ifs at attached
  · cases attached
  · exact attached

theorem setChair_transportOf (turn : Turn) (userId id : Int)
    : (turn.setChair userId).1.server.transportOf id = turn.server.transportOf id := by
  have unset (ids : List Int) (server : BFCPFloorControlServer) :
      (ids.foldl (fun server id => server.updateUser id ({ · with isChair := false }))
        server).transportOf id = server.transportOf id := by
    induction ids generalizing server with
    | nil => rfl
    | cons first rest ih =>
      exact (ih _).trans (updateUser_transportOf server first id _ (fun _ => rfl))
  simp only [setChair]
  split
  · rfl
  · split
    · rfl
    · refine (updateUser_transportOf _ userId id _ ?_).trans (unset _ _)
      exact fun _ => rfl

theorem endConference_keepsTransports (turn : Turn)
    : KeepsTransports turn.server turn.endConference.server := by
  intro id transport attached
  simp only [endConference] at attached
  split at attached
  · exact attached
  · simp [transportOf] at attached

theorem detach_keepsTransports (turn : Turn) (userId : Int)
    : KeepsTransports turn.server (turn.detachTransportLocked userId).server :=
  (detachTransportLocked_changesUser turn userId).keepsTransports
    (detachTransportLocked_transportOf turn userId)

theorem messageReceived_attached {source : BFCPTransport} {transport : BFCPTransport}
    (attaching
      : turn.server.attaches (.messageReceived msg source) = some (userId, transport))
    : Attached turn.server (turn.messageReceived msg source).server userId transport := by
  simp only [attaches] at attaching
  split_ifs at attaching with running ours
  obtain ⟨user, found, attaching⟩ := Option.bind_eq_some_iff.mp attaching
  split_ifs at attaching with allowed
  obtain ⟨notYet, takes, stays⟩ := not_or.mp allowed |>.imp_right not_or.mp
  cases attaching
  have attached := attachTransportLocked_transportOf source found
  obtain ⟨owner, stored, _⟩ := attachTransportLocked_attached source found
  have refused : ¬ (user.transport ≠ some source ∧ user.isConnected ∧ msg.body ≠ .hello) :=
    fun refused => takes refused.2
  simp only [messageReceived, if_neg running, if_neg ours, found, if_neg refused, stored]
  refine ⟨?_, fun id other => ?_⟩
  · rw [processMessage_transportOf owner source stays]
    exact attached.own
  · rw [processMessage_transportOf owner source stays]
    exact attached.others id other

theorem processGoodbyeLocked_changesUser (turn : Turn) (req : BFCPMessage) (user : BFCPUser)
    : ChangesUser user.userId turn (turn.processGoodbyeLocked req user) :=
  ((SameTables.of_server_eq (send_server turn user.transport _)).onlyEnds.changesUser _).trans
    (removeUserLocked_changesUser _ user.userId false)

theorem processGoodbyeLocked_transportOf (turn : Turn) (req : BFCPMessage) (user : BFCPUser)
    : (turn.processGoodbyeLocked req user).server.transportOf user.userId = none := by
  rw [transportOf, processGoodbyeLocked, removeUserLocked_find?]
  rfl

theorem messageReceived_keepsTransports {source : BFCPTransport} (invariant : Invariant turn.server)
    (nobody : turn.server.attaches (.messageReceived msg source) = none)
    : KeepsTransports turn.server (turn.messageReceived msg source).server := by
  cases running : turn.server.ending with
  | true =>
    rw [messageReceived, if_pos running]
    exact .of_eq fun _ => rfl
  | false =>
    cases down : turn.server.turnsDown msg source with
    | true =>
      obtain ⟨_, _, turnedDown⟩ := messageReceived_turnedDown running down
      rw [turnedDown]
      exact .of_eq (Talks.transportOf (replyError_talks trivial _ _ _ _ _))
    | false =>
      obtain ⟨user, owner, found, -, served, stored, -, named⟩ :=
        messageReceived_accepted running down
      rw [served]
      by_cases leaves : msg.body = .goodbye
      · -- a `Goodbye` takes its sender away, also one that it has just attached
        have key := named.trans (invariant.userKeyed msg.userId user found)
        have changes :=
          (attachTransportLocked_changesUser turn owner.userId source).trans
            (processGoodbyeLocked_changesUser _ msg owner)
        simp only [processMessage, leaves]
        rw [← key]
        exact changes.keepsTransports (processGoodbyeLocked_transportOf _ msg owner)
      · have own : user.transport = some source := by
          by_contra elsewhere
          simp [BFCPFloorControlServer.turnsDown, found] at down
          simp [attaches, running, found, down.1, leaves, elsewhere] at nobody
          tauto
        have same : turn.attachTransportLocked msg.userId source = turn := by
          simp [attachTransportLocked, found, own]
        rw [same]
        exact .of_eq (processMessage_transportOf owner source leaves)

theorem userConnected_attached {userId other : Int} {transport target : BFCPTransport}
    (attaching
      : turn.server.attaches (.userConnected userId transport) = some (other, target))
    : Attached turn.server (turn.userConnected userId transport).1.server other target := by
  simp only [attaches] at attaching
  split_ifs at attaching with running
  obtain ⟨user, found, attaching⟩ := Option.bind_eq_some_iff.mp attaching
  split_ifs at attaching
  cases attaching
  simp only [userConnected, if_neg running, found]
  exact attachTransportLocked_transportOf transport found

theorem userConnected_keepsTransports {transport : BFCPTransport}
    (nobody : turn.server.attaches (.userConnected userId transport) = none)
    : KeepsTransports turn.server (turn.userConnected userId transport).1.server := by
  simp only [userConnected]
  simp only [attaches] at nobody
  split
  · exact .of_eq fun _ => rfl
  · rename_i running
    split
    · exact .of_eq fun _ => rfl
    · rename_i user found
      rw [if_neg running, found, Option.bind_some] at nobody
      have own : user.transport = some transport := by
        by_contra elsewhere
        rw [if_neg elsewhere] at nobody
        cases nobody
      simp only [attachTransportLocked, found, own, if_true]
      exact .of_eq fun _ => rfl

theorem userDisconnected_keepsTransports (turn : Turn) (userId : Int) (transport : BFCPTransport)
    : KeepsTransports turn.server (turn.userDisconnected userId transport).server := by
  simp only [userDisconnected]
  split
  · exact .of_eq fun _ => rfl
  · split
    · exact detach_keepsTransports turn userId
    · exact .of_eq fun _ => rfl

theorem transportClosed_keepsTransports (turn : Turn) (transport : BFCPTransport)
    : KeepsTransports turn.server (turn.transportClosed transport).server := by
  simp only [transportClosed]
  split
  · exact .of_eq fun _ => rfl
  · exact detach_keepsTransports turn _

theorem apply_attached {turn : Turn} {op : Op} {userId : Int} {transport : BFCPTransport}
    (attaching : turn.server.attaches op = some (userId, transport))
    : Attached turn.server (turn.apply op).server userId transport := by
  cases op with
  | userConnected other target => exact userConnected_attached attaching
  | messageReceived msg source => exact messageReceived_attached attaching
  | _ => simp [attaches] at attaching

theorem apply_keepsTransports {turn : Turn} {op : Op} (invariant : Invariant turn.server)
    (nobody : turn.server.attaches op = none)
    : KeepsTransports turn.server (turn.apply op).server := by
  cases op with
  | addUser userId => exact addUser_keepsTransports turn userId
  | removeUser userId =>
    simp only [apply, removeUser]
    split
    · exact .of_eq fun _ => rfl
    · exact removeUserLocked_keepsTransports turn userId true
  | setChair userId => exact .of_eq (setChair_transportOf turn userId)
  | addFloor floorId =>
    simp only [apply, addFloor]
    split_ifs <;> exact .of_eq fun _ => rfl
  | grantFloorRequest id =>
    simp only [apply, grantFloorRequest]
    split
    · exact .of_eq fun _ => rfl
    · exact .of_eq fun _ => transportOf_congr (by rw [grantFloorRequestLocked_users])
  | denyFloorRequest id statusInfo =>
    exact .of_eq (denyFloorRequestLocked_onlyEnds turn id statusInfo).transportOf
  | revokeFloorRequest id statusInfo =>
    exact .of_eq (revokeFloorRequestLocked_onlyEnds turn id statusInfo).transportOf
  | notifyFloorStatus userId floorId =>
    exact .of_eq (Talks.transportOf (notifyFloorStatus_talks turn userId floorId))
  | endConference => exact endConference_keepsTransports turn
  | userConnected userId transport => exact userConnected_keepsTransports nobody
  | userDisconnected userId transport =>
    exact userDisconnected_keepsTransports turn userId transport
  | transportClosed transport => exact transportClosed_keepsTransports turn transport
  | messageReceived msg source => exact messageReceived_keepsTransports invariant nobody

end Turn

/-! One user a transport. -/

namespace BFCPFloorControlServer

variable {server : BFCPFloorControlServer} {transport : BFCPTransport}

theorem step_attached {op : Op} {userId : Int}
    (attaching : server.attaches op = some (userId, transport))
    : Turn.Attached server (step server op) userId transport := by
  exact @Turn.apply_attached { server } op userId transport attaching

theorem step_oneUser (server : BFCPFloorControlServer) (op : Op) (invariant : Invariant server)
    (single : OneUserPerTransport server) (free : AttachesFree server op)
    : OneUserPerTransport (step server op) := by
  cases attaching : server.attaches op with
  | none =>
    have keeps := @Turn.apply_keepsTransports { server } op invariant attaching
    intro transport first second left right
    exact single transport first second (keeps first transport left)
      (keeps second transport right)
  | some pair =>
    obtain ⟨userId, target⟩ := pair
    -- the target was free, so its only user is the new one; other transports lose users at most
    obtain ⟨own, others⟩ := step_attached attaching
    have alone : ∀ id, (step server op).transportOf id = some target → id = userId := by
      intro id attached
      by_contra other
      rw [others id other] at attached
      exact other (free userId target attaching id attached)
    intro transport first second left right
    by_cases new : transport = target
    · subst new
      exact (alone first left).trans (alone second right).symm
    · have old : ∀ id, (step server op).transportOf id = some transport
          → server.transportOf id = some transport := by
        intro id attached
        by_cases same : id = userId
        · rw [same, own] at attached
          exact absurd (Option.some.inj attached).symm new
        · rwa [others id same] at attached
      exact single transport first second (old first left) (old second right)

theorem attachesFree_of_oneUser (server : BFCPFloorControlServer) (op : Op)
    (single : OneUserPerTransport (step server op))
    : AttachesFree server op := by
  intro userId transport attaching other attached
  obtain ⟨own, others⟩ := step_attached attaching
  by_contra different
  exact different (single transport other userId ((others other different).trans attached) own)

theorem step_transportClosed {userId : Int} (single : OneUserPerTransport server)
    (attached : server.transportOf userId = some transport)
    : step server (.transportClosed transport)
      = (Turn.detachTransportLocked { server } userId).server := by
  obtain ⟨user, found, own⟩ := Option.bind_eq_some_iff.mp attached
  have stored := OrderedMap.find?_eq_some_iff.mp found
  simp only [step, Turn.apply, Turn.transportClosed]
  cases searched :
      server.users.entries.find? (fun entry => entry.2.transport = some transport) with
  | none =>
    have missing := List.find?_eq_none.mp searched (userId, user) stored
    exact absurd own (by simpa using missing)
  | some entry =>
    have member := List.mem_of_find?_eq_some searched
    have owner : entry.2.transport = some transport := by
      simpa using List.find?_some searched
    have carried : server.transportOf entry.1 = some transport := by
      rw [transportOf, OrderedMap.find?_eq_some_iff.mpr member]
      exact owner
    rw [single transport userId entry.1 attached carried]

theorem transportClosed_detaches (single : OneUserPerTransport server) (userId : Int)
    : (step server (.transportClosed transport)).transportOf userId ≠ some transport := by
  intro attached
  have before : server.transportOf userId = some transport :=
    Turn.transportClosed_keepsTransports { server } transport userId transport attached
  have detached := Turn.detachTransportLocked_transportOf { server } userId
  rw [← step_transportClosed single before] at detached
  exact Option.some_ne_none transport (attached.symm.trans detached)

/-- Exactly the runs that attach free transports only keep one user a transport all the way.
After such a run a closed transport leaves no user on it and no request of its user.
-/
theorem transport_belongs_to_one_user (conferenceId : Int) (ops : List Op)
    : (EachStep step AttachesFree { conferenceId } ops
        ↔ ∀ before, before <+: ops → OneUserPerTransport (run step { conferenceId } before))
      ∧ (EachStep step AttachesFree { conferenceId } ops →
        ∀ transport userId,
          let server := run step { conferenceId } ops
          let closed := step server (.transportClosed transport)
          closed.transportOf userId ≠ some transport
          ∧ (server.transportOf userId = some transport
            → ∀ id request, closed.floorRequests.find? id = some request
              → request.userId ≠ userId ∧ request.beneficiaryId ≠ userId)) := by
  have alone :=
    eachStep_iff_prefixes step_floorInvariant step_oneUser (fun _ => id)
      (fun server op _ _ => attachesFree_of_oneUser server op) (run_floorInvariant conferenceId [])
      (fun _ first _ left => by simp [transportOf] at left) ops
  refine ⟨alone, ?_⟩
  intro permitted transport userId server closed
  have single : OneUserPerTransport server := alone.mp permitted ops List.prefix_rfl
  have invariant : Invariant server := run_floorInvariant conferenceId ops
  refine ⟨transportClosed_detaches single userId, fun attached => ?_⟩
  rw [show closed = _ from step_transportClosed single attached]
  exact Turn.detachTransportLocked_released invariant userId

/-- User 1 connects on a free transport, which is then closed. -/
theorem transport_belongs_to_one_user_connected : EachStep step AttachesFree { conferenceId := 5 }
        [.addUser 1, .userConnected 1 ⟨0, true⟩]
      ∧ ∀ userId,
        (step (run step { conferenceId := 5 } [.addUser 1, .userConnected 1 ⟨0, true⟩])
          (.transportClosed ⟨0, true⟩)).transportOf userId ≠ some ⟨0, true⟩ := by
  have unattached :
      ∀ other, (step { conferenceId := 5 } (.addUser 1)).transportOf other = none := by
    intro other
    have table :
        (step { conferenceId := 5 } (.addUser 1)).users
          = OrderedMap.empty.insert 1 { userId := 1 } := rfl
    rw [transportOf, table, OrderedMap.find?_insert]
    split <;> rfl
  have permitted :
      EachStep step AttachesFree { conferenceId := 5 }
        [.addUser 1, .userConnected 1 ⟨0, true⟩] := by
    refine ⟨?_, ?_, trivial⟩
    · intro userId transport attaching
      simp [attaches] at attaching
    · intro userId transport _ other attached
      rw [unattached other] at attached
      cases attached
  refine ⟨permitted, ?_⟩
  intro userId
  exact ((transport_belongs_to_one_user 5 _).2 permitted ⟨0, true⟩ userId).1

def sharedTransportOps : List Op :=
  [.addUser 1, .addUser 2, .addFloor 7,
    .messageReceived ⟨.hello, 1, 5, 1, false⟩ ⟨0, true⟩,
    .messageReceived ⟨.floorRequest [7] none, 1, 5, 2, false⟩ ⟨0, true⟩]

/-- Both users are attached, and the second one outlives the transport with its request. -/
theorem transport_carries_two_users
    : ¬ OneUserPerTransport (run step { conferenceId := 5 } sharedTransportOps)
      ∧ (step (run step { conferenceId := 5 } sharedTransportOps)
          (.transportClosed ⟨0, true⟩)).transportOf 2 = some ⟨0, true⟩
      ∧ ((step (run step { conferenceId := 5 } sharedTransportOps)
          (.transportClosed ⟨0, true⟩)).floorRequests.find? 1).map BFCPFloorRequest.userId
        = some 2 := by
  refine ⟨?_, by decide, by decide⟩
  intro single
  have same := single ⟨0, true⟩ 1 2 (by decide) (by decide)
  cases same

end BFCPFloorControlServer

end MediaServer.Bfcp
