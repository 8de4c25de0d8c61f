import MediaServer.Bfcp.FloorInvariant

/-! Every locked section of the server is a chain of a few acts. What holds after each act of a
chain holds after each message and each operation.
-/

namespace MediaServer.Bfcp

open Foundation Relation

/-- The message is for another conference, from an unknown user or from somebody else's
transport; it is turned down before its primitive is looked at.
-/
def BFCPFloorControlServer.turnsDown (server : BFCPFloorControlServer) (msg : BFCPMessage)
    (source : BFCPTransport) : Bool :=
  msg.conferenceId ≠ server.conferenceId
    || (server.users.find? msg.userId).all (fun user =>
      user.transport ≠ some source && user.isConnected && msg.body ≠ .hello)

namespace Turn

theorem foldl_addFloorId (floorIds : List Int) (request : BFCPFloorRequest)
    : floorIds.foldl BFCPFloorRequest.addFloorId request
      = { request with
          floorIds := floorIds.foldl (fun set floorId => set.insert floorId ())
            request.floorIds } := by
  induction floorIds generalizing request with
  | nil => rfl
  | cons floorId rest ih => exact ih (request.addFloorId floorId)

theorem isSome_foldl_insert (floorIds : List Int) (set : OrderedMap Int Unit) (floorId : Int)
    : ((floorIds.foldl (fun set floorId => set.insert floorId ()) set).find? floorId).isSome
      ↔ floorId ∈ floorIds ∨ (set.find? floorId).isSome := by
  induction floorIds generalizing set with
  | nil => simp
  | cons head rest ih =>
    rw [List.foldl_cons, ih, OrderedMap.find?_insert, List.mem_cons]
    split_ifs with same
    · simp [same]
    · simp [same]

variable {userId : Int}

theorem createFloorRequest_ok {server : BFCPFloorControlServer} {floorIds : List Int}
    {beneficiaryId : Option Int} (floorsExist : floorIds.all server.hasFloor)
    (connected : ∃ user, server.users.find? userId = some user ∧ user.isConnected)
    (beneficiaryExists
      : ∀ id, beneficiaryId = some id → ∃ user, server.users.find? id = some user)
    : RequestOk server (createFloorRequest server userId floorIds beneficiaryId) := by
  rw [createFloorRequest, foldl_addFloorId]
  refine ⟨Or.inl rfl, ?_, connected, ?_⟩
  · intro floorId named
    rcases (isSome_foldl_insert _ _ _).mp named with member | old
    · exact List.all_eq_true.mp floorsExist floorId member
    · simp at old
  · cases beneficiaryId with
    | none =>
      obtain ⟨user, found, _⟩ := connected
      exact ⟨user, found⟩
    | some id => exact beneficiaryExists id rfl

/-- One act of a locked section. Only requests that may be `touched` are ended or granted, and
a new request has `fresh` floors.
-/
inductive Act (answering : Prop) (touched : BFCPFloorRequest → Prop)
    (fresh : OrderedMap Int Unit → Prop) (before : Turn) : Turn → Prop
  | ends {after : Turn} (ending : Ending answering touched before after)
      : Act answering touched fresh before after
  | updates (userId : Int) (change : BFCPUser → BFCPUser)
      (transport : ∀ user, (change user).transport = user.transport)
      (key : ∀ user, (change user).userId = user.userId)
      : Act answering touched fresh before
          { before with server := before.server.updateUser userId change }
  | attaches {userId : Int} {user : BFCPUser} (transport : BFCPTransport)
      (found : before.server.users.find? userId = some user)
      (moved : user.isConnected → user.transport ≠ some transport → TouchesOwn touched userId)
      : Act answering touched fresh before (before.attachTransportLocked userId transport)
  | detaches {userId : Int} (own : TouchesOwn touched userId)
      : Act answering touched fresh before (before.detachTransportLocked userId)
  | removes {userId : Int} (goodbye : Bool)
      (own : TouchesOwn touched userId)
      : Act answering touched fresh before (before.removeUserLocked userId goodbye).1
  | greets (userId : Int)
      : Act answering touched fresh before (before.notify (.onUserConnected userId))
  | stores {userId : Int} {floorIds : List Int} {beneficiaryId : Option Int}
      (running : before.server.ending = false)
      (ok : RequestOk before.server
        (createFloorRequest before.server userId floorIds beneficiaryId))
      (new : fresh (createFloorRequest before.server userId floorIds beneficiaryId).floorIds)
      : Act answering touched fresh before
          (before.storeFloorRequest
            (createFloorRequest before.server userId floorIds beneficiaryId))
  | grants (floorRequestId : Int) (running : before.server.ending = false)
      (all : ∀ request, touched request)
      : Act answering touched fresh before (before.grantFloorRequestLocked floorRequestId).1

abbrev Acts (answering : Prop) (touched : BFCPFloorRequest → Prop)
    (fresh : OrderedMap Int Unit → Prop) : Turn → Turn → Prop :=
  ReflTransGen (Act answering touched fresh)

variable (turn : Turn)

theorem revokeOtherHolders_find? (floorRequestId : Int) (request : BFCPFloorRequest)
    : (turn.revokeOtherHolders floorRequestId request).server.floorRequests.find? floorRequestId
      = turn.server.floorRequests.find? floorRequestId := by
  simp only [revokeOtherHolders]
  refine List.foldlRecOn (motive := fun after : Turn =>
    after.server.floorRequests.find? floorRequestId
      = turn.server.floorRequests.find? floorRequestId) _ _ rfl ?_
  intro turn same other member
  have different : other.floorRequestId ≠ floorRequestId := by
    simp only [List.mem_filter, Bool.and_eq_true, bne_iff_ne] at member
    exact member.2.1
  rcases @revokeFloorRequestLocked_cases False turn other.floorRequestId "granted to other user"
    with unchanged | ⟨_, middle, _, _, told, eq⟩
  · rwa [unchanged]
  · rw [eq]
    exact (eraseFloorRequest_find? told.sameTables _).trans (by rw [if_neg different.symm, same])

/-- A grant is a chain of revocations and the grant itself. -/
theorem grantFloorRequestLocked_related (answering : Prop) {touched : BFCPFloorRequest → Prop}
    {R : Turn → Turn → Prop} (refl : ∀ turn, R turn turn)
    (trans : ∀ {first second third}, R first second → R second third → R first third)
    (ending : ∀ {before after}, Ending answering touched before after → R before after)
    (granting
      : ∀ {before after : Turn} {id request},
        before.server.floorRequests.find? id = some request → request.isGranted = false
        → Granting answering id request before after → R before after)
    (all : ∀ request, touched request) (turn : Turn) (floorRequestId : Int)
    : R turn (turn.grantFloorRequestLocked floorRequestId).1 := by
  rcases grantFloorRequestLocked_cases answering turn floorRequestId
    with unchanged | ⟨request, found, waiting, grants⟩
  · rw [unchanged]
    exact refl turn
  · have still := (revokeOtherHolders_find? turn floorRequestId request).trans found
    refine trans ?_ (granting still waiting grants)
    exact reflTransGen_related refl (fun _ _ _ => trans) (fun _ _ => ending)
      (revokeOtherHolders_ends turn floorRequestId request all)

/-- A relation that holds across every act: it is enough to look at the end of a request, at a
change of the users, at a greeting and, from a `ready` state, at a new request and at a grant.
-/
structure Closed (answering : Prop) (touched : BFCPFloorRequest → Prop)
    (fresh : OrderedMap Int Unit → Prop) (ready : Turn → Prop) (R : Turn → Turn → Prop)
    : Prop where
  refl : ∀ turn, R turn turn
  trans : ∀ {first second third}, R first second → R second third → R first third
  ending : ∀ {before after}, Ending answering touched before after → R before after
  users
    : ∀ {before after : Turn},
      (∀ id, before.server.users.find? id = none → after.server.users.find? id = none)
      → after
        = { before with
            server := { before.server with users := after.server.users }
            closed := after.closed }
      → R before after
  greets : ∀ turn userId, R turn (turn.notify (.onUserConnected userId))
  stores
    : ∀ {turn : Turn} {userId floorIds beneficiaryId}, ready turn → turn.server.ending = false
      → fresh (createFloorRequest turn.server userId floorIds beneficiaryId).floorIds
      → RequestOk turn.server (createFloorRequest turn.server userId floorIds beneficiaryId)
      → R turn
          (turn.storeFloorRequest
            (createFloorRequest turn.server userId floorIds beneficiaryId))
  grants
    : ∀ {turn : Turn} floorRequestId, ready turn → (∀ request, touched request)
      → R turn (turn.grantFloorRequestLocked floorRequestId).1

namespace Closed

variable {answering : Prop} {touched : BFCPFloorRequest → Prop}
  {fresh : OrderedMap Int Unit → Prop} {ready : Turn → Prop} {R : Turn → Turn → Prop}
  (closed : Closed answering touched fresh ready R)
include closed

variable {before after : Turn}

theorem ends (ends : Ends answering touched before after) : R before after :=
  reflTransGen_related closed.refl (fun _ _ _ => closed.trans) (fun _ _ => closed.ending) ends

theorem foldl {α : Type} {body : Turn → α → Turn} (each : ∀ turn item, R turn (body turn item))
    (items : List α) (turn : Turn)
    : R turn (items.foldl body turn) := by
  induction items generalizing turn with
  | nil => exact closed.refl turn
  | cons item rest ih => exact closed.trans (each turn item) (ih (body turn item))

theorem updateUser (userId : Int) (change : BFCPUser → BFCPUser)
    : R turn { turn with server := turn.server.updateUser userId change } := by
  refine closed.users (fun id absent => ?_) (by rw [updateUser_eq])
  rw [updateUser_find?]
  split_ifs with same
  · rw [← same, absent]
    rfl
  · exact absent

theorem closeUserTransport (userId : Int) : R turn (turn.closeUserTransport userId) := by
  have shut : R turn
      (turn.closeTransport ((turn.server.users.find? userId).bind BFCPUser.transport)) :=
    closed.users (fun _ absent => absent) rfl
  exact closed.trans shut (closed.updateUser _ userId _)

theorem detachTransportLocked (own : TouchesOwn touched userId)
    : R turn (turn.detachTransportLocked userId) := by
  simp only [Turn.detachTransportLocked]
  split
  · exact closed.updateUser turn userId _
  · exact closed.trans (closed.updateUser turn userId _)
      (closed.ends (revokeUserFloorRequestsLocked_ends _ own))

theorem attachTransportLocked (transport : BFCPTransport) {user : BFCPUser}
    (found : turn.server.users.find? userId = some user)
    (moved : user.isConnected → user.transport ≠ some transport → TouchesOwn touched userId)
    : R turn (turn.attachTransportLocked userId transport) := by
  simp only [Turn.attachTransportLocked, found]
  split_ifs with same connected
  · exact closed.refl turn
  · refine closed.trans ?_ (closed.updateUser _ userId _)
    exact closed.trans (closed.trans (closed.updateUser turn userId _)
      (closed.ends (revokeUserFloorRequestsLocked_ends _ (moved connected same))))
      (closed.closeUserTransport _ userId)
  · exact closed.updateUser _ userId _

theorem removeUserLocked (goodbye : Bool) (own : TouchesOwn touched userId)
    : R turn (turn.removeUserLocked userId goodbye).1 := by
  simp only [Turn.removeUserLocked]
  split
  · exact closed.refl turn
  · have ended := closed.ends (revokeUserFloorRequestsLocked_ends turn own)
    have left : R turn
        (if goodbye then (turn.revokeUserFloorRequestsLocked userId).sendGoodbye userId
          else turn.revokeUserFloorRequestsLocked userId) := by
      split
      · exact closed.trans ended (closed.ends (Talks.ends (sendGoodbye_talks _ userId)))
      · exact ended
    refine closed.trans (closed.trans left (closed.closeUserTransport _ userId)) ?_
    exact closed.users (fun id absent => by simp [absent]) rfl

/-- The end of a conference for one user. -/
theorem farewell (userId : Int) : R turn ((turn.sendGoodbye userId).closeUserTransport userId) :=
  closed.trans (closed.ends (Talks.ends (sendGoodbye_talks turn userId)))
    (closed.closeUserTransport _ userId)

theorem act (act : Act answering touched fresh before after) (prepared : ready before)
    : R before after := by
  cases act with
  | ends ending => exact closed.ending ending
  | updates userId change => exact closed.updateUser before userId change
  | attaches transport found moved =>
    exact closed.attachTransportLocked before transport found moved
  | detaches own => exact closed.detachTransportLocked before own
  | removes goodbye own => exact closed.removeUserLocked before goodbye own
  | greets userId => exact closed.greets before userId
  | stores running ok new => exact closed.stores prepared running new ok
  | grants id _ all => exact closed.grants id prepared all

theorem acts
    (keeps : ∀ before after, Act answering touched fresh before after → ready before
      → ready after) (acts : Acts answering touched fresh before after) (prepared : ready before)
    : R before after ∧ ready after := by
  induction acts with
  | refl => exact ⟨closed.refl before, prepared⟩
  | tail _ act ih =>
    exact ⟨closed.trans ih.1 (closed.act act ih.2), keeps _ _ act ih.2⟩

end Closed

/-- A request that waits for the chair: it is stored, and the chair is asked about it. -/
structure Asked (R : Turn → Turn → Prop) (userId : Int) (before after : Turn) : Prop where
  asked
    : ∃ middle request, R before middle ∧ middle.pending = before.pending
      ∧ middle.server.floorRequests.find? request.floorRequestId = some request
      ∧ request.userId = userId
      ∧ before.server.floorRequestCounter ≤ request.floorRequestId
      ∧ after = middle.notify (.onFloorRequest request.floorRequestId request.userId
          request.beneficiaryId request.floorIds.keys)

section Sections

variable {answering : Prop} {touched : BFCPFloorRequest → Prop}
  {fresh : OrderedMap Int Unit → Prop}

theorem Ends.acts {before after : Turn} (ends : Ends answering touched before after)
    : Acts answering touched fresh before after :=
  ReflTransGen.mono (fun _ _ => .ends) _ _ ends

theorem Talks.acts {before after : Turn} (talks : Talks answering before after)
    : Acts answering touched fresh before after :=
  Ends.acts talks.ends

theorem processFloorRequestLocked_acts {turn : Turn} {req : BFCPMessage}
    (running : turn.server.ending = false)
    (connected : ∃ user, turn.server.users.find? req.userId = some user ∧ user.isConnected)
    (user : BFCPUser) {floorIds : List Int} {beneficiaryId : Option Int}
    (chair : user.isChair → ∀ request, touched request)
    (new
      : floorIds.all turn.server.hasFloor
        → fresh (createFloorRequest turn.server req.userId floorIds beneficiaryId).floorIds)
    : Acts True touched fresh turn
        (turn.processFloorRequestLocked req user floorIds beneficiaryId)
      ∨ Asked (Acts True touched fresh) req.userId turn
          (turn.processFloorRequestLocked req user floorIds beneficiaryId) := by
  simp only [processFloorRequestLocked]
  split
  · exact .inl (Talks.acts (replyError_talks trivial turn _ _ _ _))
  · rename_i floorsExist
    split
    · exact .inl (Talks.acts (replyError_talks trivial turn _ _ _ _))
    · rename_i beneficiaryExists
      generalize made : createFloorRequest turn.server req.userId floorIds beneficiaryId = request
      have exist : floorIds.all turn.server.hasFloor := by simpa using floorsExist
      have ok : RequestOk turn.server
          (createFloorRequest turn.server req.userId floorIds beneficiaryId) := by
        refine createFloorRequest_ok exist connected (fun id given => ?_)
        simpa [given, Option.ne_none_iff_exists'] using beneficiaryExists
      have stored : Acts True touched fresh turn (turn.storeFloorRequest request) :=
        made ▸ .single (.stores running ok (new exist))
      have answers := sendFloorRequestStatus_talks trivial (turn.storeFloorRequest request) request
        req.transactionId req.userId ""
      obtain ⟨counter, eq⟩ := Talks.sameTables answers
      split
      · rename_i isChair
        refine .inl ((stored.trans (Talks.acts answers)).tail (.grants _ ?_ (chair isChair)))
        rw [eq]
        exact running
      · refine .inr ⟨_, request, stored.trans (Talks.acts answers),
          (Talks.pending answers).trans rfl, ?_, ?_, ?_, rfl⟩
        · rw [eq]
          simp [storeFloorRequest]
        · simp [← made, createFloorRequest, foldl_addFloorId]
        · simp [← made, createFloorRequest, foldl_addFloorId]

variable {turn : Turn} {msg : BFCPMessage}

/-- What the server does for a message of a user who is connected. Only a floor request can
end with a question to the chair.
-/
theorem processMessage_acts (running : turn.server.ending = false)
    (connected : ∃ user, turn.server.users.find? msg.userId = some user ∧ user.isConnected)
    (user : BFCPUser) (source : BFCPTransport)
    (released
      : ∀ id request, msg.body = .floorRelease id
        → turn.server.floorRequests.find? id = some request
        → user.isChair ∨ Names user.userId request → touched request)
    (left : msg.body = .goodbye → TouchesOwn touched user.userId)
    (chair : user.isChair → ∀ request, touched request)
    (new
      : ∀ floorIds beneficiaryId, msg.body = .floorRequest floorIds beneficiaryId
        → floorIds.all turn.server.hasFloor
        → fresh (createFloorRequest turn.server msg.userId floorIds beneficiaryId).floorIds)
    : Acts True touched fresh turn (turn.processMessage msg user source)
      ∨ (Asked (Acts True touched fresh) msg.userId turn (turn.processMessage msg user source)
        ∧ msg.body ≠ .hello) := by
  cases body : msg.body with
  | floorRequest floorIds beneficiaryId =>
    simp only [processMessage, body]
    refine (processFloorRequestLocked_acts running connected user chair
      (new floorIds beneficiaryId body)).imp_right (fun asked => ⟨asked, ?_⟩)
    exact Body.noConfusion
  | floorRelease floorRequestId =>
    simp only [processMessage, body]
    exact .inl (Ends.acts (processFloorReleaseLocked_ends trivial turn msg user _
      (fun request found asked => released floorRequestId request body found asked)))
  | floorQuery floorIds =>
    simp only [processMessage, body, processFloorQueryLocked]
    left
    split
    · exact Talks.acts (replyError_talks trivial turn _ _ _ _)
    · refine .head (.updates _ _ ?_ ?_) (Talks.acts (answerFloorQuery_talks trivial _ _ _))
      · exact fun _ => rfl
      · exact fun _ => rfl
  | hello =>
    simp only [processMessage, body]
    obtain ⟨greeted, talks, eq⟩ := processHelloLocked_talks trivial turn msg user
    rw [eq]
    exact .inl ((Talks.acts talks).tail (.greets _))
  | goodbye =>
    simp only [processMessage, body, processGoodbyeLocked]
    exact .inl (.tail (Talks.acts (.single (.answer trivial _ _ (by rfl))))
      (.removes false (left body)))
  | helloAck _ _ | floorRequestStatusAck | floorStatusAck | goodbyeAck | error _ _ =>
    simp only [processMessage, body]
    exact .inl .refl
  | floorRequestStatus _ | floorStatus _ _ | unsupported _ =>
    simp only [processMessage, body]
    exact .inl (Talks.acts (replyError_talks trivial turn _ _ _ _))

variable {source : BFCPTransport}

/-- Only a hello may take a user over from another transport, and a hello asks for nothing. -/
theorem attachTransportLocked_pending {user : BFCPUser}
    (found : turn.server.users.find? userId = some user)
    (allowed : user.transport = some source ∨ user.isConnected = false)
    : (turn.attachTransportLocked userId source).pending = turn.pending := by
  simp only [attachTransportLocked, found]
  split
  · rfl
  · rename_i other
    rcases allowed with own | free
    · exact absurd own other
    · simp [free]

theorem attachTransportLocked_isChair {user attached : BFCPUser} (transport : BFCPTransport)
    (found : turn.server.users.find? userId = some user)
    (stored
      : (turn.attachTransportLocked userId transport).server.users.find? userId = some attached)
    : attached.isChair = user.isChair := by
  simp only [attachTransportLocked, found] at stored
  split at stored
  · cases stored.symm.trans found
    rfl
  · split at stored
    · simp only [closeUserTransport, closeTransport, updateUser_find?, if_true,
        (revokeUserFloorRequestsLocked_onlyEnds _ userId).users, found, Option.map_some,
        Option.some.injEq] at stored
      rw [← stored]
    · simp only [updateUser_find?, if_true, found, Option.map_some, Option.some.injEq] at stored
      rw [← stored]

theorem messageReceived_turnedDown (running : turn.server.ending = false)
    (down : turn.server.turnsDown msg source = true)
    : ∃ errorCode errorInfo,
      turn.messageReceived msg source
        = turn.replyError msg (some source) errorCode errorInfo := by
  rw [messageReceived, if_neg (by simp [running])]
  split
  · exact ⟨_, _, rfl⟩
  · rename_i sameConference
    split
    · exact ⟨_, _, rfl⟩
    · rename_i user found
      simp only [BFCPFloorControlServer.turnsDown, found, Option.all_some] at down
      rw [if_pos (by simpa [Decidable.not_not.mp sameConference, and_assoc] using down)]
      exact ⟨_, _, rfl⟩

/-- A message that is not turned down is processed for a user who is on its transport. Only a
hello may take the user over from another one.
-/
theorem messageReceived_accepted (running : turn.server.ending = false)
    (accepted : turn.server.turnsDown msg source = false)
    : ∃ user attached, turn.server.users.find? msg.userId = some user
      ∧ (msg.body ≠ .hello → user.transport = some source ∨ user.isConnected = false)
      ∧ turn.messageReceived msg source
        = (turn.attachTransportLocked msg.userId source).processMessage msg attached source
      ∧ (turn.attachTransportLocked msg.userId source).server.users.find? msg.userId
        = some attached
      ∧ attached.transport = some source ∧ attached.userId = user.userId := by
  simp only [BFCPFloorControlServer.turnsDown, Bool.or_eq_false_iff, decide_eq_false_iff_not,
    not_not] at accepted
  obtain ⟨sameConference, known⟩ := accepted
  cases found : turn.server.users.find? msg.userId with
  | none => simp [found] at known
  | some user =>
    obtain ⟨attached, stored, own, sameId⟩ := attachTransportLocked_attached source found
    rw [found, Option.all_some] at known
    refine ⟨user, attached, rfl, fun other => ?_, ?_, stored, own, sameId⟩
    · simp [other] at known
      exact or_iff_not_imp_left.mpr known
    · simp only [messageReceived, running, sameConference, found, stored]
      rw [if_neg (by simp), if_neg (by simp), if_neg (by simpa [and_assoc] using known)]

def AsksFresh (fresh : OrderedMap Int Unit → Prop) (turn : Turn) (msg : BFCPMessage) : Prop :=
  ∀ server floorIds beneficiaryId, server.floors = turn.server.floors
    → msg.body = .floorRequest floorIds beneficiaryId → floorIds.all server.hasFloor
    → fresh (createFloorRequest server msg.userId floorIds beneficiaryId).floorIds

/-- The requests that an operation may end or grant. -/
def MayTouch (touched : BFCPFloorRequest → Prop) (server : BFCPFloorControlServer) : Op → Prop
  | .removeUser userId => TouchesOwn touched userId
  | .grantFloorRequest _ => ∀ request, touched request
  | .denyFloorRequest id _ | .revokeFloorRequest id _ =>
    ∀ request, server.floorRequests.find? id = some request → touched request
  | .userConnected userId transport =>
    ∀ user, server.users.find? userId = some user → user.isConnected
      → user.transport ≠ some transport → TouchesOwn touched userId
  | .userDisconnected userId transport =>
    ∀ user, server.users.find? userId = some user → user.transport = some transport
      → TouchesOwn touched userId
  | .transportClosed transport =>
    ∀ entry,
      server.users.entries.find? (fun entry => entry.2.transport = some transport) = some entry
      → TouchesOwn touched entry.1
  | .messageReceived msg source =>
    server.turnsDown msg source = false
      → ∀ user, server.users.find? msg.userId = some user
        → (msg.body = .hello → user.isConnected → user.transport ≠ some source
          → TouchesOwn touched msg.userId)
        ∧ (∀ id request, msg.body = .floorRelease id
          → server.floorRequests.find? id = some request
          → user.isChair ∨ Names user.userId request → touched request)
        ∧ (msg.body = .goodbye → TouchesOwn touched user.userId)
        ∧ (user.isChair → ∀ request, touched request)
  | _ => True

theorem MayTouch.all (server : BFCPFloorControlServer) (op : Op)
    : MayTouch (fun _ => True) server op := by
  cases op <;> simp [MayTouch, TouchesOwn]

/-- A message asks the chair about a new request, or it does all that it does at once. -/
theorem messageReceived_acts {turn : Turn} (msg : BFCPMessage) (source : BFCPTransport)
    (may : MayTouch touched turn.server (.messageReceived msg source))
    (new : AsksFresh fresh turn msg)
    : Acts True touched fresh turn (turn.messageReceived msg source)
      ∨ ∃ attached, Acts True touched fresh turn attached ∧ attached.pending = turn.pending
          ∧ Asked (Acts True touched fresh) msg.userId attached
              (turn.messageReceived msg source) := by
  cases running : turn.server.ending with
  | true =>
    rw [messageReceived, if_pos running]
    exact .inl .refl
  | false =>
    cases down : turn.server.turnsDown msg source with
    | true =>
      obtain ⟨_, _, turnedDown⟩ := messageReceived_turnedDown running down
      rw [turnedDown]
      exact .inl (Talks.acts (replyError_talks trivial turn _ _ _ _))
    | false =>
      obtain ⟨user, owner, found, free, served, stored, here, same⟩ :=
        messageReceived_accepted running down
      obtain ⟨moved, released, left, chair⟩ := may down user found
      have isChair := attachTransportLocked_isChair source found stored
      have changes := attachTransportLocked_changesUser turn msg.userId source
      have attached : Acts True touched fresh turn
          (turn.attachTransportLocked msg.userId source) := by
        refine .single (.attaches source found (fun connected other => ?_))
        refine moved ?_ connected other
        by_contra noHello
        rcases free noHello with own | apart
        · exact other own
        · cases connected.symm.trans apart
      rw [served]
      rcases processMessage_acts (changes.ending.trans running)
        ⟨owner, stored, by simp [BFCPUser.isConnected, here]⟩ owner source
        (fun id request body found asked => released id request body
          (changes.kept id request found) (by rw [isChair, same] at asked; exact asked))
        (by rw [same]; exact left) (by rw [isChair]; exact chair)
        (fun floorIds beneficiaryId => new _ floorIds beneficiaryId changes.floors)
        with acts | ⟨asked, noHello⟩
      · exact .inl (attached.trans acts)
      · exact .inr ⟨_, attached, attachTransportLocked_pending found (free noHello), asked⟩

theorem unsetChairs_acts (ids : List Int) (turn : Turn)
    : Acts answering touched fresh turn
        { turn with
          server :=
            ids.foldl (fun server id => server.updateUser id ({ · with isChair := false }))
              turn.server } := by
  induction ids generalizing turn with
  | nil => exact .refl
  | cons id rest ih =>
    exact .head (.updates id ({ · with isChair := false }) (fun _ => rfl) (fun _ => rfl)) (ih _)

def OfListener : Op → Prop
  | .addUser _ | .addFloor _ | .endConference => False
  | _ => True

/-- Only a message is ever answered. -/
theorem apply_silent {op : Op} (listed : OfListener op) (may : MayTouch touched turn.server op)
    (silent : ∀ msg source, op ≠ .messageReceived msg source)
    : Acts answering touched fresh turn (turn.apply op) := by
  cases op with
  | addUser userId | addFloor floorId | endConference => exact listed.elim
  | messageReceived msg source => exact absurd rfl (silent msg source)
  | removeUser userId =>
    simp only [apply, removeUser]
    split
    · exact .refl
    · exact .single (.removes true may)
  | setChair userId =>
    simp only [apply, setChair]
    split
    · exact .refl
    · split
      · exact .refl
      · exact (unsetChairs_acts _ turn).tail (.updates userId _ (fun _ => rfl) (fun _ => rfl))
  | grantFloorRequest id =>
    simp only [apply, grantFloorRequest]
    split
    · exact .refl
    · rename_i running
      exact .single (.grants id (by simpa using running) may)
  | denyFloorRequest id statusInfo => exact Ends.acts (denyFloorRequestLocked_ends statusInfo may)
  | revokeFloorRequest id statusInfo =>
    exact Ends.acts (revokeFloorRequestLocked_ends statusInfo may)
  | notifyFloorStatus userId floorId =>
    exact Talks.acts (notifyFloorStatus_talks turn userId floorId)
  | userConnected userId transport =>
    simp only [apply, userConnected]
    split
    · exact .refl
    · split
      · exact .refl
      · rename_i user found
        exact .single (.attaches transport found (may user found))
  | userDisconnected userId transport =>
    simp only [apply, userDisconnected]
    split
    · exact .refl
    · rename_i user found
      split
      · rename_i here
        exact .single (.detaches (may user found here))
      · exact .refl
  | transportClosed transport =>
    simp only [apply, transportClosed]
    split
    · exact .refl
    · rename_i entry found
      exact .single (.detaches (may entry found))

theorem apply_acts {turn : Turn} {op : Op} (listed : OfListener op)
    (may : MayTouch touched turn.server op)
    (new : ∀ msg source, op = .messageReceived msg source → AsksFresh fresh turn msg)
    : Acts True touched fresh turn (turn.apply op)
      ∨ ∃ msg source attached, op = .messageReceived msg source
          ∧ Acts True touched fresh turn attached ∧ attached.pending = turn.pending
          ∧ Asked (Acts True touched fresh) msg.userId attached (turn.apply op) := by
  cases op with
  | messageReceived msg source =>
    refine (messageReceived_acts msg source may (new msg source rfl)).imp_right ?_
    rintro ⟨attached, acts, pending, asked⟩
    exact ⟨msg, source, attached, rfl, acts, pending, asked⟩
  | _ => exact .inl (apply_silent listed may (fun _ _ => Op.noConfusion))

/-- What every act and every question to the chair preserve, the operations preserve. -/
theorem apply_preserves {turn : Turn} {op : Op} {holds : Turn → Prop}
    (act
      : ∀ before after, Act True (fun _ => True) (fun _ => True) before after
        → holds before → holds after)
    (asks
      : ∀ turn id userId beneficiaryId floorIds, holds turn
        → holds (notify turn (.onFloorRequest id userId beneficiaryId floorIds)))
    (initially : holds turn) (listed : OfListener op)
    : holds (turn.apply op) := by
  have chain : ∀ {before after}, Acts True (fun _ => True) (fun _ => True) before after
      → holds before → holds after := by
    intro before after acts first
    induction acts with
    | refl => exact first
    | tail _ last ih => exact act _ _ last ih
  rcases @apply_acts (fun _ => True) (fun _ => True) turn op listed (MayTouch.all _ op)
    (fun _ _ _ _ _ _ _ _ _ => trivial)
    with acts | ⟨_, _, _, _, acts, _, asked⟩
  · exact chain acts initially
  · obtain ⟨middle, _, more, _, _, _, _, eq⟩ := asked
    rw [eq]
    exact asks _ _ _ _ _ (chain (acts.trans more) initially)

end Sections

end Turn

end MediaServer.Bfcp
