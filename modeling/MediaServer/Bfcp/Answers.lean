import MediaServer.Bfcp.FloorControl

/-! What the server sends back. A message with the responder flag closes the transaction of
its request, so a message that is served has to bring forth exactly one of them.
-/

namespace MediaServer.Bfcp

open Foundation

/-- The primitives that end or report a transaction of the server. -/
def Body.isAcknowledgement : Body → Bool
  | .helloAck .. | .floorRequestStatusAck | .floorStatusAck | .goodbyeAck | .error .. => true
  | _ => false

namespace Turn

/-- The messages sent so far that answer a request. -/
def answers (turn : Turn) : List (BFCPTransport × BFCPMessage) :=
  turn.sent.filter (fun entry => entry.2.responder)

variable {msg : BFCPMessage} (turn : Turn)

theorem send_notification (target : Option BFCPTransport) (notification : msg.responder = false)
    : (turn.send target msg).answers = turn.answers := by
  cases target with
  | none => rfl
  | some transport => simp [send, answers, notification]

@[simp] theorem notify_answers (notification : Notification)
    : (turn.notify notification).answers = turn.answers := rfl

theorem notificationTransactionId_answers (user : Option BFCPUser)
    : (turn.notificationTransactionId user).1.answers = turn.answers := by
  cases user with
  | none => rfl
  | some user =>
    simp only [notificationTransactionId]
    split <;> rfl

variable {before after : Turn}

theorem Says.answers (speech : Says False before after) : after.answers = before.answers := by
  cases speech with
  | notice user msg _ unsolicited =>
    exact (send_notification _ _ (unsolicited _ _)).trans
      (notificationTransactionId_answers before (some user))
  | answer permitted => exact permitted.elim

theorem Talks.answers (talks : Talks False before after) : after.answers = before.answers := by
  induction talks with
  | refl => rfl
  | tail _ speech ih => exact speech.answers.trans ih

theorem Ending.answers {touched : BFCPFloorRequest → Prop}
    (ending : Ending False touched before after)
    : after.answers = before.answers := by
  cases ending with
  | speaks speech => exact speech.answers
  | erases _ _ told => exact told.answers

theorem Granting.answers {id : Int} {request : BFCPFloorRequest}
    (granting : Granting False id request before after)
    : after.answers = before.answers := by
  obtain ⟨accepted, granted, first, second, rfl⟩ := granting
  exact second.answers.trans first.answers

theorem grantFloorRequestLocked_answers (floorRequestId : Int)
    : (turn.grantFloorRequestLocked floorRequestId).1.answers = turn.answers :=
  @grantFloorRequestLocked_related False (fun _ => True)
    (fun before after => after.answers = before.answers) (fun _ => rfl)
    (fun left right => right.trans left) Ending.answers (fun _ _ granting => granting.answers)
    (fun _ => trivial) turn floorRequestId

theorem answers_closed
    : Closed False (fun _ => True) (fun _ => True) (fun _ => True)
        (fun before after => after.answers = before.answers) where
  refl := fun _ => rfl
  trans := fun left right => right.trans left
  ending := Ending.answers
  users := fun _ same => by
    rw [same]
    rfl
  greets := fun _ _ => rfl
  stores := fun _ _ _ _ => rfl
  grants := fun id _ _ => grantFloorRequestLocked_answers _ id

/-- One answer to the request is sent, on the transport it came from. -/
def Answered (req : BFCPMessage) (source : BFCPTransport) (before after : Turn) : Prop :=
  ∃ answer, answer.transactionId = req.transactionId
    ∧ after.answers = before.answers ++ [(source, answer)]

theorem Answered.trans {req : BFCPMessage} {source : BFCPTransport} {first second third : Turn}
    (answered : Answered req source first second) (rest : third.answers = second.answers)
    : Answered req source first third := by
  obtain ⟨answer, sameId, sent⟩ := answered
  exact ⟨answer, sameId, rest.trans sent⟩

theorem send_answered {req msg : BFCPMessage} (source : BFCPTransport)
    (sameId : msg.transactionId = req.transactionId) (response : msg.responder = true)
    : Answered req source turn (turn.send (some source) msg) :=
  ⟨msg, sameId, by simp [send, answers, response]⟩

theorem replyError_answered (msg : BFCPMessage) (source : BFCPTransport) (errorCode : ErrorCode)
    (errorInfo : String)
    : Answered msg source turn (turn.replyError msg (some source) errorCode errorInfo) :=
  send_answered turn source rfl rfl

/-- A status sent to a user who is on the transport of the request. -/
theorem sendFloorRequestStatus_answered {turn : Turn} {user : BFCPUser} {userId : Int}
    {source : BFCPTransport} (req : BFCPMessage) (request : BFCPFloorRequest)
    (statusInfo : String) (found : turn.server.users.find? userId = some user)
    (attached : user.transport = some source)
    : Answered req source turn
        (turn.sendFloorRequestStatus request req.transactionId userId statusInfo true) := by
  simp only [sendFloorRequestStatus, sendMessage, found, attached]
  exact send_answered turn source rfl rfl

theorem foldl_addQueriedFloorId (floorIds : List Int) (user : BFCPUser)
    : (floorIds.foldl BFCPUser.addQueriedFloorId user).transport = user.transport := by
  induction floorIds generalizing user with
  | nil => rfl
  | cons floorId rest ih =>
    refine (ih _).trans ?_
    rw [BFCPUser.addQueriedFloorId]
    split
    · rfl
    · rfl

section Served

variable {turn : Turn} {req : BFCPMessage} {user : BFCPUser} {source : BFCPTransport}
  (found : turn.server.users.find? req.userId = some user)
  (attached : user.transport = some source)
include attached

theorem answerFloorQuery_answered : Answered req source turn (turn.answerFloorQuery req user) := by
  simp only [answerFloorQuery, attached]
  split
  · exact send_answered turn source rfl rfl
  · refine Answered.trans ?_ (Talks.answers (foldl_reflTransGen
      (fun turn floorId => sendFloorStatus_talks turn user floorId) _ _))
    exact send_answered turn source rfl rfl

theorem processHelloLocked_answered
    : Answered req source turn (turn.processHelloLocked req user) := by
  simp only [processHelloLocked, attached]
  refine Answered.trans ?_ (notify_answers _ _)
  split
  · exact send_answered turn source rfl rfl
  · refine Answered.trans ?_ (send_notification _ (some source) rfl)
    exact send_answered turn source rfl rfl

theorem processGoodbyeLocked_answered
    : Answered req source turn (turn.processGoodbyeLocked req user) := by
  simp only [processGoodbyeLocked, attached]
  refine Answered.trans ?_ (answers_closed.removeUserLocked _ false (fun _ _ => trivial))
  exact send_answered turn source rfl rfl

theorem processFloorQueryLocked_answered (floorIds : List Int)
    : Answered req source turn (turn.processFloorQueryLocked req user floorIds) := by
  rw [processFloorQueryLocked]
  split
  · rw [attached]
    exact replyError_answered turn req source _ _
  · refine @answerFloorQuery_answered _ req _ source ?_
    exact (foldl_addQueriedFloorId floorIds _).trans attached

include found

theorem processFloorRequestLocked_answered (floorIds : List Int) (beneficiaryId : Option Int)
    : Answered req source turn
        (turn.processFloorRequestLocked req user floorIds beneficiaryId) := by
  simp only [processFloorRequestLocked, attached]
  split
  · exact replyError_answered turn req source _ _
  · split
    · exact replyError_answered turn req source _ _
    · -- the answer says Pending; a chair's own request is granted right after it
      have answered :=
        @sendFloorRequestStatus_answered
          (turn.storeFloorRequest
            (createFloorRequest turn.server req.userId floorIds beneficiaryId))
          user req.userId source req
          (createFloorRequest turn.server req.userId floorIds beneficiaryId) "" found attached
      split
      · exact answered.trans (grantFloorRequestLocked_answers _ _)
      · exact answered

theorem processFloorReleaseLocked_answered (keyed : user.userId = req.userId) (floorRequestId : Int)
    : Answered req source turn (turn.processFloorReleaseLocked req user floorRequestId) := by
  simp only [processFloorReleaseLocked, attached, keyed]
  split
  · exact replyError_answered turn req source _ _
  · rename_i request stored
    split
    · exact replyError_answered turn req source _ _
    · split
      · exact replyError_answered turn req source _ _
      · rename_i status released
        have answered :=
          @sendFloorRequestStatus_answered
            { turn with server := turn.server.setStatus floorRequestId request status }
            user req.userId source req { request with status } "" found attached
        have tell (spoken : Turn)
            : (if req.userId = request.userId then spoken
                else spoken.notifyRequester { request with status } "").answers
              = spoken.answers := by
          split_ifs
          · rfl
          · exact Talks.answers (notifyRequester_talks _ _ _)
        have told := answered.trans (tell _)
        have all :=
          told.trans (Talks.answers (notifyForFloorRequest_talks _ { request with status }))
        split
        · exact all
        · exact all

theorem processMessage_answered (keyed : user.userId = req.userId)
    (request : req.body.isAcknowledgement = false)
    : Answered req source turn (turn.processMessage req user source) := by
  cases body : req.body with
  | floorRequest floorIds beneficiaryId =>
    simp only [processMessage, body]
    exact processFloorRequestLocked_answered found attached floorIds beneficiaryId
  | floorRelease floorRequestId =>
    simp only [processMessage, body]
    exact processFloorReleaseLocked_answered found attached keyed floorRequestId
  | floorQuery floorIds =>
    simp only [processMessage, body]
    exact processFloorQueryLocked_answered attached floorIds
  | hello =>
    simp only [processMessage, body]
    exact processHelloLocked_answered attached
  | goodbye =>
    simp only [processMessage, body]
    exact processGoodbyeLocked_answered attached
  | helloAck _ _ | floorRequestStatusAck | floorStatusAck | goodbyeAck | error _ _ =>
    simp [body, Body.isAcknowledgement] at request
  | floorRequestStatus _ | floorStatus _ _ | unsupported _ =>
    simp only [processMessage, body]
    exact replyError_answered turn req source _ _

end Served

/-- Nothing is revoked, and so nothing sent, where no older transport is taken over. -/
theorem attachTransportLocked_sent {turn : Turn} {userId : Int} {user : BFCPUser}
    {transport : BFCPTransport} (found : turn.server.users.find? userId = some user)
    (free : user.transport = some transport ∨ user.isConnected = false)
    : (turn.attachTransportLocked userId transport).sent = turn.sent := by
  simp only [attachTransportLocked, found]
  rcases free with same | unconnected
  · rw [if_pos same]
  · split
    · rfl
    · rw [if_neg (by simp [unconnected])]

theorem processMessage_acknowledgement (turn : Turn) (user : BFCPUser) (source : BFCPTransport)
    (acknowledges : msg.body.isAcknowledgement = true)
    : turn.processMessage msg user source = turn := by
  cases body : msg.body <;> simp [body, Body.isAcknowledgement] at acknowledges
  all_goals simp only [processMessage, body]

theorem messageReceived_acknowledgement {turn : Turn} {msg : BFCPMessage}
    {source : BFCPTransport} (running : turn.server.ending = false)
    (acknowledges : msg.body.isAcknowledgement = true)
    (accepted : turn.server.turnsDown msg source = false)
    : (turn.messageReceived msg source).sent = turn.sent := by
  obtain ⟨user, attached, found, free, served, _⟩ := messageReceived_accepted running accepted
  rw [served, processMessage_acknowledgement _ attached source acknowledges]
  refine attachTransportLocked_sent found (free fun body => ?_)
  -- only a Hello may take a user over from another transport
  simp [body, Body.isAcknowledgement] at acknowledges

theorem messageReceived_answered {turn : Turn} {msg : BFCPMessage} {source : BFCPTransport}
    (invariant : Invariant turn.server) (running : turn.server.ending = false)
    (request : msg.body.isAcknowledgement = false)
    : Answered msg source turn (turn.messageReceived msg source) := by
  cases down : turn.server.turnsDown msg source with
  | true =>
    obtain ⟨_, _, turnedDown⟩ := messageReceived_turnedDown running down
    rw [turnedDown]
    exact replyError_answered turn msg source _ _
  | false =>
    obtain ⟨_, user, known, -, served, found, attached, keyed⟩ :=
      messageReceived_accepted running down
    rw [served]
    obtain ⟨answer, sameId, sent⟩ := processMessage_answered found attached
      (keyed.trans (invariant.userKeyed _ _ known)) request
    refine ⟨answer, sameId, sent.trans (congrArg (· ++ _) ?_)⟩
    exact answers_closed.attachTransportLocked turn source known (fun _ _ _ _ => trivial)

theorem endConference_answers (turn : Turn) : turn.endConference.answers = turn.answers := by
  simp only [endConference]
  split
  · rfl
  · refine (answers_closed.foldl ?_ _ _).trans (answers_closed.foldl ?_ _ _)
    · intro turn userId
      exact (Talks.answers (sendGoodbye_talks turn userId) :)
    · intro turn id
      exact answers_closed.ends (endFloorRequest_ends _ (fun _ _ => trivial))

/-- Only a received message is answered, once and where it came from. -/
theorem apply_answers {server : BFCPFloorControlServer} (invariant : Invariant server) (op : Op)
    : (apply { server } op).answers = []
      ∨ ∃ msg source answer, op = .messageReceived msg source
        ∧ answer.transactionId = msg.transactionId
        ∧ (apply { server } op).answers = [(source, answer)] := by
  cases op with
  | messageReceived msg source =>
    change (messageReceived { server } msg source).answers = [] ∨ _
    cases running : server.ending with
    | true =>
      left
      rw [messageReceived, if_pos running]
      rfl
    | false =>
      cases request : msg.body.isAcknowledgement with
      | false =>
        obtain ⟨answer, sameId, sent⟩ :=
          @messageReceived_answered { server } msg source invariant running request
        exact .inr ⟨msg, source, answer, rfl, sameId, sent⟩
      | true =>
        cases down : server.turnsDown msg source with
        | false =>
          left
          rw [answers, @messageReceived_acknowledgement { server } msg source running request down]
          rfl
        | true =>
          obtain ⟨errorCode, errorInfo, turnedDown⟩ :=
            @messageReceived_turnedDown { server } msg source running down
          obtain ⟨answer, sameId, sent⟩ :=
            replyError_answered { server } msg source errorCode errorInfo
          refine .inr ⟨msg, source, answer, rfl, sameId, ?_⟩
          change (messageReceived { server } msg source).answers = _
          rw [turnedDown]
          exact sent
  | addUser userId =>
    left
    simp only [apply, addUser]
    split_ifs <;> rfl
  | addFloor floorId =>
    left
    simp only [apply, addFloor]
    split_ifs <;> rfl
  | endConference => exact .inl (endConference_answers _)
  | _ =>
    left
    refine (answers_closed.acts (fun _ _ _ _ => trivial)
      (apply_silent ?_ (MayTouch.all _ _) (fun _ _ => Op.noConfusion)) trivial).1
    exact trivial

end Turn

namespace BFCPFloorControlServer

/-- Every request brings forth one message with the responder flag, on its own transport and
under its own transaction. An acknowledgement or an error brings forth nothing, unless it is
turned down: then one error goes back, as for a request.
-/
theorem requests_answered_once (conferenceId : Int) (ops : List Op) (msg : BFCPMessage)
    (source : BFCPTransport) (running : (run step { conferenceId } ops).ending = false)
    : let server := run step { conferenceId } ops
      let turn := Turn.messageReceived { server } msg source
      (msg.body.isAcknowledgement = false
        → ∃ answer, answer.transactionId = msg.transactionId ∧ turn.answers = [(source, answer)])
      ∧ (msg.body.isAcknowledgement = true
        → server.turnsDown msg source = false → turn.sent = [])
      ∧ (msg.body.isAcknowledgement = true
        → server.turnsDown msg source = true
        → ∃ errorCode errorInfo, turn.sent
            = [(source,
                { msg with body := .error errorCode (some errorInfo), responder := true })]) := by
  intro server turn
  have invariant := run_floorInvariant conferenceId ops
  refine ⟨?_, ?_, ?_⟩
  · intro request
    exact @Turn.messageReceived_answered { server } msg source invariant running request
  · intro acknowledges accepted
    exact @Turn.messageReceived_acknowledgement { server } msg source running acknowledges accepted
  · intro _ down
    obtain ⟨errorCode, errorInfo, turnedDown⟩ :=
      @Turn.messageReceived_turnedDown { server } msg source running down
    refine ⟨errorCode, errorInfo, ?_⟩
    change (Turn.messageReceived { server } msg source).sent = _
    rw [turnedDown]
    rfl

/-- A chair takes a floor that somebody else asked for: four messages, one of them the answer. -/
theorem requests_answered_once_chair
    : ((Turn.messageReceived
          { server := run step { conferenceId := 5 } (preemptingOps.take 6) }
          ⟨.floorRequest [7] none, 8, 5, 1, false⟩ ⟨0, true⟩).sent.map
        (fun entry => (entry.1.handle, entry.2.transactionId, entry.2.responder))
      = [(0, 8, true), (0, 0, false), (0, 0, false), (0, 0, false)])
      ∧ ∃ answer : BFCPMessage, answer.transactionId = 8
        ∧ (Turn.messageReceived
          { server := run step { conferenceId := 5 } (preemptingOps.take 6) }
          ⟨.floorRequest [7] none, 8, 5, 1, false⟩ ⟨0, true⟩).answers = [(⟨0, true⟩, answer)] :=
  ⟨by decide,
    (requests_answered_once 5 (preemptingOps.take 6) ⟨.floorRequest [7] none, 8, 5, 1, false⟩
      ⟨0, true⟩ (by decide)).1 (by decide)⟩

/-- An acknowledgement for another conference is answered with an error. -/
theorem stray_acknowledgement_answered
    : (run step { conferenceId := 5 } [.addUser 1]).ending = false
      ∧ (Turn.messageReceived { server := run step { conferenceId := 5 } [.addUser 1] }
          ⟨.floorStatusAck, 9, 6, 1, false⟩ ⟨0, true⟩).sent
        = [(⟨0, true⟩,
            ⟨.error .conferenceDoesNotExist (some "conference does not exist"), 9, 6, 1, true⟩)] :=
  ⟨by decide, by decide⟩

end BFCPFloorControlServer

end MediaServer.Bfcp
