import MediaServer.Bfcp.Operations
import Mathlib.Logic.Relation

/-! What the locked helpers do and what they leave alone. Sending keeps every table, ending
requests only takes requests away, and attaching or detaching a transport touches one user.
-/

namespace MediaServer.Bfcp.Turn

open Foundation Relation BFCPFloorControlServer OrderedMap List

/-- One message to a user: a notification in a transaction of its own or, in a section that is
`answering`, the answer to a request.
-/
inductive Says (answering : Prop) (before : Turn) : Turn → Prop
  | notice (user : BFCPUser) (msg : Turn → Int → BFCPMessage)
      (number : ∀ turn id, (msg turn id).transactionId = id)
      (unsolicited : ∀ turn id, (msg turn id).responder = false)
      : Says answering before
          ((before.notificationTransactionId (some user)).1.send user.transport
            (msg (before.notificationTransactionId (some user)).1
              (before.notificationTransactionId (some user)).2))
  | answer (permitted : answering) (target : Option BFCPTransport) (msg : BFCPMessage)
      (response : msg.responder = true)
      : Says answering before (before.send target msg)

/-- Nothing but messages. -/
abbrev Talks (answering : Prop) : Turn → Turn → Prop := ReflTransGen (Says answering)

def SameTables (before after : Turn) : Prop :=
  ∃ counter, after.server = { before.server with transactionCounter := counter }

variable {answering : Prop} {before after first second third : Turn} (turn : Turn)

theorem SameTables.of_server_eq (same : after.server = before.server)
    : SameTables before after := ⟨_, same⟩

theorem SameTables.trans (left : SameTables first second) (right : SameTables second third)
    : SameTables first third := by
  obtain ⟨_, middle⟩ := left
  obtain ⟨counter, last⟩ := right
  exact ⟨counter, by rw [last, middle]⟩

theorem send_server (target : Option BFCPTransport) (msg : BFCPMessage)
    : (turn.send target msg).server = turn.server := by
  cases target <;> rfl

theorem send_pending (target : Option BFCPTransport) (msg : BFCPMessage)
    : (turn.send target msg).pending = turn.pending := by
  cases target <;> rfl

theorem notificationTransactionId_sameTables (user : Option BFCPUser)
    : SameTables turn (turn.notificationTransactionId user).1 := by
  cases user with
  | none => exact .of_server_eq rfl
  | some user =>
    simp only [notificationTransactionId]
    split
    · exact .of_server_eq rfl
    · exact ⟨_, rfl⟩

theorem notificationTransactionId_pending (user : Option BFCPUser)
    : (turn.notificationTransactionId user).1.pending = turn.pending := by
  cases user with
  | none => rfl
  | some user =>
    simp only [notificationTransactionId]
    split <;> rfl

theorem Says.keeps (speech : Says answering before after)
    : SameTables before after ∧ after.pending = before.pending := by
  cases speech with
  | notice user =>
    exact ⟨(notificationTransactionId_sameTables _ _).trans (.of_server_eq (send_server _ _ _)),
      (send_pending _ _ _).trans (notificationTransactionId_pending _ _)⟩
  | answer _ target msg => exact ⟨.of_server_eq (send_server _ _ _), send_pending _ _ _⟩

theorem Talks.keeps (talks : Talks answering before after)
    : SameTables before after ∧ after.pending = before.pending := by
  induction talks with
  | refl => exact ⟨.of_server_eq rfl, rfl⟩
  | tail _ speech ih => exact ⟨ih.1.trans speech.keeps.1, speech.keeps.2.trans ih.2⟩

theorem Talks.sameTables (talks : Talks answering before after) : SameTables before after :=
  talks.keeps.1

theorem Talks.pending (talks : Talks answering before after) : after.pending = before.pending :=
  talks.keeps.2

theorem replyError_talks (permitted : answering) (turn : Turn) (msg : BFCPMessage)
    (target : Option BFCPTransport) (errorCode : ErrorCode) (errorInfo : String)
    : Talks answering turn (turn.replyError msg target errorCode errorInfo) :=
  .single (.answer permitted target _ rfl)

theorem sendMessage_talks (permitted : answering) (turn : Turn) {msg : BFCPMessage}
    (response : msg.responder = true)
    : Talks answering turn (turn.sendMessage msg) := by
  simp only [sendMessage]
  split
  · exact .refl
  · exact .single (.answer permitted _ msg response)

theorem sendFloorRequestStatus_talks (permitted : answering) (turn : Turn)
    (request : BFCPFloorRequest) (transactionId toUserId : Int) (statusInfo : String)
    : Talks answering turn
        (turn.sendFloorRequestStatus request transactionId toUserId statusInfo true) :=
  sendMessage_talks permitted turn rfl

theorem sendFloorStatus_talks (user : BFCPUser) (floorId : Int)
    : Talks answering turn (turn.sendFloorStatus user floorId) :=
  .single (.notice user (fun turn id => buildFloorStatus turn.server floorId id user.userId)
    (fun _ _ => rfl) (fun _ _ => rfl))

theorem notifyFloorStatus_talks (userId floorId : Int)
    : Talks answering turn (turn.notifyFloorStatus userId floorId).1 := by
  simp only [notifyFloorStatus]
  split
  · exact .refl
  · split
    · exact .refl
    · split
      · exact sendFloorStatus_talks turn _ floorId
      · exact .refl

theorem notifyForFloorRequest_talks (request : BFCPFloorRequest)
    : Talks answering turn (turn.notifyForFloorRequest request) := by
  refine foldl_reflTransGen ?_ _ turn
  intro turn user
  exact foldl_reflTransGen (fun turn floorId => sendFloorStatus_talks turn user floorId) _ turn

theorem notifyRequester_talks (request : BFCPFloorRequest) (statusInfo : String)
    : Talks answering turn (turn.notifyRequester request statusInfo) := by
  simp only [notifyRequester]
  cases found : turn.server.users.find? request.userId with
  | none =>
    simp only [notificationTransactionId, sendFloorRequestStatus, sendMessage, found]
    exact .refl
  | some user =>
    have still : (turn.notificationTransactionId (some user)).1.server.users.find?
        request.userId = some user := by
      obtain ⟨counter, eq⟩ := notificationTransactionId_sameTables turn (some user)
      rwa [eq]
    simp only [sendFloorRequestStatus, sendMessage, still]
    exact .single (.notice user
      (fun _ id =>
        { body := .floorRequestStatus
            (if statusInfo.isEmpty then request.createFloorRequestInformation
              else { request.createFloorRequestInformation with statusInfo := some statusInfo })
          transactionId := id, conferenceId := request.conferenceId, userId := request.userId })
      (fun _ _ => rfl) (fun _ _ => rfl))

theorem announceStatus_talks (floorRequestId : Int) (request : BFCPFloorRequest) (status : Status)
    (statusInfo : String)
    : Talks answering { turn with server := turn.server.setStatus floorRequestId request status }
        (turn.announceStatus floorRequestId request status statusInfo) :=
  notifyRequester_talks _ _ statusInfo

theorem sendGoodbye_talks (userId : Int) : Talks answering turn (turn.sendGoodbye userId) := by
  simp only [sendGoodbye]
  split
  · exact .refl
  · rename_i user _
    split
    · exact .single (.notice user
        (fun turn id =>
          { body := .goodbye, transactionId := id, conferenceId := turn.server.conferenceId
            userId })
        (fun _ _ => rfl) (fun _ _ => rfl))
    · exact .refl

theorem answerFloorQuery_talks (permitted : answering) (turn : Turn) (req : BFCPMessage)
    (user : BFCPUser)
    : Talks answering turn (turn.answerFloorQuery req user) := by
  simp only [answerFloorQuery]
  split
  · exact .single (.answer permitted _ _ rfl)
  · exact ReflTransGen.trans (.single (.answer permitted _ _ (by rfl)))
      (foldl_reflTransGen (fun turn floorId => sendFloorStatus_talks turn user floorId) _ _)

/-- What a greeting is answered with; a peer without a connection is greeted in turn. -/
theorem processHelloLocked_talks (permitted : answering) (turn : Turn) (req : BFCPMessage)
    (user : BFCPUser)
    : ∃ greeted, Talks answering turn greeted
      ∧ turn.processHelloLocked req user = greeted.notify (.onUserConnected user.userId) := by
  simp only [processHelloLocked]
  refine ⟨_, ?_, rfl⟩
  split
  · exact .single (.answer permitted _ _ rfl)
  · rename_i unreliable
    have greets (acked : Turn) := @Says.notice answering acked user
      (fun turn id =>
        { body := .hello, transactionId := id, conferenceId := turn.server.conferenceId
          userId := req.userId })
      (fun _ _ => rfl) (fun _ _ => rfl)
    simp only [notificationTransactionId, if_neg unreliable] at greets
    exact .tail (.single (.answer permitted _ _ (by rfl))) (greets _)

structure Shrinks (before after : Turn) : Prop where
  floors : after.server.floors = before.server.floors
  ending : after.server.ending = before.server.ending
  kept
    : ∀ id request, after.server.floorRequests.find? id = some request
      → before.server.floorRequests.find? id = some request

theorem Shrinks.gone (shrinks : Shrinks before after) {id : Int}
    (absent : before.server.floorRequests.find? id = none)
    : after.server.floorRequests.find? id = none := by
  rw [Option.eq_none_iff_forall_ne_some] at absent ⊢
  intro request found
  exact absent request (shrinks.kept id request found)

theorem Shrinks.trans (left : Shrinks first second) (right : Shrinks second third)
    : Shrinks first third where
  floors := right.floors.trans left.floors
  ending := right.ending.trans left.ending
  kept := fun id request found => left.kept id request (right.kept id request found)

structure ChangesUser (userId : Int) (before after : Turn) : Prop extends Shrinks before after where
  others
    : ∀ id, id ≠ userId → after.server.users.find? id = before.server.users.find? id

variable {userId : Int}

theorem ChangesUser.trans (left : ChangesUser userId first second)
    (right : ChangesUser userId second third)
    : ChangesUser userId first third where
  toShrinks := left.toShrinks.trans right.toShrinks
  others := fun id other => (right.others id other).trans (left.others id other)

structure OnlyEnds (before after : Turn) : Prop extends Shrinks before after where
  users : after.server.users = before.server.users

namespace OnlyEnds

theorem refl : OnlyEnds turn turn := ⟨⟨rfl, rfl, fun _ _ found => found⟩, rfl⟩

theorem trans (left : OnlyEnds first second) (right : OnlyEnds second third)
    : OnlyEnds first third :=
  ⟨left.toShrinks.trans right.toShrinks, right.users.trans left.users⟩

theorem foldl {α : Type} {body : Turn → α → Turn}
    (each : ∀ turn item, OnlyEnds turn (body turn item)) (items : List α) (turn : Turn)
    : OnlyEnds turn (items.foldl body turn) := by
  induction items generalizing turn with
  | nil => exact .refl turn
  | cons item rest ih => exact (each turn item).trans (ih (body turn item))

theorem changesUser {before after : Turn} (only : OnlyEnds before after) (userId : Int)
    : ChangesUser userId before after :=
  ⟨only.toShrinks, fun id _ => by rw [only.users]⟩

end OnlyEnds

theorem SameTables.onlyEnds (same : SameTables before after) : OnlyEnds before after := by
  obtain ⟨counter, eq⟩ := same
  refine ⟨⟨by rw [eq], by rw [eq], fun id request found => ?_⟩, by rw [eq]⟩
  rwa [eq] at found

@[simp] theorem updateUser_find? (server : BFCPFloorControlServer) (userId id : Int)
    (change : BFCPUser → BFCPUser)
    : (server.updateUser userId change).users.find? id
      = if id = userId then (server.users.find? userId).map change
        else server.users.find? id := by
  simp only [updateUser]
  split
  · rename_i absent
    split
    · rename_i same
      simp [same, absent]
    · rfl
  · rename_i user found
    simp [found]

theorem updateUser_eq (server : BFCPFloorControlServer) (userId : Int)
    (change : BFCPUser → BFCPUser)
    : server.updateUser userId change
      = { server with users := (server.updateUser userId change).users } := by
  simp only [updateUser]
  split <;> rfl

theorem updateUser_changesUser (userId : Int) (change : BFCPUser → BFCPUser)
    : ChangesUser userId turn
        { turn with server := turn.server.updateUser userId change } where
  others := fun id other => by simp [other]
  floors := by rw [updateUser_eq]
  ending := by rw [updateUser_eq]
  kept := fun id request found => by rwa [updateUser_eq] at found

/-! Ending requests. -/

/-- Only a request that may be `touched` is ended: its new status is told, it is erased, and
the listener hears of it if it was granted.
-/
inductive Ending (answering : Prop) (touched : BFCPFloorRequest → Prop) (before : Turn)
    : Turn → Prop
  | speaks {after : Turn} (speech : Says answering before after)
      : Ending answering touched before after
  | erases {middle : Turn} {id : Int} {request : BFCPFloorRequest} {status : Status}
      {news : List Notification} (found : before.server.floorRequests.find? id = some request)
      (allowed : touched request)
      (told
        : Talks answering { before with server := before.server.setStatus id request status }
            middle)
      (news_eq
        : before.server.ending = false → news
          = if request.isGranted then
              [.onFloorReleased id request.beneficiaryId request.floorIds.keys]
            else [])
      : Ending answering touched before
          { middle.eraseFloorRequest id with pending := middle.pending ++ news }

abbrev Ends (answering : Prop) (touched : BFCPFloorRequest → Prop) : Turn → Turn → Prop :=
  ReflTransGen (Ending answering touched)

variable {floorRequestId : Int} {request : BFCPFloorRequest}

theorem eraseFloorRequest_find? {turn after : Turn} {status : Status}
    (told
      : SameTables
          { turn with server := turn.server.setStatus floorRequestId request status } after)
    (other : Int)
    : (after.eraseFloorRequest floorRequestId).server.floorRequests.find? other
      = if other = floorRequestId then none else turn.server.floorRequests.find? other := by
  obtain ⟨counter, eq⟩ := told
  simp only [eraseFloorRequest, eq, setStatus, find?_erase, find?_insert]
  split_ifs <;> rfl

def Stored (holds : BFCPFloorRequest → Prop) (turn : Turn) (id : Int) : Prop :=
  ∀ request, turn.server.floorRequests.find? id = some request → holds request

section Ends

variable {touched : BFCPFloorRequest → Prop}

theorem Talks.ends (talks : Talks answering before after) : Ends answering touched before after :=
  ReflTransGen.mono (fun _ _ => .speaks) _ _ talks

theorem Ending.onlyEnds (ending : Ending answering touched before after)
    : OnlyEnds before after := by
  cases ending with
  | speaks speech => exact speech.keeps.1.onlyEnds
  | @erases middle erased request status news found allowed told =>
    have table := eraseFloorRequest_find? told.sameTables
    obtain ⟨counter, eq⟩ := told.sameTables
    refine ⟨⟨by simp [eraseFloorRequest, eq, setStatus],
      by simp [eraseFloorRequest, eq, setStatus], fun id kept stored => ?_⟩,
      by simp [eraseFloorRequest, eq, setStatus]⟩
    rw [table] at stored
    split_ifs at stored
    exact stored

theorem Ends.onlyEnds (ends : Ends answering touched before after) : OnlyEnds before after := by
  induction ends with
  | refl => exact .refl before
  | tail _ ending ih => exact ih.trans ending.onlyEnds

theorem canBeGranted_not_granted {request : BFCPFloorRequest} (grantable : request.canBeGranted)
    : request.isGranted = false := by
  revert grantable
  cases status : request.status <;>
    simp [BFCPFloorRequest.canBeGranted, BFCPFloorRequest.isGranted, status]

/-- A denial does nothing, or it ends one request that waits. -/
theorem denyFloorRequestLocked_cases (floorRequestId : Int) (statusInfo : String)
    : (turn.denyFloorRequestLocked floorRequestId statusInfo).1 = turn
      ∨ ∃ request middle, turn.server.floorRequests.find? floorRequestId = some request
          ∧ request.isGranted = false
          ∧ Talks answering
              { turn with server := turn.server.setStatus floorRequestId request .denied } middle
          ∧ (turn.denyFloorRequestLocked floorRequestId statusInfo).1
            = middle.eraseFloorRequest floorRequestId := by
  simp only [denyFloorRequestLocked]
  split
  · exact .inl rfl
  · rename_i request found
    split
    · rename_i deniable
      exact .inr ⟨request, _, found, canBeGranted_not_granted deniable,
        (announceStatus_talks turn floorRequestId request .denied statusInfo).trans
          (notifyForFloorRequest_talks _ request), rfl⟩
    · exact .inl rfl

variable {floorRequestId : Int} (statusInfo : String)

theorem denyFloorRequestLocked_ends {turn : Turn}
    (allowed : Stored touched turn floorRequestId)
    : Ends answering touched turn (turn.denyFloorRequestLocked floorRequestId statusInfo).1 := by
  rcases denyFloorRequestLocked_cases turn floorRequestId statusInfo
    with unchanged | ⟨request, middle, found, waiting, told, eq⟩
  · rw [unchanged]
  · rw [eq]
    have ended := @Ending.erases answering touched turn _ _ _ _ [] found (allowed request found)
      told (by simp [waiting])
    exact .single (by simpa [eraseFloorRequest] using ended)

/-- A revocation does nothing, or it ends one granted request, of which the listener hears
unless the conference is over.
-/
theorem revokeFloorRequestLocked_cases (turn : Turn) (floorRequestId : Int) (statusInfo : String)
    : (turn.revokeFloorRequestLocked floorRequestId statusInfo).1 = turn
      ∨ ∃ request middle, turn.server.floorRequests.find? floorRequestId = some request
          ∧ request.isGranted
          ∧ Talks answering
              { turn with server := turn.server.setStatus floorRequestId request .revoked } middle
          ∧ (turn.revokeFloorRequestLocked floorRequestId statusInfo).1
            = { middle.eraseFloorRequest floorRequestId with
                pending := middle.pending ++ if turn.server.ending then [] else
                  [.onFloorReleased floorRequestId request.beneficiaryId
                    request.floorIds.keys] } := by
  simp only [revokeFloorRequestLocked]
  split
  · exact .inl rfl
  · rename_i request found
    split
    · rename_i granted
      have told := (announceStatus_talks turn floorRequestId request .revoked statusInfo).trans
        (@notifyForFloorRequest_talks answering _ request)
      refine .inr ⟨request, _, found, granted, told, ?_⟩
      obtain ⟨counter, eq⟩ := Talks.sameTables told
      have ending : (((turn.announceStatus floorRequestId request .revoked statusInfo
          ).notifyForFloorRequest request).eraseFloorRequest floorRequestId).server.ending
          = turn.server.ending := by
        simp [eraseFloorRequest, eq, setStatus]
      rw [ending]
      split_ifs
      · simp [eraseFloorRequest]
      · rfl
    · exact .inl rfl

theorem revokeFloorRequestLocked_ends {turn : Turn}
    (allowed : Stored touched turn floorRequestId)
    : Ends answering touched turn
        (turn.revokeFloorRequestLocked floorRequestId statusInfo).1 := by
  rcases revokeFloorRequestLocked_cases turn floorRequestId statusInfo
    with unchanged | ⟨request, middle, found, granted, told, eq⟩
  · rw [unchanged]
  · rw [eq]
    refine .single (.erases found (allowed request found) told (fun running => ?_))
    rw [if_neg (by simp [running]), if_pos granted]

theorem endFloorRequest_ends {turn : Turn}
    (allowed : Stored touched turn floorRequestId)
    : Ends answering touched turn (turn.endFloorRequest statusInfo floorRequestId) := by
  simp only [endFloorRequest]
  split
  · exact .refl
  · split
    · exact revokeFloorRequestLocked_ends statusInfo allowed
    · exact denyFloorRequestLocked_ends statusInfo allowed

/-- Requests that end one after the other: what is left was there from the start. -/
theorem foldl_ends {α : Type} {body : Turn → α → Turn} {key : α → Int}
    (each
      : ∀ turn item, Stored touched turn (key item)
        → Ends answering touched turn (body turn item))
    (items : List α) {turn : Turn} (allowed : ∀ item ∈ items, Stored touched turn (key item))
    : Ends answering touched turn (items.foldl body turn) := by
  induction items generalizing turn with
  | nil => exact .refl
  | cons item rest ih =>
    have first := each turn item (allowed item mem_cons_self)
    refine first.trans (ih ?_)
    intro other member request found
    exact allowed other (mem_cons_of_mem _ member) request (first.onlyEnds.kept _ request found)

def Names (userId : Int) (request : BFCPFloorRequest) : Prop :=
  request.userId = userId ∨ request.beneficiaryId = userId

/-- All requests that name the user may be touched. -/
abbrev TouchesOwn (touched : BFCPFloorRequest → Prop) (userId : Int) : Prop :=
  ∀ request, Names userId request → touched request

theorem revokeUserFloorRequestsLocked_ends {userId : Int}
    (own : TouchesOwn touched userId)
    : Ends answering touched turn (turn.revokeUserFloorRequestsLocked userId) := by
  refine @foldl_ends answering touched _ _ id (fun turn id => endFloorRequest_ends _) _ turn ?_
  intro id member request found
  simp only [mem_map, mem_filter, Bool.or_eq_true, decide_eq_true_eq] at member
  obtain ⟨⟨_, stored⟩, ⟨inTable, named⟩, rfl⟩ := member
  cases found.symm.trans (find?_eq_some_iff.mpr inTable)
  exact own request named.symm

theorem revokeOtherHolders_ends (floorRequestId : Int) (request : BFCPFloorRequest)
    (all : ∀ request, touched request)
    : Ends answering touched turn (turn.revokeOtherHolders floorRequestId request) :=
  foldl_ends (fun _ _ => revokeFloorRequestLocked_ends _) _ (fun _ _ request _ => all request)

/-- A release is refused, or it ends the request that it names. -/
theorem processFloorReleaseLocked_cases (permitted : answering) (turn : Turn)
    (req : BFCPMessage) (user : BFCPUser) (floorRequestId : Int)
    : Talks answering turn (turn.processFloorReleaseLocked req user floorRequestId)
      ∨ ∃ request status middle, turn.server.floorRequests.find? floorRequestId = some request
          ∧ (user.isChair ∨ Names user.userId request)
          ∧ Talks answering
              { turn with server := turn.server.setStatus floorRequestId request status } middle
          ∧ turn.processFloorReleaseLocked req user floorRequestId
            = { middle.eraseFloorRequest floorRequestId with
                pending := middle.pending ++ if request.isGranted then
                    [.onFloorReleased floorRequestId request.beneficiaryId
                      request.floorIds.keys]
                  else [] } := by
  simp only [processFloorReleaseLocked]
  split
  · exact .inl (replyError_talks permitted turn _ _ _ _)
  · rename_i request found
    split
    · exact .inl (replyError_talks permitted turn _ _ _ _)
    · rename_i permits
      split
      · exact .inl (replyError_talks permitted turn _ _ _ _)
      · rename_i status _
        have asked : user.isChair ∨ Names user.userId request := by
          by_contra refused
          simp only [Names, not_or] at refused
          exact permits ⟨fun same => refused.2.1 same.symm, fun same => refused.2.2 same.symm,
            by simpa using refused.1⟩
        have tell (spoken : Turn) : Talks answering spoken
            (if user.userId = request.userId then spoken
              else spoken.notifyRequester { request with status } "") := by
          split_ifs
          · exact .refl
          · exact notifyRequester_talks _ _ _
        have told := ((sendFloorRequestStatus_talks permitted
          { turn with server := turn.server.setStatus floorRequestId request status }
          { request with status } req.transactionId user.userId "").trans (tell _)).trans
          (notifyForFloorRequest_talks _ { request with status })
        refine .inr ⟨request, status, _, found, asked, told, ?_⟩
        split_ifs
        · rfl
        · rfl
        · simp [eraseFloorRequest]
        · simp [eraseFloorRequest]

theorem processFloorReleaseLocked_ends (permitted : answering) (turn : Turn)
    (req : BFCPMessage) (user : BFCPUser) (floorRequestId : Int)
    (released
      : ∀ request, turn.server.floorRequests.find? floorRequestId = some request
        → user.isChair ∨ Names user.userId request → touched request)
    : Ends answering touched turn (turn.processFloorReleaseLocked req user floorRequestId) := by
  rcases processFloorReleaseLocked_cases permitted turn req user floorRequestId
    with talks | ⟨request, status, middle, found, asked, told, eq⟩
  · exact talks.ends
  · rw [eq]
    exact .single (.erases found (released request found asked) told (fun _ => rfl))

end Ends

/-- One entry of the table of requests changes, and nothing else. -/
structure Stores (id : Int) (entry : Option BFCPFloorRequest) (before after : Turn) : Prop where
  users : after.server.users = before.server.users
  floors : after.server.floors = before.server.floors
  counter : after.server.floorRequestCounter = before.server.floorRequestCounter
  ending : after.server.ending = before.server.ending
  table
    : ∀ other, after.server.floorRequests.find? other
      = if other = id then entry else before.server.floorRequests.find? other

theorem Talks.stores {id : Int} {status : Status}
    (told
      : Talks answering { before with server := before.server.setStatus id request status } after)
    : Stores id (some { request with status }) before after := by
  obtain ⟨counter, eq⟩ := told.sameTables
  refine ⟨by rw [eq]; rfl, by rw [eq]; rfl, by rw [eq]; rfl, by rw [eq]; rfl, fun other => ?_⟩
  simp only [eq, setStatus, find?_insert]

structure Granting (answering : Prop) (id : Int) (request : BFCPFloorRequest)
    (before after : Turn) : Prop where
  told
    : ∃ accepted granted,
      Talks answering { before with server := before.server.setStatus id request .accepted }
        accepted
      ∧ Talks answering
          { accepted with server := accepted.server.setStatus id request .granted } granted
      ∧ after
        = granted.notify (.onFloorGranted id request.beneficiaryId request.floorIds.keys)

theorem Granting.stores {id : Int} (granting : Granting answering id request before after)
    : Stores id (some { request with status := .granted }) before after := by
  obtain ⟨accepted, granted, first, second, rfl⟩ := granting
  have left := first.stores
  have right := second.stores
  refine ⟨right.users.trans left.users, right.floors.trans left.floors,
    right.counter.trans left.counter, right.ending.trans left.ending, fun other => ?_⟩
  refine (right.table other).trans ?_
  rw [left.table]
  split_ifs <;> rfl

theorem Granting.pending {id : Int} (granting : Granting answering id request before after)
    : after.pending
      = before.pending ++ [.onFloorGranted id request.beneficiaryId request.floorIds.keys] := by
  obtain ⟨accepted, granted, first, second, rfl⟩ := granting
  simp only [notify, second.pending, first.pending]

/-- A grant does nothing, or revokes the other holders first. -/
theorem grantFloorRequestLocked_cases (answering : Prop) (turn : Turn) (floorRequestId : Int)
    : (turn.grantFloorRequestLocked floorRequestId).1 = turn
      ∨ ∃ request, turn.server.floorRequests.find? floorRequestId = some request
          ∧ request.isGranted = false
          ∧ Granting answering floorRequestId request
              (turn.revokeOtherHolders floorRequestId request)
              (turn.grantFloorRequestLocked floorRequestId).1 := by
  simp only [grantFloorRequestLocked]
  split
  · exact .inl rfl
  · rename_i request found
    split
    · rename_i grantable
      refine .inr ⟨request, found, canBeGranted_not_granted grantable, _, _,
        announceStatus_talks _ _ request _ "", ?_, rfl⟩
      exact (announceStatus_talks _ _ request _ "").trans (notifyForFloorRequest_talks _ request)
    · exact .inl rfl

theorem revokeOtherHolders_onlyEnds (floorRequestId : Int) (request : BFCPFloorRequest)
    : OnlyEnds turn (turn.revokeOtherHolders floorRequestId request) :=
  Ends.onlyEnds (@revokeOtherHolders_ends False turn (fun _ => True) _ _ fun _ => trivial)

theorem sendGoodbye_onlyEnds (userId : Int) : OnlyEnds turn (turn.sendGoodbye userId) :=
  (Talks.sameTables (@sendGoodbye_talks False turn userId)).onlyEnds

theorem denyFloorRequestLocked_onlyEnds (floorRequestId : Int) (statusInfo : String)
    : OnlyEnds turn (turn.denyFloorRequestLocked floorRequestId statusInfo).1 :=
  Ends.onlyEnds (@denyFloorRequestLocked_ends False (fun _ => True) _ _ _ fun _ _ => trivial)

theorem revokeFloorRequestLocked_onlyEnds (floorRequestId : Int) (statusInfo : String)
    : OnlyEnds turn (turn.revokeFloorRequestLocked floorRequestId statusInfo).1 :=
  Ends.onlyEnds (@revokeFloorRequestLocked_ends False (fun _ => True) _ _ _ fun _ _ => trivial)

variable (statusInfo : String)

theorem endFloorRequest_onlyEnds (floorRequestId : Int)
    : OnlyEnds turn (turn.endFloorRequest statusInfo floorRequestId) :=
  Ends.onlyEnds (@endFloorRequest_ends False (fun _ => True) _ _ _ fun _ _ => trivial)

/-- The statuses that revoking or denying puts an end to. -/
def canEnd (request : BFCPFloorRequest) : Bool := request.isGranted || request.canBeGranted

def CanEnd (turn : Turn) : Prop :=
  ∀ id request, turn.server.floorRequests.find? id = some request → canEnd request

def Unnamed (turn : Turn) (userId : Int) : Prop :=
  ∀ id request, turn.server.floorRequests.find? id = some request
    → request.userId ≠ userId ∧ request.beneficiaryId ≠ userId

variable {turn}

theorem revokeFloorRequestLocked_gone
    (found : turn.server.floorRequests.find? floorRequestId = some request)
    (granted : request.isGranted)
    : (turn.revokeFloorRequestLocked floorRequestId statusInfo).1.server.floorRequests.find?
        floorRequestId = none := by
  simp only [revokeFloorRequestLocked, found, granted, if_true]
  split <;> simp [eraseFloorRequest, notify]

theorem endFloorRequest_gone
    (ready : Stored (canEnd ·) turn floorRequestId)
    : (turn.endFloorRequest statusInfo floorRequestId).server.floorRequests.find?
        floorRequestId = none := by
  simp only [endFloorRequest]
  split
  · assumption
  · rename_i request found
    split
    · rename_i granted
      exact revokeFloorRequestLocked_gone statusInfo found granted
    · rename_i notGranted
      have deniable : request.canBeGranted := by
        simpa [canEnd, notGranted] using ready request found
      simp only [denyFloorRequestLocked, found, deniable, if_true]
      simp [eraseFloorRequest]

/-- A loop that ends one request an item ends them all, by induction on the items. -/
theorem foldl_gone {α : Type} (body : Turn → α → Turn) (key : α → Int)
    (ready : BFCPFloorRequest → Bool) (only : ∀ turn item, OnlyEnds turn (body turn item))
    (ends
      : ∀ turn item, Stored (ready ·) turn (key item)
        → (body turn item).server.floorRequests.find? (key item) = none)
    (items : List α) (turn : Turn) (all : ∀ item ∈ items, Stored (ready ·) turn (key item))
    : ∀ item ∈ items, (items.foldl body turn).server.floorRequests.find? (key item)
      = none := by
  induction items generalizing turn with
  | nil => simp
  | cons item rest ih =>
    have first := only turn item
    intro other member
    rcases mem_cons.mp member with same | later
    · subst same
      have now := ends turn other (all other mem_cons_self)
      exact (OnlyEnds.foldl only rest (body turn other)).gone now
    · refine ih (body turn item) ?_ other later
      intro next nextMember request found
      exact all next (mem_cons_of_mem item nextMember) request
        (first.kept _ request found)

theorem revokeUserFloorRequestsLocked_onlyEnds (turn : Turn) (userId : Int)
    : OnlyEnds turn (turn.revokeUserFloorRequestsLocked userId) :=
  .foldl (fun turn id => endFloorRequest_onlyEnds turn _ id) _ turn

theorem revokeUserFloorRequestsLocked_named (userId : Int) (live : turn.CanEnd)
    : (turn.revokeUserFloorRequestsLocked userId).Unnamed userId := by
  let ids :=
    (turn.server.floorRequests.entries.filter
      (fun entry => entry.2.beneficiaryId = userId || entry.2.userId = userId)).map Prod.fst
  have ended :=
    foldl_gone (endFloorRequest · "FloorRequests from this user have been revoked or denied")
      (fun id => id) canEnd (fun turn id => endFloorRequest_onlyEnds turn _ id)
      (fun turn id ready => endFloorRequest_gone _ ready) ids turn (fun id _ => live id)
  intro id request found
  by_contra named
  have stored := (revokeUserFloorRequestsLocked_onlyEnds turn userId).kept id request found
  have selected : id ∈ ids := by
    refine mem_map.mpr ⟨(id, request), mem_filter.mpr ⟨?_, ?_⟩, rfl⟩
    · exact find?_eq_some_iff.mp stored
    · simp only [Bool.or_eq_true, decide_eq_true_eq]
      tauto
  have absent := ended id selected
  exact Option.some_ne_none request (found.symm.trans absent)

theorem closeUserTransport_changesUser (turn : Turn) (userId : Int)
    : ChangesUser userId turn (turn.closeUserTransport userId) := by
  have unset := updateUser_changesUser turn userId ({ · with transport := none })
  exact { unset with }

theorem attachTransportLocked_changesUser (turn : Turn) (userId : Int) (transport : BFCPTransport)
    : ChangesUser userId turn (turn.attachTransportLocked userId transport) := by
  simp only [attachTransportLocked]
  split
  · exact (OnlyEnds.refl turn).changesUser userId
  · split
    · exact (OnlyEnds.refl turn).changesUser userId
    · refine ChangesUser.trans ?_ (updateUser_changesUser _ userId _)
      split
      · -- a takeover: the old connection goes with its subscriptions and its requests
        exact (updateUser_changesUser turn userId _).trans
          (((revokeUserFloorRequestsLocked_onlyEnds _ userId).changesUser userId).trans
            (closeUserTransport_changesUser _ userId))
      · exact (OnlyEnds.refl turn).changesUser userId

theorem attachTransportLocked_attached {user : BFCPUser} (transport : BFCPTransport)
    (found : turn.server.users.find? userId = some user)
    : ∃ attached,
      (turn.attachTransportLocked userId transport).server.users.find? userId = some attached
      ∧ attached.transport = some transport ∧ attached.userId = user.userId := by
  simp only [attachTransportLocked, found]
  split
  · rename_i same
    exact ⟨user, found, same, rfl⟩
  · split
    · simp [closeUserTransport, closeTransport,
        (revokeUserFloorRequestsLocked_onlyEnds _ userId).users, found]
    · simp [found]

theorem detachTransportLocked_changesUser (turn : Turn) (userId : Int)
    : ChangesUser userId turn (turn.detachTransportLocked userId) := by
  have unset :=
    updateUser_changesUser turn userId ({ · with transport := none, queriedFloorIds := [] })
  simp only [detachTransportLocked]
  split
  · exact unset
  · exact unset.trans ((revokeUserFloorRequestsLocked_onlyEnds _ userId).changesUser userId)

theorem detachTransportLocked_find? (turn : Turn) (userId : Int)
    : (turn.detachTransportLocked userId).server.users.find? userId
      = (turn.server.users.find? userId).map
          ({ · with transport := none, queriedFloorIds := [] }) := by
  simp only [detachTransportLocked]
  split
  · simp
  · rw [(revokeUserFloorRequestsLocked_onlyEnds _ userId).users]
    simp

/-- A detached user is named by no request any more, unless the conference has ended. -/
theorem detachTransportLocked_named (live : turn.CanEnd) (running : turn.server.ending = false)
    : (turn.detachTransportLocked userId).Unnamed userId := by
  have unset :=
    updateUser_changesUser turn userId ({ · with transport := none, queriedFloorIds := [] })
  have stillRunning := unset.ending.trans running
  rw [detachTransportLocked, if_neg (by simpa using stillRunning)]
  exact revokeUserFloorRequestsLocked_named userId
    (fun id request found => live id request (unset.kept id request found))

theorem removeUserLocked_changesUser (turn : Turn) (userId : Int) (goodbye : Bool)
    : ChangesUser userId turn (turn.removeUserLocked userId goodbye).1 := by
  simp only [removeUserLocked]
  split
  · exact (OnlyEnds.refl turn).changesUser userId
  · have revoked := (revokeUserFloorRequestsLocked_onlyEnds turn userId).changesUser userId
    have told :
        ChangesUser userId (turn.revokeUserFloorRequestsLocked userId)
          (if goodbye then (turn.revokeUserFloorRequestsLocked userId).sendGoodbye userId
            else turn.revokeUserFloorRequestsLocked userId) := by
      split
      · exact (sendGoodbye_onlyEnds _ userId).changesUser userId
      · exact (OnlyEnds.refl _).changesUser userId
    refine (revoked.trans (told.trans (closeUserTransport_changesUser _ userId))).trans ?_
    exact ⟨⟨rfl, rfl, fun id request found => found⟩, fun id other => by simp [other]⟩

theorem removeUserLocked_named {user : BFCPUser} (goodbye : Bool) (live : turn.CanEnd)
    (found : turn.server.users.find? userId = some user)
    : (turn.removeUserLocked userId goodbye).1.Unnamed userId := by
  intro id request stored
  refine revokeUserFloorRequestsLocked_named userId live id request ?_
  simp only [removeUserLocked, found] at stored
  have kept := (closeUserTransport_changesUser _ userId).kept id request stored
  split at kept
  · exact (sendGoodbye_onlyEnds _ userId).kept id request kept
  · exact kept

theorem removeUserLocked_find? (turn : Turn) (userId : Int) (goodbye : Bool)
    : (turn.removeUserLocked userId goodbye).1.server.users.find? userId = none := by
  simp only [removeUserLocked]
  split
  · assumption
  · simp

end MediaServer.Bfcp.Turn
