import MediaServer.Bfcp.Announcements
import MediaServer.Bfcp.SharedDocMixer

/-! The mixer's notes against the floor control server: who shares is who the floor was granted
to, and every request that is noted still exists. Both hold along the runs in which the server
announces the end of what is noted.
-/

namespace MediaServer.Bfcp

open Foundation Turn.Talks Turn BFCPFloorControlServer OrderedMap List

namespace SharedDocMixer

structure Agrees (mixer : SharedDocMixer) : Prop where
  sharing
    : ∀ partId, mixer.sharing = some partId
      ↔ mixer.conf.has partId ∧ ∃ server id request, mixer.bfcpServer = some server
          ∧ server.floorRequests.find? id = some request
          ∧ request.isGranted ∧ request.hasFloorId floorId ∧ request.beneficiaryId = partId
  noted
    : ∀ partId id, mixer.floorRequests.find? partId = some id
      → ∃ server request, mixer.bfcpServer = some server
          ∧ server.floorRequests.find? id = some request

def releases (partId : Int) : Notification → Bool
  | .onFloorReleased _ beneficiaryId _ => beneficiaryId = partId
  | _ => false

/-- The operation ends the request, if it is there. A sender that is a chair can end all. -/
def ends (server : BFCPFloorControlServer) (op : Op) (request : BFCPFloorRequest) : Bool :=
  let names (userId : Int) : Bool := request.userId = userId || request.beneficiaryId = userId
  match op with
  | .removeUser userId => names userId
  | .grantFloorRequest id => request.isGranted && request.floorRequestId ≠ id
  | .denyFloorRequest id _ | .revokeFloorRequest id _ => request.floorRequestId = id
  | .userConnected userId transport =>
    (server.users.find? userId).any (fun user =>
      user.isConnected && user.transport ≠ some transport && names userId)
  | .userDisconnected userId transport =>
    (server.users.find? userId).any (fun user => user.transport = some transport && names userId)
  | .transportClosed transport =>
    (server.users.entries.find? (fun entry => entry.2.transport = some transport)).any
      (fun entry => names entry.1)
  | .messageReceived msg source =>
    !server.turnsDown msg source && (server.users.find? msg.userId).any (fun user =>
      user.isChair || match msg.body with
        | .hello => user.isConnected && user.transport ≠ some source && names msg.userId
        | .floorRelease id => request.floorRequestId = id && names msg.userId
        | .goodbye => names msg.userId
        | _ => false)
  | _ => false

/-- The operation ends nothing that is noted, unless it was granted to the participant that it is
noted for.
-/
def spares (mixer : SharedDocMixer) (op : Op) (except : Option Int) : Bool :=
  mixer.bfcpServer.all (fun server => mixer.floorRequests.entries.all (fun entry =>
    some entry.1 = except || (server.floorRequests.find? entry.2).all (fun request =>
      (request.isGranted && request.beneficiaryId = entry.1) || !ends server op request)))

def canStop (mixer : SharedDocMixer) : Bool :=
  mixer.sharing.all (fun partId => (mixer.floorRequests.find? partId).isSome)

def canStopFor (mixer : SharedDocMixer) (partId : Int) : Bool :=
  mixer.sharing != some partId || mixer.canStop

/-- The steps that keep the notes right. -/
def permits (mixer : SharedDocMixer) : SharingEvent → Bool
  | .accept partId => mixer.spares (.grantFloorRequest (mixer.getFloorRequestId partId)) none
  | .stopSharing => mixer.canStop
  | .stopSharingOf partId => mixer.canStopFor partId
  | .deleteParticipant partId =>
    mixer.canStopFor partId && mixer.spares (.removeUser partId) (some partId)
  | .received message source => mixer.spares (.messageReceived message.msg.toServer source) none
  | .userConnected userId transport => mixer.spares (.userConnected userId transport) none
  | .userDisconnected userId transport => mixer.spares (.userDisconnected userId transport) none
  | .transportClosed transport => mixer.spares (.transportClosed transport) none
  | .create _ | .addParticipant .. | .refuse _ | .setSharedMosaic _ => true

/-- Who holds the floor, as far as the participants still exist. -/
def Shows (mixer : SharedDocMixer) (grants : Grants) : Prop :=
  ∀ partId, mixer.sharing = some partId
    ↔ mixer.conf.has partId ∧ ∃ id floorIds, grants id = some (partId, floorIds)

structure Single (grants : Grants) : Prop where
  shared : ∀ id partId floorIds, grants id = some (partId, floorIds) → floorId ∈ floorIds
  one
    : ∀ id other entry another, grants id = some entry → grants other = some another
      → id = other

/-! Notifications. -/

variable {partId : Int} {mixer : SharedDocMixer} {server : BFCPFloorControlServer}

theorem sharing_eq_some
    : mixer.sharing = some partId ↔ mixer.part = some partId ∧ mixer.conf.has partId := by
  rw [sharing, Option.filter_eq_some_iff]

/-- The mixer differs at most in who shares, in its notes and in what it told. -/
structure SameSetting (before after : SharedDocMixer) : Prop where
  existing : after.conf.participants = before.conf.participants
  maxId : after.conf.maxId = before.conf.maxId
  enrolled : after.participants = before.participants
  part
    : ∀ partId, after.part = some partId
      → before.part = some partId ∨ (before.participants.find? partId).isSome

namespace SameSetting

theorem refl (mixer : SharedDocMixer) : SameSetting mixer mixer :=
  ⟨rfl, rfl, rfl, fun _ same => .inl same⟩

theorem trans {first second third : SharedDocMixer} (left : SameSetting first second)
    (right : SameSetting second third)
    : SameSetting first third where
  existing := right.existing.trans left.existing
  maxId := right.maxId.trans left.maxId
  enrolled := right.enrolled.trans left.enrolled
  part := by
    intro partId shares
    rcases right.part partId shares with earlier | enrolled
    · exact left.part partId earlier
    · exact .inr (left.enrolled ▸ enrolled)

theorem has {before after : SharedDocMixer} (same : SameSetting before after) (partId : Int)
    : after.conf.has partId = before.conf.has partId := by
  simp only [MultiConf.has, same.existing]

end SameSetting

/-- Where nobody shares, the participant of the grant does afterwards, if it exists. -/
theorem onFloorGranted_spec {beneficiaryId : Int} (idle : mixer.sharing = none)
    (enrolled : (mixer.participants.find? beneficiaryId).isSome = true)
    : SameSetting mixer (mixer.onFloorGranted beneficiaryId)
      ∧ (mixer.onFloorGranted beneficiaryId).bfcpServer = mixer.bfcpServer
      ∧ (mixer.onFloorGranted beneficiaryId).floorRequests = mixer.floorRequests
      ∧ ∀ partId, (mixer.onFloorGranted beneficiaryId).sharing = some partId
          ↔ mixer.conf.has partId ∧ partId = beneficiaryId := by
  cases exists_ : mixer.conf.has beneficiaryId with
  | false =>
    have gone : mixer.onFloorGranted beneficiaryId = mixer := by
      simp [onFloorGranted, getParticipant, exists_]
    rw [gone, idle]
    refine ⟨.refl mixer, rfl, rfl, ?_⟩
    intro partId
    constructor
    · nofun
    · rintro ⟨here, rfl⟩
      rw [exists_] at here
      cases here
  | true =>
    have shared : mixer.onFloorGranted beneficiaryId
        = { mixer with
            part := some beneficiaryId
            conf :=
              (mixer.conf.startPresentation beneficiaryId).onRequestDocSharing beneficiaryId
                .active } := by
      simp [onFloorGranted, getParticipant, exists_, enrolled, shareSecondaryStream, idle]
    rw [shared]
    refine ⟨⟨rfl, rfl, rfl, ?_⟩, rfl, rfl, ?_⟩
    · rintro partId ⟨⟩
      exact .inr enrolled
    · intro partId
      rw [sharing_eq_some]
      constructor
      · rintro ⟨⟨⟩, here⟩
        exact ⟨here, rfl⟩
      · rintro ⟨here, rfl⟩
        exact ⟨rfl, here⟩

theorem onFloorReleased_spec {beneficiaryId : Int}
    (holder : ∀ partId, mixer.sharing = some partId → partId = beneficiaryId)
    : SameSetting mixer (mixer.onFloorReleased beneficiaryId)
      ∧ (mixer.onFloorReleased beneficiaryId).bfcpServer = mixer.bfcpServer
      ∧ (mixer.onFloorReleased beneficiaryId).floorRequests
        = mixer.floorRequests.erase beneficiaryId
      ∧ (mixer.onFloorReleased beneficiaryId).sharing = none := by
  simp only [onFloorReleased]
  split_ifs with shares
  · simp only [tearDownSharing, shares, MultiConf.stopPresentation]
    split <;> exact ⟨⟨rfl, rfl, rfl, nofun⟩, trivial, trivial, rfl⟩
  · refine ⟨⟨rfl, rfl, rfl, fun _ same => .inl same⟩, rfl, rfl, ?_⟩
    rw [Option.eq_none_iff_forall_ne_some]
    intro partId other
    have same : mixer.sharing = some partId := other
    cases holder partId same
    exact shares same

def SameServer (server : BFCPFloorControlServer) (after : Option BFCPFloorControlServer) : Prop :=
  ∃ transactionCounter, after = some { server with transactionCounter }

theorem notifyFloorStatus_spec (same : SameServer server mixer.bfcpServer) (userId : Int)
    : ∃ transactionCounter,
        mixer.notifyFloorStatus userId
          = { mixer with bfcpServer := some { server with transactionCounter } } := by
  obtain ⟨counter, eq⟩ := same
  obtain ⟨next, told⟩ := sameTables (@notifyFloorStatus_talks False
    { server := { server with transactionCounter := counter } } userId floorId)
  refine ⟨next, ?_⟩
  simp only [notifyFloorStatus, eq, Option.map_some, told]

theorem setSharedMosaic_spec (same : SameServer server mixer.bfcpServer) (mosaicId : Int)
    : ∃ transactionCounter,
        mixer.setSharedMosaic mosaicId
          = { mixer with
              sharedMosaic := mosaicId
              bfcpServer := some { server with transactionCounter } } := by
  simp only [setSharedMosaic]
  split
  · obtain ⟨counter, eq⟩ := same
    exact ⟨counter, by rw [eq]⟩
  · exact @notifyFloorStatus_spec { mixer with sharedMosaic := mosaicId } server same _

theorem onUserConnected_spec (same : SameServer server mixer.bfcpServer) (userId : Int)
    : ∃ transactionCounter,
        mixer.onUserConnected userId
          = { mixer with bfcpServer := some { server with transactionCounter } } := by
  simp only [onUserConnected]
  split_ifs
  · obtain ⟨counter, eq⟩ := same
    exact ⟨counter, by rw [← eq]⟩
  · obtain ⟨counter, eq⟩ := setSharedMosaic_spec same mixer.sharedMosaic
    rw [eq]
    exact notifyFloorStatus_spec ⟨counter, rfl⟩ userId

/-- The mixer after some notifications: it shows the grants that they lead to, and what it has
noted was noted before and not released since.
-/
structure Follows (mixer : SharedDocMixer) (server : BFCPFloorControlServer)
    (news : List Notification) (now : Grants) (after : SharedDocMixer) : Prop where
  setting : SameSetting mixer after
  server : SameServer server after.bfcpServer
  shows : Shows after now
  noted
    : ∀ partId id, after.floorRequests.find? partId = some id
      → mixer.floorRequests.find? partId = some id
        ∧ ∀ notification ∈ news, releases partId notification = false

variable {grants : Grants}

theorem Shows.idle (shows : Shows mixer grants) (free : ∀ id, grants id = none)
    : mixer.sharing = none := by
  rw [Option.eq_none_iff_forall_ne_some]
  intro partId shares
  obtain ⟨-, id, floorIds, held⟩ := (shows partId).mp shares
  rw [free id] at held
  cases held

theorem Single.released (single : Single grants) {id : Int} {entry : Int × List Int}
    (held : grants id = some entry) (other : Int)
    : Function.update grants id none other = none := by
  rw [Function.update_apply]
  split_ifs with eq
  · rfl
  · rw [Option.eq_none_iff_forall_ne_some]
    intro another found
    exact eq (single.one other id another entry found held)

theorem update_eq_some (free : ∀ id, grants id = none) {id other : Int}
    {entry found : Int × List Int}
    : Function.update grants id (some entry) other = some found ↔ other = id ∧ found = entry := by
  rw [Function.update_apply]
  split_ifs with same
  · simp [same, eq_comm]
  · simp [same, free]

theorem Single.of_none (free : ∀ id, grants id = none) : Single grants where
  shared := fun id partId floorIds found => by simp [free] at found
  one := fun id other entry another found => by simp [free] at found

namespace Follows

variable {after : SharedDocMixer} {news : List Notification} {now : Grants}

section

variable (follows : Follows mixer server news now after)
include follows

/-- What was noted is noted, also after one more notification that does not release it. -/
theorem noted_append {id : Int} (found : after.floorRequests.find? partId = some id)
    {notification : Notification} (kept : releases partId notification = false)
    : mixer.floorRequests.find? partId = some id
      ∧ ∀ other ∈ news ++ [notification], releases partId other = false := by
  obtain ⟨earlier, before⟩ := follows.noted partId id found
  refine ⟨earlier, fun other member => ?_⟩
  rcases mem_append.mp member with old | last
  · exact before other old
  · exact mem_singleton.mp last ▸ kept

theorem released (single : Single now) {id beneficiaryId : Int} {floorIds : List Int}
    (held : now id = some (beneficiaryId, floorIds))
    : Follows mixer server (news ++ [.onFloorReleased id beneficiaryId floorIds])
        (Function.update now id none)
        (after.notify (.onFloorReleased id beneficiaryId floorIds)) := by
  have holder : ∀ partId, after.sharing = some partId → partId = beneficiaryId := by
    intro partId shares
    obtain ⟨-, other, floors, found⟩ := (follows.shows partId).mp shares
    cases single.one other id _ _ found held
    rw [held] at found
    cases found
    rfl
  obtain ⟨setting, server_eq, notes, idle⟩ := onFloorReleased_spec holder
  refine ⟨follows.setting.trans setting, server_eq ▸ follows.server, ?_, ?_⟩
  · intro partId
    constructor
    · intro shares
      exact absurd (idle.symm.trans shares) nofun
    · rintro ⟨-, other, floors, found⟩
      rw [single.released held] at found
      cases found
  · intro partId number found
    replace found : (after.onFloorReleased beneficiaryId).floorRequests.find? partId
      = some number := found
    rw [notes, find?_erase_eq_some] at found
    exact follows.noted_append found.2 (by simpa [releases] using found.1.symm)

theorem granted {id beneficiaryId : Int} {floorIds : List Int} (unheld : ∀ other, now other = none)
    (enrolled : (mixer.participants.find? beneficiaryId).isSome = true)
    : Follows mixer server (news ++ [.onFloorGranted id beneficiaryId floorIds])
        (Function.update now id (some (beneficiaryId, floorIds)))
        (after.notify (.onFloorGranted id beneficiaryId floorIds)) := by
  obtain ⟨setting, server_eq, notes, shares⟩ :=
    onFloorGranted_spec (follows.shows.idle unheld)
      (by rw [follows.setting.enrolled]; exact enrolled)
  refine ⟨follows.setting.trans setting, server_eq ▸ follows.server, ?_, ?_⟩
  · intro partId
    refine (shares partId).trans ?_
    rw [← setting.has partId]
    refine and_congr_right (fun _ => ?_)
    constructor
    · rintro rfl
      exact ⟨id, floorIds, Function.update_self ..⟩
    · rintro ⟨other, floors, found⟩
      cases ((update_eq_some unheld).mp found).2
      rfl
  · intro partId number found
    replace found : (after.onFloorGranted beneficiaryId).floorRequests.find? partId
      = some number := found
    rw [notes] at found
    exact follows.noted_append found rfl

theorem connected (userId : Int)
    : Follows mixer server (news ++ [.onUserConnected userId]) now
        (after.notify (.onUserConnected userId)) := by
  obtain ⟨counter, eq⟩ := onUserConnected_spec follows.server userId
  have notified : after.notify (.onUserConnected userId) = _ := eq
  rw [notified]
  exact ⟨follows.setting.trans ⟨rfl, rfl, rfl, fun _ same => .inl same⟩, ⟨counter, rfl⟩,
    follows.shows, fun _ _ found => follows.noted_append found rfl⟩

end

end Follows

/-- The mixer follows what is announced, notification after notification. -/
theorem follows_of_announced {may : Int → List Int → Prop} {start now : Grants}
    {news : List Notification} (announced : Announced may start news now) (single : Single start)
    (allowed
      : ∀ beneficiaryId floorIds, may beneficiaryId floorIds
        → floorId ∈ floorIds ∧ (mixer.participants.find? beneficiaryId).isSome = true)
    (shows : Shows mixer start) (same : SameServer server mixer.bfcpServer)
    : Single now ∧ Follows mixer server news now (news.foldl notify mixer) := by
  induction announced with
  | nothing =>
    exact ⟨single, .refl mixer, same, shows, fun _ _ found => ⟨found, nofun⟩⟩
  | released _ held ih =>
    obtain ⟨single, follows⟩ := ih
    rw [foldl_append]
    exact ⟨.of_none (single.released held), follows.released single held⟩
  | @granted news now id beneficiaryId floorIds _ pending free may ih =>
    obtain ⟨single, follows⟩ := ih
    rw [foldl_append]
    obtain ⟨shared, enrolled⟩ := allowed beneficiaryId floorIds may
    -- whoever held a floor held this one
    have unheld : ∀ other, now other = none := by
      intro other
      rw [Option.eq_none_iff_forall_ne_some]
      rintro ⟨holder, held⟩ found
      exact free other holder held found floorId shared (single.shared other holder held found)
    refine ⟨⟨?_, ?_⟩, follows.granted unheld enrolled⟩
    · intro other partId floors found
      cases ((update_eq_some unheld).mp found).2
      exact shared
    · intro other another entry next found foundNext
      exact ((update_eq_some unheld).mp found).1.trans ((update_eq_some unheld).mp foundNext).1.symm
  | connected _ ih =>
    obtain ⟨single, follows⟩ := ih
    rw [foldl_append]
    exact ⟨single, follows.connected _⟩

/-! Operations of the server. -/

structure ServerReady (server : BFCPFloorControlServer) : Prop where
  invariant : Invariant server
  numbered : server.Numbered
  running : server.ending = false
  floors : ∀ id, server.hasFloor id → id = floorId
  requests
    : ∀ id request, server.floorRequests.find? id = some request → request.hasFloorId floorId

def ForShared (floorIds : OrderedMap Int Unit) : Prop := (floorIds.find? floorId).isSome = true

namespace ServerReady

theorem single (ready : ServerReady server) : Single server.grants := by
  refine ⟨?_, ?_⟩
  · intro id partId floorIds held
    obtain ⟨request, found, -, ⟨⟩⟩ := grants_eq_some.mp held
    exact mem_keys.mpr (ready.requests id request found)
  · intro id other entry another held heldToo
    obtain ⟨left, foundLeft, grantedLeft, -⟩ := grants_eq_some.mp held
    obtain ⟨right, foundRight, grantedRight, -⟩ := grants_eq_some.mp heldToo
    exact ready.invariant.exclusive floorId id other left right foundLeft foundRight grantedLeft
      grantedRight (ready.requests id left foundLeft) (ready.requests other right foundRight)

theorem of_sameServer (ready : ServerReady server) {after : BFCPFloorControlServer}
    (same : SameServer server (some after))
    : ServerReady after := by
  obtain ⟨counter, eq⟩ := same
  cases eq
  have invariant := @Invariant.of_onlyEnds { server }
    { server := { server with transactionCounter := counter } } ready.invariant
    (Turn.SameTables.onlyEnds ⟨counter, rfl⟩)
  exact { ready with invariant, numbered := { ready.numbered with } }

theorem of_advances (ready : ServerReady server) {turn : Turn}
    (advances : Turn.Advances ForShared { server } turn) (invariant : Invariant turn.server)
    : ServerReady turn.server where
  invariant := invariant
  numbered := advances.numbered ready.numbered
  running := advances.running ready.running
  floors := by
    intro id has
    refine ready.floors id ?_
    simpa [hasFloor, advances.floors] using has
  requests := by
    intro id request found
    rcases advances.requests id request found with ⟨old, stored, -, same⟩ | ⟨-, -, new⟩
    · have named := ready.requests id old stored
      rwa [BFCPFloorRequest.hasFloorId, ← same] at named
    · exact new

end ServerReady

def grantsOf (server : Option BFCPFloorControlServer) : Grants := fun id =>
  server.bind (fun server => server.grants id)

theorem grantsOf_sameServer {after : Option BFCPFloorControlServer} (same : SameServer server after)
    : grantsOf after = server.grants := by
  obtain ⟨counter, rfl⟩ := same
  rfl

/-- The agreement with what its preservation rests on: the server is ready, its users are
enrolled, a request is noted for who made it, and all numbers have been given. One participant
may be about to be forgotten.
-/
structure Good (except : Option Int) (mixer : SharedDocMixer) : Prop where
  ready : ∀ server, mixer.bfcpServer = some server → ServerReady server
  enrolled
    : ∀ server, mixer.bfcpServer = some server → ∀ userId, server.users.find? userId ≠ none
      → (mixer.participants.find? userId).isSome = true
  shows : Shows mixer (grantsOf mixer.bfcpServer)
  noted
    : ∀ partId id, mixer.floorRequests.find? partId = some id → some partId ≠ except
      → ∃ server request, mixer.bfcpServer = some server
          ∧ server.floorRequests.find? id = some request ∧ request.userId = partId
  givenPart : ∀ partId, mixer.part = some partId → partId < mixer.conf.maxId
  givenEnrolled
    : ∀ partId, (mixer.participants.find? partId).isSome = true → partId < mixer.conf.maxId
  givenExisting : ∀ partId, mixer.conf.has partId = true → partId < mixer.conf.maxId

theorem Good.agrees (good : Good none mixer) : Agrees mixer where
  sharing := by
    intro partId
    refine (good.shows partId).trans (and_congr_right (fun _ => ?_))
    constructor
    · rintro ⟨id, floorIds, held⟩
      obtain ⟨server, here, held⟩ := Option.bind_eq_some_iff.mp held
      obtain ⟨request, found, granted, ⟨⟩⟩ := grants_eq_some.mp held
      exact ⟨server, id, request, here, found, granted,
        (good.ready server here).requests id request found, rfl⟩
    · rintro ⟨server, id, request, here, found, granted, -, rfl⟩
      refine ⟨id, request.floorIds.keys, ?_⟩
      simp only [grantsOf, here, Option.bind_some]
      exact grants_of_granted found granted
  noted := by
    intro partId id found
    obtain ⟨server, request, here, stored, -⟩ := good.noted partId id found nofun
    exact ⟨server, request, here, stored⟩

variable {except : Option Int}

theorem Good.noted_here (good : Good except mixer) (here : mixer.bfcpServer = some server)
    {id : Int} (found : mixer.floorRequests.find? partId = some id) (other : some partId ≠ except)
    : ∃ request, server.floorRequests.find? id = some request ∧ request.userId = partId := by
  obtain ⟨_, request, same, stored, own⟩ := good.noted partId id found other
  cases here.symm.trans same
  exact ⟨request, stored, own⟩

theorem Good.shows_here (good : Good except mixer) (here : mixer.bfcpServer = some server)
    : Shows mixer server.grants := by
  have before := good.shows
  rwa [grantsOf_sameServer ⟨_, here⟩] at before

variable {turn : Turn}

/-- Every request that is noted is still there, unless a release tells the mixer to forget the
participant that it is noted for.
-/
def tells (mixer : SharedDocMixer) (turn : Turn) (except : Option Int) : Bool :=
  mixer.floorRequests.entries.all (fun entry =>
    some entry.1 = except || (turn.server.floorRequests.find? entry.2).isSome
      || turn.pending.any (releases entry.1))

section

variable (good : Good none mixer) (here : mixer.bfcpServer = some server)
  (advances : Turn.Advances ForShared { server } turn)
include good here advances

/-- What is noted and neither excepted nor released is still there, with its requester. -/
theorem noted_survives (told : mixer.tells turn except = true) {partId id : Int}
    (unreleased : ∀ notification ∈ turn.pending, releases partId notification = false)
    (found : mixer.floorRequests.find? partId = some id) (other : some partId ≠ except)
    : ∃ request, turn.server.floorRequests.find? id = some request
        ∧ request.userId = partId := by
  obtain ⟨request, stored, own⟩ := good.noted_here here found nofun
  simp only [tells, all_eq_true] at told
  have told := told (partId, id) (find?_eq_some_iff.mp found)
  simp only [Bool.or_eq_true, decide_eq_true_eq, any_eq_true] at told
  rcases told with (excepted | kept) | ⟨notification, member, released⟩
  · exact absurd excepted other
  · obtain ⟨later, survives⟩ := Option.isSome_iff_exists.mp kept
    refine ⟨later, survives, ?_⟩
    rcases advances.requests id later survives with ⟨old, before, same, -⟩ | ⟨low, -, -⟩
    · rw [stored] at before
      cases before
      exact same.trans own
    · have given := ((good.ready server here).numbered.given id request stored).2
      exact absurd given (not_lt.mpr low)
  · rw [unreleased notification member] at released
    cases released

/-- The mixer follows a locked section that tells of the grants. -/
theorem fire_follows
    : Follows mixer turn.server turn.pending turn.server.grants (mixer.fire turn) := by
  have ready := good.ready server here
  obtain ⟨news, pending, told⟩ := advances.announced ready.running
  rw [nil_append] at pending
  have shows : Shows { mixer with bfcpServer := some turn.server } server.grants :=
    good.shows_here here
  have allowed : ∀ beneficiaryId floorIds,
      Turn.MayGrant ForShared { server } beneficiaryId floorIds
      → floorId ∈ floorIds ∧ (mixer.participants.find? beneficiaryId).isSome = true := by
    rintro beneficiaryId _ ⟨known, floors, rfl, cause⟩
    refine ⟨?_, good.enrolled server here beneficiaryId known⟩
    rcases cause with new | ⟨id, request, stored, rfl⟩
    · exact mem_keys.mpr new
    · exact mem_keys.mpr (ready.requests id request stored)
  obtain ⟨-, follows⟩ :=
    @follows_of_announced { mixer with bfcpServer := some turn.server } turn.server _ _ _ _ told
      ready.single allowed shows ⟨_, rfl⟩
  rw [fire, pending]
  exact { follows with setting := { follows.setting with } }

/-- A locked section that tells of the grants and of what is noted keeps the agreement. -/
theorem fire_good (invariant : Invariant turn.server) (told : mixer.tells turn except = true)
    : Good except (mixer.fire turn) := by
  have after := (good.ready server here).of_advances advances invariant
  have follows := fire_follows good here advances
  refine ⟨?_, ?_, ?_, ?_, ?_, ?_, ?_⟩
  · intro last lastHere
    exact after.of_sameServer (lastHere ▸ follows.server)
  · intro last lastHere userId known
    obtain ⟨counter, eq⟩ := follows.server
    rw [lastHere] at eq
    cases eq
    rw [follows.setting.enrolled]
    exact good.enrolled server here userId (mt (advances.users userId) known)
  · rw [grantsOf_sameServer follows.server]
    exact follows.shows
  · intro partId id found other
    obtain ⟨earlier, unreleased⟩ := follows.noted partId id found
    obtain ⟨request, survives, own⟩ :=
      noted_survives good here advances told unreleased earlier other
    obtain ⟨counter, eq⟩ := follows.server
    exact ⟨_, request, eq, survives, own⟩
  · intro partId shares
    rw [follows.setting.maxId]
    rcases follows.setting.part partId shares with earlier | enrolled
    · exact good.givenPart partId earlier
    · exact good.givenEnrolled partId enrolled
  · intro partId enrolled
    rw [follows.setting.maxId]
    rw [follows.setting.enrolled] at enrolled
    exact good.givenEnrolled partId enrolled
  · intro partId existing
    rw [follows.setting.maxId]
    rw [follows.setting.has] at existing
    exact good.givenExisting partId existing

end

/-! What an operation leaves alone. -/

/-- A request that is not granted outlives the revocations of a grant. -/
theorem revokeOtherHolders_keeps {id : Int} {request : BFCPFloorRequest} (number : Int)
    (granted : BFCPFloorRequest) (waiting : request.isGranted = false)
    (stored : turn.server.floorRequests.find? id = some request)
    : (turn.revokeOtherHolders number granted).server.floorRequests.find? id = some request := by
  simp only [revokeOtherHolders]
  refine List.foldlRecOn (motive := fun after : Turn =>
    after.server.floorRequests.find? id = some request) _ _ stored ?_
  intro turn still other _
  rcases @revokeFloorRequestLocked_cases False turn other.floorRequestId "granted to other user"
    with unchanged | ⟨revoked, middle, found, isGranted, told, eq⟩
  · rwa [unchanged]
  · have different : id ≠ other.floorRequestId := by
      rintro rfl
      cases still.symm.trans found
      cases waiting.symm.trans isGranted
    rw [eq]
    exact (eraseFloorRequest_find? told.sameTables _).trans (by rw [if_neg different, still])

section

variable (ready : ServerReady server) {op : Op} {id : Int} {request : BFCPFloorRequest}
include ready

theorem mayTouch_ends (noGrant : ∀ id, op ≠ .grantFloorRequest id)
    : MayTouch (fun request => ends server op request = true) server op := by
  cases op with
  | grantFloorRequest id => exact absurd rfl (noGrant id)
  | addUser | setChair | addFloor | notifyFloorStatus | endConference => trivial
  | removeUser userId => exact fun request named => by simpa [ends, Names] using named
  | denyFloorRequest id _ | revokeFloorRequest id _ =>
    exact fun request found => by simp [ends, ready.invariant.keyed id request found]
  | userConnected userId transport =>
    exact fun user found connected other request named => by
      simpa [ends, found, connected, other, Names] using named
  | userDisconnected userId transport =>
    exact fun user found same request named => by simpa [ends, found, same, Names] using named
  | transportClosed transport =>
    exact fun entry found request named => by simpa [ends, found, Names] using named
  | messageReceived msg source =>
    intro accepted user found
    have isUser := ready.invariant.userKeyed msg.userId user found
    rw [isUser]
    refine ⟨fun body connected other request named => ?_, fun id request body stored asked => ?_,
      fun body request named => ?_, fun chair request => ?_⟩
    · simpa [ends, accepted, found, body, connected, other, Names] using .inr named
    · have key := ready.invariant.keyed id request stored
      simpa [ends, accepted, found, body, key, Names] using asked
    · simpa [ends, accepted, found, body, Names] using .inr named
    · simp [ends, accepted, found, chair]

theorem survives (listed : OfListener op) (stored : server.floorRequests.find? id = some request)
    (spared : ends server op request = false)
    : ((Turn.apply { server } op).server.floorRequests.find? id).isSome = true := by
  by_cases grants : ∃ number, op = .grantFloorRequest number
  · obtain ⟨number, rfl⟩ := grants
    simp only [Turn.apply, grantFloorRequest, ready.running, Bool.false_eq_true, if_false]
    rcases grantFloorRequestLocked_cases False { server } number
      with unchanged | ⟨granted, found, waiting, granting⟩
    · simp [unchanged, stored]
    · rw [granting.stores.table]
      split_ifs with same
      · rfl
      · have pending : request.isGranted = false := by
          simpa [ends, ready.invariant.keyed id request stored, same] using spared
        rw [revokeOtherHolders_keeps number granted pending stored]
        rfl
  · have changes := @apply_changes _ { server } op (by rintro rfl; exact listed)
      (mayTouch_ends ready (fun number same => grants ⟨number, same⟩))
    have kept := changes.keeps ready.numbered (by simp [spared]) stored
    exact Option.isSome_of_eq_some kept

end

/-- An operation that spares what is noted tells of what it ends. -/
theorem tells_of_spares (good : Good none mixer) (here : mixer.bfcpServer = some server) {op : Op}
    (listed : OfListener op) (spared : mixer.spares op except = true)
    (advances : Turn.Advances ForShared { server } turn)
    (same : turn.server = (Turn.apply { server } op).server)
    : mixer.tells turn except = true := by
  have ready := good.ready server here
  simp only [spares, here, Option.all_some, all_eq_true] at spared
  simp only [tells, all_eq_true]
  rintro ⟨partId, id⟩ member
  obtain ⟨request, stored, -⟩ := good.noted_here here (find?_eq_some_iff.mpr member) nofun
  have spared := spared (partId, id) member
  simp only [stored, Option.all_some, Bool.or_eq_true, Bool.and_eq_true, decide_eq_true_eq,
    Bool.not_eq_true'] at spared
  simp only [Bool.or_eq_true, decide_eq_true_eq, any_eq_true]
  rcases spared with excepted | ⟨granted, own⟩ | left
  · exact .inl (.inl excepted)
  · obtain ⟨news, pending, told⟩ := advances.announced ready.running
    rw [nil_append] at pending
    rcases told.held_or_released (grants_of_granted stored granted) with held | released
    · obtain ⟨later, found, -⟩ := grants_eq_some.mp held
      exact .inl (.inr (by rw [found]; rfl))
    · exact .inr ⟨_, pending ▸ released, by simpa [releases] using own⟩
  · rw [same]
    exact .inl (.inr (survives ready listed stored left))

/-- Only the participant that made a request has it noted. -/
theorem Good.noted_once (good : Good none mixer)
    {first second id : Int} (left : mixer.floorRequests.find? first = some id)
    (right : mixer.floorRequests.find? second = some id)
    : first = second := by
  obtain ⟨server, request, here, stored, own⟩ := good.noted first id left nofun
  obtain ⟨again, storedToo, ownToo⟩ := good.noted_here here right nofun
  cases stored.symm.trans storedToo
  exact own.symm.trans ownToo

/-- A revocation does nothing, or ends one granted request and announces its release. -/
theorem revokeFloorRequestLocked_spec
    (running : server.ending = false) (id : Int) (statusInfo : String)
    : let after := (revokeFloorRequestLocked { server } id statusInfo).1
      after = { server }
      ∨ ∃ request, server.floorRequests.find? id = some request ∧ request.isGranted
          ∧ (∀ other, after.server.floorRequests.find? other
              = if other = id then none else server.floorRequests.find? other)
          ∧ after.pending
            = [.onFloorReleased id request.beneficiaryId request.floorIds.keys] := by
  refine (@revokeFloorRequestLocked_cases False { server } id statusInfo).imp_right ?_
  rintro ⟨request, middle, found, granted, told, eq⟩
  refine ⟨request, found, granted, ?_, ?_⟩
  · rw [eq]
    exact eraseFloorRequest_find? (sameTables told)
  · rw [eq, running]
    exact congrArg (· ++ _) (pending told)

theorem revoke_advances (server : BFCPFloorControlServer) (id : Int) (statusInfo : String)
    : Turn.Advances ForShared { server } (revokeFloorRequestLocked { server } id statusInfo).1 :=
  Turn.Ends.advances (@revokeFloorRequestLocked_ends False (fun _ => True) id statusInfo
    { server } (fun _ _ => trivial))

section

variable (good : Good none mixer) {id : Int} (shares : mixer.sharing = some partId)
  (noted : mixer.floorRequests.find? partId = some id) (here : mixer.bfcpServer = some server)
  (statusInfo : String)
include good shares noted here

/-- The request of the one that shares can be revoked: if it is the granted one, its release
is announced for this participant.
-/
theorem tells_revoke
    : mixer.tells (revokeFloorRequestLocked { server } id statusInfo).1 none = true := by
  have ready := good.ready server here
  simp only [tells, all_eq_true]
  rintro ⟨other, number⟩ member
  have found := find?_eq_some_iff.mpr member
  obtain ⟨earlier, kept, -⟩ := good.noted_here here found nofun
  rcases revokeFloorRequestLocked_spec ready.running id statusInfo with
    unchanged | ⟨revoked, granted, isGranted, table, pending⟩
  · simp [unchanged, kept]
  · by_cases eq : number = id
    · rw [eq] at found
      cases good.noted_once noted found
      -- the granted request is the one that is shown
      obtain ⟨-, holder, floorIds, held⟩ := (good.shows_here here partId).mp shares
      have holds := grants_of_granted granted isGranted
      cases ready.single.one holder id _ _ held holds
      rw [held] at holds
      cases holds
      simp [pending, releases]
    · simp [table, eq, kept]

/-- The one that shares stops, and the agreement stays. -/
theorem revoke_good
    : Good none (mixer.fire (revokeFloorRequestLocked { server } id statusInfo).1) :=
  fire_good good here (revoke_advances server id statusInfo)
    (@apply_invariant { server } (good.ready server here).invariant
      (.revokeFloorRequest id statusInfo))
    (tells_revoke good shares noted here statusInfo)

end

theorem notifyInner_revoke (running : server.ending = false)
    (id : Int) (statusInfo : String) (mixer : SharedDocMixer)
    : (revokeFloorRequestLocked { server } id statusInfo).1.pending.foldl notifyInner mixer
      = (revokeFloorRequestLocked { server } id statusInfo).1.pending.foldl notify
          mixer := by
  rcases revokeFloorRequestLocked_spec running id statusInfo with
    unchanged | ⟨revoked, -, -, -, pending⟩
  · rw [unchanged]
    rfl
  · rw [pending]
    rfl

/-- The revocation that a request starts is an operation like any other. -/
theorem onFloorRequest_eq (here : mixer.bfcpServer = some server) (running : server.ending = false)
    (floorRequestId : Int) {userId partId previous : Int} (shares : mixer.sharing = some partId)
    (other : partId ≠ userId) (noted : mixer.floorRequests.find? partId = some previous)
    (positive : previous ≠ 0)
    : mixer.onFloorRequest floorRequestId userId
      = let revoked :=
          mixer.fire
            (revokeFloorRequestLocked { server } previous "granted to other user").1
        { revoked with
          floorRequests := revoked.floorRequests.insert userId floorRequestId
          conf := revoked.conf.onRequestDocSharing userId .waitingAccept } := by
  have different : mixer.sharing ≠ some userId := by
    rw [shares]
    simpa using other
  have number : mixer.getFloorRequestId partId = previous := by
    rw [getFloorRequestId, noted, Option.getD_some]
  rw [onFloorRequest, if_neg different]
  simp only [shares, Option.elim_some, number, here, if_neg positive, fire,
    notifyInner_revoke running]

section

variable (good : Good none mixer) (here : mixer.bfcpServer = some server) {id : Int}
  {request : BFCPFloorRequest} (stored : server.floorRequests.find? id = some request)
include good here stored

/-- A new request may be noted, since nobody has its number. -/
theorem Good.note (status : SharingStatus)
    : Good none
        { mixer with
          floorRequests := mixer.floorRequests.insert request.userId id
          conf := mixer.conf.onRequestDocSharing request.userId status } :=
  { good with
    noted := forall_insert good.noted fun _ => ⟨server, request, here, stored, rfl⟩ }

theorem onFloorRequest_good (unnoted : ∀ partId, mixer.floorRequests.find? partId ≠ some id)
    : Good none (mixer.onFloorRequest id request.userId) := by
  have ready := good.ready server here
  by_cases own : mixer.sharing = some request.userId
  · rw [onFloorRequest, if_pos own]
    exact good
  · have plain := good.note here stored .waitingAccept
    cases shares : mixer.sharing with
    | none =>
      rw [onFloorRequest, if_neg own]
      simpa only [shares, Option.elim_none, here, if_true] using plain
    | some partId =>
      have other : partId ≠ request.userId := by
        rintro rfl
        exact own shares
      cases noted : mixer.floorRequests.find? partId with
      | none =>
        rw [onFloorRequest, if_neg own]
        simpa only [shares, Option.elim_some, getFloorRequestId, noted, Option.getD_none, here,
          if_true] using plain
      | some previous =>
        obtain ⟨earlier, kept, -⟩ := good.noted_here here noted nofun
        have positive : previous ≠ 0 := (ready.numbered.given previous earlier kept).1.ne'
        have different : id ≠ previous := by
          rintro rfl
          exact unnoted partId noted
        rw [onFloorRequest_eq here ready.running id shares other noted positive]
        obtain ⟨counter, eq⟩ :=
          (fire_follows good here (revoke_advances server previous "granted to other user")).server
        refine (revoke_good good shares noted here _).note eq ?_ .waitingAccept
        -- the new request is not the one that is revoked
        rcases revokeFloorRequestLocked_spec ready.running previous
          "granted to other user" with unchanged | ⟨-, -, -, table, -⟩
        · simpa only [unchanged] using stored
        · simp only [table, if_neg different]
          exact stored

end

/-- A section that asks the mixer about a new request keeps the agreement too. -/
theorem fire_asks (good : Good none mixer) (here : mixer.bfcpServer = some server) {userId : Int}
    (asks : Turn.Asked (Advances ForShared) userId { server } turn)
    (invariant : Invariant turn.server)
    (told
      : ∀ {middle}, Turn.Advances ForShared { server } middle → middle.server = turn.server
        → mixer.tells middle none = true)
    : Good none (mixer.fire turn) := by
  obtain ⟨middle, request, advances, silent, stored, -, number, rfl⟩ := asks.asked
  have settled : mixer.fire middle = { mixer with bfcpServer := some middle.server } := by
    rw [fire, silent]
    rfl
  have between := fire_good good here advances invariant (told advances rfl)
  rw [settled] at between
  have asked : mixer.fire (middle.notify (.onFloorRequest request.floorRequestId request.userId
      request.beneficiaryId request.floorIds.keys))
      = onFloorRequest { mixer with bfcpServer := some middle.server } request.floorRequestId
          request.userId := by
    rw [fire, Turn.notify, silent]
    rfl
  rw [asked]
  refine onFloorRequest_good between rfl stored ?_
  intro partId noted
  obtain ⟨earlier, kept, -⟩ := good.noted_here here noted (by simp)
  have given := ((good.ready server here).numbered.given _ earlier kept).2
  exact absurd given (not_lt.mpr number)

variable {floorIds : List Int}

/-- A request of a message names a floor, and there is only the shared one. -/
theorem valid_forShared (ready : ServerReady server)
    {other : BFCPFloorControlServer} (floors : other.floors = server.floors) (named : floorIds ≠ [])
    (exist : floorIds.all other.hasFloor = true) (userId : Int) (beneficiaryId : Option Int)
    : ForShared (createFloorRequest other userId floorIds beneficiaryId).floorIds := by
  obtain ⟨id, member⟩ := exists_mem_of_ne_nil floorIds named
  have has := all_eq_true.mp exist id member
  rw [hasFloor, floors] at has
  cases ready.floors id has
  rw [ForShared, createFloorRequest, foldl_addFloorId]
  exact (isSome_foldl_insert _ _ _).mpr (.inl member)

/-- An operation of the server that tells of what is noted. -/
theorem callServer_good (good : Good none mixer) {op : Op} (listed : Turn.OfListener op)
    (named
      : ∀ msg source floorIds beneficiaryId, op = .messageReceived msg source
        → msg.body = .floorRequest floorIds beneficiaryId → floorIds ≠ [])
    (spared : mixer.spares op none = true)
    : Good none (mixer.callServer op) := by
  cases here : mixer.bfcpServer with
  | none => simpa only [callServer, here] using good
  | some server =>
    have ready := good.ready server here
    have invariant := @apply_invariant { server } ready.invariant op
    simp only [callServer, here]
    have done := @apply_advances ForShared { server } ready.invariant ready.numbered op
      listed (fun msg source called other floorIds beneficiaryId floors body exist =>
        valid_forShared ready floors (named msg source floorIds beneficiaryId called body)
          exist msg.userId beneficiaryId)
    rcases done with advances | ⟨msg, source, -, asks⟩
    · exact fire_good good here advances invariant
        (tells_of_spares good here listed spared advances rfl)
    · exact fire_asks good here asks invariant (fun advances same =>
        tells_of_spares good here listed spared advances same)

theorem Good.forget (good : Good (some partId) mixer)
    : Good none { mixer with floorRequests := mixer.floorRequests.erase partId } := by
  refine { good with noted := fun other id found _ => ?_ }
  obtain ⟨different, found⟩ := find?_erase_eq_some.mp found
  exact good.noted other id found (by simpa using different)

section

variable (good : Good none mixer)
include good

theorem Good.tell (partId : Int) (status : SharingStatus)
    : Good none { mixer with conf := mixer.conf.onRequestDocSharing partId status } :=
  { good with }

theorem acceptDocSharingRequest_good
    (spared : mixer.spares (.grantFloorRequest (mixer.getFloorRequestId partId)) none = true)
    : Good none (mixer.acceptDocSharingRequest partId) := by
  rw [acceptDocSharingRequest]
  split_ifs
  · exact good
  · exact callServer_good good trivial (fun _ _ _ _ called => by cases called) spared

/-- A refusal ends what is noted for the participant, and that is forgotten. -/
theorem refuseDocSharingRequest_good (partId : Int)
    : Good none (mixer.refuseDocSharingRequest partId) := by
  simp only [refuseDocSharingRequest]
  split
  · exact good
  · rename_i server here
    split_ifs with absent denied
    · exact good
    · have ready := good.ready server here
      have number : mixer.floorRequests.find? partId = some (mixer.getFloorRequestId partId) := by
        cases noted : mixer.floorRequests.find? partId with
        | none => exact absurd (by rw [getFloorRequestId, noted]; rfl) absent
        | some id => rw [getFloorRequestId, noted, Option.getD_some]
      have told : mixer.tells (denyFloorRequestLocked { server } (mixer.getFloorRequestId partId)
            "refused by the conference").1 (some partId) = true := by
        simp only [tells, all_eq_true]
        rintro ⟨other, id⟩ member
        have found := find?_eq_some_iff.mpr member
        obtain ⟨request, kept, -⟩ := good.noted_here here found nofun
        by_cases own : other = partId
        · simp [own]
        · have different : id ≠ mixer.getFloorRequestId partId := by
            rintro rfl
            exact own (good.noted_once found number)
          rcases @denyFloorRequestLocked_cases False { server }
            (mixer.getFloorRequestId partId) "refused by the conference"
            with unchanged | ⟨_, _, _, _, told, eq⟩
          · simp [unchanged, kept]
          · simp [eq, eraseFloorRequest_find? (sameTables told), different, kept]
      have denial := fire_good good here (Turn.Ends.advances
          (@denyFloorRequestLocked_ends False (fun _ => True) _ _ { server } (fun _ _ => trivial)))
        (@apply_invariant { server } ready.invariant
          (.denyFloorRequest (mixer.getFloorRequestId partId) "refused by the conference")) told
      simp only [callServer, here]
      exact denial.forget.tell partId .none
    · exact good

/-- Whoever shares stops by a revocation of what is noted for it. -/
theorem stopSharing_eq (canStop : mixer.canStop = true) (shares : mixer.sharing = some partId)
    : ∃ server id, mixer.bfcpServer = some server ∧ mixer.floorRequests.find? partId = some id
        ∧ mixer.stopSharing
          = mixer.fire (revokeFloorRequestLocked { server } id "stopped by the conference").1 := by
  rw [SharedDocMixer.canStop, shares, Option.all_some] at canStop
  obtain ⟨id, noted⟩ := Option.isSome_iff_exists.mp canStop
  obtain ⟨server, request, here, stored, -⟩ := good.noted partId id noted nofun
  have positive : id ≠ 0 := ((good.ready server here).numbered.given id request stored).1.ne'
  refine ⟨server, id, here, noted, ?_⟩
  simp [stopSharing, shares, getFloorRequestId, noted, here, positive, callServer, Turn.apply]

theorem stopSharing_good (canStop : mixer.canStop = true) : Good none mixer.stopSharing := by
  cases shares : mixer.sharing with
  | none =>
    have torn : mixer.stopSharing = { mixer with part := none } := by
      simp [stopSharing, tearDownSharing, shares]
    rw [torn]
    refine { good with shows := fun partId => ?_, givenPart := nofun }
    rw [← good.shows partId, shares]
    rfl
  | some partId =>
    obtain ⟨server, id, here, noted, revoked⟩ := stopSharing_eq good canStop shares
    rw [revoked]
    exact revoke_good good shares noted here _

/-- Once the participant has stopped, what it leaves behind is a part of what was there. -/
theorem spares_stopSharingOf (canStop : mixer.canStopFor partId = true)
    (spared : mixer.spares (.removeUser partId) except = true)
    : (mixer.stopSharingOf partId).spares (.removeUser partId) except = true := by
  rw [stopSharingOf]
  split_ifs with shares
  · obtain ⟨server, id, here, noted, revoked⟩ :=
      stopSharing_eq good (by simpa [canStopFor, shares] using canStop) shares
    have follows := fire_follows good here
      (revoke_advances server id "stopped by the conference")
    obtain ⟨counter, same⟩ := follows.server
    rw [← revoked] at same follows
    have fewer : ∀ other request,
        (revokeFloorRequestLocked { server } id
          "stopped by the conference").1.server.floorRequests.find? other = some request
        → server.floorRequests.find? other = some request := by
      intro other request found
      rcases revokeFloorRequestLocked_spec (good.ready server here).running id
          "stopped by the conference" with unchanged | ⟨-, -, -, table, -⟩
      · rwa [unchanged] at found
      · rw [table] at found
        split_ifs at found
        exact found
    simp only [spares, here, same, Option.all_some, all_eq_true, Bool.or_eq_true,
      Option.all_eq_true] at spared ⊢
    rintro ⟨other, number⟩ member
    obtain ⟨earlier, -⟩ := follows.noted other number (find?_eq_some_iff.mpr member)
    exact (spared (other, number) (find?_eq_some_iff.mp earlier)).imp_right
      (fun allowed request found => allowed request (fewer number request found))
  · exact spared

theorem stopSharingOf_good (canStop : mixer.canStopFor partId = true)
    : Good none (mixer.stopSharingOf partId) := by
  rw [stopSharingOf]
  split_ifs with shares
  · refine stopSharing_good good ?_
    simpa [canStopFor, shares] using canStop
  · exact good

/-- Messages of the server and its transaction counter are of no matter here. -/
theorem Good.of_sameServer (here : mixer.bfcpServer = some server) (transactionCounter : Nat)
    (sharedMosaic : Int)
    : Good none
        { mixer with bfcpServer := some { server with transactionCounter }, sharedMosaic } := by
  have before := good.shows_here here
  refine { good with
    ready := fun last same =>
      (good.ready server here).of_sameServer (same ▸ ⟨transactionCounter, rfl⟩)
    enrolled := ?_
    shows := before
    noted := fun partId id found other =>
      ⟨_, _, rfl, (good.noted_here here found other).choose_spec⟩ }
  rintro last ⟨⟩ userId known
  exact good.enrolled server here userId known

theorem setSharedMosaic_good (mosaicId : Int) : Good none (mixer.setSharedMosaic mosaicId) := by
  cases here : mixer.bfcpServer with
  | none =>
    have plain : mixer.setSharedMosaic mosaicId = { mixer with sharedMosaic := mosaicId } := by
      simp only [setSharedMosaic, notifyFloorStatus, here, Option.map_none]
      split <;> rfl
    rw [plain]
    exact { good with }
  | some server =>
    obtain ⟨counter, eq⟩ := setSharedMosaic_spec ⟨_, here⟩ mosaicId
    rw [eq]
    exact good.of_sameServer here counter mosaicId

/-- What happens to the participants of the conference, where the numbers stay below the next
one and a new participant is unknown to the mixer.
-/
theorem Good.withConf {conf : MultiConf}
    (shows
      : ∀ partId, mixer.conf.has partId = conf.has partId
        ∨ ((conf.has partId = true → mixer.part ≠ some partId
            ∧ ∀ id floorIds, grantsOf mixer.bfcpServer id ≠ some (partId, floorIds))))
    (later : mixer.conf.maxId ≤ conf.maxId)
    (given : ∀ partId, conf.has partId = true → partId < conf.maxId)
    : Good none { mixer with conf } := by
  refine { good with
    shows := fun partId => ?_
    givenPart := fun partId part => lt_of_lt_of_le (good.givenPart partId part) later
    givenEnrolled := fun partId enrolled =>
      lt_of_lt_of_le (good.givenEnrolled partId enrolled) later
    givenExisting := given }
  have before := good.shows partId
  rw [sharing_eq_some] at before ⊢
  rcases shows partId with same | new
  · rw [same] at before
    exact before
  · constructor
    · rintro ⟨part, here⟩
      exact absurd part (new here).1
    · rintro ⟨here, id, floorIds, held⟩
      exact absurd held ((new here).2 id floorIds)

omit good in
theorem has_insert (conf : MultiConf) (partId : Int) (mode : DocSharingMode) (maxId other : Int)
    : MultiConf.has { conf with participants := conf.participants.insert partId mode, maxId } other
      = (decide (other = partId) || conf.has other) := by
  simp only [MultiConf.has, find?_insert]
  split_ifs with same <;> simp [same]

theorem createParticipant_good (partId : Int) : Good none (mixer.createParticipant partId) := by
  rw [createParticipant]
  split_ifs with old
  · exact good
  · have inserted := has_insert mixer.conf partId .none (partId + 1)
    refine good.withConf ?_ (by dsimp only; omega) ?_
    · intro other
      by_cases same : other = partId
      · right
        intro _
        refine ⟨fun part => ?_, fun id floorIds held => ?_⟩
        · have below := good.givenPart other part
          omega
        · -- a beneficiary is a user of the server, hence enrolled
          obtain ⟨server, here, held⟩ := Option.bind_eq_some_iff.mp held
          obtain ⟨request, found, -, ⟨⟩⟩ := grants_eq_some.mp held
          obtain ⟨user, known⟩ :=
            ((good.ready server here).invariant.requests id request found).beneficiaryExists
          have below := good.givenEnrolled _
            (good.enrolled server here request.beneficiaryId (by simp [known]))
          omega
      · left
        simp [inserted, same]
    · intro other here
      rw [inserted] at here
      dsimp only
      rcases Bool.or_eq_true _ _ ▸ here with same | existing
      · have := of_decide_eq_true same
        omega
      · have := good.givenExisting other existing
        omega

/-- The end of a participant takes nothing from the others. -/
theorem Good.destroy (partId : Int)
    : Good none
        { mixer with
          conf :=
            { mixer.conf with participants := mixer.conf.participants.erase partId } } := by
  have erased : ∀ other,
      MultiConf.has
        { mixer.conf with participants := mixer.conf.participants.erase partId } other
      = (decide (other ≠ partId) && mixer.conf.has other) := by
    intro other
    simp only [MultiConf.has, find?_erase]
    split_ifs with same <;> simp [same]
  refine good.withConf ?_ le_rfl ?_
  · intro other
    by_cases same : other = partId
    · right
      intro here
      simp [erased, same] at here
    · left
      simp [erased, same]
  · intro other here
    rw [erased, Bool.and_eq_true] at here
    exact good.givenExisting other here.2

end

theorem addUser_server (server : BFCPFloorControlServer) (userId : Int)
    : ∃ users, (addUser { server } userId).1.server = { server with users }
        ∧ ∀ id, users.find? id ≠ none → id = userId ∨ server.users.find? id ≠ none := by
  simp only [addUser]
  split_ifs
  · exact ⟨server.users, rfl, fun _ known => .inr known⟩
  · exact ⟨server.users, rfl, fun _ known => .inr known⟩
  · exact ⟨server.users, rfl, fun _ known => .inr known⟩
  · refine ⟨_, rfl, ?_⟩
    intro id known
    rw [find?_insert] at known
    split_ifs at known with same
    · exact .inl same
    · exact .inr known

/-- The server that comes with the first participant. -/
theorem newServer_ready (confId : Int)
    : ServerReady (addFloor { server := { conferenceId := confId } } floorId).1.server := by
  have made : (addFloor { server := { conferenceId := confId } } floorId).1.server
      = { conferenceId := confId, floors := OrderedMap.empty.insert floorId () } := rfl
  rw [made]
  refine ⟨.of_none (fun _ => rfl) (fun _ _ found => by simp at found),
    ⟨Int.zero_lt_one, ?_⟩, rfl, ?_, ?_⟩
  · intro id request found
    simp at found
  · intro id has
    simp only [hasFloor, find?_insert, find?_empty] at has
    split_ifs at has with same
    · exact same
    · cases has
  · intro id request found
    simp at found

section

variable (good : Good none mixer)
include good

/-- One more user and one more enrolled participant, on the server that is there. -/
theorem Good.enrol (existing : mixer.conf.has partId = true) (here : mixer.bfcpServer = some server)
    : Good none
        { mixer with
          bfcpServer := some (addUser { server } partId).1.server
          participants := mixer.participants.insert partId () } := by
  have ready := good.ready server here
  have invariant := @addUser_invariant { server } ready.invariant partId
  obtain ⟨users, eq, known⟩ := addUser_server server partId
  rw [eq] at invariant ⊢
  have before := good.shows_here here
  refine { good with
    ready := ?_
    enrolled := ?_
    shows := before
    noted := fun other id found different =>
      ⟨_, _, rfl, (good.noted_here here found different).choose_spec⟩
    givenEnrolled := ?_ }
  · rintro last ⟨⟩
    exact { ready with invariant, numbered := { ready.numbered with } }
  · rintro last ⟨⟩ userId found
    rw [find?_insert]
    split_ifs with same
    · rfl
    · exact good.enrolled server here userId ((known userId found).resolve_left same)
  · intro other enrolled
    simp only [find?_insert] at enrolled
    split_ifs at enrolled with same
    · exact same ▸ good.givenExisting partId existing
    · exact good.givenEnrolled other enrolled

/-- Where there was no server there was nothing to agree on. -/
theorem Good.start (absent : mixer.bfcpServer = none) (confId : Int)
    : Good none
        { mixer with
          bfcpServer :=
            some (addFloor { server := { conferenceId := confId } } floorId).1.server } := by
  have before := good.shows
  rw [absent] at before
  refine { good with ready := ?_, enrolled := ?_, shows := before, noted := ?_ }
  · rintro last ⟨⟩
    exact newServer_ready confId
  · rintro last ⟨⟩ userId known
    exact absurd rfl known
  · intro partId id found other
    obtain ⟨server, -, here, -⟩ := good.noted partId id found other
    cases absent.symm.trans here

theorem addParticipant_good (confId : Int) (existing : mixer.conf.has partId = true)
    (mode : DocSharingMode)
    : Good none (mixer.addParticipant confId partId mode) := by
  have same : ∀ other,
      MultiConf.has
        { mixer.conf with participants := mixer.conf.participants.insert partId mode } other
      = mixer.conf.has other := by
    intro other
    rw [has_insert mixer.conf partId mode mixer.conf.maxId, Bool.or_eq_right_iff_imp]
    exact fun eq => of_decide_eq_true eq ▸ existing
  have marked := good.withConf (fun other => .inl (same other).symm) le_rfl
    (fun other here => good.givenExisting other (same other ▸ here))
  have started : Good none
      (startBfcpServer
        { mixer with
          conf :=
            { mixer.conf with participants := mixer.conf.participants.insert partId mode } }
        confId partId) := by
    cases here : mixer.bfcpServer with
    | none =>
      have ready := (marked.start here confId).enrol ((same partId).trans existing) rfl
      simpa only [startBfcpServer, here, Option.getD_none] using ready
    | some server =>
      have ready := marked.enrol ((same partId).trans existing) here
      simpa only [startBfcpServer, here, Option.getD_some] using ready
  cases mode with
  | none => exact marked
  | bfcpTcp | bfcpUdp => exact started

theorem Good.weaken (except : Option Int) : Good except mixer :=
  { good with noted := fun partId id found _ => good.noted partId id found nofun }

/-- The server forgets the user, and what was noted for it is to be forgotten too. -/
theorem removeUser_good (spared : mixer.spares (.removeUser partId) (some partId) = true)
    : Good (some partId) (mixer.callServer (.removeUser partId))
      ∧ ∀ server, (mixer.callServer (.removeUser partId)).bfcpServer = some server
          → server.users.find? partId = none := by
  cases here : mixer.bfcpServer with
  | none =>
    simp only [callServer, here]
    exact ⟨good.weaken _, by simp⟩
  | some server =>
    have ready := good.ready server here
    have removed : Turn.apply { server } (.removeUser partId)
        = (removeUserLocked { server } partId true).1 := by
      simp only [Turn.apply, removeUser, ready.running]
      rfl
    have invariant := @apply_invariant { server } ready.invariant (.removeUser partId)
    have advances := @Turn.Closed.removeUserLocked partId { server } _ _ ForShared _ _
      (advances_closed False) true (fun _ _ => trivial)
    have listed : OfListener (.removeUser partId) := trivial
    have told := tells_of_spares good here listed spared advances (by rw [removed])
    simp only [callServer, here]
    rw [removed] at invariant ⊢
    refine ⟨fire_good good here advances invariant told, fun last lastHere => ?_⟩
    obtain ⟨counter, eq⟩ := (fire_follows good here advances).server
    cases lastHere.symm.trans eq
    exact removeUserLocked_find? { server } partId true

theorem removeParticipant_good
    (spared : mixer.spares (.removeUser partId) (some partId) = true)
    : Good none (mixer.removeParticipant partId) := by
  obtain ⟨removed, gone⟩ := removeUser_good good spared
  have forgotten : Good none
      { mixer.callServer (.removeUser partId) with
        floorRequests := (mixer.callServer (.removeUser partId)).floorRequests.erase partId
        participants := (mixer.callServer (.removeUser partId)).participants.erase partId } := by
    refine { removed with
      enrolled := ?_, noted := removed.forget.noted, givenEnrolled := ?_ }
    · intro server here userId known
      have other : userId ≠ partId := by
        rintro rfl
        exact known (gone server here)
      simpa [other] using removed.enrolled server here userId known
    · intro other enrolled
      simp only [find?_erase] at enrolled
      split_ifs at enrolled
      · cases enrolled
      · exact removed.givenEnrolled other enrolled
  simp only [removeParticipant]
  split
  · exact good
  · exact good
  · exact forgotten
  · exact forgotten

theorem stopBfcpServer_good (alone : ∀ partId, mixer.conf.has partId = false)
    : Good none mixer.stopBfcpServer := by
  have stopped : mixer.stopBfcpServer
      = { mixer with floorRequests := .empty, participants := .empty, bfcpServer := none } := by
    simp only [stopBfcpServer, callServer]
    split
    · rename_i absent
      rw [absent]
    · simp only [fire, Turn.apply, endConference_pending, foldl_nil]
  rw [stopped]
  refine { good with
    ready := by simp, enrolled := by simp, shows := ?_, noted := ?_, givenEnrolled := ?_ }
  · intro partId
    rw [sharing_eq_some]
    simp [alone]
  · intro partId id found
    simp at found
  · intro partId enrolled
    simp at enrolled

theorem deleteParticipant_good (canStop : mixer.canStopFor partId = true)
    (spared : mixer.spares (.removeUser partId) (some partId) = true)
    : Good none (mixer.deleteParticipant partId) := by
  have removed := removeParticipant_good (stopSharingOf_good good canStop)
    (spares_stopSharingOf good canStop spared)
  simp only [deleteParticipant]
  split_ifs with empty
  · refine stopBfcpServer_good (removed.destroy partId) ?_
    intro other
    have alone := List.isEmpty_iff.mp empty
    simp [MultiConf.has, OrderedMap.find?, alone]
  · exact removed.destroy partId

end

theorem floorRequest_of_toBody {attributes : MessageAttributes} {beneficiaryId : Option Int}
    (body : attributes.toBody = .floorRequest floorIds beneficiaryId)
    : ∃ info, attributes = .floorRequest floorIds beneficiaryId info := by
  cases attributes with
  | floorRequest _ _ info =>
    cases body
    exact ⟨info, rfl⟩
  | base primitive =>
    simp only [MessageAttributes.toBody] at body
    split_ifs at body
  | floorRelease | floorQuery | floorRequestStatus | floorStatus | hello | helloAck | error =>
    cases body

theorem step_good (good : Good none mixer) (event : SharingEvent)
    (permitted : mixer.permits event = true)
    : Good none (mixer.step event) := by
  cases event with
  | create partId => exact createParticipant_good good partId
  | addParticipant confId partId mode =>
    simp only [step]
    split_ifs with existing
    · exact addParticipant_good good confId existing mode
    · exact good
  | deleteParticipant partId =>
    simp only [permits, Bool.and_eq_true] at permitted
    simp only [step]
    split_ifs
    · exact deleteParticipant_good good permitted.1 permitted.2
    · exact good
  | accept partId =>
    simp only [step]
    split_ifs
    · exact acceptDocSharingRequest_good good permitted
    · exact good
  | refuse partId =>
    simp only [step]
    split_ifs
    · exact refuseDocSharingRequest_good good partId
    · exact good
  | stopSharing => exact stopSharing_good good permitted
  | stopSharingOf partId =>
    simp only [step]
    split_ifs
    · exact stopSharingOf_good good permitted
    · exact good
  | setSharedMosaic mosaicId => exact setSharedMosaic_good good mosaicId
  | received message source =>
    refine callServer_good good trivial ?_ permitted
    rintro msg _ floorIds beneficiaryId ⟨⟩ body rfl
    obtain ⟨info, eq⟩ := floorRequest_of_toBody body
    have valid := message.valid
    rw [eq] at valid
    cases valid
  | userConnected userId transport | userDisconnected userId transport
    | transportClosed transport =>
      exact callServer_good good trivial (fun _ _ _ _ called => by cases called) permitted

theorem initial_good : Good none {} := by
  refine ⟨by simp, by simp, ?_, ?_, by simp, ?_, ?_⟩
  · intro partId
    simp [sharing, grantsOf]
  · intro partId id found
    simp at found
  · intro partId enrolled
    simp at enrolled
  · intro partId existing
    simp [MultiConf.has] at existing

/-- Along every run whose steps are permitted, the mixer shows who the floor is granted to, and
what it has noted exists.
-/
theorem sharing_agrees (events : List SharingEvent)
    (permitted : EachStep step (fun mixer event => mixer.permits event = true) {} events)
    : Agrees (run step {} events) :=
  (@run_invariant_of_eachStep _ _ step _ (Good none)
    (fun _ event good allowed => step_good good event allowed) _ initial_good events
    permitted).agrees

def askingRun (beneficiaryId : Option Int) : List SharingEvent :=
  [.create 500, .create 501, .addParticipant 5 500 .bfcpTcp, .addParticipant 5 501 .bfcpTcp,
    .received ⟨⟨.hello, 1, 5, 500, 1, false⟩, rfl⟩ ⟨1, true⟩,
    .received ⟨⟨.floorRequest [1] beneficiaryId none, 2, 5, 500, 1, false⟩, rfl⟩ ⟨1, true⟩]

theorem sharing_agrees_accepted
    : Agrees (run step {} (askingRun none ++ [.accept 500, .deleteParticipant 501]))
      ∧ (run step {} (askingRun none ++ [.accept 500, .deleteParticipant 501])).sharing
        = some 500 :=
  ⟨sharing_agrees _ (by decide +kernel), by decide +kernel⟩

/-- A request that is taken back before it is granted stays noted. And where the floor was asked
for on behalf of participant 501, nothing is noted for 501: the mixer stops showing it without
giving the floor back.
-/
theorem unannounced_end_disagrees
    : ¬ Agrees (run step {} (askingRun none
          ++ [.received ⟨⟨.floorRelease (some 1), 3, 5, 500, 1, false⟩, rfl⟩ ⟨1, true⟩]))
      ∧ ¬ Agrees (run step {} (askingRun (some 501) ++ [.accept 500, .stopSharing])) := by
  constructor
  · intro agrees
    obtain ⟨server, request, here, found⟩ := agrees.noted 500 1 (by decide +kernel)
    have absent : ((run step {} (askingRun none
        ++ [.received ⟨⟨.floorRelease (some 1), 3, 5, 500, 1, false⟩, rfl⟩ ⟨1, true⟩])
        ).bfcpServer.bind (fun server => (server.floorRequests.find? 1).map
          BFCPFloorRequest.floorRequestId)) = none := by decide +kernel
    rw [here, Option.bind_some, found] at absent
    cases absent
  · intro agrees
    have granted : (run step {} (askingRun (some 501) ++ [.accept 500, .stopSharing])
        ).bfcpServer.bind (fun server => (server.floorRequests.find? 1).map (fun request =>
          (request.isGranted, request.hasFloorId floorId, request.beneficiaryId)))
        = some (true, true, 501) := by decide +kernel
    obtain ⟨server, here, held⟩ := Option.bind_eq_some_iff.mp granted
    obtain ⟨request, found, same⟩ := Option.map_eq_some_iff.mp held
    simp only [Prod.mk.injEq] at same
    obtain ⟨isGranted, named, beneficiary⟩ := same
    have shares := (agrees.sharing 501).mpr
      ⟨by decide +kernel, server, 1, request, here, found, isGranted, named, beneficiary⟩
    have idle : (run step {} (askingRun (some 501) ++ [.accept 500, .stopSharing])).sharing
        = none := by decide +kernel
    rw [idle] at shares
    cases shares

end SharedDocMixer

end MediaServer.Bfcp
