import MediaServer.Bfcp.RequestChanges

/-! The listener of a floor control server can keep its own table of the granted floors: what
it has heard of a request tells whether the request is granted.
-/

namespace MediaServer.Bfcp

open Foundation Notification List

def Notification.grantsOrReleases (id : Int) : Notification → Bool
  | .onFloorGranted other .. | .onFloorReleased other .. => other = id
  | .onFloorRequest .. | .onUserConnected _ => false

/-- A conference with all that its listener has heard. Each operation fires its notifications
before the next one starts.
-/
structure Heard where
  server : BFCPFloorControlServer
  notifications : List Notification := []

namespace Heard

def step (heard : Heard) (op : Op) : Heard :=
  let turn := Turn.apply { server := heard.server } op
  ⟨turn.server, heard.notifications ++ turn.pending⟩

def about (heard : Heard) (id : Int) : List Notification :=
  heard.notifications.filter (Notification.grantsOrReleases id)

end Heard

/-- What has been heard of one request, against what the server stores of it. -/
inductive Tracked (server : BFCPFloorControlServer) (id : Int) : List Notification → Prop
  | nothing
      (waiting
        : ∀ request, server.floorRequests.find? id = some request → request.isGranted = false)
      : Tracked server id []
  | granted {request : BFCPFloorRequest}
      (found : server.floorRequests.find? id = some request) (isGranted : request.isGranted)
      : Tracked server id [.onFloorGranted id request.beneficiaryId request.floorIds.keys]
  | released {beneficiaryId : Int} {floorIds : List Int}
      (gone : server.floorRequests.find? id = none) (given : id < server.floorRequestCounter)
      : Tracked server id
          [.onFloorGranted id beneficiaryId floorIds, .onFloorReleased id beneficiaryId floorIds]

namespace Tracked

variable {id : Int} {news : List Notification}

theorem of_same {before after : BFCPFloorControlServer} (tracked : Tracked before id news)
    (same : after.floorRequests.find? id = before.floorRequests.find? id)
    (counter : before.floorRequestCounter ≤ after.floorRequestCounter)
    : Tracked after id news := by
  cases tracked with
  | nothing waiting => exact .nothing (by rwa [same])
  | granted found isGranted => exact .granted (same.trans found) isGranted
  | released gone given => exact .released (same.trans gone) (lt_of_lt_of_le given counter)

variable {server : BFCPFloorControlServer}

/-- A request that is granted now has been announced as granted, and nothing since; of one that
waits nothing has been announced.
-/
theorem eq_of_stored {request : BFCPFloorRequest} (tracked : Tracked server id news)
    (found : server.floorRequests.find? id = some request)
    : news = if request.isGranted
        then [.onFloorGranted id request.beneficiaryId request.floorIds.keys] else [] := by
  cases tracked with
  | nothing waiting => rw [if_neg (by simp [waiting request found])]
  | granted stored isGranted =>
    cases stored.symm.trans found
    rw [if_pos isGranted]
  | released gone _ => cases gone.symm.trans found

/-- Of a number that has not been given nothing has been announced. -/
theorem eq_nil_of_new (numbered : server.Numbered) (tracked : Tracked server id news)
    (new : server.floorRequestCounter ≤ id)
    : news = [] := by
  cases tracked with
  | nothing => rfl
  | granted found _ => exact absurd (numbered.given id _ found).2 (not_lt.mpr new)
  | released _ given => exact absurd given (not_lt.mpr new)

/-- A grant that was announced and not taken back is stored. -/
theorem stored_of_mem {beneficiaryId : Int} {floorIds : List Int} (tracked : Tracked server id news)
    (told : .onFloorGranted id beneficiaryId floorIds ∈ news)
    (unreleased : ∀ holder held, .onFloorReleased id holder held ∉ news)
    : ∃ request, server.floorRequests.find? id = some request ∧ request.status = .granted
        ∧ request.beneficiaryId = beneficiaryId ∧ request.floorIds.keys = floorIds := by
  cases tracked with
  | nothing => cases told
  | @granted request found isGranted =>
    rw [mem_singleton, onFloorGranted.injEq] at told
    exact ⟨request, found, by simpa [BFCPFloorRequest.isGranted] using isGranted,
      told.2.1.symm, told.2.2.symm⟩
  | released => simp at unreleased

theorem shape (tracked : Tracked server id news)
    : news = []
      ∨ ∃ beneficiaryId floorIds, news = [.onFloorGranted id beneficiaryId floorIds]
          ∨ news
            = [.onFloorGranted id beneficiaryId floorIds,
                .onFloorReleased id beneficiaryId floorIds] := by
  cases tracked with
  | nothing => exact .inl rfl
  | granted => exact .inr ⟨_, _, .inl rfl⟩
  | released => exact .inr ⟨_, _, .inr rfl⟩

end Tracked

namespace Turn

variable {touched : BFCPFloorRequest → Prop}

/-- Every request is tracked by what was heard before this locked section and what it will
notify.
-/
structure Tracks (past : List Notification) (turn : Turn) : Prop where
  running : turn.server.ending = false
  numbered : turn.server.Numbered
  tracked
    : ∀ id, Tracked turn.server id
        ((past ++ turn.pending).filter (Notification.grantsOrReleases id))

theorem filter_silent {news : List Notification}
    (silent : ∀ notification ∈ news, notification.tellsGrant = false) (id : Int)
    : news.filter (grantsOrReleases id) = [] := by
  rw [filter_eq_nil_iff]
  intro notification member
  cases notification with
  | onFloorGranted _ _ _ | onFloorReleased _ _ _ => cases silent _ member
  | onFloorRequest _ _ _ _ | onUserConnected _ => simp [grantsOrReleases]

/-- One change keeps the account of every request: the one it is about and all the others. -/
theorem Change.tracks {past : List Notification} {before after : Turn}
    (change : Change touched before after) (tracks : Tracks past before)
    : Tracks past after := by
  have numbered := change.numbered tracks.numbered
  cases change with
  | elsewhere requests counter ending told =>
    refine ⟨ending.trans tracks.running, numbered, fun id => ?_⟩
    obtain ⟨news, eq, silent⟩ := told
    rw [eq, ← append_assoc, filter_append, filter_silent silent, append_nil]
    exact (tracks.tracked id).of_same (by rw [requests]) counter.ge
  | @ended id request found allowed stores told =>
    refine ⟨stores.ending.trans tracks.running, numbered, fun other => ?_⟩
    rw [told tracks.running, ← append_assoc, filter_append]
    by_cases same : other = id
    · rw [same]
      have gone : after.server.floorRequests.find? id = none := by
        rw [stores.table, if_pos rfl]
      split_ifs with granted
      · rw [(tracks.tracked id).eq_of_stored found, if_pos granted]
        simp only [filter_cons, grantsOrReleases, decide_true, if_true,
          filter_nil, cons_append, nil_append]
        exact .released gone (by rw [stores.counter]; exact (tracks.numbered.given id _ found).2)
      · rw [(tracks.tracked id).eq_of_stored found, if_neg granted]
        exact .nothing (by simp [gone])
    · have silent : (if request.isGranted then
            [onFloorReleased id request.beneficiaryId request.floorIds.keys]
          else []).filter (grantsOrReleases other) = [] := by
        split_ifs <;> simp [grantsOrReleases, Ne.symm same]
      rw [silent, append_nil]
      exact (tracks.tracked other).of_same (by rw [stores.table, if_neg same]) stores.counter.ge
  | @granted id request found allowed waiting stores told =>
    refine ⟨stores.ending.trans tracks.running, numbered, fun other => ?_⟩
    rw [told, ← append_assoc, filter_append]
    by_cases same : other = id
    · rw [same, (tracks.tracked id).eq_of_stored found, if_neg (by simp [waiting])]
      simp only [filter_cons, grantsOrReleases, decide_true, if_true, filter_nil, nil_append]
      exact @Tracked.granted after.server id { request with status := .granted }
        (by rw [stores.table, if_pos rfl]) rfl
    · have silent : [onFloorGranted id request.beneficiaryId
          request.floorIds.keys].filter (grantsOrReleases other) = [] := by
        simp [grantsOrReleases, Ne.symm same]
      rw [silent, append_nil]
      exact (tracks.tracked other).of_same (by rw [stores.table, if_neg same]) stores.counter.ge
  | @created request waiting table counter ending told =>
    refine ⟨ending.trans tracks.running, numbered, fun other => ?_⟩
    rw [told]
    by_cases same : other = before.server.floorRequestCounter
    · rw [(tracks.tracked other).eq_nil_of_new tracks.numbered same.ge]
      refine .nothing (fun stored found => ?_)
      rw [table, if_pos same] at found
      cases found
      exact waiting
    · exact (tracks.tracked other).of_same (by rw [table, if_neg same]) (by omega)

theorem Changes.tracks {past : List Notification} {touched : BFCPFloorRequest → Prop}
    {before after : Turn} (changes : Changes touched before after) (tracks : Tracks past before)
    : Tracks past after := by
  induction changes with
  | refl => exact tracks
  | tail _ change ih => exact change.tracks ih

end Turn

namespace Heard

/-- What holds between two operations of a running conference. -/
structure Kept (heard : Heard) : Prop where
  invariant : Invariant heard.server
  tracks : Turn.Tracks heard.notifications { server := heard.server }

theorem step_kept (heard : Heard) (op : Op) (kept : heard.Kept) (running : op ≠ .endConference)
    : (heard.step op).Kept := by
  have changes := @Turn.apply_changes _ { server := heard.server } op running
    (Turn.MayTouch.all _ op)
  have after := Turn.Changes.tracks changes kept.tracks
  refine ⟨Turn.apply_invariant kept.invariant op, after.running, after.numbered, fun id => ?_⟩
  simpa [step] using after.tracked id

theorem run_kept {heard : Heard} (kept : heard.Kept) {ops : List Op}
    (running : .endConference ∉ ops)
    : (Foundation.run step heard ops).Kept := by
  induction ops generalizing heard with
  | nil => exact kept
  | cons op rest ih =>
    rw [mem_cons, not_or] at running
    exact ih (step_kept heard op kept (Ne.symm running.1)) running.2

theorem initial_kept (conferenceId : Int) : Kept { server := { conferenceId } } where
  invariant := Invariant.of_none OrderedMap.find?_empty (fun _ _ found => by simp at found)
  tracks := ⟨rfl, ⟨by simp, by simp⟩, fun id => .nothing (by simp)⟩

/-- The requests that were announced as granted and not as released are the granted ones, and
a request is granted at most once and released at most once, after its grant.
-/
theorem listener_tracks_grants (conferenceId : Int) (ops : List Op) (running : .endConference ∉ ops)
    : let heard := Foundation.run step { server := { conferenceId } } ops
      (∀ id beneficiaryId floorIds,
        (.onFloorGranted id beneficiaryId floorIds ∈ heard.notifications
          ∧ ∀ holder held, .onFloorReleased id holder held ∉ heard.notifications)
        ↔ ∃ request, heard.server.floorRequests.find? id = some request
            ∧ request.status = .granted
            ∧ request.beneficiaryId = beneficiaryId ∧ request.floorIds.keys = floorIds)
      ∧ ∀ id, heard.about id = []
          ∨ ∃ beneficiaryId floorIds,
              heard.about id = [.onFloorGranted id beneficiaryId floorIds]
              ∨ heard.about id
                = [.onFloorGranted id beneficiaryId floorIds,
                    .onFloorReleased id beneficiaryId floorIds] := by
  intro heard
  have kept : heard.Kept := run_kept (initial_kept conferenceId) running
  have tracked : ∀ id, Tracked heard.server id (heard.about id) := fun id => by
    simpa [about] using kept.tracks.tracked id
  constructor
  · intro id beneficiaryId floorIds
    have announced : .onFloorGranted id beneficiaryId floorIds ∈ heard.notifications
        ↔ .onFloorGranted id beneficiaryId floorIds ∈ heard.about id := by
      simp [about, grantsOrReleases]
    have ended : ∀ holder held, .onFloorReleased id holder held ∈ heard.notifications
        ↔ .onFloorReleased id holder held ∈ heard.about id := by
      simp [about, grantsOrReleases]
    simp only [announced, ended]
    constructor
    · rintro ⟨told, unreleased⟩
      exact (tracked id).stored_of_mem told unreleased
    · rintro ⟨request, found, status, rfl, rfl⟩
      rw [(tracked id).eq_of_stored found, if_pos (by simp [BFCPFloorRequest.isGranted, status])]
      simp
  · exact fun id => (tracked id).shape

/-- The chair's own grant is taken back when the participant's request is granted. -/
theorem listener_tracks_grants_preempting
    : let heard := Foundation.run step { server := { conferenceId := 5 } }
        BFCPFloorControlServer.preemptingOps
      heard.about 1 = [.onFloorGranted 1 1 [7], .onFloorReleased 1 1 [7]]
      ∧ heard.about 2 = [.onFloorGranted 2 2 [7]]
      ∧ ∃ request, heard.server.floorRequests.find? 2 = some request
          ∧ request.status = .granted ∧ request.beneficiaryId = 2
          ∧ request.floorIds.keys = [7] := by
  intro heard
  have told : heard.about 1 = [.onFloorGranted 1 1 [7], .onFloorReleased 1 1 [7]]
      ∧ heard.about 2 = [.onFloorGranted 2 2 [7]] := by decide +kernel
  have unreleased : ∀ holder held, .onFloorReleased 2 holder held ∉ heard.notifications := by
    intro holder held member
    have about : .onFloorReleased 2 holder held ∈ heard.about 2 :=
      mem_filter.mpr ⟨member, by simp [grantsOrReleases]⟩
    rw [told.2] at about
    simp at about
  refine ⟨told.1, told.2, ?_⟩
  refine ((listener_tracks_grants 5 BFCPFloorControlServer.preemptingOps (by decide)).1 2 2
    [7]).mp ⟨?_, unreleased⟩
  exact mem_of_mem_filter (told.2 ▸ mem_singleton_self _)

end Heard

end MediaServer.Bfcp
