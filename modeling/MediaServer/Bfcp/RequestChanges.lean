import MediaServer.Bfcp.FloorControl

/-! What a locked section can do to the table of floor requests, one request at a time. Every
operation before the end of a conference is a chain of these changes.
-/

namespace MediaServer.Bfcp

open Foundation Relation

def Notification.tellsGrant : Notification → Bool
  | .onFloorGranted .. | .onFloorReleased .. => true
  | .onFloorRequest .. | .onUserConnected _ => false

structure BFCPFloorControlServer.Numbered (server : BFCPFloorControlServer) : Prop where
  positive : 0 < server.floorRequestCounter
  given
    : ∀ id request, server.floorRequests.find? id = some request
      → 0 < id ∧ id < server.floorRequestCounter

theorem BFCPFloorControlServer.Numbered.of_same {before after : BFCPFloorControlServer}
    (numbered : before.Numbered) (requests : after.floorRequests = before.floorRequests)
    (counter : after.floorRequestCounter = before.floorRequestCounter)
    : after.Numbered :=
  ⟨by rw [counter]; exact numbered.positive, by rw [requests, counter]; exact numbered.given⟩

namespace Turn

/-- One change to the stored requests, with what the listener is told of it. Only a request
that may be `touched` is ended or granted.
-/
inductive Change (touched : BFCPFloorRequest → Prop) (before after : Turn) : Prop
  | elsewhere (requests : after.server.floorRequests = before.server.floorRequests)
      (counter : after.server.floorRequestCounter = before.server.floorRequestCounter)
      (ending : after.server.ending = before.server.ending)
      (told
        : ∃ news, after.pending = before.pending ++ news
          ∧ ∀ notification ∈ news, notification.tellsGrant = false)
  | ended {id : Int} {request : BFCPFloorRequest}
      (found : before.server.floorRequests.find? id = some request) (allowed : touched request)
      (stores : Stores id none before after)
      (told
        : before.server.ending = false → after.pending
          = before.pending ++ if request.isGranted then
              [.onFloorReleased id request.beneficiaryId request.floorIds.keys]
            else [])
  | granted {id : Int} {request : BFCPFloorRequest}
      (found : before.server.floorRequests.find? id = some request) (allowed : touched request)
      (waiting : request.isGranted = false)
      (stores : Stores id (some { request with status := .granted }) before after)
      (told
        : after.pending
          = before.pending
            ++ [.onFloorGranted id request.beneficiaryId request.floorIds.keys])
  | created {request : BFCPFloorRequest} (waiting : request.isGranted = false)
      (table
        : ∀ other, after.server.floorRequests.find? other
          = if other = before.server.floorRequestCounter then some request
            else before.server.floorRequests.find? other)
      (counter : after.server.floorRequestCounter = before.server.floorRequestCounter + 1)
      (ending : after.server.ending = before.server.ending)
      (told : after.pending = before.pending)

abbrev Changes (touched : BFCPFloorRequest → Prop) : Turn → Turn → Prop :=
  ReflTransGen (Change touched)

section Changes

variable {touched : BFCPFloorRequest → Prop} {before after : Turn}

theorem Change.of_same (requests : after.server.floorRequests = before.server.floorRequests)
    (counter : after.server.floorRequestCounter = before.server.floorRequestCounter)
    (ending : after.server.ending = before.server.ending) (pending : after.pending = before.pending)
    : Change touched before after :=
  .elsewhere requests counter ending ⟨[], by rw [pending, List.append_nil], nofun⟩

theorem Change.of_notify (turn : Turn) (notification : Notification)
    (silent : notification.tellsGrant = false)
    : Change touched turn (turn.notify notification) := by
  refine .elsewhere rfl rfl rfl ⟨[notification], rfl, ?_⟩
  intro other member
  rwa [List.mem_singleton.mp member]

theorem Ending.change {answering : Prop} (ending : Ending answering touched before after)
    : Change touched before after := by
  have only := ending.onlyEnds
  cases ending with
  | speaks speech =>
    obtain ⟨⟨counter, eq⟩, quiet⟩ := speech.keeps
    exact .of_same (by rw [eq]) (by rw [eq]) (by rw [eq]) quiet
  | erases found allowed told news_eq =>
    have table := eraseFloorRequest_find? told.sameTables
    obtain ⟨counter, eq⟩ := told.sameTables
    refine .ended found allowed ⟨only.users, only.floors, ?_, only.ending, table⟩ ?_
    · simp [eraseFloorRequest, eq, BFCPFloorControlServer.setStatus]
    · intro running
      rw [told.pending, news_eq running]

theorem storeFloorRequest_change (turn : Turn) (userId : Int) (floorIds : List Int)
    (beneficiaryId : Option Int)
    : Change touched turn
        (turn.storeFloorRequest
          (createFloorRequest turn.server userId floorIds beneficiaryId)) := by
  have number : (createFloorRequest turn.server userId floorIds beneficiaryId).floorRequestId
      = turn.server.floorRequestCounter := by rw [createFloorRequest, foldl_addFloorId]
  have waiting :
      (createFloorRequest turn.server userId floorIds beneficiaryId).isGranted = false := by
    simp [createFloorRequest, foldl_addFloorId, BFCPFloorRequest.isGranted]
  refine .created waiting ?_ rfl rfl rfl
  intro other
  simp only [storeFloorRequest, OrderedMap.find?_insert, number]

theorem changes_closed (answering : Prop)
    : Closed answering touched (fun _ => True) (fun _ => True) (Changes touched) where
  refl := fun _ => .refl
  trans := ReflTransGen.trans
  ending := fun ending => .single ending.change
  users := fun _ same => .single (.of_same (by rw [same]) (by rw [same]) (by rw [same])
    (by rw [same]))
  greets := fun turn userId => .single (.of_notify turn _ rfl)
  stores := fun _ _ _ _ => .single (storeFloorRequest_change _ _ _ _)
  grants := fun id _ all => grantFloorRequestLocked_related answering (fun _ => .refl)
    ReflTransGen.trans (fun ending => .single ending.change)
    (fun found waiting granting =>
      .single (.granted found (all _) waiting granting.stores granting.pending)) all _ id

theorem Acts.changes {answering : Prop} (acts : Acts answering touched (fun _ => True) before after)
    : Changes touched before after :=
  ((changes_closed answering).acts (fun _ _ _ _ => trivial) acts trivial).1

theorem apply_changes {turn : Turn} {op : Op} (running : op ≠ .endConference)
    (may : MayTouch touched turn.server op)
    : Changes touched turn (turn.apply op) := by
  have ofListener : OfListener op → Changes touched turn (turn.apply op) := by
    intro listed
    rcases @apply_acts touched (fun _ => True) turn op listed may (fun _ _ _ _ _ _ _ _ _ => trivial)
      with acts | ⟨_, _, _, _, acts, _, asked⟩
    · exact Acts.changes acts
    · obtain ⟨middle, _, more, _, _, _, _, eq⟩ := asked
      rw [eq]
      exact (Acts.changes (acts.trans more)).tail (.of_notify _ _ rfl)
  cases op with
  | endConference => exact absurd rfl running
  | addUser userId =>
    simp only [apply, addUser]
    split_ifs <;> exact .single (.of_same rfl rfl rfl rfl)
  | addFloor floorId =>
    simp only [apply, addFloor]
    split_ifs <;> exact .single (.of_same rfl rfl rfl rfl)
  | _ => exact ofListener trivial

theorem Change.numbered (change : Change touched before after) (numbered : before.server.Numbered)
    : after.server.Numbered := by
  cases change with
  | elsewhere requests counter => exact numbered.of_same requests counter
  | @ended changed _ found _ stores | @granted changed _ found _ _ stores =>
    refine ⟨by rw [stores.counter]; exact numbered.positive, ?_⟩
    intro id request stored
    rw [stores.counter]
    by_cases same : id = changed
    · rw [same]
      exact numbered.given _ _ found
    · rw [stores.table, if_neg same] at stored
      exact numbered.given id request stored
  | created waiting table counter =>
    have positive := numbered.positive
    refine ⟨by omega, ?_⟩
    intro id request stored
    rw [table] at stored
    rw [counter]
    split_ifs at stored with same
    · omega
    · have earlier := numbered.given id request stored
      omega

theorem Changes.numbered (changes : Changes touched before after)
    (numbered : before.server.Numbered)
    : after.server.Numbered := by
  induction changes with
  | refl => exact numbered
  | tail _ change ih => exact change.numbered ih

/-- A request that may not be touched stays as it is. -/
theorem Change.keeps (change : Change touched before after)
    (numbered : before.server.Numbered) {id : Int} {request : BFCPFloorRequest}
    (untouched : ¬ touched request) (found : before.server.floorRequests.find? id = some request)
    : after.server.floorRequests.find? id = some request := by
  cases change with
  | elsewhere requests => rwa [requests]
  | ended stored allowed stores | granted stored allowed _ stores =>
    rw [stores.table, if_neg, found]
    intro same
    rw [← same, found] at stored
    cases stored
    exact untouched allowed
  | created _ table =>
    rw [table, if_neg, found]
    have given := (numbered.given id request found).2
    exact ne_of_lt given

theorem Changes.keeps (changes : Changes touched before after)
    (numbered : before.server.Numbered) {id : Int} {request : BFCPFloorRequest}
    (untouched : ¬ touched request) (found : before.server.floorRequests.find? id = some request)
    : after.server.floorRequests.find? id = some request := by
  have kept : after.server.Numbered ∧ after.server.floorRequests.find? id = some request := by
    induction changes with
    | refl => exact ⟨numbered, found⟩
    | tail _ change ih => exact ⟨change.numbered ih.1, change.keeps ih.1 untouched ih.2⟩
  exact kept.2

end Changes

end Turn

end MediaServer.Bfcp
