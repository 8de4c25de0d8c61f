import MediaServer.Bfcp.RequestChanges
import Mathlib.Logic.Function.Basic

/-! What the listener of a floor control server can know: the notifications of a locked section
tell exactly which requests are granted after it.
-/

namespace MediaServer.Bfcp

open Foundation Relation BFCPFloorControlServer OrderedMap

/-- The beneficiary and the floors of each granted request. -/
abbrev Grants := Int → Option (Int × List Int)

def BFCPFloorControlServer.grants (server : BFCPFloorControlServer) : Grants := fun id =>
  ((server.floorRequests.find? id).filter BFCPFloorRequest.isGranted).map
    (fun request => (request.beneficiaryId, request.floorIds.keys))

/-- The notifications lead from the first grants to the last: only what is granted is released,
and only what `may` be granted is granted, over floors that nobody holds.
-/
inductive Announced (may : Int → List Int → Prop) (start : Grants)
    : List Notification → Grants → Prop
  | nothing : Announced may start [] start
  | released {news now id beneficiaryId floorIds}
      (earlier : Announced may start news now) (held : now id = some (beneficiaryId, floorIds))
      : Announced may start (news ++ [.onFloorReleased id beneficiaryId floorIds])
          (Function.update now id none)
  | granted {news now id beneficiaryId floorIds}
      (earlier : Announced may start news now) (pending : now id = none)
      (free
        : ∀ other holder held, now other = some (holder, held) → ∀ floorId ∈ floorIds,
          floorId ∉ held)
      (allowed : may beneficiaryId floorIds)
      : Announced may start (news ++ [.onFloorGranted id beneficiaryId floorIds])
          (Function.update now id (some (beneficiaryId, floorIds)))
  | connected {news now userId} (earlier : Announced may start news now)
      : Announced may start (news ++ [.onUserConnected userId]) now

theorem Announced.trans {may might : Int → List Int → Prop} {first second third : Grants}
    {news others : List Notification} (left : Announced may first news second)
    (right : Announced might second others third)
    (weaker : ∀ beneficiaryId floorIds, might beneficiaryId floorIds → may beneficiaryId floorIds)
    : Announced may first (news ++ others) third := by
  induction right with
  | nothing => rwa [List.append_nil]
  | released earlier held ih =>
    rw [← List.append_assoc]
    exact .released ih held
  | granted earlier pending free allowed ih =>
    rw [← List.append_assoc]
    exact .granted ih pending free (weaker _ _ allowed)
  | connected earlier ih =>
    rw [← List.append_assoc]
    exact .connected ih

/-- What was granted and is not any more was announced as released. -/
theorem Announced.held_or_released {may : Int → List Int → Prop} {start now : Grants}
    {news : List Notification} (announced : Announced may start news now) {id beneficiaryId : Int}
    {floorIds : List Int} (held : start id = some (beneficiaryId, floorIds))
    : now id = some (beneficiaryId, floorIds)
      ∨ .onFloorReleased id beneficiaryId floorIds ∈ news := by
  induction announced with
  | nothing => exact .inl held
  | @released news now other _ _ _ holds ih =>
    rcases ih with still | told
    · by_cases same : id = other
      · rw [← same, still] at holds
        cases holds
        rw [← same]
        exact .inr (by simp)
      · exact .inl (by rw [Function.update_of_ne same]; exact still)
    · exact .inr (List.mem_append_left _ told)
  | @granted news now other _ _ _ pending _ _ ih =>
    rcases ih with still | told
    · have different : id ≠ other := by
        rintro rfl
        cases pending.symm.trans still
      exact .inl (by rw [Function.update_of_ne different]; exact still)
    · exact .inr (List.mem_append_left _ told)
  | connected _ ih => exact ih.imp_right (List.mem_append_left _)

namespace Turn

/-- A user of the server may be granted the floors of a stored request, or `fresh` ones. -/
def MayGrant (fresh : OrderedMap Int Unit → Prop) (turn : Turn) (beneficiaryId : Int)
    (floorIds : List Int) : Prop :=
  turn.server.users.find? beneficiaryId ≠ none
  ∧ ∃ floors : OrderedMap Int Unit, floorIds = floors.keys
    ∧ (fresh floors
      ∨ ∃ id request, turn.server.floorRequests.find? id = some request
          ∧ request.floorIds = floors)

/-- What a locked section may do: no user and no floor comes in, a request keeps its requester
and its floors, a new one has `fresh` floors and a new number, and the listener is told of every
change of the grants.
-/
structure Advances (fresh : OrderedMap Int Unit → Prop) (before after : Turn) : Prop where
  users : ∀ id, before.server.users.find? id = none → after.server.users.find? id = none
  floors : after.server.floors = before.server.floors
  counter : before.server.floorRequestCounter ≤ after.server.floorRequestCounter
  requests
    : ∀ id request, after.server.floorRequests.find? id = some request
      → (∃ old, before.server.floorRequests.find? id = some old
          ∧ request.userId = old.userId ∧ request.floorIds = old.floorIds)
        ∨ (before.server.floorRequestCounter ≤ id ∧ id < after.server.floorRequestCounter
          ∧ fresh request.floorIds)
  running : before.server.ending = false → after.server.ending = false
  announced
    : before.server.ending = false
      → ∃ news, after.pending = before.pending ++ news
        ∧ Announced (MayGrant fresh before) before.server.grants news after.server.grants

namespace Advances

variable {fresh : OrderedMap Int Unit → Prop} {before after : Turn}

theorem of_tables
    (users : ∀ id, before.server.users.find? id = none → after.server.users.find? id = none)
    (floors : after.server.floors = before.server.floors)
    (counter : after.server.floorRequestCounter = before.server.floorRequestCounter)
    (requests : after.server.floorRequests = before.server.floorRequests)
    (ending : after.server.ending = before.server.ending) (pending : after.pending = before.pending)
    : Advances fresh before after where
  users := users
  floors := floors
  counter := counter.ge
  requests := fun id request found => .inl ⟨request, by rwa [← requests], rfl, rfl⟩
  running := ending.trans
  announced := fun _ => by
    have same : after.server.grants = before.server.grants := by
      funext id
      simp only [grants, requests]
    exact ⟨[], by rw [pending, List.append_nil], by rw [same]; exact .nothing⟩

theorem refl (turn : Turn) : Advances fresh turn turn :=
  .of_tables (fun _ absent => absent) rfl rfl rfl rfl rfl

theorem trans {first second third : Turn} (left : Advances fresh first second)
    (right : Advances fresh second third)
    : Advances fresh first third where
  users := fun id absent => right.users id (left.users id absent)
  floors := right.floors.trans left.floors
  counter := left.counter.trans right.counter
  requests := by
    intro id request found
    rcases right.requests id request found with ⟨old, stored, user, floors⟩ | ⟨low, high, new⟩
    · rcases left.requests id old stored with ⟨oldest, here, same, again⟩ | ⟨low, high, new⟩
      · exact .inl ⟨oldest, here, user.trans same, floors.trans again⟩
      · exact .inr ⟨low, lt_of_lt_of_le high right.counter, floors ▸ new⟩
    · exact .inr ⟨left.counter.trans low, high, new⟩
  running := fun started => right.running (left.running started)
  announced := by
    intro started
    obtain ⟨news, first, told⟩ := left.announced started
    obtain ⟨others, second, more⟩ := right.announced (left.running started)
    refine ⟨news ++ others, by rw [second, first, List.append_assoc], told.trans more ?_⟩
    rintro beneficiaryId floorIds ⟨known, floors, rfl, new | ⟨id, request, stored, rfl⟩⟩
    · exact ⟨mt (left.users beneficiaryId) known, floors, rfl, .inl new⟩
    · refine ⟨mt (left.users beneficiaryId) known, request.floorIds, rfl, ?_⟩
      rcases left.requests id request stored with ⟨old, here, -, same⟩ | ⟨-, -, new⟩
      · exact .inr ⟨id, old, here, same.symm⟩
      · exact .inl new

theorem numbered (advances : Advances fresh before after) (numbered : before.server.Numbered)
    : after.server.Numbered := by
  refine ⟨lt_of_lt_of_le numbered.positive advances.counter, ?_⟩
  intro id request found
  rcases advances.requests id request found with ⟨old, stored, -, -⟩ | ⟨low, high, -⟩
  · have earlier := numbered.given id old stored
    exact ⟨earlier.1, lt_of_lt_of_le earlier.2 advances.counter⟩
  · exact ⟨lt_of_lt_of_le numbered.positive low, high⟩

end Advances

section Closed

variable {fresh : OrderedMap Int Unit → Prop} {request : BFCPFloorRequest}
  {server : BFCPFloorControlServer}

theorem grants_eq_some {id : Int} {entry : Int × List Int}
    : server.grants id = some entry
      ↔ ∃ request, server.floorRequests.find? id = some request ∧ request.isGranted
          ∧ (request.beneficiaryId, request.floorIds.keys) = entry := by
  simp [grants, Option.filter_eq_some_iff, and_assoc]

theorem grants_of_granted {id : Int}
    (found : server.floorRequests.find? id = some request) (granted : request.isGranted)
    : server.grants id = some (request.beneficiaryId, request.floorIds.keys) :=
  grants_eq_some.mpr ⟨request, found, granted, rfl⟩

theorem grants_of_not_granted {id : Int}
    (waiting
      : ∀ request, server.floorRequests.find? id = some request → request.isGranted = false)
    : server.grants id = none := by
  simp only [grants]
  cases found : server.floorRequests.find? id with
  | none => rfl
  | some request => simp [Option.filter, waiting request found]

theorem grants_changed {before after : BFCPFloorControlServer} {id : Int}
    {entry : Option BFCPFloorRequest}
    (table
      : ∀ other, after.floorRequests.find? other
        = if other = id then entry else before.floorRequests.find? other)
    : after.grants
      = Function.update before.grants id ((entry.filter BFCPFloorRequest.isGranted).map
          (fun request => (request.beneficiaryId, request.floorIds.keys))) := by
  funext other
  simp only [grants, table, Function.update_apply]
  split_ifs <;> rfl

/-- A request that ends is announced as released when it was granted, and only then. -/
theorem Ending.advances {answering : Prop} {touched : BFCPFloorRequest → Prop}
    (ending : Ending answering touched before after)
    : Advances fresh before after := by
  have only := ending.onlyEnds
  cases ending with
  | speaks speech =>
    obtain ⟨⟨counter, eq⟩, quiet⟩ := speech.keeps
    exact .of_tables (by rw [eq]; exact fun _ absent => absent) (by rw [eq]) (by rw [eq])
      (by rw [eq]) (by rw [eq]) quiet
  | @erases middle erased request status news found _ told news_eq =>
    have table := eraseFloorRequest_find? told.sameTables
    obtain ⟨counter, eq⟩ := told.sameTables
    refine ⟨by rw [only.users]; exact fun _ absent => absent, only.floors, ?_, ?_,
      only.ending.trans, ?_⟩
    · simp [eraseFloorRequest, eq, setStatus]
    · exact fun id kept stored => .inl ⟨kept, only.kept id kept stored, rfl, rfl⟩
    · intro started
      refine ⟨news, by rw [told.pending], ?_⟩
      rw [news_eq started, grants_changed table]
      split_ifs with granted
      · exact .released .nothing (grants_of_granted found granted)
      · have waiting : before.server.grants erased = none := by
          refine grants_of_not_granted (fun other stored => ?_)
          cases found.symm.trans stored
          simpa using granted
        change Announced _ _ _ (Function.update _ _ none)
        rw [← waiting, Function.update_eq_self]
        exact .nothing

variable {turn : Turn}

/-- What is granted after the revocations leaves the floors of the request alone. -/
theorem revokeOtherHolders_grants (invariant : Invariant turn.server) {floorRequestId : Int}
    (found : turn.server.floorRequests.find? floorRequestId = some request)
    (waiting : request.isGranted = false)
    : (turn.revokeOtherHolders floorRequestId request).server.grants floorRequestId = none
      ∧ ∀ other holder held,
          (turn.revokeOtherHolders floorRequestId request).server.grants other
            = some (holder, held)
          → ∀ floorId ∈ request.floorIds.keys, floorId ∉ held := by
  have only := revokeOtherHolders_onlyEnds turn floorRequestId request
  have ungranted :
      (turn.revokeOtherHolders floorRequestId request).server.grants floorRequestId = none := by
    refine grants_of_not_granted (fun other stored => ?_)
    have kept := only.kept floorRequestId other stored
    rw [found] at kept
    cases kept
    exact waiting
  refine ⟨ungranted, ?_⟩
  intro other holder held holds floorId named both
  obtain ⟨owner, stored, granted, ⟨⟩⟩ := grants_eq_some.mp holds
  have different : other ≠ floorRequestId := by
    rintro rfl
    rw [grants_of_granted stored granted] at ungranted
    cases ungranted
  have apart := revokeOtherHolders_free invariant floorRequestId request different stored granted
    floorId (mem_keys.mp named)
  exact Bool.false_ne_true (apart.symm.trans (mem_keys.mp both))

theorem Ends.advances {answering : Prop} {touched : BFCPFloorRequest → Prop}
    (ends : Ends answering touched before after)
    : Advances fresh before after :=
  @reflTransGen_related _ _ (Advances fresh) .refl (fun _ _ _ => .trans)
    (fun _ _ => Ending.advances) _ _ ends

/-- The request that is granted is announced last, over floors that nobody holds any more. -/
theorem grantFloorRequestLocked_advances (invariant : Invariant turn.server) (floorRequestId : Int)
    : Advances fresh turn (turn.grantFloorRequestLocked floorRequestId).1 := by
  rcases grantFloorRequestLocked_cases False turn floorRequestId
    with unchanged | ⟨request, found, waiting, granting⟩
  · rw [unchanged]
    exact .refl turn
  have revoked : Advances fresh turn (turn.revokeOtherHolders floorRequestId request) :=
    Ends.advances (@revokeOtherHolders_ends False turn (fun _ => True) floorRequestId request
      (fun _ => trivial))
  have stores := granting.stores
  obtain ⟨ungranted, free⟩ := revokeOtherHolders_grants invariant found waiting
  refine ⟨?_, stores.floors.trans revoked.floors, revoked.counter.trans stores.counter.ge, ?_,
    fun started => stores.ending.trans (revoked.running started), ?_⟩
  · rw [stores.users]
    exact revoked.users
  · intro id kept here
    rw [stores.table] at here
    split_ifs at here with same
    · cases here
      exact .inl ⟨request, same ▸ found, rfl, rfl⟩
    · rcases revoked.requests id kept here with old | ⟨low, high, new⟩
      · exact .inl old
      · exact .inr ⟨low, lt_of_lt_of_le high stores.counter.ge, new⟩
  · intro started
    obtain ⟨news, pending, told⟩ := revoked.announced started
    obtain ⟨_, known⟩ := (invariant.requests floorRequestId request found).beneficiaryExists
    refine ⟨_, granting.pending.trans (by rw [pending, List.append_assoc]), ?_⟩
    rw [grants_changed stores.table]
    exact .granted told ungranted free
      ⟨by simp [known], request.floorIds, rfl, .inr ⟨floorRequestId, request, found, rfl⟩⟩

theorem storeFloorRequest_advances {userId : Int} {floorIds : List Int} {beneficiaryId : Option Int}
    (numbered : turn.server.Numbered)
    (new : fresh (createFloorRequest turn.server userId floorIds beneficiaryId).floorIds)
    : Advances fresh turn
        (turn.storeFloorRequest
          (createFloorRequest turn.server userId floorIds beneficiaryId)) where
  users := fun _ absent => absent
  floors := rfl
  counter := by
    simp only [storeFloorRequest]
    omega
  requests := by
    intro id kept stored
    simp only [storeFloorRequest, find?_insert] at stored
    split_ifs at stored with same
    · cases stored
      have number : id = turn.server.floorRequestCounter := by
        rw [same, createFloorRequest, foldl_addFloorId]
      refine .inr ⟨number.ge, ?_, new⟩
      simp only [storeFloorRequest]
      omega
    · exact .inl ⟨kept, stored, rfl, rfl⟩
  running := fun started => started
  announced := by
    intro _
    -- the new request is pending, and its number was free
    refine ⟨[], (List.append_nil _).symm, ?_⟩
    have same : (turn.storeFloorRequest
        (createFloorRequest turn.server userId floorIds beneficiaryId)).server.grants
        = turn.server.grants := by
      funext id
      simp only [grants, storeFloorRequest, find?_insert]
      split_ifs with number
      · have unused : turn.server.floorRequests.find? id = none := by
          rw [Option.eq_none_iff_forall_ne_some]
          intro request found
          have below := (numbered.given id request found).2
          rw [number, createFloorRequest, foldl_addFloorId] at below
          exact lt_irrefl _ below
        simp [unused, createFloorRequest, foldl_addFloorId, Option.filter,
          BFCPFloorRequest.isGranted]
      · rfl
    rw [same]
    exact .nothing

theorem connected_advances (turn : Turn) (userId : Int)
    : Advances fresh turn (turn.notify (.onUserConnected userId)) where
  users := fun _ absent => absent
  floors := rfl
  counter := le_rfl
  requests := fun _ request found => .inl ⟨request, found, rfl, rfl⟩
  running := fun started => started
  announced := fun _ => ⟨[.onUserConnected userId], rfl, .connected .nothing⟩

/-- What is granted can be told from the notifications of a section that starts consistent. -/
theorem advances_closed (answering : Prop)
    : Closed answering (fun _ => True) fresh
        (fun turn => Invariant turn.server ∧ turn.server.Numbered) (Advances fresh) where
  refl := .refl
  trans := .trans
  ending := Ending.advances
  users := fun known same => .of_tables known (by rw [same]) (by rw [same]) (by rw [same])
    (by rw [same]) (by rw [same])
  greets := connected_advances
  stores := fun ready _ new _ => storeFloorRequest_advances ready.2 new
  grants := fun id ready _ => grantFloorRequestLocked_advances ready.1 id

theorem Acts.advances {answering : Prop} (acts : Acts answering (fun _ => True) fresh before after)
    (invariant : Invariant before.server) (numbered : before.server.Numbered)
    : Advances fresh before after ∧ Invariant after.server ∧ after.server.Numbered :=
  (advances_closed answering).acts
    (fun _ _ act ready =>
      ⟨act.invariant ready.1, ((advances_closed answering).act act ready).numbered ready.2⟩)
    acts ⟨invariant, numbered⟩

/-- Every such operation either tells the listener of all that it does to the grants, or has
one request to ask about.
-/
theorem apply_advances {turn : Turn} (invariant : Invariant turn.server)
    (numbered : turn.server.Numbered) {op : Op} (listed : OfListener op)
    (new : ∀ msg source, op = .messageReceived msg source → AsksFresh fresh turn msg)
    : Advances fresh turn (turn.apply op)
      ∨ ∃ msg source, op = .messageReceived msg source
          ∧ Asked (Advances fresh) msg.userId turn (turn.apply op) := by
  rcases apply_acts listed (MayTouch.all _ op) new
    with acts | ⟨msg, source, attached, same, acts, silent, asked⟩
  · exact .inl (Acts.advances acts invariant numbered).1
  · obtain ⟨middle, request, more, pending, stored, own, number, eq⟩ := asked
    obtain ⟨left, ready, counted⟩ := Acts.advances acts invariant numbered
    refine .inr ⟨msg, source, same, middle, request, ?_, pending.trans silent, stored, own,
      left.counter.trans number, eq⟩
    exact left.trans (Acts.advances more ready counted).1

/-- Nobody is told of what ends with the conference. -/
theorem endFloorRequest_pending (finished : turn.server.ending = true) (statusInfo : String)
    (floorRequestId : Int)
    : (turn.endFloorRequest statusInfo floorRequestId).pending = turn.pending := by
  simp only [endFloorRequest]
  split
  · rfl
  · split
    · rcases @revokeFloorRequestLocked_cases False turn floorRequestId statusInfo
        with unchanged | ⟨_, middle, _, _, told, eq⟩
      · rw [unchanged]
      · simp [eq, finished, told.pending]
    · rcases @denyFloorRequestLocked_cases False turn floorRequestId statusInfo
        with unchanged | ⟨_, middle, _, _, told, eq⟩
      · rw [unchanged]
      · rw [eq]
        exact told.pending

theorem endFloorRequests_pending (ids : List Int) (statusInfo : String)
    (finished : turn.server.ending = true)
    : (ids.foldl (endFloorRequest · statusInfo) turn).pending = turn.pending := by
  induction ids generalizing turn with
  | nil => rfl
  | cons id rest ih =>
    refine (ih ?_).trans (endFloorRequest_pending finished statusInfo id)
    exact (endFloorRequest_onlyEnds turn statusInfo id).ending.trans finished

theorem farewell_pending (userIds : List Int) (turn : Turn)
    : (userIds.foldl
        (fun turn userId => (turn.sendGoodbye userId).closeUserTransport userId) turn).pending
      = turn.pending := by
  induction userIds generalizing turn with
  | nil => rfl
  | cons userId rest ih =>
    have told : (turn.sendGoodbye userId).pending = turn.pending :=
      Talks.pending (@sendGoodbye_talks False turn userId)
    exact (ih _).trans told

theorem endConference_pending (turn : Turn) : turn.endConference.pending = turn.pending := by
  simp only [endConference]
  split
  · rfl
  · refine (farewell_pending _ _).trans ?_
    exact endFloorRequests_pending _ _ rfl

end Closed

end Turn

end MediaServer.Bfcp
