import Mathlib.Logic.Function.Basic
import MediaServer.Rtp.MidExtension

/-! Routing in a BUNDLE group: the session that carries the transport finds the section of each
packet, by its MID, by what was learned of its SSRC, by the SSRC that a section declares, and by its
payload type.
-/

namespace MediaServer.Rtp

open Foundation Datagram List

inductive Section where
  | carrier
  | session (id : Nat)
  deriving DecidableEq

/-- What the routing reads of a session. -/
structure SectionState where
  midExtId : BYTE := 0
  mid : List BYTE := []
  remoteSSRC : DWORD := 0
  rtpMapIn : Option RTPMap := none

structure Bundle where
  state : Section → SectionState
  joinedSessions : List Nat := []
  ssrcRoutes : DWORD → Option Section := fun _ => none

namespace Bundle

variable (medkit : Medkit) (bundle : Bundle) (data : List BYTE)

/-- The carrier and then the joined sessions: the order of every loop of `RouteRTP`. -/
def sections : List Section := .carrier :: bundle.joinedSessions.map .session

def addJoined (id : Nat) : Bundle :=
  { bundle with joinedSessions := bundle.joinedSessions ++ [id] }

def removeJoined (id : Nat) : Bundle :=
  { bundle with
    joinedSessions := bundle.joinedSessions.filter (· ≠ id),
    ssrcRoutes := fun ssrc => (bundle.ssrcRoutes ssrc).filter (· ≠ .session id) }

def midId : BYTE :=
  ((bundle.sections.map fun target => (bundle.state target).midExtId).find? (· ≠ 0)).getD 0

def readMid : Option (List BYTE) :=
  if bundle.midId ≠ 0 then Datagram.readMid data medkit bundle.midId else none

def hasMid (target : Section) : Bool :=
  (bundle.state target).mid ≠ [] ∧ bundle.readMid medkit data = some (bundle.state target).mid

def declares (target : Section) : Bool :=
  (bundle.state target).remoteSSRC ≠ 0
    ∧ (bundle.state target).remoteSSRC = Datagram.ssrc data

def carries (target : Section) : Bool :=
  (bundle.state target).rtpMapIn.any
    (·.getCodecForType (Datagram.type data) ≠ RTPMap.notFound)

def routeRTP : Bundle × Option Section :=
  match bundle.sections.find? (bundle.hasMid medkit data) with
  | some byMid =>
    ({ bundle with
        ssrcRoutes := Function.update bundle.ssrcRoutes (Datagram.ssrc data) (some byMid) },
      some byMid)
  | none =>
    (bundle,
      match bundle.ssrcRoutes (Datagram.ssrc data) with
      | some learned => some learned
      | none =>
        match bundle.sections.find? (bundle.declares data) with
        | some declared => some declared
        | none =>
          match bundle.sections.filter (bundle.carries data) with
          | [byType] => some byType
          | _ => none)

inductive Event where
  | addJoined (id : Nat)
  | removeJoined (id : Nat)
  | change (target : Section) (state : SectionState)
  | routeRTP (data : List BYTE)

def step : Bundle → Event → Bundle
  | bundle, .addJoined id => bundle.addJoined id
  | bundle, .removeJoined id => bundle.removeJoined id
  | bundle, .change target state =>
    { bundle with state := Function.update bundle.state target state }
  | bundle, .routeRTP data => (bundle.routeRTP medkit data).1

/-! The routes that are learned. -/

def learns (ssrc : DWORD) (bundle : Bundle) : Event → Option Section
  | .routeRTP data =>
    if Datagram.ssrc data = ssrc then bundle.sections.find? (bundle.hasMid medkit data) else none
  | _ => none

def Leaves (event : Event) (target : Section) : Prop :=
  ∃ id, event = .removeJoined id ∧ target = .session id

/-- The last packet with the SSRC that was routed by its MID went to the section, which has not left
since.
-/
def Learned (start : Bundle) (events : List Event) (ssrc : DWORD) (target : Section) : Prop :=
  LastWrite (step medkit) (learns medkit ssrc) Leaves start events target

variable {medkit bundle data}

theorem ssrcRoutes_step (ssrc : DWORD) (event : Event) (target : Section)
    : (bundle.step medkit event).ssrcRoutes ssrc = some target
      ↔ learns medkit ssrc bundle event = some target
        ∨ bundle.ssrcRoutes ssrc = some target ∧ learns medkit ssrc bundle event = none
          ∧ ¬ Leaves event target := by
  cases event with
  | addJoined id => simp [step, addJoined, learns, Leaves]
  | removeJoined id =>
    simp [step, removeJoined, learns, Leaves, Option.filter_eq_some_iff]
  | change target state => simp [step, learns, Leaves]
  | routeRTP packet =>
    simp only [step, routeRTP, learns, Leaves]
    cases bundle.sections.find? (bundle.hasMid medkit packet) with
    | none => simp
    | some byMid =>
      by_cases same : Datagram.ssrc packet = ssrc
      · simp [same]
      · simp [same, Ne.symm same]

theorem sections_routeRTP (packet : List BYTE)
    : (bundle.step medkit (.routeRTP packet)).sections = bundle.sections := by
  simp only [step, routeRTP]
  split <;> rfl

/-- Who does not leave stays in the group. -/
theorem mem_sections_step {target : Section} (member : target ∈ bundle.sections) {event : Event}
    (stays : ¬ Leaves event target)
    : target ∈ (bundle.step medkit event).sections := by
  cases event with
  | addJoined id =>
    simp only [sections, step, addJoined, map_append, mem_cons, mem_append] at member ⊢
    exact member.imp_right .inl
  | removeJoined id =>
    simp only [sections, step, removeJoined, mem_cons, mem_map, mem_filter] at member ⊢
    refine member.imp_right ?_
    rintro ⟨other, joined, rfl⟩
    have differs : other ≠ id := fun same => stays ⟨id, rfl, congrArg _ same⟩
    exact ⟨other, ⟨joined, by simpa using differs⟩, rfl⟩
  | change other state => exact member
  | routeRTP packet => rwa [sections_routeRTP]

def Current (bundle : Bundle) : Prop :=
  ∀ ssrc target, bundle.ssrcRoutes ssrc = some target → target ∈ bundle.sections

theorem Current.step (current : bundle.Current) (event : Event)
    : (bundle.step medkit event).Current := by
  intro ssrc target route
  rcases (ssrcRoutes_step ssrc event target).mp route with learned | ⟨kept, -, stays⟩
  · cases event with
    | routeRTP packet =>
      simp only [learns] at learned
      split_ifs at learned
      rw [sections_routeRTP]
      exact mem_of_find?_eq_some learned
    | _ => exact nomatch learned
  · exact mem_sections_step (current ssrc target kept) stays

/-! The rules. -/

/-- The rules of the routing, in their order: the MID, what was learned of the SSRC, the SSRC that a
section declares, and the payload type, if it is carried once.
-/
structure Rules (medkit : Medkit) (bundle : Bundle) (data : List BYTE) (learned : Section → Prop)
    (target : Option Section) : Prop where
  current : ∀ found, target = some found → found ∈ bundle.sections
  byMid
    : ∀ matching ∈ bundle.sections, bundle.hasMid medkit data matching
      → ∃ found, target = some found ∧ bundle.hasMid medkit data found
  bySSRC
    : (∀ other ∈ bundle.sections, ¬ bundle.hasMid medkit data other)
      → ∀ found, learned found → target = some found
  declared
    : (∀ other ∈ bundle.sections, ¬ bundle.hasMid medkit data other)
      → (∀ other, ¬ learned other)
      → ∀ declaring ∈ bundle.sections, bundle.declares data declaring
      → ∃ found, target = some found ∧ bundle.declares data found
  byType
    : (∀ other ∈ bundle.sections, ¬ bundle.hasMid medkit data other)
      → (∀ other, ¬ learned other) → (∀ other ∈ bundle.sections, ¬ bundle.declares data other)
      → ∀ only, target = some only ↔ bundle.sections.filter (bundle.carries data) = [only]

theorem routeRTP_current (current : bundle.Current) {target : Section}
    (routed : (bundle.routeRTP medkit data).2 = some target)
    : target ∈ bundle.sections := by
  simp only [routeRTP] at routed
  split at routed
  · rename_i found
    exact Option.some.inj routed ▸ mem_of_find?_eq_some found
  · split at routed
    · rename_i found
      exact current _ _ (found.trans routed)
    · split at routed
      · rename_i found
        exact Option.some.inj routed ▸ mem_of_find?_eq_some found
      · split at routed
        · rename_i only
          exact mem_of_mem_filter (only ▸ mem_singleton.mpr (Option.some.inj routed).symm)
        · cases routed

theorem routeRTP_rules (current : bundle.Current)
    : Rules medkit bundle data (fun found => bundle.ssrcRoutes (ssrc data) = some found)
        (bundle.routeRTP medkit data).2 := by
  refine ⟨fun _ => routeRTP_current current, fun matching member has => ?_, fun noMid => ?_,
    fun noMid unlearned declaring member declares => ?_, fun noMid unlearned undeclared only => ?_⟩
  · obtain ⟨found, byMid⟩ :=
      Option.isSome_iff_exists.mp (find?_isSome.mpr ⟨matching, member, has⟩)
    simp only [routeRTP, byMid]
    exact ⟨found, rfl, find?_some byMid⟩
  · intro found learned
    simp only [routeRTP, find?_eq_none.mpr noMid, learned]
  · obtain ⟨found, declared⟩ :=
      Option.isSome_iff_exists.mp (find?_isSome.mpr ⟨declaring, member, declares⟩)
    simp only [routeRTP, find?_eq_none.mpr noMid,
      Option.eq_none_iff_forall_ne_some.mpr unlearned, declared]
    exact ⟨found, rfl, find?_some declared⟩
  · simp only [routeRTP, find?_eq_none.mpr noMid,
      Option.eq_none_iff_forall_ne_some.mpr unlearned, find?_eq_none.mpr undeclared]
    split
    · rename_i byType once
      simp [once]
    · rename_i several
      exact ⟨nofun, fun once => (several only once).elim⟩

/-- In every run, each packet is routed by the rules. -/
theorem routed_by_rules (medkit : Medkit) (state : Section → SectionState) (events : List Event)
    (data : List BYTE)
    : let bundle := run (step medkit) { state } events
      Rules medkit bundle data (Learned medkit { state } events (Datagram.ssrc data))
        (bundle.routeRTP medkit data).2 := by
  intro bundle
  have current : bundle.Current :=
    run_invariant (fun _ event before => before.step event) (fun _ _ => nofun) events
  have learned : (fun found => bundle.ssrcRoutes (ssrc data) = some found)
      = Learned medkit { state } events (ssrc data) := by
    funext found
    exact propext (@run_eq_some_iff_lastWrite _ _ _ (step medkit) _ Leaves _ found
      (fun bundle => bundle.ssrcRoutes (ssrc data))
      (fun _ event target => ssrcRoutes_step _ event target) rfl events)
  exact learned ▸ routeRTP_rules current

/-- A session that is joined twice is the only one that carries the payload type of a packet, and
the packet is routed to none.
-/
theorem joined_twice_unrouted
    : let state := fun target : Section =>
        if target = .session 7 then { rtpMapIn := some (.insert .empty 96 9) }
        else ({} : SectionState)
      let bundle := run (step .bigEndian) { state } [.addJoined 7, .addJoined 7]
      let data := [0x80, 96, 0, 0, 0, 0, 0, 0, 0, 0, 0, 1]
      (∀ target, bundle.carries data target ↔ target = .session 7)
        ∧ (bundle.routeRTP .bigEndian data).2 = none := by
  refine ⟨fun target => ?_, by decide +kernel⟩
  by_cases same : target = .session 7
  · subst same
    decide +kernel
  · simp [carries, step, addJoined, same]

end Bundle

end MediaServer.Rtp
