import MediaServer.Bfcp.Attribute

/-! What the cursor makes of attributes: it never leaves its octets, it comes to an end, and
written attributes are read one after the other.
-/

namespace MediaServer.Bfcp

open Foundation BFCPAttribute Outcome BFCPAttrCursor AttributeName List

theorem AttributeName.ofCode?_code (name : AttributeName) : ofCode? name.code = some name := by
  cases name <;> decide

theorem Status.ofCode?_code (status : Status) : ofCode? status.code = some status := by
  cases status <;> decide

theorem padded_spec (length : Nat) : length ≤ padded length ∧ padded length % 4 = 0 := by
  rw [padded]
  omega

namespace BFCPAttrCursor

/-- A header that covers itself and fits gives an attribute. -/
theorem next_attribute {tag length : BYTE} {octets : List BYTE} (covers : 2 ≤ length.toNat)
    (inside : padded length.toNat ≤ octets.length + 2)
    : next ⟨tag :: length :: octets⟩
      = .value (some
          (⟨tag >>> 1, (tag &&& 1) != 0, octets.take (length.toNat - 2)⟩,
            ⟨(tag :: length :: octets).drop (padded length.toNat)⟩)) := by
  have room := padded_spec length.toNat
  obtain ⟨width, same⟩ : ∃ width, padded length.toNat = width + 2 :=
    ⟨padded length.toNat - 2, by omega⟩
  have cut :
      slice (tag :: length :: octets) 0 (padded length.toNat)
        = .value (tag :: length :: octets.take width) := by
    rw [slice_inside (by simpa using inside), same]
    rfl
  have contents :
      slice (tag :: length :: octets.take width) headerLen (length.toNat - 2)
        = .value (octets.take (length.toNat - 2)) := by
    rw [slice_inside]
    · simp only [headerLen, drop_succ_cons, drop_zero, take_take]
      rw [Nat.min_eq_left (by omega)]
    · simp only [headerLen, length_cons, length_take]
      omega
  have second : elementAt (tag :: length :: octets) 1 = .value length := rfl
  have first : elementAt (tag :: length :: octets.take width) 0 = .value tag := rfl
  simp only [next, second, value_bind, cut, first]
  rw [if_neg (by simp), if_neg (by simp [headerLen]), if_neg (by rw [headerLen]; omega),
    if_neg (by simpa using inside), show length.toNat - headerLen = length.toNat - 2 from rfl,
    contents]
  rfl

/-- The cursor is at a clean end, on something malformed, or on an attribute. -/
theorem next_cases (cursor : BFCPAttrCursor)
    : cursor.next = .value none ∨ cursor.next = .refused
      ∨ ∃ item rest, cursor.next = .value (some (item, rest))
        ∧ rest.left.length < cursor.left.length := by
  obtain ⟨left⟩ := cursor
  match left with
  | [] => exact .inl rfl
  | [_] => exact .inr (.inl rfl)
  | tag :: length :: octets =>
    by_cases good : 2 ≤ length.toNat ∧ padded length.toNat ≤ octets.length + 2
    · have room := padded_spec length.toNat
      refine .inr (.inr ⟨_, _, next_attribute good.1 good.2, ?_⟩)
      simp only [length_drop, length_cons]
      omega
    · right; left
      have second : elementAt (tag :: length :: octets) 1 = .value length := rfl
      simp only [next, second, value_bind]
      rw [if_neg (by simp), if_neg (by simp [headerLen])]
      split
      · rfl
      · rename_i covers
        rw [if_pos]
        simp only [headerLen, length_cons] at covers ⊢
        omega

section Walk

variable {σ : Type} {body : σ → Attribute → Outcome σ}

/-- The bound on the rounds does not matter, once it exceeds the octets. -/
theorem walkFor_rounds {rounds more : Nat} {cursor : BFCPAttrCursor}
    (enough : cursor.left.length < rounds) (alsoEnough : cursor.left.length < more) (state : σ)
    : walkFor body rounds cursor state = walkFor body more cursor state := by
  induction rounds generalizing more cursor state with
  | zero => omega
  | succ rounds ih =>
    obtain ⟨more, rfl⟩ : ∃ fewer, more = fewer + 1 := ⟨more - 1, by omega⟩
    rcases next_cases cursor with ended | malformed | ⟨item, rest, found, shorter⟩
    · simp only [walkFor, ended, value_bind]
    · simp only [walkFor, malformed, refused_bind]
    · simp only [walkFor, found, value_bind]
      cases body state item with
      | value state =>
        simp only [value_bind]
        exact ih (by omega) (by omega) state
      | refused | fault => rfl

/-- Loops whose rounds go right go right: they stay inside and come to an end. -/
theorem walk_sound (each : ∀ state item, (body state item).Sound) (octets : List BYTE) (state : σ)
    : (walk body octets state).Sound := by
  have bounded : ∀ rounds (cursor : BFCPAttrCursor) state, cursor.left.length < rounds
      → (walkFor body rounds cursor state).Sound := by
    intro rounds
    induction rounds with
    | zero => omega
    | succ rounds ih =>
      intro cursor state enough
      rcases next_cases cursor with ended | malformed | ⟨item, rest, found, shorter⟩
      · simp only [walkFor, ended, value_bind]
        exact .value state
      · simp only [walkFor, malformed, refused_bind]
        exact .refused
      · simp only [walkFor, found, value_bind]
        exact (each state item).bind (fun next _ => ih rest next (by omega))
  exact bounded _ ⟨octets⟩ state (Nat.lt_succ_self _)

end Walk

end BFCPAttrCursor

structure Written (type : AttributeName) (mandatory : Bool) (contents part : List BYTE) : Prop
    where
  short : headerLen + contents.length ≤ maxLength
  octets
    : part = (type.code <<< 1 ||| (if mandatory then 1 else 0))
        :: .ofNat (headerLen + contents.length) :: (contents
          ++ List.replicate (padded (headerLen + contents.length)
            - (headerLen + contents.length)) 0)

variable {max : Nat} {mandatory : Bool} {type : AttributeName}

theorem write_written {contents part : List BYTE}
    (success : write type mandatory contents max = some part)
    : Written type mandatory contents part := by
  simp only [write] at success
  split at success
  · cases success
  · rename_i short
    split at success
    · cases success
    · cases success
      exact ⟨by omega, by simp⟩

variable {part : List BYTE}

theorem serializeWord_written {medkit : Medkit} {value : Int}
    (success : serializeWord medkit type value mandatory max = some part)
    : Written type mandatory (put2 medkit (.ofInt value)) part := write_written success

theorem tag_shift (type : AttributeName) (mandatory : Bool)
    : (type.code <<< 1 ||| (if mandatory then 1 else 0)) >>> 1 = type.code
      ∧ (((type.code <<< 1 ||| (if mandatory then 1 else 0)) &&& 1) != 0) = mandatory := by
  cases type <;> cases mandatory <;> decide

namespace Written

variable {type : AttributeName} {mandatory : Bool} {contents part : List BYTE}

theorem length_eq (written : Written type mandatory contents part)
    : part.length = padded (headerLen + contents.length) := by
  have room := padded_spec (headerLen + contents.length)
  rw [written.octets]
  simp only [length_cons, length_append, length_replicate]
  rw [headerLen] at room ⊢
  omega

theorem next_eq (written : Written type mandatory contents part) (rest : List BYTE)
    : BFCPAttrCursor.next ⟨part ++ rest⟩
      = .value (some (⟨type.code, mandatory, contents⟩, ⟨rest⟩)) := by
  have width := written.length_eq
  have room := padded_spec (headerLen + contents.length)
  have length :
      (UInt8.ofNat (headerLen + contents.length)).toNat = headerLen + contents.length := by
    have short := written.short
    rw [maxLength] at short
    rw [UInt8.toNat_ofNat']
    omega
  obtain ⟨shifted, flag⟩ := tag_shift type mandatory
  have dropped : (part ++ rest).drop (padded (headerLen + contents.length)) = rest := by
    rw [← width, drop_left]
  rw [written.octets] at dropped width ⊢
  simp only [cons_append, length_cons, length_append] at dropped width ⊢
  rw [next_attribute, length, shifted, flag, dropped]
  · simp only [headerLen, Nat.add_sub_cancel_left, append_assoc, take_left]
  · rw [length, headerLen]
    omega
  · rw [length]
    simp only [length_append]
    omega

end Written

section Sequences

variable {σ : Type} {body : σ → Attribute → Outcome σ}

theorem walk_written {contents part : List BYTE}
    (written : Written type mandatory contents part) (rest : List BYTE) (state : σ)
    : walk body (part ++ rest) state
      = body state ⟨type.code, mandatory, contents⟩ >>= walk body rest := by
  have room := padded_spec (headerLen + contents.length)
  have width := written.length_eq
  rw [headerLen] at room width
  rw [walk, walkFor, written.next_eq rest, value_bind]
  dsimp only
  cases body state ⟨type.code, mandatory, contents⟩ with
  | value next =>
    refine walkFor_rounds ?_ (Nat.lt_succ_self _) next
    simp only [length_append]
    omega
  | refused => rfl
  | fault => rfl

def Reads (body : σ → Attribute → Outcome σ) (before : σ) (writer : Writer BYTE) (after : σ)
    : Prop :=
  ∀ room part, writer room = some part
    → ∃ type mandatory contents, Written type mandatory contents part
      ∧ body before ⟨type.code, mandatory, contents⟩ = .value after

inductive ReadsAll (body : σ → Attribute → Outcome σ) : σ → List (Writer BYTE) → σ → Prop
  | nil {state : σ} : ReadsAll body state [] state
  | cons {first second last : σ} {writer : Writer BYTE} {rest : List (Writer BYTE)}
    : Reads body first writer second → ReadsAll body second rest last
      → ReadsAll body first (writer :: rest) last

namespace ReadsAll

theorem append {first second last : σ} {left right : List (Writer BYTE)}
    (reads : ReadsAll body first left second) (more : ReadsAll body second right last)
    : ReadsAll body first (left ++ right) last := by
  induction reads with
  | nil => exact more
  | cons read _ ih => exact .cons read (ih more)

/-- Attributes of one kind that are collected in a list. -/
theorem map {α : Type} {writer : α → Writer BYTE} {items : List α} (state : List α → σ)
    (each : ∀ before, ∀ item ∈ items,
      Reads body (state before) (writer item) (state (before ++ [item])))
    (before : List α)
    : ReadsAll body (state before) (items.map writer) (state (before ++ items)) := by
  induction items generalizing before with
  | nil =>
    rw [append_nil]
    exact .nil
  | cons item rest ih =>
    have further := ih (fun before item member => each before item (.tail _ member))
      (before ++ [item])
    rw [append_assoc] at further
    exact .cons (each before item (.head _)) further

/-- An attribute that may be there. -/
theorem optional {α : Type} {writer : α → Writer BYTE} {item : Option α} (state : Option α → σ)
    (each : ∀ value ∈ item, Reads body (state none) (writer value) (state (some value)))
    : ReadsAll body (state none) (item.toList.map writer) (state item) := by
  cases item with
  | none => exact .nil
  | some value => exact .cons (each value rfl) .nil

theorem walk {first last : σ} {writers : List (Writer BYTE)}
    (reads : ReadsAll body first writers last) {room : Nat} {written : List BYTE}
    (success : Writer.sequence writers room = some written)
    : walk body written first = .value last := by
  induction reads generalizing room written with
  | nil =>
    cases success
    rfl
  | cons read _ ih =>
    simp only [Writer.sequence, Option.bind_eq_bind, Option.bind_eq_some_iff,
      Option.some.injEq] at success
    obtain ⟨part, head, others, tail, rfl⟩ := success
    obtain ⟨type, mandatory, contents, isWritten, next⟩ := read _ part head
    rw [walk_written isWritten, next, value_bind, ih tail]

end ReadsAll

end Sequences

/-- Identifiers have 16 bits on the wire. -/
def IsWord (value : Int) : Prop := 0 ≤ value ∧ value < 2 ^ 16

instance (value : Int) : Decidable (IsWord value) := inferInstanceAs (Decidable (_ ∧ _))

theorem ofInt_word {value : Int} (fits : IsWord value)
    : ((UInt16.ofInt value).toNat : Int) = value := by
  obtain ⟨lower, upper⟩ := fits
  rw [UInt16.ofInt]
  simp
  omega

/-- Queue positions have 8 bits on the wire. -/
def RequestStatus.Fits (status : RequestStatus) : Prop :=
  0 ≤ status.queuePosition ∧ status.queuePosition < 2 ^ 8

instance (status : RequestStatus) : Decidable status.Fits := inferInstanceAs (Decidable (_ ∧ _))

section Attributes

variable {medkit : Medkit} (network : medkit.NetworkOrder)
include network

theorem readWord_put2 {value : Int} (fits : IsWord value) (rest : List BYTE)
    : readWord medkit (put2 medkit (.ofInt value) ++ rest) = .value value := by
  rw [readWord, if_neg (by simp [put2])]
  change Outcome.value ((medkit.get2 (medkit.set2 _).1 (medkit.set2 _).2).toNat : Int) = _
  rw [network.get2_set2, ofInt_word fits]

theorem parseGroup_put2 {id : Int} (fits : IsWord id) (children : List BYTE)
    : parseGroup medkit (put2 medkit (.ofInt id) ++ children) = .value (id, children) := by
  rw [parseGroup, readWord_put2 network fits, value_bind, slice_inside (by simp [put2]; omega)]
  simp [put2]

theorem parseWord_put2 {id : Int} (fits : IsWord id)
    : parseWord medkit (put2 medkit (.ofInt id)) = .value id := by
  have read := parseGroup_put2 network fits []
  rw [append_nil] at read
  rw [parseWord, read]
  rfl

omit network in
theorem RequestStatus.parse_contents {status : RequestStatus} (fits : status.Fits)
    : RequestStatus.parse [status.status.code, .ofInt status.queuePosition] = .value status := by
  have back : ((UInt8.ofInt status.queuePosition).toNat : Int) = status.queuePosition := by
    obtain ⟨lower, upper⟩ := fits
    rw [UInt8.ofInt]
    simp
    omega
  rw [RequestStatus.parse, if_neg (by simp)]
  change (ofOption (Status.ofCode? status.status.code) >>= fun read =>
    (.value ⟨read, ((UInt8.ofInt status.queuePosition).toNat : Int)⟩ : Outcome RequestStatus))
    = _
  rw [Status.ofCode?_code, back]
  rfl

/-- A group is read by its identifier and then by its children. -/
theorem serializeGroup_read {σ : Type} {id : Int}
    {children : List (Writer BYTE)} {mandatory : Bool} {part : List BYTE}
    {body : σ → Attribute → Outcome σ} (first : Int → σ) {last : σ} (fits : IsWord id)
    (reads : ReadsAll body (first id) children last)
    (success : serializeGroup medkit type id children mandatory max = some part)
    : ∃ contents, Written type mandatory contents part
      ∧ (parseGroup medkit contents >>= fun group =>
        walk body group.2 (first group.1)) = .value last := by
  simp only [serializeGroup, Option.bind_eq_bind, Option.bind_eq_some_iff] at success
  obtain ⟨octets, inner, outer⟩ := success
  refine ⟨_, write_written outer, ?_⟩
  rw [parseGroup_put2 network fits octets]
  exact reads.walk inner

end Attributes

open ReadsAll

namespace BFCPAttrFloorRequestStatus

structure Fits (attr : BFCPAttrFloorRequestStatus) : Prop where
  floorId : IsWord attr.floorId
  requestStatus : ∀ status ∈ attr.requestStatus, status.Fits

theorem serialize_read {medkit : Medkit} (network : medkit.NetworkOrder)
    {attr : BFCPAttrFloorRequestStatus} (fits : attr.Fits)
    (success : attr.serialize medkit mandatory max = some part)
    : ∃ contents, Written .floorRequestStatus mandatory contents part
      ∧ parse medkit contents = .value attr := by
  have reads :
      ReadsAll parseChild { floorId := attr.floorId }
        (attr.requestStatus.toList.map (·.serialize false)) attr := by
    refine optional (fun status => { attr with requestStatus := status }) ?_
    intro status present room part written
    refine ⟨_, _, _, write_written written, ?_⟩
    simp only [parseChild, ofCode?_code,
      RequestStatus.parse_contents (fits.requestStatus status present)]
    rfl
  exact serializeGroup_read network (mk · none) fits.floorId reads success

end BFCPAttrFloorRequestStatus

namespace BFCPAttrOverallRequestStatus

structure Fits (attr : BFCPAttrOverallRequestStatus) : Prop where
  floorRequestId : IsWord attr.floorRequestId
  requestStatus : ∀ status ∈ attr.requestStatus, status.Fits

theorem serialize_read {medkit : Medkit} (network : medkit.NetworkOrder)
    {attr : BFCPAttrOverallRequestStatus} (fits : attr.Fits)
    (success : attr.serialize medkit mandatory max = some part)
    : ∃ contents, Written .overallRequestStatus mandatory contents part
      ∧ parse medkit contents = .value attr := by
  have reads :
      ReadsAll parseChild { floorRequestId := attr.floorRequestId }
        (attr.requestStatus.toList.map (·.serialize false)
          ++ attr.statusInfo.toList.map (BFCPAttrStatusInfo.serialize · false)) attr := by
    refine ReadsAll.append
      (optional (fun status => { attr with requestStatus := status, statusInfo := none }) ?_)
      (optional (fun info => { attr with statusInfo := info }) ?_)
    · intro status present room part written
      refine ⟨_, _, _, write_written written, ?_⟩
      simp only [parseChild, ofCode?_code,
        RequestStatus.parse_contents (fits.requestStatus status present)]
      rfl
    · intro info _ room part written
      refine ⟨_, _, _, write_written written, ?_⟩
      simp only [parseChild, ofCode?_code]
      rfl
  exact serializeGroup_read network (mk · none none) fits.floorRequestId reads success

end BFCPAttrOverallRequestStatus

namespace BFCPAttrFloorRequestInformation

structure Fits (attr : BFCPAttrFloorRequestInformation) : Prop where
  floorRequestId : IsWord attr.floorRequestId
  overallRequestStatus : ∀ overall ∈ attr.overallRequestStatus, overall.Fits
  floorRequestStatuses : ∀ status ∈ attr.floorRequestStatuses, status.Fits
  beneficiaryInformation : ∀ id ∈ attr.beneficiaryInformation, IsWord id
  requestedByInformation : ∀ id ∈ attr.requestedByInformation, IsWord id

section Children

variable {medkit : Medkit} (network : medkit.NetworkOrder)
  {attr : BFCPAttrFloorRequestInformation} (fits : attr.Fits)
include network fits

theorem reads_overall : ReadsAll (parseChild medkit) { floorRequestId := attr.floorRequestId }
        (attr.overallRequestStatus.toList.map (·.serialize medkit false))
        { floorRequestId := attr.floorRequestId
          overallRequestStatus := attr.overallRequestStatus } := by
  refine optional
    (fun overall =>
      { attr with
        overallRequestStatus := overall, floorRequestStatuses := []
        beneficiaryInformation := none, requestedByInformation := none }) ?_
  intro overall present room part written
  obtain ⟨contents, isWritten, read⟩ :=
    BFCPAttrOverallRequestStatus.serialize_read network
      (fits.overallRequestStatus overall present) written
  refine ⟨_, _, contents, isWritten, ?_⟩
  simp only [parseChild, ofCode?_code, read]
  rfl

theorem reads_statuses
    : ReadsAll (parseChild medkit)
        { floorRequestId := attr.floorRequestId
          overallRequestStatus := attr.overallRequestStatus }
        (attr.floorRequestStatuses.map (·.serialize medkit true))
        { floorRequestId := attr.floorRequestId
          overallRequestStatus := attr.overallRequestStatus
          floorRequestStatuses := attr.floorRequestStatuses } := by
  refine ReadsAll.map
    (fun statuses =>
      { attr with
        floorRequestStatuses := statuses
        beneficiaryInformation := none, requestedByInformation := none }) ?_ []
  intro before status member room part written
  obtain ⟨contents, isWritten, read⟩ :=
    BFCPAttrFloorRequestStatus.serialize_read network
      (fits.floorRequestStatuses status member) written
  refine ⟨_, _, contents, isWritten, ?_⟩
  simp only [parseChild, ofCode?_code, read]
  rfl

theorem reads_beneficiary
    : ReadsAll (parseChild medkit)
        { floorRequestId := attr.floorRequestId
          overallRequestStatus := attr.overallRequestStatus
          floorRequestStatuses := attr.floorRequestStatuses }
        (attr.beneficiaryInformation.toList.map
          (BFCPAttrBeneficiaryInformation.serialize medkit · false))
        { attr with requestedByInformation := none } := by
  refine optional
    (fun id => { attr with beneficiaryInformation := id, requestedByInformation := none }) ?_
  intro id present room part written
  refine ⟨_, _, _, serializeWord_written written, ?_⟩
  simp only [parseChild, ofCode?_code, BFCPAttrBeneficiaryInformation.parse,
    parseWord_put2 network (fits.beneficiaryInformation id present)]
  rfl

theorem reads_requestedBy
    : ReadsAll (parseChild medkit) { attr with requestedByInformation := none }
        (attr.requestedByInformation.toList.map
          (BFCPAttrRequestedByInformation.serialize medkit · false))
        attr := by
  refine optional (fun id => { attr with requestedByInformation := id }) ?_
  intro id present room part written
  refine ⟨_, _, _, serializeWord_written written, ?_⟩
  simp only [parseChild, ofCode?_code, BFCPAttrRequestedByInformation.parse,
    parseWord_put2 network (fits.requestedByInformation id present)]
  rfl

theorem serialize_read
    (success : attr.serialize medkit mandatory max = some part)
    : ∃ contents, Written .floorRequestInformation mandatory contents part
      ∧ parse medkit contents = .value attr := by
  have reads :=
    (((reads_overall network fits).append (reads_statuses network fits)).append
      (reads_beneficiary network fits)).append (reads_requestedBy network fits)
  exact serializeGroup_read network (mk · none [] none none) fits.floorRequestId reads success

end Children

end BFCPAttrFloorRequestInformation

namespace SupportedCodes

/-- Codes that do not repeat are all added. -/
theorem foldl_add {codes : List BYTE} {supported : SupportedCodes}
    (fresh : (supported.val ++ codes).Nodup)
    : (codes.foldl add supported).val = supported.val ++ codes := by
  induction codes generalizing supported with
  | nil => simp
  | cons code rest ih =>
    have absent : code ∉ supported.val := by
      intro member
      exact (nodup_append.mp fresh).2.2 code member code (.head _) rfl
    have added : (supported.add code).val = supported.val ++ [code] := by
      rw [add, dif_neg absent]
    rw [foldl_cons, ih (by rw [added]; simpa using fresh), added, append_assoc]
    rfl

theorem foldl_add_empty (supported : SupportedCodes)
    : supported.val.foldl add empty = supported := by
  apply Subtype.ext
  rw [foldl_add (by simpa [empty] using supported.property)]
  rfl

end SupportedCodes

end MediaServer.Bfcp
