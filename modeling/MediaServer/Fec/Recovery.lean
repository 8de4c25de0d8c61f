import MediaServer.Fec.Protection

/-! When `Recover` returns the packet that is missing. The decoder is one that any run of
arrivals leads to.
-/

namespace MediaServer.Fec

open Foundation Rtp Protection BitReader RTPTimedPacket OrderedMap List

namespace FECDecoder

/-- Two packets are the same on the wire. -/
structure Same (packet original : RTPMediaPacket) : Prop where
  seqNum : packet.seqNum = original.seqNum
  mark : packet.mark = original.mark
  type : packet.type = original.type
  timestamp : packet.timestamp = original.timestamp
  ssrc : packet.ssrc = original.ssrc
  payload : packet.payload = original.payload

/-- No padding, extension or sources; the type has seven bits. -/
structure Plain (packet : RTPMediaPacket) : Prop where
  p : packet.p = false
  x : packet.x = false
  cc : packet.cc = 0
  type : packet.type &&& 0x7F = packet.type

def Carries (sent : Nat → RTPMediaPacket) : Arrival → Prop
  | .media packet => Same packet (sent packet.getExtSeqNum)
  | .ulpfec _ => True
  | .red red now =>
    ∀ codec, red.primaryCodec = .media codec
      → Same (red.createPrimaryPacket codec now)
        (sent (red.createPrimaryPacket codec now).getExtSeqNum)

/-! The tables. -/

/-- The media packets of a run: 64 numbers at most, each packet under its own, and all of them
as they arrived.
-/
structure Sound (arrived : RTPMediaPacket → Prop) (decoder : FECDecoder) : Prop where
  numbered : decoder.Numbered
  narrow : ∀ key ∈ decoder.medias.keys, ∀ highest ∈ decoder.medias.keys, highest ≤ key + 63
  keyed : ∀ key stored, decoder.medias.find? key = some stored → key = stored.getExtSeqNum
  arrived : ∀ key stored, decoder.medias.find? key = some stored → arrived stored

variable {arrived : RTPMediaPacket → Prop}

theorem addPacket_sound {medkit : Medkit} {decoder : FECDecoder}
    {arrival : Arrival} (sound : decoder.Sound arrived)
    (isArrived : ∀ packet ∈ (content arrival).1, arrived packet)
    : (decoder.addPacket medkit arrival).1.Sound arrived := by
  have numbered := @addPacket_numbered medkit decoder arrival sound.numbered
  rcases shape : content arrival with ⟨_ | packet, payloads⟩
  · have same := @addPacket_codes medkit decoder arrival payloads shape
    refine ⟨numbered, ?_, ?_, ?_⟩
    all_goals rw [same]
    exacts [sound.narrow, sound.keyed, sound.arrived]
  · have fresh : arrived packet := isArrived packet (by rw [shape]; rfl)
    rw [addPacket_media shape] at numbered ⊢
    obtain ⟨seq, last, above, largest, origin⟩ := exists_highest decoder packet
    have only : ∀ {holds : Nat → RTPMediaPacket → Prop},
        (∀ key stored, decoder.medias.find? key = some stored → holds key stored)
        → holds packet.getExtSeqNum packet
        → ∀ key stored, (prune ⟨decoder.medias.insert packet.getExtSeqNum packet,
            payloads.foldl (addCode medkit) decoder.codes⟩).medias.find? key = some stored
          → holds key stored := by
      intro holds old new key stored found
      rw [(find?_prune last key).1] at found
      split_ifs at found
      exact forall_insert old new key stored found
    refine ⟨numbered, ?_, only sound.keyed rfl, only sound.arrived fresh⟩
    · by_cases high : 63 ≤ seq
      · exact (window_of_high sound.numbered last origin high).nothingOlder
      · -- a low number empties the table
        intro key member
        obtain ⟨old, isKey⟩ := (mem_keys_prune last).mp member
        have := lt_oldest (Nat.lt_of_not_le high) ((le_of_getLast?_keys last).2 key isKey)
        omega

theorem empty_sound (arrived : RTPMediaPacket → Prop) : Sound arrived {} :=
  ⟨nofun, nofun, nofun, nofun⟩

theorem run_sound (medkit : Medkit) {arrivals : List Arrival}
    (all : ∀ arrival ∈ arrivals, ∀ packet ∈ (content arrival).1, arrived packet)
    : (Foundation.run (step medkit) {} arrivals).Sound arrived := by
  refine List.foldlRecOn arrivals _ (empty_sound arrived) ?_
  intro decoder sound arrival member
  exact addPacket_sound sound (all arrival member)

variable {packet : RTPMediaPacket}

/-- A kept packet has the fields of the one that was sent. -/
theorem fields_of_carries {sent : Nat → RTPMediaPacket} (plain : ∀ number, Plain (sent number))
    {arrival : Arrival} (carries : Carries sent arrival) (kept : packet ∈ (content arrival).1)
    : packet.fields = (sent packet.getExtSeqNum).fields := by
  have fields : ∀ stored original : RTPMediaPacket, stored.mark = original.mark
      → stored.type = original.type → stored.timestamp = original.timestamp
      → stored.payload = original.payload → Plain original → stored.p = false → stored.x = false
      → stored.cc = 0 → stored.fields = original.fields := by
    intro stored original mark type timestamp payload plain p x cc
    rw [RTPMediaPacket.fields, RTPMediaPacket.fields, mark, type, timestamp, payload, p, x, cc,
      plain.p, plain.x, plain.cc]
  cases arrival with
  | media original =>
    cases kept
    obtain ⟨-, mark, type, timestamp, -, payload⟩ := carries
    exact fields _ _ mark type timestamp payload (plain _) rfl rfl rfl
  | ulpfec payload => cases kept
  | red red now =>
    rw [content] at kept
    cases codec : red.primaryCodec with
    | ulpfec =>
      rw [codec] at kept
      cases kept
    | media number =>
      rw [codec] at kept
      cases kept
      obtain ⟨-, mark, type, timestamp, -, payload⟩ := carries number codec
      exact fields _ _ mark type timestamp payload (plain _) rfl rfl rfl

/-! The search. -/

section Search

variable {platform : Platform} {decoder : FECDecoder} {arrived : RTPMediaPacket → Prop}
  {mask : QWORD} {fec : FECData}

theorem isProtected_of_canRecover {minSeq seq : Nat}
    (can : canRecover platform mask minSeq seq fec = true)
    : fec.isProtectedAtLevel0 platform.medkit seq = true := by
  rw [canRecover, Bool.and_eq_true] at can
  exact can.1

theorem findCode_some {minSeq seq : Nat} {losts : List Nat}
    (found : findCode platform decoder mask minSeq losts = some (seq, fec))
    : seq ∈ losts ∧ (∃ key, (key, fec) ∈ decoder.codes.entries)
      ∧ canRecover platform mask minSeq seq fec = true := by
  obtain ⟨lost, member, result⟩ := exists_of_findSome?_eq_some found
  obtain ⟨entry, isFirst, same⟩ := Option.map_eq_some_iff.mp result
  cases same
  have can := find?_some
    (p := fun entry : Nat × FECData => canRecover platform mask minSeq seq entry.2) isFirst
  exact ⟨member, ⟨entry.1, mem_of_find?_eq_some isFirst⟩, can⟩

section Lowest

variable {lowest : Nat} {first : RTPMediaPacket} {rest : List (Nat × RTPMediaPacket)}
  (entries : decoder.medias.entries = (lowest, first) :: rest)

include entries

theorem keys_of_entries : decoder.medias.keys = lowest :: rest.map Prod.fst := by
  rw [OrderedMap.keys, entries]
  rfl

theorem lowest_le {key : Nat} (member : key ∈ decoder.medias.keys) : lowest ≤ key := by
  have sorted : decoder.medias.keys.Pairwise (· < ·) := pairwise_map.mpr decoder.medias.sorted
  rw [keys_of_entries entries] at sorted member
  rcases mem_cons.mp member with same | later
  · exact Nat.le_of_eq same.symm
  · exact Nat.le_of_lt ((pairwise_cons.mp sorted).1 key later)

variable (sound : decoder.Sound arrived)

include sound

theorem getExtSeqNum_first : first.getExtSeqNum = lowest :=
  (sound.keyed lowest first (find?_eq_some_iff.mpr (entries ▸ .head rest))).symm

/-- What the decoder works with: a mask of what is there, and the lost numbers. -/
theorem scan_of_sound (bigEndian : platform.medkit.BigEndian) (small : lowest + 1 < 4294967296)
    : ∃ mask, lostMask platform (scan lowest decoder.medias.keys).1 = .ok mask
      ∧ (∀ i, i < 64 → maskBit mask i = decide (lowest + i ∈ decoder.medias.keys))
      ∧ (scan lowest decoder.medias.keys).2.Pairwise (· < ·)
      ∧ ∀ seq, seq ∈ (scan lowest decoder.medias.keys).2
        ↔ seq ∉ decoder.medias.keys ∧ lowest < seq ∧ ∃ key ∈ decoder.medias.keys, seq < key := by
  have keys := keys_of_entries entries
  have sorted : decoder.medias.keys.Pairwise (· < ·) := pairwise_map.mpr decoder.medias.sorted
  have numbered := sound.numbered
  have narrow := sound.narrow lowest (keys ▸ .head _)
  rw [Numbered, keys] at numbered
  rw [keys] at sorted narrow ⊢
  obtain ⟨bits, highest, ascending, losts⟩ := scan_keys sorted numbered small
  have short := narrow _ highest
  obtain ⟨mask, success, presence⟩ := @lostMask_spec platform bigEndian
    (scan lowest (lowest :: rest.map Prod.fst)).1 (by omega)
  refine ⟨mask, success, fun i inside => (presence i inside).trans (bits i), ascending,
    fun seq => ?_⟩
  rw [losts seq]
  refine and_congr_right (fun _ => and_congr_right (fun above => ?_))
  refine exists_congr (fun key => ⟨fun ⟨member, below⟩ => ⟨.tail _ member, below⟩, ?_⟩)
  rintro ⟨member, below⟩
  exact ⟨(mem_cons.mp member).resolve_left (by omega), below⟩

end Lowest

variable {after : FECDecoder}

/-- A packet that the call returns comes from a lost number and a code for it. -/
theorem recover_some (returned : decoder.recover platform = .ok (after, some packet))
    : ∃ lowest first rest mask seq fec, decoder.medias.entries = (lowest, first) :: rest
      ∧ lostMask platform (scan first.getExtSeqNum decoder.medias.keys).1 = .ok mask
      ∧ findCode platform decoder mask first.getExtSeqNum
          (scan first.getExtSeqNum decoder.medias.keys).2 = some (seq, fec)
      ∧ decoder.rebuild platform first.ssrc seq fec = .ok (after, some packet) := by
  rw [recover] at returned
  cases entries : decoder.medias.entries with
  | nil =>
    rw [entries] at returned
    cases returned
  | cons entry rest =>
    rw [entries] at returned
    cases written : lostMask platform (scan entry.2.getExtSeqNum decoder.medias.keys).1 with
    | error error =>
      simp only [written] at returned
      cases returned
    | ok mask =>
      cases found : findCode platform decoder mask entry.2.getExtSeqNum
          (scan entry.2.getExtSeqNum decoder.medias.keys).2 with
      | none =>
        simp only [written, found] at returned
        cases returned
      | some code =>
        simp only [written, found] at returned
        exact ⟨entry.1, entry.2, rest, mask, code.1, code.2, rfl, written, found, returned⟩

end Search

/-! One missing packet. -/

def numberAt (cycle : Nat) (protection : Protection) (offset : Nat) : Nat :=
  cycle * 65536 + protection.base.toNat + offset

theorem numberAt_zero (protection : Protection) (offset : Nat)
    : numberAt 0 protection offset = protection.base.toNat + offset := by
  rw [numberAt, Nat.zero_mul, Nat.zero_add]

/-- A code can be used to rebuild a lost packet: all others that it protects are there, and so is
a later one.
-/
structure Usable (medkit : Medkit) (decoder : FECDecoder) (fec : FECData) (number : Nat)
    : Prop where
  absent : number ∉ decoder.medias.keys
  followed : ∃ key ∈ decoder.medias.keys, number < key
  isProtected : fec.isProtectedAtLevel0 medkit number = true
  others
    : ∀ i, i < 64 → maskBit (fec.getLevel0Mask medkit) i = true
      → fec.getBaseExtSeq medkit + i ≠ number
      → fec.getBaseExtSeq medkit + i ∈ decoder.medias.keys

/-- Plain packets of one cycle of numbers, and codes that do not begin below the lowest one. One
of them protects packets that the decoder has, all but one; it is the first that can be used for
this one.
-/
structure OneMissing (medkit : Medkit) (sent : Nat → RTPMediaPacket) (decoder : FECDecoder)
    (cycle : Nat) (protection : Protection) (missing : Nat) : Prop where
  plain : ∀ number, Plain (sent number)
  numbered : ∀ number, number / 65536 = cycle → (sent number).getExtSeqNum = number
  oneCycle : ∀ key ∈ decoder.medias.keys, key / 65536 = cycle
  inCycle
    : ∀ entry ∈ decoder.codes.entries, ∀ i, i < 64
      → maskBit (entry.2.getLevel0Mask medkit) i = true
      → entry.2.getBaseExtSeq medkit + i < 65536
  lowest
    : ∀ entry ∈ decoder.codes.entries, ∃ key ∈ decoder.medias.keys,
      key ≤ cycle * 65536 + entry.2.getBaseExtSeq medkit
  code
    : (protection.base.toNat, .new (protection.encode medkit
        (protection.total (fun offset => sent (numberAt cycle protection offset)))))
      ∈ decoder.codes.entries
  distinct : protection.offsets.Nodup
  inMask : ∀ offset ∈ protection.offsets, offset < if protection.long then 48 else 16
  covers
    : ∀ offset ∈ protection.offsets,
      (sent (numberAt cycle protection offset)).payload.length ≤ protection.length.toNat
  selected : missing ∈ protection.offsets
  absent : numberAt cycle protection missing ∉ decoder.medias.keys
  present
    : ∀ offset ∈ protection.offsets, offset ≠ missing
      → numberAt cycle protection offset ∈ decoder.medias.keys
  first
    : ∀ entry ∈ decoder.codes.entries, entry.1 < protection.base.toNat
      → ¬ Usable medkit decoder entry.2 (numberAt cycle protection missing)

def Recovers (platform : Platform) (decoder : FECDecoder) (original : RTPMediaPacket) : Prop :=
  ∃ after packet, decoder.recover platform = .ok (after, some packet) ∧ Same packet original

/-- The numbers have not wrapped, a later packet is there, no packet before it can be rebuilt, the
code was received up to the end of the packet, the first kept packet has its source, and its type
is not taken for a codec.
-/
structure Recoverable (platform : Platform) (decoder : FECDecoder) (cycle number : Nat)
    (protection : Protection) (original : RTPMediaPacket) : Prop where
  firstCycle : cycle = 0
  followed : ∃ key ∈ decoder.medias.keys, number < key
  next
    : ∀ entry ∈ decoder.codes.entries, ∀ lower < number,
      ¬ Usable platform.medkit decoder entry.2 lower
  received : protection.offset + original.payload.length ≤ mtu
  source : ∀ entry ∈ decoder.medias.entries.head?, entry.2.ssrc = original.ssrc
  codec : ¬ (original.type.toUInt32 = platform.red ∨ original.type.toUInt32 = platform.ulpfec)

/-- An entry that does not stand behind another one stands before it. -/
theorem mem_before {ε : Type} {order : ε → ε → Prop} {before behind : List ε} {entry other : ε}
    (sorted : (before ++ entry :: behind).Pairwise order)
    (member : other ∈ before ++ entry :: behind)
    (different : other ≠ entry) (notBehind : ¬ order entry other)
    : other ∈ before := by
  rcases mem_append.mp member with isBefore | isBehind
  · exact isBefore
  · have later := (mem_cons.mp isBehind).resolve_left different
    exact absurd ((pairwise_cons.mp (pairwise_append.mp sorted).2.1).1 other later) notBehind

section Usable

variable {platform : Platform} {decoder : FECDecoder} {mask : QWORD} {lowest : Nat}
  {losts : List Nat}
  (presence : ∀ i, i < 64 → maskBit mask i = decide (lowest + i ∈ decoder.medias.keys))
  (isLost : ∀ seq, seq ∈ losts
    ↔ seq ∉ decoder.medias.keys ∧ lowest < seq ∧ ∃ key ∈ decoder.medias.keys, seq < key)
  (ascending : losts.Pairwise (· < ·)) (isKept : lowest ∈ decoder.medias.keys)
  (narrow : ∀ key ∈ decoder.medias.keys, key ≤ lowest + 63)
  (below : ∀ entry ∈ decoder.codes.entries,
    lowest ≤ entry.2.getBaseExtSeq platform.medkit)

include presence isLost isKept narrow below

/-- The loops look for a code that can be used. -/
theorem usable_iff {entry : Nat × FECData} (member : entry ∈ decoder.codes.entries) {seq : Nat}
    : Usable platform.medkit decoder entry.2 seq
      ↔ seq ∈ losts ∧ canRecover platform mask lowest seq entry.2 = true := by
  constructor
  · rintro ⟨absent, ⟨key, isKey, before⟩, isProtected, others⟩
    have near := narrow key isKey
    obtain ⟨-, above, -⟩ := isProtected_iff.mp isProtected
    have different : lowest ≠ seq := fun same => absent (same ▸ isKept)
    have start := below entry member
    exact ⟨(isLost seq).mpr ⟨absent, by omega, key, isKey, before⟩,
      (canRecover_iff presence narrow (by omega) start).mpr ⟨isProtected, others⟩⟩
  · rintro ⟨lost, can⟩
    obtain ⟨absent, -, key, isKey, before⟩ := (isLost seq).mp lost
    have near := narrow key isKey
    obtain ⟨isProtected, others⟩ :=
      (canRecover_iff presence narrow (by omega) (below entry member)).mp can
    exact ⟨absent, ⟨key, isKey, before⟩, isProtected, others⟩

include ascending

/-- They end at the lowest number for which there is one, and at the first code for it. -/
theorem findCode_iff {seq : Nat} {fec : FECData}
    : findCode platform decoder mask lowest losts = some (seq, fec)
      ↔ ∃ key, (key, fec) ∈ decoder.codes.entries
        ∧ Usable platform.medkit decoder fec seq
        ∧ (∀ entry ∈ decoder.codes.entries, ∀ lower < seq,
          ¬ Usable platform.medkit decoder entry.2 lower)
        ∧ ∀ entry ∈ decoder.codes.entries, entry.1 < key
          → ¬ Usable platform.medkit decoder entry.2 seq := by
  have usable := @usable_iff platform decoder mask lowest losts presence isLost isKept narrow below
  rw [findCode, findSome?_eq_some_iff]
  constructor
  · rintro ⟨before, _, behind, split, result, none⟩
    obtain ⟨entry, found, same⟩ := Option.map_eq_some_iff.mp result
    cases same
    have member := mem_of_find?_eq_some found
    obtain ⟨can, front, back, entries, earlier⟩ := find?_eq_some_iff_append.mp found
    refine ⟨entry.1, member, (usable member).mpr ⟨by simp [split], can⟩,
      fun other isOther lower less isUsable => ?_, fun other isOther less isUsable => ?_⟩
    · obtain ⟨lost, can⟩ := (usable isOther).mp isUsable
      rw [split] at lost ascending
      have isBefore := mem_before ascending lost less.ne less.not_gt
      have unusable := find?_eq_none.mp (Option.map_eq_none_iff.mp (none lower isBefore))
      exact unusable other isOther can
    · have can := ((usable isOther).mp isUsable).2
      have sorted := decoder.codes.sorted
      rw [entries] at isOther sorted
      have isFront := mem_before sorted isOther (fun same => less.ne (same ▸ rfl)) less.not_gt
      simpa [can] using earlier other isFront
  · rintro ⟨key, member, isUsable, lower, first⟩
    obtain ⟨lost, can⟩ := (usable member).mp isUsable
    obtain ⟨before, behind, split⟩ := append_of_mem lost
    obtain ⟨front, back, entries⟩ := append_of_mem member
    refine ⟨before, seq, behind, split, ?_, fun other isBefore => ?_⟩
    · refine Option.map_eq_some_iff.mpr ⟨(key, fec), find?_eq_some_iff_append.mpr
        ⟨can, front, back, entries, fun other isFront => ?_⟩, rfl⟩
      have isOther : other ∈ decoder.codes.entries := by simp [entries, isFront]
      have sorted := decoder.codes.sorted
      rw [entries] at sorted
      have less := (pairwise_append.mp sorted).2.2 other isFront _ (.head _)
      rw [Bool.not_eq_true', ← Bool.not_eq_true]
      exact fun can => first other isOther less ((usable isOther).mpr ⟨lost, can⟩)
    · rw [Option.map_eq_none_iff, find?_eq_none]
      intro other isOther can
      rw [split] at ascending
      have less := (pairwise_append.mp ascending).2.2 _ isBefore seq (.head _)
      exact lower other isOther _ less ((usable isOther).mpr ⟨by simp [split, isBefore], can⟩)

end Usable

section OneMissing

variable {platform : Platform} {sent : Nat → RTPMediaPacket} {decoder : FECDecoder} {cycle : Nat}
  {protection : Protection} {missing : Nat}

/-- Packets that are there are taken out one by one. -/
theorem matches_foldl {medkit : Medkit} {size : Nat} (small : size ≤ mtu)
    (isSize : fec.getLevel0Size medkit = size) {fields : Nat → Content} {positions : List Nat}
    (present
      : ∀ i ∈ positions, ∃ media, decoder.medias.find? (fec.getBaseExtSeq medkit + i) = some media
        ∧ media.fields = fields i ∧ media.type &&& 0x7F = media.type) {recovered : Recovered}
    {content : Content} (isMatch : recovered.Matches size content)
    : (positions.foldl (fun recovered i => removeAt medkit decoder fec i recovered)
        recovered).Matches size ((positions.map fields).foldl Content.xor content) := by
  induction positions generalizing recovered content with
  | nil => exact isMatch
  | cons i rest ih =>
    obtain ⟨media, found, same, type⟩ := present i (.head rest)
    have removed : removeAt medkit decoder fec i recovered = recovered.remove size media := by
      rw [removeAt, found, isSize]
    rw [foldl_cons, removed, map_cons, foldl_cons, ← same]
    exact ih (fun other member => present other (.tail i member)) (isMatch.remove small type)

theorem mem_positions {offsets : List Nat}
    (bits : ∀ i, i < 64 → maskBit mask i = decide (i ∈ offsets ∧ i ≠ missing))
    (small : ∀ offset ∈ offsets, offset < 64) (i : Nat)
    : i ∈ (List.range 64).filter (maskBit mask) ↔ i ∈ offsets ∧ i ≠ missing := by
  rw [mem_filter, mem_range]
  constructor
  · rintro ⟨inside, set⟩
    rw [bits i inside] at set
    exact of_decide_eq_true set
  · intro isOther
    have inside := small i isOther.1
    rw [bits i inside]
    exact ⟨inside, decide_eq_true isOther⟩

/-- The set bits are the offsets but the missing one. -/
theorem positions_perm {offsets : List Nat} (distinct : offsets.Nodup)
    (selected : missing ∈ offsets)
    (others : ∀ i, i ∈ (List.range 64).filter (maskBit mask) ↔ i ∈ offsets ∧ i ≠ missing)
    : offsets.Perm (missing :: (List.range 64).filter (maskBit mask)) := by
  have nodup : (missing :: (List.range 64).filter (maskBit mask)).Nodup :=
    nodup_cons.mpr
      ⟨fun member => ((others missing).mp member).2 rfl, nodup_range.filter _⟩
  refine (perm_ext_iff_of_nodup distinct nodup).mpr (fun i => ?_)
  rw [mem_cons, others i]
  by_cases same : i = missing
  · simp [same, selected]
  · simp [same]

variable {fec : FECData}

section Code

variable (bigEndian : platform.medkit.BigEndian) {content : Content}
  (isCode : fec = .new (protection.encode platform.medkit content))

include bigEndian isCode

theorem base_of_code : fec.getBaseExtSeq platform.medkit = protection.base.toNat := by
  rw [getBaseExtSeq_eq, isCode, getBaseSeqNum_encode bigEndian.order]

theorem size_of_code
    : fec.getLevel0Size platform.medkit
      = min protection.length.toNat (mtu - protection.offset) := by
  rw [isCode, getLevel0Size_encode bigEndian.order]

end Code

theorem OneMissing.position (bigEndian : platform.medkit.BigEndian)
    (scene : OneMissing platform.medkit sent decoder cycle protection missing)
    : missing < 48 ∧ protection.base.toNat + missing < 65536 := by
  have small : missing < 48 := by
    have := scene.inMask missing scene.selected
    split_ifs at this <;> omega
  have inCycle := scene.inCycle _ scene.code missing (by omega)
  rw [base_of_code bigEndian rfl, maskBit_getLevel0Mask bigEndian.order scene.inMask (by omega),
    decide_eq_true_iff] at inCycle
  exact ⟨small, inCycle scene.selected⟩

/-- Within the first cycle a number that a packet follows is known from its low half. -/
theorem OneMissing.eq_of_low (bigEndian : platform.medkit.BigEndian)
    (scene : OneMissing platform.medkit sent decoder 0 protection missing) {number : Nat}
    (followed : ∃ key ∈ decoder.medias.keys, number < key)
    (low : number % 65536 = (sent (numberAt 0 protection missing)).seqNum.toNat)
    : number = numberAt 0 protection missing := by
  obtain ⟨key, isKey, above⟩ := followed
  have position := scene.position bigEndian
  have word := scene.numbered (numberAt 0 protection missing) (by rw [numberAt]; omega)
  have inCycle := scene.oneCycle key isKey
  rw [getExtSeqNum, extSeqNum_eq, ← low, numberAt] at word
  rw [numberAt]
  omega

/-- The rebuilt packet is the original one if the code covers it and the source is the same. -/
theorem same_rebuilt_iff {recovered : Recovered} {original : RTPMediaPacket} {size number : Nat}
    {ssrc : DWORD} (isMatch : recovered.Matches size original.fields)
    (isSize : fec.getLevel0Size platform.medkit = size) (plain : Plain original)
    (numbered : original.seqNum = .ofNat number)
    : Same (rebuilt platform fec ssrc number recovered) original
      ↔ original.payload.length ≤ size ∧ ssrc = original.ssrc := by
  obtain ⟨m, pt, ts, l, length, data⟩ := isMatch
  have type : recovered.pt &&& 0x7F = original.type := by
    rw [pt]
    show original.type &&& 0x7F &&& 0x7F = original.type
    rw [plain.type, plain.type]
  have announced : recovered.l.toNat = original.payload.length := by
    rw [l]
    have := original.fits
    rw [maxMediaLength] at this
    exact Nat.mod_eq_of_lt (by omega)
  constructor
  · intro same
    have payload := congrArg List.length same.payload
    rw [rebuilt, length_take, announced, isSize, length] at payload
    exact ⟨by omega, same.ssrc⟩
  · rintro ⟨covered, source⟩
    refine ⟨numbered.symm, m, type, ts, source, ?_⟩
    show recovered.data.take
      (min recovered.l.toNat (fec.getLevel0Size platform.medkit)) = original.payload
    have fits := getLevel0Size_le platform.medkit fec
    rw [announced, isSize, Nat.min_eq_left covered]
    refine ext_getElem (by rw [length_take]; omega) (fun i _ inside => ?_)
    have byte := data i (by omega)
    rw [getElem_take, ← getD_eq_getElem _ 0, byte]
    exact getD_eq_getElem _ 0 inside

theorem rebuild_some {after : FECDecoder} {ssrc : DWORD} {seq : Nat}
    (result : decoder.rebuild platform ssrc seq fec = .ok (after, some packet))
    : ∃ recovered, removeAll platform decoder seq fec = .ok recovered
      ∧ packet = rebuilt platform fec ssrc seq recovered
      ∧ ¬ (packet.codec = platform.red ∨ packet.codec = platform.ulpfec) := by
  rw [rebuild] at result
  cases loop : removeAll platform decoder seq fec with
  | error error =>
    simp only [loop] at result
    cases result
  | ok recovered =>
    simp only [loop] at result
    split_ifs at result with mistaken
    cases result
    exact ⟨recovered, rfl, rfl, mistaken⟩

section InFirstCycle

variable (bigEndian : platform.medkit.BigEndian)
  (scene : OneMissing platform.medkit sent decoder 0 protection missing)
  (isCode : fec = .new (protection.encode platform.medkit
    (protection.total (fun offset => sent (numberAt 0 protection offset)))))

include bigEndian scene isCode

theorem needed_of_code (isProtected : fec.isProtectedAtLevel0 platform.medkit
      (numberAt 0 protection missing) = true) (i : Nat) (inside : i < 64)
    : maskBit (neededMask platform fec (numberAt 0 protection missing)) i
      = decide (i ∈ protection.offsets ∧ i ≠ missing) := by
  rw [maskBit_neededMask isProtected inside, base_of_code bigEndian isCode, isCode,
    maskBit_getLevel0Mask bigEndian.order scene.inMask inside, ← Bool.decide_and]
  refine decide_eq_decide.mpr (and_congr_right (fun _ => ?_))
  rw [numberAt]
  omega

theorem usable_missing
    (followed : ∃ key ∈ decoder.medias.keys, numberAt 0 protection missing < key)
    : Usable platform.medkit decoder fec (numberAt 0 protection missing) := by
  have base := base_of_code bigEndian isCode
  have number := numberAt_zero protection
  have bits : ∀ i, i < 64
      → (maskBit (fec.getLevel0Mask platform.medkit) i = true ↔ i ∈ protection.offsets) := by
    intro i inside
    rw [isCode, maskBit_getLevel0Mask bigEndian.order scene.inMask inside,
      decide_eq_true_iff]
  have position := scene.position bigEndian
  refine ⟨scene.absent, followed, ?_, fun i inside set different => ?_⟩
  · rw [isProtected_iff, base, number, Nat.add_sub_cancel_left, bits missing (by omega)]
    exact ⟨by omega, by omega, by omega, scene.selected⟩
  · rw [base, ← number] at different ⊢
    exact scene.present i ((bits i inside).mp set) (fun same => different (same ▸ rfl))

variable (sound : decoder.Sound (fun packet => packet.fields = (sent packet.getExtSeqNum).fields))

include sound

theorem media_of_code {i : Nat} (isOther : i ∈ protection.offsets ∧ i ≠ missing)
    : ∃ media, decoder.medias.find? (fec.getBaseExtSeq platform.medkit + i) = some media
      ∧ media.fields = (sent (numberAt 0 protection i)).fields
      ∧ media.type &&& 0x7F = media.type := by
  have kept := scene.present i isOther.1 isOther.2
  rw [numberAt_zero] at kept ⊢
  obtain ⟨media, found⟩ := Option.isSome_iff_exists.mp (mem_keys.mp kept)
  have fields := sound.arrived _ _ found
  rw [← sound.keyed _ _ found] at fields
  refine ⟨media, by rw [base_of_code bigEndian isCode, found], fields, ?_⟩
  rw [show media.type = (sent (protection.base.toNat + i)).type from congrArg Content.pt fields]
  exact (scene.plain _).type

/-- The loop over the mask takes out all packets but the missing one. -/
theorem matches_missing
    (isProtected : fec.isProtectedAtLevel0 platform.medkit (numberAt 0 protection missing) = true)
    : ∃ recovered, removeAll platform decoder (numberAt 0 protection missing) fec = .ok recovered
      ∧ recovered.Matches (min protection.length.toNat (mtu - protection.offset))
        (sent (numberAt 0 protection missing)).fields := by
  have small : ∀ offset ∈ protection.offsets, offset < 64 := by
    intro offset member
    have := scene.inMask offset member
    split_ifs at this <;> omega
  have others := mem_positions (needed_of_code bigEndian scene isCode isProtected) small
  have perm := positions_perm scene.distinct scene.selected others
  have leaves := @new_leaves
    (platform.medkit.set8 (neededMask platform fec (numberAt 0 protection missing)))
    (by rw [bigEndian.length_set8])
  rw [bigEndian.length_set8, bigEndian.number_set8] at leaves
  have loop := forEachSet_eq bigEndian
    (removeAt platform.medkit decoder fec) leaves (recovery platform.medkit fec)
  refine ⟨_, loop, ?_⟩
  have filtered := @foldl_filter _ _
    (maskBit (neededMask platform fec (numberAt 0 protection missing)))
    (fun recovered i => removeAt platform.medkit decoder fec i recovered)
    (List.range 64) (recovery platform.medkit fec)
  simp only [Nat.zero_add]
  refine filtered ▸ ?_
  have size := size_of_code bigEndian isCode
  have start := recovery_matches bigEndian.order protection
    (protection.total (fun offset => sent (numberAt 0 protection offset)))
  rw [← isCode] at start
  have result := matches_foldl (by omega) size
    (fun i member => media_of_code bigEndian scene isCode sound ((others i).mp member)) start
  rw [Protection.total, foldl_cancel Content.xor_comm Content.xor_assoc Content.zero_xor
    Content.xor_self (perm.map (fun offset => (sent (numberAt 0 protection offset)).fields))]
    at result
  exact result

/-- Once the code is found, the rest of the conditions decides. -/
theorem rebuild_iff
    (isProtected : fec.isProtectedAtLevel0 platform.medkit (numberAt 0 protection missing) = true)
    {original : RTPMediaPacket} (isOriginal : original = sent (numberAt 0 protection missing))
    (ssrc : DWORD)
    : (∃ after packet,
        decoder.rebuild platform ssrc (numberAt 0 protection missing) fec
          = .ok (after, some packet)
        ∧ Same packet original)
      ↔ protection.offset + original.payload.length ≤ mtu ∧ ssrc = original.ssrc
        ∧ ¬ (original.type.toUInt32 = platform.red ∨ original.type.toUInt32 = platform.ulpfec) := by
  obtain ⟨recovered, loop, isMatch⟩ := matches_missing bigEndian scene isCode sound isProtected
  have size := size_of_code bigEndian isCode
  set lost := numberAt 0 protection missing with isLost
  have covered := scene.covers missing scene.selected
  have position := scene.position bigEndian
  have number := scene.numbered lost (by rw [isLost, numberAt]; omega)
  have plain := scene.plain lost
  rw [← isOriginal] at isMatch covered number plain
  have numbered : original.seqNum = .ofNat lost := by
    rw [getExtSeqNum, extSeqNum_eq] at number
    apply UInt16.toNat_inj.mp
    have := original.seqNum.toNat_lt
    rw [UInt16.toNat_ofNat', ← number]
    omega
  have same :=
    @same_rebuilt_iff platform fec recovered original _ _ ssrc isMatch size plain numbered
  have codec : (rebuilt platform fec ssrc lost recovered).codec
      = original.type.toUInt32 := by
    rw [rebuilt, isMatch.pt]
    exact congrArg UInt8.toUInt32 plain.type
  have offset : protection.offset ≤ mtu := by
    rw [Protection.offset]
    split_ifs <;> decide
  constructor
  · rintro ⟨after, packet, result, isSame⟩
    obtain ⟨other, loop', isPacket, notMistaken⟩ := rebuild_some result
    rw [loop] at loop'
    cases loop'
    rw [isPacket] at isSame notMistaken
    rw [codec] at notMistaken
    obtain ⟨received, source⟩ := same.mp isSame
    exact ⟨by omega, source, notMistaken⟩
  · rintro ⟨received, source, notMistaken⟩
    refine ⟨(decoder.addPacket platform.medkit
        (.media (rebuilt platform fec ssrc lost recovered))).1,
      rebuilt platform fec ssrc lost recovered, ?_,
      same.mpr ⟨by omega, source⟩⟩
    simp only [rebuild, loop]
    exact if_neg (codec ▸ notMistaken)

end InFirstCycle

variable (bigEndian : platform.medkit.BigEndian)
  (sound : decoder.Sound (fun packet => packet.fields = (sent packet.getExtSeqNum).fields))
  (scene : OneMissing platform.medkit sent decoder cycle protection missing)

include sound bigEndian scene

/-- The first entry of the decoder, with the bounds that the search needs. -/
theorem lowest_of_oneMissing
    : ∃ lowest first rest, decoder.medias.entries = (lowest, first) :: rest
      ∧ lowest ∈ decoder.medias.keys ∧ lowest / 65536 = cycle ∧ lowest + 1 < 4294967296
      ∧ ∀ entry ∈ decoder.codes.entries,
        lowest ≤ cycle * 65536 + entry.2.getBaseExtSeq platform.medkit := by
  obtain ⟨low, isLow, under⟩ := scene.lowest _ scene.code
  rw [base_of_code bigEndian rfl] at under
  cases entries : decoder.medias.entries with
  | nil =>
    rw [OrderedMap.keys, entries] at isLow
    cases isLow
  | cons entry rest =>
    have isKept : entry.1 ∈ decoder.medias.keys := keys_of_entries entries ▸ .head _
    have least := lowest_le entries isLow
    have inCycle := scene.oneCycle _ isKept
    have word := sound.numbered _ isKept
    have position := scene.position bigEndian
    have different : entry.1 ≠ numberAt cycle protection missing := fun same =>
      scene.absent (same ▸ isKept)
    simp only [numberAt] at different
    refine ⟨entry.1, entry.2, rest, rfl, isKept, inCycle, by omega, fun code member => ?_⟩
    obtain ⟨key, isKey, above⟩ := scene.lowest code member
    exact (lowest_le entries isKey).trans above

/-- Codes are never extended, so that a packet of a later cycle is not found. -/
theorem cycle_of_recovers
    (recovers : Recovers platform decoder (sent (numberAt cycle protection missing)))
    : cycle = 0 := by
  obtain ⟨lowest, first, rest, entries, -, inCycle, small, -⟩ :=
    lowest_of_oneMissing bigEndian sound scene
  obtain ⟨after, packet, returned, -⟩ := recovers
  obtain ⟨_, _, _, mask, seq, fec, entries', -, found, -⟩ := recover_some returned
  cases entries.symm.trans entries'
  obtain ⟨lost, ⟨key, member⟩, can⟩ := findCode_some found
  obtain ⟨-, -, -, -, isLost⟩ := scan_of_sound entries sound bigEndian small
  rw [getExtSeqNum_first entries sound] at lost
  obtain ⟨-, above, -⟩ := (isLost seq).mp lost
  obtain ⟨-, start, near, set⟩ := isProtected_iff.mp (isProtected_of_canRecover can)
  have inside : fec.getBaseExtSeq platform.medkit + _ < 65536 :=
    scene.inCycle _ member _ (by omega) set
  omega

theorem recovers_iff_recoverable
    : Recovers platform decoder (sent (numberAt cycle protection missing))
      ↔ Recoverable platform decoder cycle (numberAt cycle protection missing) protection
        (sent (numberAt cycle protection missing)) := by
  by_cases firstCycle : cycle = 0
  · subst firstCycle
    obtain ⟨lowest, first, rest, entries, isKept, -, small, below⟩ :=
      lowest_of_oneMissing bigEndian sound scene
    obtain ⟨mask, success, presence, ascending, isLost⟩ :=
      scan_of_sound entries sound bigEndian small
    have isFirst := getExtSeqNum_first entries sound
    have search := @findCode_iff platform decoder mask lowest _ presence isLost ascending isKept
      (sound.narrow lowest isKept) (by simpa using below)
    have head : ∀ ssrc, first.ssrc = ssrc
        ↔ ∀ entry ∈ decoder.medias.entries.head?, entry.2.ssrc = ssrc := by
      intro ssrc
      simp [entries]
    have rebuilds := fun usable : Usable platform.medkit decoder _ _ =>
      rebuild_iff bigEndian scene rfl sound usable.isProtected rfl first.ssrc
    constructor
    · rintro ⟨after, packet, returned, same⟩
      obtain ⟨_, _, _, mask', seq, fec, entries', written, found, rebuilt⟩ :=
        recover_some returned
      cases entries.symm.trans entries'
      rw [isFirst] at written found
      cases success.symm.trans written
      obtain ⟨key, member, usable, next, earliest⟩ := search.mp found
      obtain ⟨recovered, -, isPacket, -⟩ := rebuild_some rebuilt
      -- the packet returned has the number of the lost one
      have low : (FECDecoder.rebuilt platform fec first.ssrc seq recovered).seqNum.toNat
          = seq % 65536 := UInt16.toNat_ofNat'
      have isMissing : seq = numberAt 0 protection missing :=
        scene.eq_of_low bigEndian usable.followed
          (low.symm.trans (congrArg UInt16.toNat (isPacket ▸ same.seqNum)))
      subst isMissing
      have own := usable_missing bigEndian scene rfl usable.followed
      have least : key = protection.base.toNat :=
        Nat.le_antisymm (Nat.le_of_not_lt fun less => earliest _ scene.code less own)
          (Nat.le_of_not_lt fun less => scene.first _ member less usable)
      subst least
      cases (find?_eq_some_iff.mpr member).symm.trans (find?_eq_some_iff.mpr scene.code)
      obtain ⟨received, source, codec⟩ := (rebuilds usable).mp ⟨after, packet, rebuilt, same⟩
      exact ⟨rfl, usable.followed, next, received, (head _).mp source, codec⟩
    · rintro ⟨-, followed, next, received, source, codec⟩
      have usable := usable_missing bigEndian scene rfl followed
      have found := search.mpr ⟨_, scene.code, usable, next, scene.first⟩
      obtain ⟨after, packet, rebuilt, same⟩ :=
        (rebuilds usable).mpr ⟨received, (head _).mpr source, codec⟩
      refine ⟨after, packet, ?_, same⟩
      rw [recover, entries]
      simp only [isFirst, success, found]
      exact rebuilt
  · exact ⟨fun recovers => absurd (cycle_of_recovers bigEndian sound scene recovers) firstCycle,
      fun recoverable => absurd recoverable.firstCycle firstCycle⟩

end OneMissing

/-! What is returned. -/

/-- A packet was built from a code for its number. If the code does not begin below the lowest
kept number, the other packets that it selects were there.
-/
def BuiltFromCode (medkit : Medkit) (decoder : FECDecoder) (packet : RTPMediaPacket) : Prop :=
  ∃ key fec seq, (key, fec) ∈ decoder.codes.entries ∧ packet.seqNum = .ofNat seq
    ∧ fec.isProtectedAtLevel0 medkit seq = true
    ∧ ((∃ low ∈ decoder.medias.keys, low ≤ fec.getBaseExtSeq medkit)
      → ∀ i, i < 64 → maskBit (fec.getLevel0Mask medkit) i = true
        → fec.getBaseExtSeq medkit + i ≠ seq
        → fec.getBaseExtSeq medkit + i ∈ decoder.medias.keys)

theorem builtFromCode_of_recover {platform : Platform} (bigEndian : platform.medkit.BigEndian)
    {decoder : FECDecoder} (sound : decoder.Sound arrived)
    {after : FECDecoder} {packet : RTPMediaPacket}
    (returned : decoder.recover platform = .ok (after, some packet))
    : BuiltFromCode platform.medkit decoder packet := by
  obtain ⟨lowest, first, rest, mask, seq, fec, entries, written, found, rebuilt⟩ :=
    recover_some returned
  obtain ⟨lost, ⟨key, member⟩, can⟩ := findCode_some found
  obtain ⟨recovered, -, isPacket, -⟩ := rebuild_some rebuilt
  refine ⟨key, fec, seq, member, congrArg (·.seqNum) isPacket, isProtected_of_canRecover can, ?_⟩
  rintro ⟨low, isLow, under⟩
  have isKept : lowest ∈ decoder.medias.keys := keys_of_entries entries ▸ .head _
  have narrow := sound.narrow lowest isKept
  have below : lowest ≤ fec.getBaseExtSeq platform.medkit :=
    (lowest_le entries isLow).trans under
  have small : lowest + 1 < 4294967296 := by
    rw [getBaseExtSeq_eq] at below
    have := (fec.getBaseSeqNum platform.medkit).toNat_lt
    omega
  obtain ⟨mask', success, presence, -, isLost⟩ := scan_of_sound entries sound bigEndian small
  rw [getExtSeqNum_first entries sound] at written lost can
  cases success.symm.trans written
  obtain ⟨-, -, highest, isKey, before⟩ := (isLost seq).mp lost
  have near := narrow highest isKey
  exact ((canRecover_iff presence narrow (by omega) below).mp can).2

def examplePlatform : Platform where
  medkit := .bigEndian
  red := 108
  ulpfec := 109
  wideShift mask count := mask <<< .ofNat (count % 64)
  now := 0

def packetOf (source : DWORD) (number : Nat) : RTPMediaPacket where
  seqNum := .ofNat number
  ssrc := source
  timestamp := .ofNat (number * 3000)
  codec := 34
  clockRate := 90000
  type := 34
  payload := [.ofNat number, 7]
  fits := Nat.le_add_left 2 1686

/-- Packets 100 to 102, of which the second one is lost. -/
def protectionOf : Protection := ⟨100, false, [0, 1, 2], 2⟩

def codeOf (source : DWORD) (protection : Protection) : List BYTE :=
  protection.encode .bigEndian
    (protection.total (fun offset => packetOf source (numberAt 0 protection offset)))

/-- All packets of another code are there. -/
def arrivalsOf (source : DWORD) : List Arrival :=
  [.media (packetOf source 90), .media (packetOf source 91),
    .ulpfec (codeOf source ⟨90, false, [0, 1], 2⟩), .media (packetOf source 100),
    .media (packetOf source 102), .ulpfec (codeOf source protectionOf)]

def decoderOf (source : DWORD) : FECDecoder :=
  Foundation.run (step .bigEndian) {} (arrivalsOf source)

theorem getExtSeqNum_packetOf (source : DWORD) {number : Nat} (small : number < 65536)
    : (packetOf source number).getExtSeqNum = number := by
  rw [getExtSeqNum, extSeqNum_eq]
  show (0 : WORD).toNat * 65536 + (UInt16.ofNat number).toNat = number
  rw [UInt16.toNat_ofNat', UInt16.toNat_zero]
  omega

theorem carries_arrivalsOf (source : DWORD)
    : ∀ arrival ∈ arrivalsOf source, Carries (packetOf source) arrival := by
  have media : ∀ number < 65536, Carries (packetOf source) (.media (packetOf source number)) := by
    intro number small
    rw [Carries, getExtSeqNum_packetOf source small]
    exact ⟨rfl, rfl, rfl, rfl, rfl, rfl⟩
  simp only [arrivalsOf, forall_mem_cons]
  exact ⟨media 90 (by decide), media 91 (by decide), trivial, media 100 (by decide),
    media 102 (by decide), trivial, nofun⟩

/-- What a code protects below the lost packet is there. -/
theorem kept_arrivalsOf {source : DWORD} (isSource : source = 0 ∨ source = 5)
    : ∀ entry ∈ (decoderOf source).codes.entries,
      ∀ lower < 101, entry.2.isProtectedAtLevel0 .bigEndian lower = true
        → lower ∈ (decoderOf source).medias.keys := by
  rcases isSource with rfl | rfl <;> decide +kernel

theorem oneMissing_arrivalsOf {source : DWORD} (isSource : source = 0 ∨ source = 5)
    : OneMissing .bigEndian (packetOf source)
      (decoderOf source) 0 protectionOf 1 where
  plain number := ⟨rfl, rfl, rfl, (by decide : (34 : BYTE) &&& 0x7F = 34)⟩
  numbered number inCycle := getExtSeqNum_packetOf source (by omega)
  oneCycle := by rcases isSource with rfl | rfl <;> decide +kernel
  inCycle := by rcases isSource with rfl | rfl <;> decide +kernel
  lowest := by rcases isSource with rfl | rfl <;> decide +kernel
  code := by rcases isSource with rfl | rfl <;> decide +kernel
  distinct := by decide
  inMask := by decide
  covers offset _ := Nat.le_refl 2
  selected := by decide
  absent := by rcases isSource with rfl | rfl <;> decide +kernel
  present := by rcases isSource with rfl | rfl <;> decide +kernel
  first := by
    have other : ∀ entry ∈ (decoderOf source).codes.entries,
        entry.1 < protectionOf.base.toNat
          → entry.2.isProtectedAtLevel0 .bigEndian (numberAt 0 protectionOf 1) = false := by
      rcases isSource with rfl | rfl <;> decide +kernel
    intro entry member before usable
    cases (other entry member before).symm.trans usable.isProtected

end FECDecoder

end MediaServer.Fec
