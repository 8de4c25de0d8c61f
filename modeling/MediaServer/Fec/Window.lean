import MediaServer.Fec.Decoder
import MediaServer.Foundation.Runs

/-! The FEC decoder keeps a window of 64 numbers behind the last media packet, from the moment
that this packet has a number of at least 63.
-/

namespace MediaServer.Fec

open Foundation Rtp OrderedMap

namespace FECDecoder

/-- What the tables hold behind a media packet. The highest kept number is that of the media
table; `codes` are the recovery codes before they are pruned.
-/
structure Window (before : FECDecoder) (packet : RTPMediaPacket)
    (codes : OrderedMap Nat FECData) (after : FECDecoder) : Prop where
  added
    : after.medias.find? packet.getExtSeqNum = some packet
      ∨ ∃ key ∈ after.medias.keys, packet.getExtSeqNum + 63 < key
  kept
    : ∀ key old, key ≠ packet.getExtSeqNum → before.medias.find? key = some old
      → (∀ highest ∈ after.medias.keys, highest ≤ key + 63) → after.medias.find? key = some old
  only
    : ∀ key stored, after.medias.find? key = some stored
      → (key = packet.getExtSeqNum ∧ stored = packet) ∨ before.medias.find? key = some stored
  nothingOlder : ∀ key ∈ after.medias.keys, ∀ highest ∈ after.medias.keys, highest ≤ key + 63
  keptCodes
    : ∀ key code, codes.find? key = some code
      → (∀ highest ∈ after.medias.keys, highest ≤ key + 63) → after.codes.find? key = some code
  onlyCodes : ∀ key code, after.codes.find? key = some code → codes.find? key = some code
  noOlderCodes : ∀ key ∈ after.codes.keys, ∀ highest ∈ after.medias.keys, highest ≤ key + 63

/-- An arrival with media leaves a window. -/
def Windowed (medkit : Medkit) (decoder : FECDecoder) (arrival : Arrival) : Prop :=
  match content arrival with
  | (none, _) => True
  | (some packet, codes) =>
    Window decoder packet (codes.foldl (addCode medkit) decoder.codes)
      (decoder.addPacket medkit arrival).1

/-- The media packet, or one that is kept, has a number of at least 63. -/
def Permits (decoder : FECDecoder) (arrival : Arrival) : Prop :=
  match (content arrival).1 with
  | none => True
  | some packet => 63 ≤ packet.getExtSeqNum ∨ ∃ key ∈ decoder.medias.keys, 63 ≤ key

instance (decoder : FECDecoder) (arrival : Arrival) : Decidable (decoder.Permits arrival) := by
  unfold Permits
  split <;> infer_instance

/-- Numbers are words of 32 bits. -/
def Numbered (decoder : FECDecoder) : Prop := ∀ key ∈ decoder.medias.keys, key < 4294967296

theorem oldest_eq {seq : Nat} (high : 63 ≤ seq) (word : seq < 4294967296)
    : oldest seq = seq - 63 := by
  rw [oldest]
  omega

/-- The bound of a small number lies above all small numbers. -/
theorem lt_oldest {seq key : Nat} (low : seq < 63) (below : key ≤ seq) : key < oldest seq := by
  rw [oldest]
  omega

section Pruned

variable {medias : OrderedMap Nat RTPMediaPacket} {codes : OrderedMap Nat FECData} {seq : Nat}

theorem find?_prune (last : medias.keys.getLast? = some seq) (key : Nat)
    : (prune ⟨medias, codes⟩).medias.find? key
        = (if key < oldest seq then none else medias.find? key)
      ∧ (prune ⟨medias, codes⟩).codes.find? key
        = (if key < oldest seq then none else codes.find? key) := by
  simp only [prune, last]
  generalize oldest seq = bound
  exact ⟨OrderedMap.find?_dropBelow _ _ _, OrderedMap.find?_dropBelow _ _ _⟩

/-- Keys that are left have their values. -/
theorem mem_keys_prune (last : medias.keys.getLast? = some seq) {key : Nat}
    : key ∈ (prune ⟨medias, codes⟩).medias.keys ↔ oldest seq ≤ key ∧ key ∈ medias.keys := by
  rw [mem_keys, mem_keys, (find?_prune last key).1]
  split_ifs with below
  · simp [below]
  · simp [Nat.le_of_not_lt below]

end Pruned

section Added

variable {medkit : Medkit} {decoder : FECDecoder} {arrival : Arrival} {packet : RTPMediaPacket}
  {payloads : List (List BYTE)}

theorem addPacket_media (media : content arrival = (some packet, payloads))
    : (decoder.addPacket medkit arrival).1
      = prune ⟨decoder.medias.insert packet.getExtSeqNum packet,
        payloads.foldl (addCode medkit) decoder.codes⟩ := by
  simp only [addPacket, media]

theorem addPacket_codes (noMedia : content arrival = (none, payloads))
    : (decoder.addPacket medkit arrival).1.medias = decoder.medias := by
  simp only [addPacket, noMedia]

/-- The highest number behind a media packet. -/
theorem exists_highest (decoder : FECDecoder) (packet : RTPMediaPacket)
    : ∃ seq, (decoder.medias.insert packet.getExtSeqNum packet).keys.getLast? = some seq
      ∧ packet.getExtSeqNum ≤ seq ∧ (∀ key ∈ decoder.medias.keys, key ≤ seq)
      ∧ (seq = packet.getExtSeqNum ∨ seq ∈ decoder.medias.keys) := by
  have inside : packet.getExtSeqNum ∈ (decoder.medias.insert packet.getExtSeqNum packet).keys :=
    mem_keys_insert.mpr (.inl rfl)
  cases last : (decoder.medias.insert packet.getExtSeqNum packet).keys.getLast? with
  | none =>
    rw [List.getLast?_eq_none_iff.mp last] at inside
    cases inside
  | some seq =>
    obtain ⟨member, largest⟩ := le_of_getLast?_keys last
    refine ⟨seq, rfl, largest _ inside, fun key isKey => ?_, mem_keys_insert.mp member⟩
    exact largest key (mem_keys_insert.mpr (.inr isKey))

theorem window_of_high (numbered : decoder.Numbered) {codes : OrderedMap Nat FECData} {seq : Nat}
    (last : (decoder.medias.insert packet.getExtSeqNum packet).keys.getLast? = some seq)
    (origin : seq = packet.getExtSeqNum ∨ seq ∈ decoder.medias.keys) (high : 63 ≤ seq)
    : Window decoder packet codes
      (prune ⟨decoder.medias.insert packet.getExtSeqNum packet, codes⟩) := by
  have word : seq < 4294967296 := by
    rcases origin with same | old
    · rw [same]
      exact extSeqNum_lt _ _
    · exact numbered seq old
  obtain ⟨isKey, largest⟩ := le_of_getLast?_keys last
  have bound := oldest_eq high word
  have stays
      : seq ∈ (prune ⟨decoder.medias.insert packet.getExtSeqNum packet, codes⟩).medias.keys :=
    (mem_keys_prune last).mpr ⟨by omega, isKey⟩
  have inserted := OrderedMap.find?_insert decoder.medias packet.getExtSeqNum
  refine ⟨?_, ?_, ?_, ?_, ?_, ?_, ?_⟩
  · by_cases near : oldest seq ≤ packet.getExtSeqNum
    · left
      rw [(find?_prune last _).1, if_neg (Nat.not_lt.mpr near), inserted, if_pos rfl]
    · exact .inr ⟨seq, stays, by omega⟩
  · intro key old different found near
    have close := near seq stays
    rw [(find?_prune last _).1, if_neg (by omega), inserted, if_neg different, found]
  · intro key stored found
    rw [(find?_prune last _).1] at found
    split_ifs at found
    rw [inserted] at found
    split_ifs at found with same
    · exact .inl ⟨same, (Option.some.inj found).symm⟩
    · exact .inr found
  · intro key kept highest isHighest
    have low := ((mem_keys_prune last).mp kept).1
    have below := largest highest ((mem_keys_prune last).mp isHighest).2
    omega
  · intro key code found near
    have close := near seq stays
    rw [(find?_prune last _).2, if_neg (by omega), found]
  · intro key code found
    rw [(find?_prune last _).2] at found
    split_ifs at found
    exact found
  · intro key kept highest isHighest
    have below := largest highest ((mem_keys_prune last).mp isHighest).2
    rw [mem_keys, (find?_prune last _).2] at kept
    split_ifs at kept with old
    · cases kept
    · omega

/-- One arrival leaves a window exactly when it is permitted. -/
theorem windowed_iff_permits (numbered : decoder.Numbered)
    : decoder.Windowed medkit arrival ↔ decoder.Permits arrival := by
  unfold Windowed Permits
  rcases shape : content arrival with ⟨_ | packet, payloads⟩
  · exact Iff.rfl
  · simp only [addPacket_media shape]
    obtain ⟨seq, last, above, largest, origin⟩ := exists_highest decoder packet
    constructor
    · intro window
      by_cases high : 63 ≤ seq
      · rcases origin with same | old
        · exact .inl (same ▸ high)
        · exact .inr ⟨seq, old, high⟩
      · -- everything goes, the packet itself and what could excuse its absence
        have empty : ∀ key, key
            ∉ (prune ⟨decoder.medias.insert packet.getExtSeqNum packet,
              payloads.foldl (addCode medkit) decoder.codes⟩).medias.keys := by
          intro key kept
          obtain ⟨old, isKey⟩ := (mem_keys_prune last).mp kept
          have below := (le_of_getLast?_keys last).2 key isKey
          have := lt_oldest (Nat.lt_of_not_le high) below
          omega
        rcases window.added with found | ⟨key, kept, -⟩
        · refine absurd (mem_keys.mpr ?_) (empty packet.getExtSeqNum)
          rw [found]
          rfl
        · exact absurd kept (empty key)
    · intro permitted
      refine window_of_high numbered last origin ?_
      rcases permitted with high | ⟨key, isKey, high⟩
      · exact high.trans above
      · exact high.trans (largest key isKey)

theorem addPacket_numbered (numbered : decoder.Numbered)
    : (decoder.addPacket medkit arrival).1.Numbered := by
  intro key member
  rcases shape : content arrival with ⟨_ | packet, payloads⟩
  · rw [addPacket_codes shape] at member
    exact numbered key member
  · rw [addPacket_media shape] at member
    obtain ⟨seq, last, -⟩ := exists_highest decoder packet
    rcases mem_keys_insert.mp ((mem_keys_prune last).mp member).2 with same | old
    · rw [same]
      exact extSeqNum_lt _ _
    · exact numbered key old

end Added

def step (medkit : Medkit) (decoder : FECDecoder) (arrival : Arrival) : FECDecoder :=
  (decoder.addPacket medkit arrival).1

/-- Every media packet of a run leaves a window of 64 numbers if and only if the highest number
is at least 63 each time.
-/
theorem windowed_iff (medkit : Medkit) (arrivals : List Arrival)
    : EachStep (step medkit) (Windowed medkit) {} arrivals
      ↔ EachStep (step medkit) Permits {} arrivals :=
  eachStep_congr (fun _ _ numbered => addPacket_numbered numbered)
    (fun _ _ numbered => windowed_iff_permits numbered)
    (fun _ member => absurd member List.not_mem_nil) arrivals

/-- Packet 10 is not in the table behind its own arrival. -/
theorem windowed_of_low_number
    : ((({} : FECDecoder).addPacket .bigEndian (.media { seqNum := 10 })).1.medias.keys = [])
      ∧ ¬ ({} : FECDecoder).Windowed .bigEndian (.media { seqNum := 10 }) := by
  refine ⟨by decide, fun windowed => ?_⟩
  have permitted := (windowed_iff_permits (fun _ member => absurd member List.not_mem_nil)).mp
    windowed
  revert permitted
  decide

end FECDecoder

end MediaServer.Fec
