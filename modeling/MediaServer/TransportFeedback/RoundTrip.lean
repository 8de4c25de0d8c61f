import MediaServer.Foundation.Bits
import MediaServer.Foundation.Runs
import MediaServer.TransportFeedback.Field

/-! A report that was built number by number is read back from the wire as it was. -/

namespace MediaServer.TransportFeedback

open Foundation PacketStatus List

namespace TransportWideFeedbackField

theorem code_lt (symbol : Symbol) : symbol.code < 2 ^ 2 := by
  cases symbol <;> decide

theorem ofBits_eq {bits : Nat} {symbol : Symbol} (low : bits % 2 ^ 2 = symbol.code)
    : Symbol.ofBits bits = symbol := by
  rw [Symbol.ofBits, show (0x03 : Nat) = 2 ^ 2 - 1 from rfl, and_mask, low]
  cases symbol <;> rfl

/-- A run covers equal symbols only and is not too long for a chunk. -/
theorem runLength_spec (symbol : Symbol) (rest : List Symbol) {run : Nat}
    (room : run ≤ maxRunLength)
    : ∃ more, runLength symbol rest run = run + more
      ∧ run + more ≤ maxRunLength
      ∧ more ≤ rest.length
      ∧ rest.take more = List.replicate more symbol := by
  induction rest generalizing run with
  | nil => exact ⟨0, rfl, room, Nat.le_refl _, rfl⟩
  | cons next rest ih =>
    rw [runLength]
    split
    · rename_i extends_
      obtain ⟨rfl, below⟩ := extends_
      obtain ⟨more, total, fits, within, same⟩ := ih (show run + 1 ≤ maxRunLength from below)
      refine ⟨more + 1, by omega, by omega, Nat.succ_le_succ within, ?_⟩
      rw [take_succ_cons, same, replicate_succ]
    · exact ⟨0, rfl, room, Nat.zero_le _, rfl⟩

theorem chunkSymbols_runChunk (symbol : Symbol) {run : Nat} (fits : run ≤ maxRunLength)
    (remaining : Nat)
    : chunkSymbols (runChunk symbol run) remaining
      = List.replicate (min run remaining) symbol := by
  have small := code_lt symbol
  rw [maxRunLength] at fits
  have value : (runChunk symbol run).toNat = symbol.code * 2 ^ 13 + run := by
    rw [runChunk, shiftLeft_or _ (by omega), UInt16.toNat_ofNat']
    omega
  have flag : (symbol.code * 2 ^ 13 + run) &&& 2 ^ 15 = 0 := by
    rw [and_bit]
    omega
  have length : (symbol.code * 2 ^ 13 + run) &&& (2 ^ 13 - 1) = run := by
    rw [and_mask]
    omega
  have bits : (symbol.code * 2 ^ 13 + run) >>> 13 % 2 ^ 2 = symbol.code := by
    rw [shiftRight_eq]
    omega
  rw [chunkSymbols, value]
  simp only [maxRunLength]
  rw [show (0x8000 : Nat) = 2 ^ 15 from rfl, show (0x1FFF : Nat) = 2 ^ 13 - 1 from rfl,
    if_pos flag, length, ofBits_eq bits]

/-- Seven codes of two bits below two set bits, each at its place. -/
theorem packedCodes_bits {code : Nat → Nat} (small : ∀ i, code i < 2 ^ 2)
    : let chunk :=
        (List.range 7).foldl (fun chunk i => chunk ||| code i <<< (12 - 2 * i)) 0xC000
      chunk < 2 ^ 16 ∧ chunk / 2 ^ 14 = 3
      ∧ ∀ i, i < 7 → chunk >>> (12 - 2 * i) % 2 ^ 2 = code i := by
  intro chunk
  have value : chunk
      = ((((((3 * 2 ^ 2 + code 0) * 2 ^ 2 + code 1) * 2 ^ 2 + code 2) * 2 ^ 2 + code 3)
          * 2 ^ 2 + code 4) * 2 ^ 2 + code 5) * 2 ^ 2 + code 6 := by
    change (3 <<< 14 ||| code 0 <<< 12 ||| code 1 <<< 10 ||| code 2 <<< 8 ||| code 3 <<< 6
      ||| code 4 <<< 4 ||| code 5 <<< 2) ||| code 6 = _
    rw [shiftLeft_or_shiftLeft 3 (small 0) 12, shiftLeft_or_shiftLeft _ (small 1) 10,
      shiftLeft_or_shiftLeft _ (small 2) 8, shiftLeft_or_shiftLeft _ (small 3) 6,
      shiftLeft_or_shiftLeft _ (small 4) 4, shiftLeft_or_shiftLeft _ (small 5) 2,
      shiftLeft_or _ (small 6)]
  have bounds := And.intro (small 0) (And.intro (small 1) (And.intro (small 2)
    (And.intro (small 3) (And.intro (small 4) (And.intro (small 5) (small 6))))))
  clear_value chunk
  refine ⟨by omega, by omega, ?_⟩
  intro i place
  rw [shiftRight_eq]
  match i, place with
  | 0, _ | 1, _ | 2, _ | 3, _ | 4, _ | 5, _ | 6, _ => omega

theorem chunkSymbols_vectorChunk (symbols : List Symbol)
    : chunkSymbols (vectorChunk symbols) symbols.length = symbols.take 7 := by
  obtain ⟨fits, top, places⟩ :=
    packedCodes_bits (fun i => code_lt (symbols.getD i .notReceived))
  rw [← UInt16.toNat_ofNat_of_lt' fits] at top places
  change (vectorChunk symbols).toNat / _ = _ at top
  change ∀ i, i < 7 → (vectorChunk symbols).toNat >>> (12 - 2 * i) % 2 ^ 2 = _ at places
  have read : (List.range 7).map (fun i =>
      Symbol.ofBits ((vectorChunk symbols).toNat >>> (12 - 2 * i)))
      = (List.range 7).map (fun i => symbols.getD i .notReceived) :=
    map_congr_left (fun i inside => ofBits_eq (places i (mem_range.mp inside)))
  have flag : ¬ (vectorChunk symbols).toNat &&& 0x8000 = 0 := by
    rw [show (0x8000 : Nat) = 2 ^ 15 from rfl, and_bit]
    omega
  have twoBits : ¬ (vectorChunk symbols).toNat &&& 0x4000 = 0 := by
    rw [show (0x4000 : Nat) = 2 ^ 14 from rfl, and_bit]
    omega
  simp only [chunkSymbols]
  rw [if_neg flag, if_neg twoBits, read]
  apply ext_getElem
  · rw [length_take, length_take, length_map, length_range, Nat.min_comm]
  · intro i left right
    rw [length_take] at right
    rw [getElem_take, getElem_take, getElem_map, getElem_range, getD_eq_getElem _ _ (by omega)]

section ReadBack

variable {medkit : Medkit} (network : medkit.NetworkOrder)

theorem readChunks_done (medkit : Medkit) (symbols : List Symbol) (data : List BYTE)
    : readChunks medkit symbols.length symbols data = some (symbols, data) := by
  match data with
  | [] | [_] | _ :: _ :: _ => simp [readChunks]

variable {symbols : List Symbol}

include network in
theorem readChunks_put2 {statusCount : Nat} (more : symbols.length < statusCount) (chunk : WORD)
    (data : List BYTE)
    : readChunks medkit statusCount symbols (put2 medkit chunk ++ data)
      = readChunks medkit statusCount
          (symbols ++ chunkSymbols chunk (statusCount - symbols.length)) data := by
  change readChunks medkit statusCount symbols (_ :: _ :: data) = _
  rw [readChunks, if_pos more, network.get2_set2]

include network in
/-- The decoder finds the symbols of all chunks, by induction over the symbols as the encoder
walks over them.
-/
theorem readChunks_encodeChunks (symbols : List Symbol) (skip : Nat) (before : List Symbol)
    (data : List BYTE)
    : readChunks medkit (before ++ symbols.drop skip).length before
        ((encodeChunks skip symbols).flatMap (put2 medkit) ++ data)
      = some (before ++ symbols.drop skip, data) := by
  induction symbols generalizing skip before with
  | nil =>
    rw [drop_nil, append_nil]
    exact readChunks_done medkit before data
  | cons symbol rest ih =>
    cases skip with
    | succ skip => exact ih skip before
    | zero =>
      rw [drop_zero, encodeChunks]
      have more : before.length < (before ++ symbol :: rest).length := by simp
      have remaining : (before ++ symbol :: rest).length - before.length
          = (symbol :: rest).length := by simp
      -- Both kinds of chunk give some symbols; the rest is what the skip leaves out.
      have next : ∀ taken, 0 < taken
          → readChunks medkit (before ++ symbol :: rest).length
              (before ++ (symbol :: rest).take taken)
              ((encodeChunks (taken - 1) rest).flatMap (put2 medkit) ++ data)
            = some (before ++ symbol :: rest, data) := by
        intro taken nonempty
        obtain ⟨fewer, rfl⟩ := Nat.exists_eq_succ_of_ne_zero (Nat.ne_of_gt nonempty)
        have loop := ih fewer (before ++ (symbol :: rest).take (fewer + 1))
        rwa [append_assoc, ← drop_succ_cons (a := symbol), take_append_drop]
          at loop
      split
      · obtain ⟨extra, total, fits, within, same⟩ :=
          runLength_spec symbol rest (show 1 ≤ maxRunLength by decide)
        have taken : (symbol :: rest).take (1 + extra) = List.replicate (1 + extra) symbol := by
          rw [Nat.add_comm, take_succ_cons, same, replicate_succ]
        rw [total, flatMap_cons, append_assoc, readChunks_put2 network more,
          remaining, chunkSymbols_runChunk symbol fits,
          Nat.min_eq_left (by rw [length_cons]; omega), ← taken]
        exact next (1 + extra) (by omega)
      · rw [flatMap_cons, append_assoc, readChunks_put2 network more, remaining,
          chunkSymbols_vectorChunk]
        exact next 7 (by decide)

/-- A status the format can express. -/
structure Encodable (status : PacketStatus) : Prop where
  lost : status.received = false → status.deltaTicks = 0
  fits : -32768 ≤ status.deltaTicks ∧ status.deltaTicks ≤ 32767

def Consecutive (seq : WORD) : List PacketStatus → Prop
  | [] => True
  | status :: rest => status.seq = seq ∧ Encodable status ∧ Consecutive (seq + 1) rest

include network in
/-- One status: the symbol tells the size of the delta, and the delta is read back. -/
theorem readStatuses_cons {status : PacketStatus} (encodable : Encodable status)
    : ∃ symbol, status.symbol? = some symbol ∧ symbol.deltaBytes = status.deltas.length
      ∧ ∀ symbols data, readStatuses medkit status.seq (symbol :: symbols) (status.deltas ++ data)
        = (readStatuses medkit (status.seq + 1) symbols data).map (status :: ·) := by
  obtain ⟨seq, received, delta⟩ := status
  obtain ⟨lost, low, high⟩ := encodable
  simp only [symbol?, deltas] at *
  cases received with
  | false =>
    obtain rfl := lost rfl
    exact ⟨.notReceived, rfl, rfl, fun symbols data => rfl⟩
  | true =>
    by_cases small : 0 ≤ delta ∧ delta ≤ 0xFF
    · have value : ((UInt8.ofNat delta.toNat).toNat : Int) = delta := by
        rw [UInt8.toNat_ofNat']
        omega
      refine ⟨.small, by simp [small], by simp [small, Symbol.deltaBytes], ?_⟩
      intro symbols data
      rw [if_neg (by decide), if_pos small, singleton_append, readStatuses, value]
    · have value : toShort (medkit.get2 (.ofNat ((delta % 65536).toNat >>> 8))
          (.ofNat ((delta % 65536).toNat &&& 0xFF))) = delta := by
        rw [toShort, network.get2_eq, UInt8.toNat_ofNat', UInt8.toNat_ofNat', shiftRight_eq,
          show (0xFF : Nat) = 2 ^ 8 - 1 from rfl, and_mask]
        split <;> omega
      refine ⟨.large, by simp [small, low, high], by simp [small, Symbol.deltaBytes], ?_⟩
      intro symbols data
      rw [if_neg (by decide), if_neg small]
      simp only [cons_append, nil_append]
      rw [readStatuses, value]

include network in
/-- By induction over the statuses. -/
theorem readStatuses_deltas {seq : WORD} {packets : List PacketStatus}
    (consecutive : Consecutive seq packets)
    : ∃ symbols, packets.mapM symbol? = some symbols
      ∧ symbols.length = packets.length
      ∧ (symbols.map Symbol.deltaBytes).sum = (packets.flatMap deltas).length
      ∧ ∀ data, readStatuses medkit seq symbols (packets.flatMap deltas ++ data)
        = some packets := by
  induction packets generalizing seq with
  | nil => exact ⟨[], rfl, rfl, rfl, fun data => by rw [readStatuses]⟩
  | cons status rest ih =>
    obtain ⟨rfl, encodable, later⟩ := consecutive
    obtain ⟨symbol, coded, size, read⟩ := readStatuses_cons network encodable
    obtain ⟨symbols, codes, count, sizes, readRest⟩ := ih later
    refine ⟨symbol :: symbols, ?_, ?_, ?_, ?_⟩
    · rw [mapM_cons, coded, codes]
      rfl
    · rw [length_cons, length_cons, count]
    · rw [map_cons, sum_cons, flatMap_cons, length_append, size, sizes]
    · intro data
      rw [flatMap_cons, append_assoc, read, readRest]
      rfl

/-- What building a report keeps. -/
structure WellFormed (field : TransportWideFeedbackField) : Prop where
  reference : field.referenceTicks.toNat < 2 ^ 24
  consecutive : Consecutive field.baseSeq field.packets

theorem length_flatMap_put2 (medkit : Medkit) (chunks : List WORD)
    : (chunks.flatMap (put2 medkit)).length = 2 * chunks.length := by
  induction chunks with
  | nil => rfl
  | cons chunk rest ih =>
    rw [flatMap_cons, length_append, ih, length_cons, put2, length_cons, length_cons, length_nil]
    omega

theorem pad4_spec (size : Nat) : size ≤ pad4 size ∧ pad4 size % 4 = 0 := by
  rw [pad4]
  omega

variable {field : TransportWideFeedbackField}

section

variable (nonempty : 1 ≤ field.packets.length)
  (codes : field.packets.mapM PacketStatus.symbol? = some symbols)
include nonempty codes

theorem getSize_eq
    : field.getSize
      = pad4 (headerBytes + 2 * (encodeChunks 0 symbols).length
          + (field.packets.flatMap deltas).length) := by
  obtain ⟨first, rest, packets⟩ := exists_cons_of_length_pos nonempty
  rw [getSize, encode, codes, packets]
  rfl

theorem getSize_pos : field.getSize ≠ 0 := by
  have padded := pad4_spec (headerBytes + 2 * (encodeChunks 0 symbols).length
    + (field.packets.flatMap deltas).length)
  rw [← getSize_eq nonempty codes, headerBytes] at padded
  omega

/-- What is written when there is room for it: the header, the chunks, the deltas and zeros. -/
theorem serialize_eq {size : Nat} (room : field.getSize ≤ size) (medkit : Medkit)
    : let chunks := encodeChunks 0 symbols
      let deltas := field.packets.flatMap deltas
      field.serialize medkit size
        = put2 medkit field.baseSeq ++ (put2 medkit (.ofNat field.packets.length)
          ++ (put3 medkit (field.referenceTicks &&& 0x00FFFFFF) ++ ([field.fbSeq]
            ++ (chunks.flatMap (put2 medkit) ++ (deltas
              ++ List.replicate
                (field.getSize - (headerBytes + 2 * chunks.length + deltas.length)) 0))))) := by
  intro chunks deltas
  have size_eq := getSize_eq nonempty codes
  rw [size_eq] at room ⊢
  obtain ⟨first, rest, packets⟩ := exists_cons_of_length_pos nonempty
  rw [serialize, encode, codes, packets]
  simp only [Option.map_some]
  rw [if_neg (by rw [← packets]; omega), ← packets]
  simp only [append_assoc]
  rfl

theorem length_serialize {size : Nat} (room : field.getSize ≤ size) (medkit : Medkit)
    : (field.serialize medkit size).length = field.getSize := by
  have bytes := length_flatMap_put2 medkit (encodeChunks 0 symbols)
  have padded := pad4_spec (headerBytes + 2 * (encodeChunks 0 symbols).length
    + (field.packets.flatMap deltas).length)
  rw [← getSize_eq nonempty codes, headerBytes] at padded
  rw [serialize_eq nonempty codes room]
  simp only [length_append, bytes, put2, put3, length_cons, length_nil,
    length_replicate, headerBytes]
  omega

end

include network in
/-- The parser reads back what was written, whatever the state of the field it fills. -/
theorem WellFormed.parse_serialize (wellFormed : field.WellFormed)
    (nonempty : 1 ≤ field.packets.length) (count : field.packets.length ≤ 65535) {size : Nat}
    (room : field.getSize ≤ size) (target : TransportWideFeedbackField)
    : (field.serialize medkit size).length = field.getSize
      ∧ field.getSize % 4 = 0 ∧ field.getSize ≠ 0
      ∧ target.parse medkit (field.serialize medkit size)
        = ({ target with
              baseSeq := field.baseSeq
              referenceTicks := field.referenceTicks
              fbSeq := field.fbSeq
              hasTimestamps := true
              packets := field.packets },
            field.getSize) := by
  obtain ⟨symbols, codes, length, sizes, statuses⟩ :=
    readStatuses_deltas network wellFormed.consecutive
  have bytes := serialize_eq nonempty codes room medkit
  have written := length_serialize nonempty codes room medkit
  have size_eq := getSize_eq nonempty codes
  have padded := pad4_spec (headerBytes + 2 * (encodeChunks 0 symbols).length
    + (field.packets.flatMap deltas).length)
  rw [← size_eq, headerBytes] at padded
  refine ⟨written, padded.2, getSize_pos nonempty codes, ?_⟩
  have reference : field.referenceTicks &&& 0x00FFFFFF = field.referenceTicks := by
    apply UInt32.toNat_inj.mp
    rw [UInt32.toNat_and, show (0x00FFFFFF : DWORD).toNat = 2 ^ 24 - 1 from rfl, and_mask,
      Nat.mod_eq_of_lt wellFormed.reference]
  have statusCount : (UInt16.ofNat field.packets.length).toNat = symbols.length := by
    rw [UInt16.toNat_ofNat', length]
    omega
  have chunks := readChunks_encodeChunks network symbols 0 []
  rw [drop_zero, nil_append] at chunks
  have anyChunk : 1 ≤ (encodeChunks 0 symbols).length := by
    cases symbols with
    | nil => rw [length_nil] at length; omega
    | cons symbol rest =>
      rw [encodeChunks]
      split <;> exact Nat.succ_le_succ (Nat.zero_le _)
  have long : ¬ (field.serialize medkit size).length < headerBytes + 2 := by
    rw [headerBytes]
    omega
  rw [reference] at bytes
  rw [← written]
  generalize field.serialize medkit size = data at *
  rw [bytes] at long ⊢
  simp only [put2, put3, cons_append, nil_append] at long ⊢
  rw [parse, if_neg long]
  simp only [network.get2_set2, network.get3_set3 _ wellFormed.reference, statusCount, chunks,
    statuses]
  rw [if_neg (by omega), if_pos (by rw [sizes, length_append]; omega)]

end ReadBack

/-! Reports as they are built. -/

theorem add_ofNat_succ (seq : WORD) (count : Nat)
    : seq + 1 + .ofNat count = seq + .ofNat (count + 1) := by
  rw [UInt16.ofNat_add, UInt16.add_assoc, UInt16.add_comm 1]
  rfl

theorem consecutive_append {seq : WORD} {first second : List PacketStatus}
    : Consecutive seq (first ++ second)
      ↔ Consecutive seq first ∧ Consecutive (seq + .ofNat first.length) second := by
  induction first generalizing seq with
  | nil => simp [Consecutive]
  | cons status rest ih =>
    simp only [cons_append, Consecutive, ih, length_cons, add_ofNat_succ, and_assoc]

theorem encodable_lost (seq : WORD) : Encodable ⟨seq, false, 0⟩ :=
  ⟨fun _ => rfl, by simp, by simp⟩

theorem consecutive_missing (next : WORD) (count : Nat)
    : Consecutive next (missing next count) := by
  induction count with
  | zero => trivial
  | succ count ih =>
    rw [missing, range_succ, map_append, consecutive_append]
    refine ⟨ih, ?_, encodable_lost _, trivial⟩
    rw [length_map, length_range]

theorem nextSeq_eq {field : TransportWideFeedbackField}
    (consecutive : Consecutive field.baseSeq field.packets)
    : field.nextSeq = field.baseSeq + .ofNat field.packets.length := by
  rw [nextSeq]
  rcases eq_nil_or_concat field.packets with none | ⟨before, last, packets⟩
  · rw [none]
    exact (UInt16.add_zero _).symm
  · rw [packets, concat_eq_append] at consecutive ⊢
    obtain ⟨_, number, _⟩ := consecutive_append.mp consecutive
    rw [getLast?_concat, length_append, length_singleton, ← add_ofNat_succ]
    simp only [number]
    rw [UInt16.add_assoc, UInt16.add_assoc, UInt16.add_comm 1]

theorem referenceOf_lt (arrivalUs : QWORD) : referenceOf arrivalUs < 2 ^ 24 := by
  rw [referenceOf, timeWrapUs_eq, baseTickUs_eq]
  omega

theorem setBase_wellFormed (field : TransportWideFeedbackField) (seq : WORD) (arrivalUs : QWORD)
    : (field.setBase seq arrivalUs).WellFormed := by
  have small := referenceOf_lt arrivalUs
  refine ⟨?_, trivial⟩
  rw [setBase, UInt32.toNat_ofNat']
  omega

theorem WellFormed.addReceived {field : TransportWideFeedbackField}
    (wellFormed : field.WellFormed) (seq : WORD) (arrivalUs : QWORD)
    : (field.addReceived seq arrivalUs).1.WellFormed := by
  simp only [TransportWideFeedbackField.addReceived]
  split
  · exact wellFormed
  · split
    · exact wellFormed
    · rename_i _ fits
      refine ⟨wellFormed.reference, consecutive_append.mpr ⟨consecutive_append.mpr ⟨?_, ?_⟩, ?_⟩⟩
      · exact wellFormed.consecutive
      · rw [← nextSeq_eq wellFormed.consecutive]
        exact consecutive_missing _ _
      · refine ⟨?_, ⟨fun lost => (nomatch lost), by simpa using fits⟩, trivial⟩
        rw [length_append, missing, length_map, length_range, UInt16.ofNat_add,
          ← UInt16.add_assoc, ← nextSeq_eq wellFormed.consecutive, UInt16.ofNat_toNat,
          UInt16.add_comm, UInt16.sub_add_cancel]

/-- A report from its base and some calls of `AddReceived`. A call that returns false leaves
the report as it is.
-/
def build (field : TransportWideFeedbackField) (seq : WORD) (arrivalUs : QWORD)
    (calls : List (WORD × QWORD)) : TransportWideFeedbackField :=
  run (fun report call => (report.addReceived call.1 call.2).1) (field.setBase seq arrivalUs) calls

theorem build_wellFormed (field : TransportWideFeedbackField) (seq : WORD) (arrivalUs : QWORD)
    (calls : List (WORD × QWORD)) : (field.build seq arrivalUs calls).WellFormed :=
  run_invariant (fun _ call wellFormed => wellFormed.addReceived call.1 call.2)
    (setBase_wellFormed field seq arrivalUs) calls

/-- Every report that has from 1 to 65535 statuses fills exactly its size, and is read back
into any field as it was.
-/
theorem feedback_round_trip {medkit : Medkit} (network : medkit.NetworkOrder)
    (field target : TransportWideFeedbackField) (seq : WORD) (arrivalUs : QWORD)
    (calls : List (WORD × QWORD)) (size : Nat)
    (nonempty : 1 ≤ (field.build seq arrivalUs calls).packets.length)
    (count : (field.build seq arrivalUs calls).packets.length ≤ 65535)
    (room : (field.build seq arrivalUs calls).getSize ≤ size)
    : let report := field.build seq arrivalUs calls
      let wire := report.serialize medkit size
      let read := target.parse medkit wire
      wire.length = report.getSize ∧ report.getSize % 4 = 0
      ∧ read.2 = report.getSize
      ∧ read.1.baseSeq = report.baseSeq ∧ read.1.referenceTicks = report.referenceTicks
      ∧ read.1.fbSeq = report.fbSeq ∧ read.1.hasTimestamps = true
      ∧ read.1.packets = report.packets := by
  intro report wire read
  obtain ⟨written, multiple, _, parsed⟩ :=
    (build_wellFormed field seq arrivalUs calls).parse_serialize network nonempty count room target
  have same : read = _ := parsed
  rw [same]
  exact ⟨written, multiple, rfl, rfl, rfl, rfl, rfl, rfl⟩

/-- A report with a gap, a small delta and a negative one. -/
theorem feedback_round_trip_gap
    : let report := ({ fbSeq := 7 } : TransportWideFeedbackField).build 65534 1000000
        [(65534, 1000000), (1, 1010000), (2, 1005000)]
      let read := ({} : TransportWideFeedbackField).parse Medkit.bigEndian
        (report.serialize Medkit.bigEndian report.getSize)
      report.packets.length = 5 ∧ read.1.packets = report.packets := by
  refine ⟨by decide, ?_⟩
  exact (feedback_round_trip Medkit.bigEndian_networkOrder _ {} 65534 1000000 _ _ (by decide)
    (by decide) (Nat.le_refl _)).2.2.2.2.2.2.2

end TransportWideFeedbackField

end MediaServer.TransportFeedback
