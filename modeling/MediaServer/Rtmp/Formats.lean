import MediaServer.Foundation.Loops
import MediaServer.Medkit

/-! The fixed formats of RTMP: headers and control messages that are collected byte by byte
until their size is reached. Some formats learn their size from their first bytes.
-/

namespace MediaServer.Rtmp

open Foundation List

structure RTMPFormat where
  data : List BYTE
  size : Nat
  deriving DecidableEq

/-- The size that `PreParse` leaves, given the format and what is to be read. -/
abbrev PreParse := RTMPFormat → List BYTE → Nat

namespace RTMPFormat

def new (size : Nat) : RTMPFormat := ⟨[], size⟩

def isParsed (format : RTMPFormat) : Bool := format.data.length = format.size

def parse (preParse : PreParse) (format : RTMPFormat) (buffer : List BYTE)
    : RTMPFormat × List BYTE :=
  if buffer.isEmpty then (format, [])
  else
    let size := preParse format buffer
    let num := size - format.data.length
    (⟨format.data ++ buffer.take num, size⟩, buffer.drop num)

def byte (format : RTMPFormat) (position : Nat) : BYTE := format.data.getD position 0

def get3 (medkit : Medkit) (format : RTMPFormat) (position : Nat) : DWORD :=
  medkit.get3 (format.byte position) (format.byte (position + 1)) (format.byte (position + 2))

def get4 (medkit : Medkit) (format : RTMPFormat) (position : Nat) : DWORD :=
  medkit.get4 (format.byte position) (format.byte (position + 1)) (format.byte (position + 2))
    (format.byte (position + 3))

end RTMPFormat

/-- A `DWORD` in memory: the lowest byte comes first. -/
def hostOrder (first second third fourth : BYTE) : DWORD :=
  .ofNat (first.toNat + second.toNat * 256 + third.toNat * 65536 + fourth.toNat * 16777216)

def fixedSize : PreParse := fun format _ => format.size

/-! Headers of chunks. -/

namespace RTMPChunkBasicHeader

def new : RTMPFormat := .new 3

def preParse : PreParse := fun format buffer =>
  match format.data, buffer with
  | [], byte :: _ =>
    if byte &&& 0x3F = 0 then 2
    else if byte &&& 0x3F = 1 then 3
    else 1
  | _, _ => format.size

def parse : RTMPFormat → List BYTE → RTMPFormat × List BYTE := RTMPFormat.parse preParse

def getFmt (header : RTMPFormat) : Nat := (header.byte 0).toNat / 64

def getStreamId (header : RTMPFormat) : Nat :=
  match header.size with
  | 1 => (header.byte 0 &&& 0x3F).toNat
  | 2 => (header.byte 1).toNat + 64
  | 3 => (header.byte 1).toNat + (header.byte 2).toNat * 256 + 64
  | _ => 0

end RTMPChunkBasicHeader

namespace RTMPChunkType0

def new : RTMPFormat := .new 11

def getTimestamp (medkit : Medkit) (type0 : RTMPFormat) : DWORD := type0.get3 medkit 0
def getMessageLength (medkit : Medkit) (type0 : RTMPFormat) : DWORD := type0.get3 medkit 3
def getMessageTypeId (type0 : RTMPFormat) : BYTE := type0.byte 6

def getMessageStreamId (type0 : RTMPFormat) : DWORD :=
  hostOrder (type0.byte 7) (type0.byte 8) (type0.byte 9) (type0.byte 10)

end RTMPChunkType0

namespace RTMPChunkType1

def new : RTMPFormat := .new 7

def getTimestampDelta (medkit : Medkit) (type1 : RTMPFormat) : DWORD := type1.get3 medkit 0
def getMessageLength (medkit : Medkit) (type1 : RTMPFormat) : DWORD := type1.get3 medkit 3
def getMessageTypeId (type1 : RTMPFormat) : BYTE := type1.byte 6

end RTMPChunkType1

namespace RTMPChunkType2

def new : RTMPFormat := .new 3

def getTimestampDelta (medkit : Medkit) (type2 : RTMPFormat) : DWORD := type2.get3 medkit 0

end RTMPChunkType2

namespace RTMPExtendedTimestamp

def new : RTMPFormat := .new 4

def getTimestamp (medkit : Medkit) (extts : RTMPFormat) : DWORD := extts.get4 medkit 0

end RTMPExtendedTimestamp

/-- `RTMPUserControlMessage::PreParse`: the second byte, which tells the event, tells the
size. It may come with the first one or be the first of a later segment.
-/
def RTMPUserControlMessage.preParse : PreParse := fun format buffer =>
  match format.data, buffer with
  | [], _ :: event :: _ => if event = 3 then 10 else 6
  | [_], event :: _ => if event = 3 then 10 else 6
  | _, _ => format.size

/-! Formats in two segments. -/

def RTMPFormat.Open (format : RTMPFormat) : Prop :=
  format.data.length < format.size ∧ 2 ≤ format.size

/-- The size of an open format depends on what is collected, not on how it came. -/
structure PreParse.Steady (preParse : PreParse) : Prop where
  wants
    : ∀ format buffer, format.Open → buffer ≠ []
      → format.data.length < preParse format buffer
  complete
    : ∀ format first second, format.Open → first ≠ []
      → preParse format first ≤ format.data.length + first.length
      → preParse format (first ++ second) = preParse format first
  incomplete
    : ∀ format first second, format.Open → first ≠ [] → second ≠ []
      → format.data.length + first.length < preParse format first
      → preParse ⟨format.data ++ first, preParse format first⟩ second
        = preParse format (first ++ second)

namespace RTMPFormat

variable {preParse : PreParse} {format : RTMPFormat} {first : List BYTE}

theorem parse_of_ne_nil (nonempty : first ≠ [])
    : format.parse preParse first
      = (⟨format.data ++ first.take (preParse format first - format.data.length),
          preParse format first⟩,
        first.drop (preParse format first - format.data.length)) := by
  have full : first.isEmpty = false := by simpa only [isEmpty_eq_false_iff] using nonempty
  simp only [parse, full, Bool.false_eq_true, if_false]

theorem parse_length (format : RTMPFormat) (preParse : PreParse) (buffer : List BYTE)
    : (format.parse preParse buffer).2.length ≤ buffer.length := by
  simp only [parse]
  split_ifs
  · exact Nat.zero_le _
  · simp only [length_drop]
    exact Nat.sub_le _ _

/-- What a segment makes of a format, and what both segments make of it: it is complete and
the rest is left, or it goes on with the next segment.
-/
theorem parse_cases (steady : preParse.Steady) (isOpen : format.Open) (nonempty : first ≠ [])
    : (format.parse preParse first).1.isParsed = true
        ∧ (format.parse preParse first).2.length < first.length
        ∧ (∀ second, format.parse preParse (first ++ second)
          = ((format.parse preParse first).1, (format.parse preParse first).2 ++ second))
      ∨ (format.parse preParse first).1.isParsed = false
        ∧ (format.parse preParse first).1.Open
        ∧ (format.parse preParse first).2 = []
        ∧ ∀ second, second ≠ [] → format.parse preParse (first ++ second)
          = (format.parse preParse first).1.parse preParse second := by
  have wants := steady.wants format first isOpen nonempty
  have both : ∀ second, first ++ second ≠ [] := fun second => by simp [nonempty]
  rw [parse_of_ne_nil nonempty]
  by_cases enough : preParse format first ≤ format.data.length + first.length
  · have inside : preParse format first - format.data.length ≤ first.length := by omega
    refine .inl ⟨?_, ?_, fun second => ?_⟩
    · simp only [isParsed, length_append, length_take, decide_eq_true_eq]
      omega
    · have length := length_pos_iff.mpr nonempty
      simp only [length_drop]
      omega
    · rw [parse_of_ne_nil (both second), steady.complete format first second isOpen nonempty enough,
        take_append_of_le_length inside, drop_append_of_le_length inside]
  · have whole : first.length ≤ preParse format first - format.data.length := by omega
    have length := length_pos_iff.mpr nonempty
    rw [take_of_length_le whole, drop_of_length_le whole]
    have stillOpen : Open ⟨format.data ++ first, preParse format first⟩ := by
      simp only [Open, length_append]
      omega
    refine .inr ⟨?_, stillOpen, rfl, fun second more => ?_⟩
    · simp only [isParsed, length_append, decide_eq_false_iff_not]
      omega
    · have same := steady.incomplete format first second isOpen nonempty more (by omega)
      have fits : first.length ≤ preParse format (first ++ second) - format.data.length := by
        have above := steady.wants _ second stillOpen more
        simp only [same, length_append] at above
        omega
      have rest : preParse format (first ++ second) - (format.data.length + first.length)
          = preParse format (first ++ second) - format.data.length - first.length := by
        omega
      rw [parse_of_ne_nil (both second), parse_of_ne_nil more, same]
      simp only [length_append, rest, take_append, drop_append,
        take_of_length_le fits, drop_of_length_le fits, append_assoc,
        nil_append]

end RTMPFormat

theorem fixedSize_steady : PreParse.Steady fixedSize :=
  ⟨fun _ _ isOpen _ => isOpen.1, fun _ _ _ _ _ _ => rfl, fun _ _ _ _ _ _ _ => rfl⟩

theorem RTMPChunkBasicHeader.preParse_steady : PreParse.Steady preParse where
  wants format buffer isOpen nonempty := by
    obtain ⟨byte, rest, rfl⟩ := exists_cons_of_ne_nil nonempty
    obtain ⟨data, size⟩ := format
    cases data with
    | nil =>
      simp only [preParse]
      split_ifs <;> decide
    | cons head tail => exact isOpen.1
  complete format first second _ nonempty _ := by
    obtain ⟨byte, rest, rfl⟩ := exists_cons_of_ne_nil nonempty
    obtain ⟨data, size⟩ := format
    cases data with
    | nil => rfl
    | cons head tail => rfl
  incomplete format first second _ nonempty _ _ := by
    obtain ⟨byte, rest, rfl⟩ := exists_cons_of_ne_nil nonempty
    obtain ⟨data, size⟩ := format
    cases data with
    | nil => rfl
    | cons head tail => rfl

theorem RTMPUserControlMessage.preParse_steady : PreParse.Steady preParse where
  wants format buffer isOpen nonempty := by
    obtain ⟨byte, rest, rfl⟩ := exists_cons_of_ne_nil nonempty
    rcases format with ⟨_ | ⟨head, _ | ⟨other, tail⟩⟩, size⟩
    · cases rest with
      | nil => exact isOpen.1
      | cons event rest =>
        simp only [preParse]
        split_ifs <;> decide
    · simp only [preParse]
      split_ifs <;> simp
    · exact isOpen.1
  complete format first second isOpen nonempty enough := by
    obtain ⟨byte, rest, rfl⟩ := exists_cons_of_ne_nil nonempty
    rcases format with ⟨_ | ⟨head, _ | ⟨other, tail⟩⟩, size⟩
    · cases rest with
      | nil =>
        -- one byte does not tell the size, and is not enough
        have short : size ≤ 1 := enough
        exact absurd isOpen.2 (Nat.not_le_of_lt (Nat.lt_succ_of_le short))
      | cons event rest => rfl
    · rfl
    · rfl
  incomplete format first second _ nonempty more _ := by
    obtain ⟨byte, rest, rfl⟩ := exists_cons_of_ne_nil nonempty
    obtain ⟨next, others, rfl⟩ := exists_cons_of_ne_nil more
    rcases format with ⟨_ | ⟨head, _ | ⟨other, tail⟩⟩, size⟩
    · cases rest with
      | nil => rfl
      | cons event rest => rfl
    · rfl
    · rfl

end MediaServer.Rtmp
