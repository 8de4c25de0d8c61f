import MediaServer.Foundation.Bits
import MediaServer.Text.Mux

/-! What `Push` reads of a stream of UTF-8 that is cut anywhere. -/

namespace MediaServer.Text.TextMux

open Foundation List

theorem leadOf_eq (lead : BYTE)
    : leadOf lead
      = if lead.toNat < 128 then some (1, lead.toNat)
        else if lead.toNat < 192 then none
        else if lead.toNat < 224 then some (2, lead.toNat % 32)
        else if lead.toNat < 240 then some (3, lead.toNat % 16)
        else if lead.toNat < 248 then some (4, lead.toNat % 8)
        else none := by
  revert lead
  exact forall_byte (by decide +kernel)

/-- A continuation gives its six low bits. -/
theorem continued_byte (c v : Nat) (rest : List BYTE)
    : continued c (.ofNat (v % 64 + 128) :: rest) = continued (c * 64 + v % 64) rest := by
  have bits : ∀ next : BYTE, next.toNat / 64 = 2
      → next &&& 0xC0 = 0x80 ∧ (next &&& 0x3F).toNat = next.toNat % 64 :=
    forall_byte (by decide +kernel)
  have value : (UInt8.ofNat (v % 64 + 128)).toNat = v % 64 + 128 := by
    rw [UInt8.toNat_ofNat']
    omega
  obtain ⟨isNext, low⟩ := bits (.ofNat (v % 64 + 128)) (by omega)
  rw [continued, if_neg (fun other => other isNext), low, value,
    show (v % 64 + 128) % 64 = v % 64 by omega,
    shiftLeft_or c (Nat.mod_lt _ (by decide) : v % 64 < 2 ^ 6), show 2 ^ 6 = 64 from rfl]

/-- The bytes of a character are read as the character. -/
theorem read_utf8 (c : Char)
    : ∃ lead rest, String.utf8EncodeChar c = lead :: rest
      ∧ ∃ bits, leadOf lead = some (rest.length + 1, bits)
        ∧ continued bits rest = some c.toNat := by
  have valid : c.val.toNat < 1114112 := by
    rcases c.valid with low | ⟨-, high⟩ <;> omega
  show ∃ lead rest, String.utf8EncodeChar c = lead :: rest
      ∧ ∃ bits, leadOf lead = some (rest.length + 1, bits)
        ∧ continued bits rest = some c.val.toNat
  unfold String.utf8EncodeChar
  generalize c.val.toNat = v at valid ⊢
  have byte : ∀ value, value < 256 → (UInt8.ofNat value).toNat = value := fun value small => by
    rw [UInt8.toNat_ofNat', Nat.mod_eq_of_lt small]
  by_cases one : v ≤ 127
  · refine ⟨_, _, if_pos one, v, ?_, rfl⟩
    rw [leadOf_eq, byte v (by omega), if_pos (by omega)]
    rfl
  · by_cases two : v ≤ 2047
    · refine ⟨_, _, (if_neg one).trans (if_pos two), v / 64, ?_, ?_⟩
      · rw [leadOf_eq, byte _ (by omega), if_neg (by omega), if_neg (by omega), if_pos (by omega)]
        exact congrArg (fun bits => some (2, bits)) (by omega)
      · rw [continued_byte, continued]
        exact congrArg some (by omega)
    · by_cases three : v ≤ 65535
      · refine ⟨_, _, (if_neg one).trans ((if_neg two).trans (if_pos three)), v / 4096, ?_, ?_⟩
        · rw [leadOf_eq, byte _ (by omega), if_neg (by omega), if_neg (by omega),
            if_neg (by omega), if_pos (by omega)]
          exact congrArg (fun bits => some (3, bits)) (by omega)
        · rw [continued_byte, continued_byte, continued]
          exact congrArg some (by omega)
      · refine ⟨_, _, (if_neg one).trans ((if_neg two).trans (if_neg three)), v / 262144, ?_, ?_⟩
        · rw [leadOf_eq, byte _ (by omega), if_neg (by omega), if_neg (by omega),
            if_neg (by omega), if_neg (by omega), if_pos (by omega)]
          exact congrArg (fun bits => some (4, bits)) (by omega)
        · rw [continued_byte, continued_byte, continued_byte, continued]
          exact congrArg some (by omega)

/-- Characters go out as UTF-8. -/
theorem appendUtf8_eq (c : Char) : appendUtf8 c.toNat = String.utf8EncodeChar c := by
  have valid : c.val.toNat < 1114112 := by
    rcases c.valid with low | ⟨-, high⟩ <;> omega
  show appendUtf8 c.val.toNat = _
  unfold appendUtf8 String.utf8EncodeChar
  generalize c.val.toNat = v at valid ⊢
  have lead2 : ∀ x, x < 2 ^ 5 → 0xC0 ||| x = 0xC0 + x := fun x => shiftLeft_or 6
  have lead3 : ∀ x, x < 2 ^ 4 → 0xE0 ||| x = 0xE0 + x := fun x => shiftLeft_or 14
  have lead4 : ∀ x, x < 2 ^ 3 → 0xF0 ||| x = 0xF0 + x := fun x => shiftLeft_or 30
  have next : ∀ x, 0x80 ||| (x &&& 0x3F) = x % 64 + 0x80 := fun x => by
    rw [show 0x3F = 2 ^ 6 - 1 from rfl, and_mask, Nat.add_comm]
    exact shiftLeft_or 2 (Nat.mod_lt x (by decide : 0 < 2 ^ 6))
  simp only [next, shiftRight_eq]
  by_cases one : v ≤ 127
  · rw [if_pos one, if_pos (by omega)]
  · by_cases two : v ≤ 2047
    · rw [if_neg one, if_pos two, if_neg (by omega), if_pos (by omega), lead2 _ (by omega),
        show 0xC0 + v / 2 ^ 6 = v / 64 % 32 + 192 by omega]
    · by_cases three : v ≤ 65535
      · rw [if_neg one, if_neg two, if_pos three, if_neg (by omega), if_neg (by omega),
          if_pos (by omega), lead3 _ (by omega),
          show 0xE0 + v / 2 ^ 12 = v / 4096 % 16 + 224 by omega]
        rfl
      · rw [if_neg one, if_neg two, if_neg three, if_neg (by omega), if_neg (by omega),
          if_neg (by omega), lead4 _ (by omega),
          show 0xF0 + v / 2 ^ 18 = v / 262144 % 8 + 240 by omega]
        rfl

/-- What has come of a text when so many bytes of it are there: the complete characters, and
the bytes of the next one.
-/
def received : List Char → Nat → List Char × List BYTE
  | [], _ => ([], [])
  | c :: rest, count =>
    if count < (String.utf8EncodeChar c).length then ([], (String.utf8EncodeChar c).take count)
    else
      let (chars, incomplete) := received rest (count - (String.utf8EncodeChar c).length)
      (c :: chars, incomplete)

def utf8 (text : List Char) : List BYTE := text.flatMap String.utf8EncodeChar

/-- Complete characters are read, and the rest is kept. -/
theorem decode_take (text : List Char) (count : Nat)
    : decode ((utf8 text).take count)
      = ((received text count).1.map Char.toNat, (received text count).2) := by
  induction text generalizing count with
  | nil =>
    rw [utf8, flatMap_nil, take_nil, decode]
    rfl
  | cons c rest ih =>
    obtain ⟨lead, others, encoded, bits, isLead, isChar⟩ := read_utf8 c
    rw [received, encoded, utf8, flatMap_cons, encoded, ← utf8, length_cons]
    by_cases short : count < others.length + 1
    · rw [if_pos short, take_append_of_le_length (by rw [length_cons]; omega)]
      cases count with
      | zero =>
        rw [take_zero, decode]
        rfl
      | succ count =>
        rw [take_succ_cons, decode]
        simp only [isLead, length_take]
        rw [if_pos (by omega)]
        rfl
    · obtain ⟨more, isMore⟩ : ∃ more, count = others.length + 1 + more :=
        ⟨count - (others.length + 1), by omega⟩
      rw [if_neg short, isMore, Nat.add_sub_cancel_left, take_append,
        length_cons, Nat.add_sub_cancel_left,
        take_of_length_le (by rw [length_cons]; omega), cons_append, decode]
      simp only [isLead, length_append]
      rw [if_neg (by omega), Nat.add_sub_cancel, take_left, drop_left, isChar]
      simp only [ih more, map_cons]

/-- More bytes of a text continue where the complete characters end. -/
theorem received_split (text : List Char) {count : Nat} (inside : count ≤ (utf8 text).length)
    : ∃ later, text = (received text count).1 ++ later
      ∧ (utf8 text).take count = utf8 (received text count).1 ++ (received text count).2
      ∧ ∀ more, received text (count + more)
        = ((received text count).1 ++ (received later ((received text count).2.length + more)).1,
          (received later ((received text count).2.length + more)).2) := by
  induction text generalizing count with
  | nil => exact ⟨[], rfl, take_nil, fun _ => rfl⟩
  | cons c rest ih =>
    have split : utf8 (c :: rest) = String.utf8EncodeChar c ++ utf8 rest := flatMap_cons
    by_cases short : count < (String.utf8EncodeChar c).length
    · simp only [received, if_pos short]
      refine ⟨c :: rest, rfl, ?_, fun more => ?_⟩
      · rw [split, take_append_of_le_length (Nat.le_of_lt short)]
        rfl
      · rw [length_take, Nat.min_eq_left (Nat.le_of_lt short)]
        rfl
    · rw [split, length_append] at inside
      obtain ⟨later, isText, bytes, resumed⟩ :=
        @ih (count - (String.utf8EncodeChar c).length) (by omega)
      simp only [received, if_neg short]
      refine ⟨later, congrArg (c :: ·) isText, ?_, fun more => ?_⟩
      · rw [split, take_append, take_of_length_le (Nat.le_of_not_lt short), bytes, ← append_assoc]
        rfl
      · have next := resumed more
        rw [if_neg (by omega), Nat.sub_add_comm (Nat.le_of_not_lt short), next]
        rfl

/-- A push reads the characters that its bytes complete. -/
theorem decode_resume {text : List Char} {pushed bytes : List BYTE}
    (valid : (pushed ++ bytes) <+: utf8 text)
    : ∃ fresh, (received text (pushed ++ bytes).length).1
        = (received text pushed.length).1 ++ fresh
      ∧ decode ((received text pushed.length).2 ++ bytes)
        = (fresh.map Char.toNat, (received text (pushed ++ bytes).length).2) := by
  obtain ⟨after, whole⟩ := valid
  have inside : pushed.length ≤ (utf8 text).length := by
    rw [← whole, length_append, length_append]
    omega
  obtain ⟨later, isText, received', resumed⟩ := received_split text inside
  generalize received text pushed.length = before at isText received' resumed ⊢
  have isPushed : pushed = utf8 before.1 ++ before.2 := by
    rw [← received', ← whole, append_assoc, take_left]
  have rest : before.2 ++ bytes ++ after = utf8 later := by
    have split : utf8 text = utf8 before.1 ++ utf8 later := by
      rw [isText, utf8, flatMap_append]
      rfl
    rw [split, isPushed, append_assoc, append_assoc] at whole
    rw [append_assoc]
    exact append_cancel_left whole
  have total : (received text (pushed ++ bytes).length)
      = (before.1 ++ (received later (before.2 ++ bytes).length).1,
        (received later (before.2 ++ bytes).length).2) := by
    rw [length_append, resumed, length_append]
  refine ⟨(received later (before.2 ++ bytes).length).1, by rw [total], ?_⟩
  rw [total, ← decode_take, ← rest, take_left]

end MediaServer.Text.TextMux
