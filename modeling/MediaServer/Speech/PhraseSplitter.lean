import MediaServer.Foundation.Runs
import MediaServer.Rtp.Packet

/-! Text in UTF-8, and the splitter that cuts it into the phrases of the speech server. -/

namespace MediaServer.Speech

/-- A `std::string` in UTF-8. -/
abbrev Text := List BYTE

namespace Text

def lineSeparator : Text := [0xE2, 0x80, 0xA8]

def ellipsis : Text := [0xE2, 0x80, 0xA6]

def space : BYTE := 0x20

def tab : BYTE := 0x09

def carriageReturn : BYTE := 0x0D

def lineFeed : BYTE := 0x0A

def backspace : BYTE := 0x08

def charLength (lead : BYTE) : Nat :=
  if lead ≥ 0xF0 then 4 else if lead ≥ 0xE0 then 3 else if lead ≥ 0xC0 then 2 else 1

def charsWithin : Nat → Text → List Text
  | 0, _ => []
  | _, [] => []
  | bound + 1, lead :: rest =>
    (lead :: rest.take (charLength lead - 1))
      :: charsWithin bound (rest.drop (charLength lead - 1))

/-- The characters of a text. The last one may be cut short. -/
def chars (text : Text) : List Text := charsWithin text.length text

def isContinuation (byte : BYTE) : Bool := byte &&& 0xC0 = 0x80

/-- `EraseLastChar` of the bytes in reverse. -/
def eraseFirstBackwards : Text → Text
  | [] => []
  | [_] => []
  | last :: before => if isContinuation last then eraseFirstBackwards before else before

def eraseLastChar (text : Text) : Text := (eraseFirstBackwards text.reverse).reverse

def isBlankByte (byte : BYTE) : Bool := byte = space ∨ byte = tab

def trim (text : Text) : Text :=
  ((text.dropWhile isBlankByte).reverse.dropWhile isBlankByte).reverse

end Text

structure PhraseSplitter where
  silenceMs : Int
  pending : Text := []
  lastTypedMs : QWORD := 0

namespace PhraseSplitter

open Text

def maxPhraseBytes : Nat := 1500

def isBlank (text : Text) : Bool :=
  text.all (fun byte => byte = space ∨ byte = tab ∨ byte = carriageReturn ∨ byte = lineFeed)

def endsWithFinalPunctuation (text : Text) : Bool :=
  match text.getLast? with
  | none => false
  | some last =>
    last = 0x2E ∨ last = 0x3F ∨ last = 0x21
      ∨ (text.length ≥ ellipsis.length ∧ text.drop (text.length - ellipsis.length) = ellipsis)

variable (splitter : PhraseSplitter)

def cut : Option Text × PhraseSplitter :=
  (if isBlank splitter.pending then none else some (trim splitter.pending),
    { splitter with pending := [] })

def cutLong : Option Text × PhraseSplitter :=
  let backwards := splitter.pending.reverse
  if splitter.pending.any isBlankByte then
    let rest := (backwards.takeWhile (!isBlankByte ·)).reverse
    let before := ((backwards.dropWhile (!isBlankByte ·)).drop 1).reverse
    let (phrase, after) := cut { splitter with pending := before }
    (phrase, { after with pending := rest })
  else splitter.cut

def addChar (c : Text) : Option Text × PhraseSplitter :=
  if c = [backspace] then (none, { splitter with pending := eraseLastChar splitter.pending })
  else if c = [lineFeed] ∨ c = lineSeparator then splitter.cut
  else if (c = [space] ∨ c = [tab]) ∧ endsWithFinalPunctuation splitter.pending then splitter.cut
  else if c ≠ [carriageReturn] then
    let longer := { splitter with pending := splitter.pending ++ c }
    if longer.pending.length ≥ maxPhraseBytes then longer.cutLong else (none, longer)
  else (none, splitter)

def addChars (splitter : PhraseSplitter) : List Text → List Text × PhraseSplitter
  | [] => ([], splitter)
  | c :: rest =>
    let (phrase, after) := splitter.addChar c
    let (others, last) := addChars after rest
    (phrase.toList ++ others, last)

def add (text : Text) (nowMs : QWORD) : List Text × PhraseSplitter :=
  addChars { splitter with lastTypedMs := nowMs } (chars text)

def tick (nowMs : QWORD) : Option Text × PhraseSplitter :=
  if splitter.pending = [] ∨ nowMs - splitter.lastTypedMs < .ofInt splitter.silenceMs then
    (none, splitter)
  else splitter.cut

def flush : Option Text × PhraseSplitter := splitter.cut

/-! What is typed is said. -/

section Letters

open Foundation List

/-- The bytes of a text that can be heard. -/
def letters (text : Text) : Text := text.filter (fun byte => !isBlank [byte])

theorem letters_append (first second : Text)
    : letters (first ++ second) = letters first ++ letters second :=
  filter_append first second

theorem letters_reverse (text : Text) : letters text.reverse = (letters text).reverse :=
  filter_reverse ..

theorem letters_blank {byte : BYTE} (blank : isBlankByte byte = true) (text : Text)
    : letters (byte :: text) = letters text := by
  rw [isBlankByte, decide_eq_true_eq] at blank
  refine filter_cons_of_neg ?_
  rcases blank with same | same <;> simp [isBlank, same]

theorem letters_dropWhile (text : Text) : letters (text.dropWhile isBlankByte) = letters text := by
  induction text with
  | nil => rfl
  | cons byte rest ih =>
    by_cases blank : isBlankByte byte
    · rw [dropWhile_cons_of_pos blank, ih, letters_blank blank]
    · rw [dropWhile_cons_of_neg blank]

theorem letters_trim (text : Text) : letters (trim text) = letters text := by
  rw [trim, letters_reverse, letters_dropWhile, letters_reverse, reverse_reverse, letters_dropWhile]

/-- The blank at which a text is cut is not heard. -/
theorem letters_drop (text : Text)
    : letters ((text.dropWhile (!isBlankByte ·)).drop 1)
      = letters (text.dropWhile (!isBlankByte ·)) := by
  induction text with
  | nil => rfl
  | cons byte rest ih =>
    cases blank : isBlankByte byte with
    | true => rw [dropWhile_cons_of_neg (by simp [blank]), drop_one, tail_cons, letters_blank blank]
    | false => rw [dropWhile_cons_of_pos (by simp [blank]), ih]

theorem cut_letters : letters splitter.cut.1.toList.flatten = letters splitter.pending := by
  unfold cut
  by_cases blank : isBlank splitter.pending
  · rw [if_pos blank]
    refine (filter_eq_nil_iff.mpr fun byte member => ?_).symm
    have same : isBlank [byte] = true := by
      simpa [isBlank] using all_eq_true.mp blank byte member
    simp [same]
  · simp [blank, letters_trim]

theorem cutLong_letters
    : letters splitter.cutLong.1.toList.flatten ++ letters splitter.cutLong.2.pending
      = letters splitter.pending := by
  unfold cutLong
  split
  · simp only [cut_letters]
    rw [letters_reverse, letters_drop, ← letters_reverse, ← letters_append, ← reverse_append,
      takeWhile_append_dropWhile, reverse_reverse]
  · rw [cut_letters]
    exact append_nil _

/-- The end of a line is not heard. -/
def heard (c : Text) : Text := if c = lineSeparator then [] else letters c

theorem addChar_letters {c : Text} (kept : c ≠ [backspace])
    : letters (splitter.addChar c).1.toList.flatten ++ letters (splitter.addChar c).2.pending
      = letters splitter.pending ++ heard c := by
  simp only [addChar, if_neg kept]
  split_ifs with ends pause plain
  · rcases ends with rfl | rfl <;> exact congrArg (· ++ []) (cut_letters splitter)
  · rcases pause.1 with rfl | rfl <;> exact congrArg (· ++ []) (cut_letters splitter)
  · rw [cutLong_letters, letters_append, heard, if_neg (fun same => ends (.inr same))]
  · rw [heard, if_neg (fun same => ends (.inr same))]
    exact letters_append ..
  · rw [not_not.mp plain]
    exact (append_nil _).symm

theorem addChars_letters {cs : List Text} (kept : [backspace] ∉ cs)
    : letters (splitter.addChars cs).1.flatten ++ letters (splitter.addChars cs).2.pending
      = letters splitter.pending ++ cs.flatMap heard := by
  induction cs generalizing splitter with
  | nil => exact (append_nil _).symm
  | cons c rest ih =>
    rw [mem_cons, not_or] at kept
    simp only [addChars]
    rw [flatten_append, letters_append, append_assoc, ih _ kept.2, ← append_assoc,
      addChar_letters _ (Ne.symm kept.1), append_assoc, flatMap_cons]

inductive Call
  | add (text : Text) (nowMs : QWORD)
  | tick (nowMs : QWORD)
  | flush

def typed : Call → List Text
  | .add text _ => chars text
  | .tick _ | .flush => []

def call : Call → List Text × PhraseSplitter
  | .add text nowMs => splitter.add text nowMs
  | .tick nowMs => (splitter.tick nowMs).map Option.toList id
  | .flush => splitter.flush.map Option.toList id

/-- The phrases so far, and the splitter. -/
def step (state : List Text × PhraseSplitter) (next : Call) : List Text × PhraseSplitter :=
  (state.2.call next).map (state.1 ++ ·) id

theorem call_letters {next : Call} (kept : [backspace] ∉ typed next)
    : letters (splitter.call next).1.flatten ++ letters (splitter.call next).2.pending
      = letters splitter.pending ++ (typed next).flatMap heard := by
  cases next with
  | add text nowMs => exact addChars_letters _ kept
  | tick nowMs =>
    rw [call, tick]
    split_ifs
    · exact (append_nil _).symm
    · exact congrArg (· ++ []) (cut_letters splitter)
  | flush => exact congrArg (· ++ []) (cut_letters splitter)

/-- Whatever is typed is part of one phrase or still pending, in the order of typing. -/
theorem phrases_hold_typed (calls : List Call) (kept : ∀ next ∈ calls, [backspace] ∉ typed next)
    : letters (run step ([], splitter) calls).1.flatten
        ++ letters (run step ([], splitter) calls).2.pending
      = letters splitter.pending ++ (calls.flatMap typed).flatMap heard := by
  induction calls using reverseRecOn with
  | nil => exact (append_nil _).symm
  | append_singleton before next ih =>
    rw [forall_mem_append, forall_mem_singleton] at kept
    have last := call_letters (run step ([], splitter) before).2 kept.2
    rw [run_append, flatMap_append, flatMap_append, ← append_assoc, ← ih kept.1, flatMap_singleton,
      append_assoc, ← last, ← append_assoc]
    exact congrArg (· ++ _) ((congrArg letters flatten_append).trans (letters_append ..))

/-- Two phrases, of which the second ends with the typing. -/
theorem phrases_hold_typed_two
    : let calls : List Call := [.add [0x61, 0x2E, 0x20, 0x62, 0x20] 0, .tick 0, .flush]
      (run step ([], { silenceMs := 5 }) calls).1 = [[0x61, 0x2E], [0x62]]
      ∧ letters (run step ([], { silenceMs := 5 }) calls).1.flatten
          ++ letters (run step ([], { silenceMs := 5 }) calls).2.pending
        = letters [] ++ (calls.flatMap typed).flatMap heard :=
  ⟨by decide, phrases_hold_typed { silenceMs := 5 } _ (by decide)⟩

end Letters

end PhraseSplitter

def splitPhrases (text : Text) : List Text :=
  let (phrases, splitter) := PhraseSplitter.add { silenceMs := 2147483647 } text 0
  phrases ++ splitter.flush.1.toList

end MediaServer.Speech
