import MediaServer.Foundation.Framing
import MediaServer.Foundation.Runs
import MediaServer.Speech.PhraseSplitter

/-! `SseParser`: the events in the body of a response that arrives in chunks. -/

namespace MediaServer.Speech

open Foundation List Text

/-- The event that is being read, and what the handler was called with. -/
structure SseEvents where
  event : Text := []
  data : Text := []
  handled : List (Text × Text) := []

structure SseParser extends SseEvents where
  buffer : Text := []

namespace SseParser

def colon : BYTE := 0x3A

def eventField : Text := [0x65, 0x76, 0x65, 0x6E, 0x74]

def dataField : Text := [0x64, 0x61, 0x74, 0x61]

def field (line : Text) : Text := line.takeWhile (· ≠ colon)

/-- The value of a line, behind its first colon and one space. -/
def valueOf (line : Text) : Text :=
  match (line.dropWhile (· ≠ colon)).drop 1 with
  | [] => []
  | first :: rest => if first = space then rest else first :: rest

/-- What a line that is not empty makes of an event and its data. -/
def addLine : Text × Text → Text → Text × Text
  | (event, data), line =>
    if line.head? = some colon then (event, data)
    else if field line = eventField then (valueOf line, data)
    else if field line = dataField then
      (event, data ++ if data = [] then valueOf line else lineFeed :: valueOf line)
    else (event, data)

def line (events : SseEvents) (line : Text) : SseEvents :=
  if line = [] then
    { handled :=
        events.handled
          ++ if events.data ≠ [] ∨ events.event ≠ [] then [(events.event, events.data)] else [] }
  else
    let (event, data) := addLine (events.event, events.data) line
    { events with event, data }

/-- A line ends with its line feed. -/
def lines : Framing BYTE where
  next buffer :=
    let size := buffer.idxOf lineFeed + 1
    if lineFeed ∈ buffer then some (buffer.take size, buffer.drop size) else none
  joins taken := by
    split_ifs at taken
    cases taken
    exact take_append_drop _ _
  nonempty taken := by
    split_ifs at taken with found
    cases taken
    simp [ne_nil_of_mem found]
  stable taken more := by
    split_ifs at taken with found
    cases taken
    have inside := idxOf_lt_length_of_mem found
    rw [if_pos (mem_append_left _ found), idxOf_append_of_mem found,
      take_append_of_le_length inside, drop_append_of_le_length inside]

/-- A line without the carriage return at its end. -/
def content (line : Text) : Text :=
  if line.getLast? = some carriageReturn then line.dropLast else line

def feed (parser : SseParser) (chunk : Text) : SseParser where
  toSseEvents :=
    ((lines.split (parser.buffer ++ chunk)).1.map (content ·.dropLast)).foldl line
      parser.toSseEvents
  buffer := (lines.split (parser.buffer ++ chunk)).2

/-- The blocks of lines that an empty line ends. -/
def blocks : List Text → List Text → List (List Text)
  | _, [] => []
  | block, line :: rest =>
    if line = [] then block :: blocks [] rest else blocks (block ++ [line]) rest

/-- The values of a field in a block: what its lines have behind the name and a colon, without
one space in front.
-/
def values (name : Text) (block : List Text) : List Text :=
  (block.filter (field · = name)).map fun line =>
    let value := line.drop (name.length + 1)
    if value.head? = some space then value.tail else value

/-- The first text that is not empty, and those behind it with line feeds between them. -/
def joined : List Text → Text
  | [] => []
  | first :: rest => if first = [] then joined rest else first ++ rest.flatMap (lineFeed :: ·)

/-- The event of a block: its last name, and its data lines. -/
def pairOf (block : List Text) : Text × Text :=
  ((values eventField block).getLastD [], joined (values dataField block))

/-- The events of a whole body. -/
def eventsOf (body : Text) : List (Text × Text) :=
  ((blocks [] ((body.splitOn lineFeed).dropLast.map content)).map pairOf).filter (· ≠ ([], []))

/-- The lines found one by one are those between the line feeds of the whole body. -/
theorem split_lines (body : Text)
    : (lines.split body).1.map (content ·.dropLast)
      = (body.splitOn lineFeed).dropLast.map content := by
  induction size : body.length using Nat.strongRecOn generalizing body with
  | ind bound ih =>
    by_cases found : lineFeed ∈ body
    · obtain ⟨line, rest, rfl, free⟩ := eq_append_cons_of_mem found
      have taken : lines.next (line ++ lineFeed :: rest) = some (line ++ [lineFeed], rest) := by
        simp [lines, idxOf_append_of_notMem free, take_length_add_append]
      rw [Framing.split_of_some taken, map_cons, ih _ (size ▸ lines.shorter taken) _ rfl,
        dropLast_concat, splitOn_append_cons_self_of_not_mem free,
        dropLast_cons_of_ne_nil (splitOn_ne_nil _ _), map_cons]
    · rw [Framing.split_of_none (if_neg found), splitOn_eq_singleton found]
      rfl

theorem drop_field (line : Text)
    : line.drop ((field line).length + 1) = (line.dropWhile (· ≠ colon)).drop 1 := by
  have parts := @takeWhile_append_dropWhile _ (· ≠ colon) line
  rw [← drop_drop]
  conv_lhs => arg 2; arg 2; rw [← parts]
  rw [field, drop_left]

theorem values_append (name : Text) (block : List Text) (line : Text)
    : values name (block ++ [line])
      = values name block ++ if field line = name then [valueOf line] else [] := by
  rw [values, filter_append, map_append, ← values]
  split_ifs with named
  · rw [filter_singleton, decide_eq_true named, cond_true, map_singleton, ← named, drop_field,
      valueOf]
    cases (line.dropWhile (· ≠ colon)).drop 1 with
    | nil => rfl
    | cons first rest => simp
  · simp [named]

theorem joined_append (texts : List Text) (text : Text)
    : joined (texts ++ [text])
      = joined texts ++ if joined texts = [] then text else lineFeed :: text := by
  induction texts with
  | nil => by_cases empty : text = [] <;> simp [joined, empty]
  | cons first rest ih =>
    by_cases empty : first = []
    · simp only [cons_append, joined, empty, if_true, ih]
    · simp [joined, empty]

/-- One more line of a block is read as the parser reads it. -/
theorem pairOf_append (block : List Text) (line : Text)
    : pairOf (block ++ [line]) = addLine (pairOf block) line := by
  have isComment : line.head? = some colon → field line = [] := by
    cases line <;> simp +contextual [field]
  have distinct : dataField ≠ eventField := by decide
  simp only [pairOf, values_append, addLine]
  by_cases comment : line.head? = some colon
  · simp [comment, isComment comment, eventField, dataField]
  · by_cases isEvent : field line = eventField
    · simp [comment, isEvent, distinct.symm]
    · by_cases isData : field line = dataField
      · simp only [comment, isData, distinct, joined_append, if_true, if_false, append_nil]
        rfl
      · simp [comment, isEvent, isData]

theorem handled_lines (events : SseEvents) (block texts : List Text)
    (isOpen : (events.event, events.data) = pairOf block)
    : (texts.foldl line events).handled
      = events.handled ++ ((blocks block texts).map pairOf).filter (· ≠ ([], [])) := by
  induction texts generalizing events block with
  | nil => simp [blocks]
  | cons text rest ih =>
    rw [foldl_cons, blocks]
    split_ifs with ends
    · rw [ih _ [] (by rw [line, if_pos ends]; rfl), map_cons, ← isOpen, filter_cons]
      by_cases event : events.event = [] <;> by_cases data : events.data = [] <;>
        simp [line, ends, event, data]
    · rw [ih _ (block ++ [text])]
      · simp [line, ends]
      · rw [pairOf_append, ← isOpen]
        simp [line, ends]

theorem feed_feed (parser : SseParser) (first second : Text)
    : (parser.feed first).feed second = parser.feed (first ++ second) := by
  simp only [feed, ← append_assoc, lines.split_append (parser.buffer ++ first), map_append,
    foldl_append]

/-- However a body is cut into chunks, the handler gets the events of the whole body. -/
theorem events_of_chunks (chunks : List Text)
    : (run feed {} chunks).handled = eventsOf chunks.flatten := by
  have once : run feed {} chunks = feed {} chunks.flatten := by
    -- on the last chunk: two calls of `feed` are one on both chunks
    induction chunks using reverseRecOn with
    | nil => simp [feed, Framing.split_of_none Framing.next_nil]
    | append_singleton before last ih =>
      rw [run_append, ih, flatten_append, ← feed_feed, flatten_singleton]
      rfl
  rw [once, eventsOf, ← split_lines]
  exact handled_lines {} [] _ rfl

end SseParser

end MediaServer.Speech
