import MediaServer.Foundation.Runs
import MediaServer.Text.MuxDecoding
import Mathlib.Data.List.Induction

/-! The two sources of a text multiplexer stay apart on a display, and nothing is lost. -/

namespace MediaServer.Text.TextMux

open Foundation TextMux List

/-! The display. -/

/-- A display shows characters, each with the source from which it came. -/
abbrev Shown := List (Option (Fin 2) × Nat)

variable (text : Shown)

/-- A display where an erasure removes the last character. -/
def put (piece : Piece) : Shown :=
  if piece.sent then
    if piece.c = backspace then text.dropLast else text ++ [(piece.source, piece.c)]
  else text

def display (pieces : List Piece) : Shown := pieces.foldl put []

theorem display_append (pieces : List Piece) (piece : Piece)
    : display (pieces ++ [piece]) = put (display pieces) piece := by
  rw [display, foldl_append]
  rfl

def currentLine : Shown :=
  (text.reverse.takeWhile (fun shown => !isEndOfLine shown.2)).reverse

variable {shown : Option (Fin 2) × Nat}

theorem currentLine_end (ends : isEndOfLine shown.2 = true)
    : currentLine (text ++ [shown]) = [] := by
  simp [currentLine, ends]

theorem currentLine_char (goesOn : isEndOfLine shown.2 = false)
    : currentLine (text ++ [shown]) = currentLine text ++ [shown] := by
  simp [currentLine, goesOn]

/-- A line that is not empty ends with the last character of the display. -/
theorem currentLine_cases
    : currentLine text = []
      ∨ ∃ before shown, text = before ++ [shown] ∧ isEndOfLine shown.2 = false
        ∧ currentLine text = currentLine before ++ [shown] := by
  rcases text.eq_nil_or_concat' with empty | ⟨before, shown, isText⟩
  · exact .inl (by rw [empty]; rfl)
  · cases ends : isEndOfLine shown.2 with
    | true => exact .inl (by rw [isText, currentLine_end before ends])
    | false =>
      exact .inr ⟨before, shown, isText, ends, by rw [isText, currentLine_char before ends]⟩

/-- No stretch of a line has characters of two sources. -/
def Separate : Prop :=
  ∀ before line after, text = before ++ line ++ after
    → (∀ shown ∈ line, isEndOfLine shown.2 = false)
    → ∀ first ∈ line, ∀ second ∈ line, first.1 = second.1

theorem Separate.dropLast {text : Shown} (separate : Separate text) : Separate text.dropLast := by
  intro before line after isText
  rcases text.eq_nil_or_concat' with empty | ⟨front, shown, whole⟩
  · rw [empty] at isText
    exact separate before line after (by rw [empty]; exact isText)
  · rw [whole, dropLast_concat] at isText
    exact separate before line (after ++ [shown]) (by rw [whole, isText, append_assoc])

/-- A stretch at the end of the display lies in the current line. -/
theorem subset_currentLine (before line : Shown)
    (goesOn : ∀ shown ∈ line, isEndOfLine shown.2 = false)
    : ∀ shown ∈ line, shown ∈ currentLine (before ++ line) := by
  induction line using List.reverseRecOn with
  | nil => exact nofun
  | append_singleton front last ih =>
    intro shown member
    rw [← append_assoc,
      currentLine_char _ (goesOn last (mem_append_right _ (.head _)))]
    rcases mem_append.mp member with early | isLast
    · exact mem_append_left _ (ih
        (fun other inside => goesOn other (mem_append_left _ inside)) shown early)
    · exact mem_append_right _ isLast

/-- A character of the source that has the line, or an end of a line. -/
theorem Separate.append {text : Shown} (separate : Separate text)
    (own : isEndOfLine shown.2 = false → ∀ other ∈ currentLine text, other.1 = shown.1)
    : Separate (text ++ [shown]) := by
  intro before line after isText goesOn
  rcases concat_split isText with ⟨isText, -⟩ | ⟨front, -, isText⟩
  · rcases concat_split isText.symm with ⟨-, none⟩ | ⟨stretch, isLine, isFront⟩
    · rw [none]
      exact nofun
    · have ends := goesOn shown (by simp [isLine])
      have all : ∀ other ∈ line, other.1 = shown.1 := by
        intro other member
        rw [isLine] at member
        rcases mem_append.mp member with early | final
        · refine own ends other ?_
          rw [isFront]
          exact subset_currentLine before stretch (fun inner inside =>
            goesOn inner (by rw [isLine]; exact mem_append_left _ inside)) other early
        · rw [mem_singleton.mp final]
      exact fun first isFirst second isSecond =>
        (all first isFirst).trans (all second isSecond).symm
  · exact separate before line front isText goesOn

/-! Orderly output. -/

/-- A character that is not sent is an erasure with nothing of its source on the line. An
erasure that is sent removes a character of its source from the line. What comes from no source
is a separator.
-/
structure Fits (text : Shown) (piece : Piece) : Prop where
  separator : piece.source = none → piece.c = lineSeparator
  dropped
    : piece.sent = false → piece.c = backspace
      ∧ ∃ source, piece.source = some source ∧ ∀ shown ∈ currentLine text, shown.1 ≠ some source
  erases
    : piece.sent = true → piece.c = backspace
      → ∃ source c, piece.source = some source ∧ text.getLast? = some (some source, c)
        ∧ (some source, c) ∈ currentLine text

/-- All of the output is so, and at no time is a line shared. -/
structure Orderly (pieces : List Piece) : Prop where
  fits : ∀ before piece after, pieces = before ++ piece :: after → Fits (display before) piece
  separate : ∀ before after, pieces = before ++ after → Separate (display before)

variable {pieces : List Piece}

theorem Orderly.append (orderly : Orderly pieces) {piece : Piece}
    (fits : Fits (display pieces) piece) (separate : Separate (put (display pieces) piece))
    : Orderly (pieces ++ [piece]) := by
  constructor
  · intro before other after split
    rcases concat_split_cons split with ⟨rfl, rfl, -⟩ | ⟨front, -, split⟩
    · exact fits
    · exact orderly.fits before other front split
  · intro before after split
    rcases concat_split split with ⟨rfl, -⟩ | ⟨front, -, split⟩
    · rw [display_append]
      exact separate
    · exact orderly.separate before front split

structure Linked (line : List (Fin 2)) (pieces : List Piece) : Prop where
  orderly : Orderly pieces
  line : (currentLine (display pieces)).map Prod.fst = line.map some

theorem Linked.separator {line : List (Fin 2)} {pieces : List Piece} (linked : Linked line pieces)
    : Linked [] (pieces ++ [⟨none, lineSeparator, true⟩]) := by
  have isPut : put (display pieces) ⟨none, lineSeparator, true⟩
      = display pieces ++ [(none, lineSeparator)] := rfl
  refine ⟨linked.orderly.append ⟨fun _ => rfl, fun unsent => ?_, fun _ erases => ?_⟩ ?_, ?_⟩
  · cases unsent
  · exact absurd erases (by decide)
  · rw [isPut]
    exact (linked.orderly.separate pieces [] (append_nil _).symm).append
      (fun goesOn => absurd goesOn (by decide))
  · rw [display_append, isPut, currentLine_end _ (by decide)]
    rfl

section Emit

variable {line : List (Fin 2)} {pieces : List Piece} (linked : Linked line pieces) {source : Fin 2}

include linked

/-- An erasure takes the last character of the line. -/
theorem Linked.erase (isLast : line.getLast? = some source)
    : Linked line.dropLast (pieces ++ [⟨some source, backspace, true⟩]) := by
  have separate := linked.orderly.separate pieces [] (append_nil _).symm
  have tags := linked.line
  obtain ⟨front, isLine⟩ := getLast?_eq_some_iff.mp isLast
  rcases currentLine_cases (display pieces) with empty | ⟨before, shown, isText, goesOn, current⟩
  · rw [empty, isLine] at tags
    simp at tags
  · rw [current, isLine, map_append, map_append] at tags
    obtain ⟨isFront, isShown⟩ := append_inj' tags rfl
    have shownBy : shown = (some source, shown.2) :=
      Prod.ext (singleton_inj.mp isShown) rfl
    have isPut : put (display pieces) ⟨some source, backspace, true⟩ = before := by
      rw [isText]
      exact dropLast_concat
    refine ⟨linked.orderly.append ⟨nofun, fun unsent => ?_, fun _ _ => ?_⟩ ?_, ?_⟩
    · cases unsent
    · refine ⟨source, shown.2, rfl, ?_, ?_⟩
      · rw [isText, getLast?_concat, ← shownBy]
      · rw [current, ← shownBy]
        exact mem_append_right _ (.head _)
    · rw [isPut]
      have shorter := separate.dropLast
      rw [isText, dropLast_concat] at shorter
      exact shorter
    · rw [display_append, isPut, isFront, isLine, dropLast_concat]

/-- An erasure that finds nothing is not sent. -/
theorem Linked.drop (empty : line = [])
    : Linked [] (pieces ++ [⟨some source, backspace, false⟩]) := by
  have tags := linked.line
  rw [empty, map_nil, map_eq_nil_iff] at tags
  refine ⟨linked.orderly.append ⟨nofun, fun _ => ⟨rfl, source, rfl, ?_⟩, fun sent => ?_⟩ ?_, ?_⟩
  · rw [tags]
    exact nofun
  · cases sent
  · exact linked.orderly.separate pieces [] (append_nil _).symm
  · rw [display_append]
    exact (congrArg (List.map Prod.fst) tags).trans rfl

/-- Other characters are shown behind the line. -/
theorem Linked.char (own : ∀ other ∈ line, other = source) {c : Nat} (isChar : c ≠ backspace)
    : Linked (if isEndOfLine c then [] else line ++ [source])
      (pieces ++ [⟨some source, c, true⟩]) := by
  have tags := linked.line
  have isPut : put (display pieces) ⟨some source, c, true⟩
      = display pieces ++ [(some source, c)] := if_neg isChar
  refine ⟨linked.orderly.append
    ⟨nofun, fun unsent => ?_, fun _ erases => absurd erases isChar⟩ ?_, ?_⟩
  · cases unsent
  · rw [isPut]
    refine (linked.orderly.separate pieces [] (append_nil _).symm).append ?_
    intro _ other member
    have tag : other.1 ∈ line.map some := tags ▸ mem_map.mpr ⟨other, member, rfl⟩
    obtain ⟨origin, isOrigin, same⟩ := mem_map.mp tag
    rw [← same, own origin isOrigin]
  · rw [display_append, isPut]
    cases ends : isEndOfLine c with
    | true =>
      rw [currentLine_end _ ends]
      rfl
    | false =>
      rw [currentLine_char _ ends, map_append, tags]
      simp

/-- `Emit` for the source that has the line. -/
theorem Linked.emit (own : ∀ other ∈ line, other = source) (c : Nat)
    : Linked (emit line source c).1 (pieces ++ [⟨some source, c, (emit line source c).2⟩])
      ∧ ∀ other ∈ (TextMux.emit line source c).1, other = source := by
  unfold TextMux.emit
  by_cases erasure : c = backspace
  · rw [if_pos erasure, erasure]
    by_cases isLast : line.getLast? = some source
    · rw [if_pos isLast]
      exact ⟨linked.erase isLast, fun other member => own other (dropLast_subset line member)⟩
    · have empty : line = [] := by
        rcases line.eq_nil_or_concat' with none | ⟨front, last, isLine⟩
        · exact none
        · refine absurd ?_ isLast
          rw [isLine, getLast?_concat,
            own last (by rw [isLine]; exact mem_append_right _ (.head _))]
      rw [if_neg isLast, empty]
      exact ⟨linked.drop empty, nofun⟩
  · have shown := linked.char own erasure
    rw [if_neg erasure]
    cases ends : isEndOfLine c with
    | true =>
      rw [ends] at shown
      exact ⟨shown, nofun⟩
    | false =>
      rw [ends] at shown
      refine ⟨shown, fun other member => ?_⟩
      rcases mem_append.mp member with early | last
      · exact own other early
      · exact mem_singleton.mp last

end Emit

/-- The inner loop. The induction is on what is pending. -/
theorem Linked.drain {line : List (Fin 2)} {pieces : List Piece} (linked : Linked line pieces)
    {source : Fin 2} (own : ∀ other ∈ line, other = source) (pending : List Nat)
    : Linked (drain source line pending).line (pieces ++ (drain source line pending).pieces)
      ∧ ∀ other ∈ (drain source line pending).line, other = source := by
  induction pending generalizing line pieces with
  | nil =>
    refine ⟨?_, own⟩
    rw [TextMux.drain, append_nil]
    exact linked
  | cons c rest ih =>
    obtain ⟨emitted, still⟩ := linked.emit own c
    by_cases ends : isEndOfLine c = true
    · simp only [TextMux.drain, if_pos ends]
      exact ⟨emitted, still⟩
    · have later := ih emitted still
      simp only [TextMux.drain, if_neg ends]
      rw [append_assoc] at later
      exact later

/-! Pull. -/

/-- The characters of a source that `Pull` has dealt with. -/
def handled (source : Fin 2) (pieces : List Piece) : List Nat :=
  (pieces.filter (fun piece => piece.source = some source)).map Piece.c

theorem handled_append (source : Fin 2) (first second : List Piece)
    : handled source (first ++ second) = handled source first ++ handled source second := by
  simp only [handled, filter_append, map_append]

/-- The inner loop deals with its source only, and with the front of what is pending. -/
theorem handled_drain (holder source : Fin 2) (line : List (Fin 2)) (pending : List Nat)
    : handled source (drain holder line pending).pieces
        ++ (if source = holder then (drain holder line pending).pending else [])
      = if source = holder then pending else [] := by
  induction pending generalizing line with
  | nil => split_ifs <;> rfl
  | cons c rest ih =>
    have one : ∀ sent, handled source [⟨some holder, c, sent⟩]
        = if source = holder then [c] else [] := by
      intro sent
      by_cases same : source = holder
      · simp [handled, same]
      · have other : ¬ holder = source := fun is => same is.symm
        simp [handled, same, other]
    by_cases ends : isEndOfLine c = true
    · simp only [drain, if_pos ends]
      rw [one]
      split_ifs <;> rfl
    · have later := ih (emit line holder c).1
      simp only [drain, if_neg ends]
      rw [← singleton_append, handled_append, one, append_assoc, later]
      split_ifs <;> rfl

/-- What holds between the rounds of `Pull`. -/
structure Kept (mux : TextMux) (pieces : List Piece) : Prop where
  linked : Linked mux.line pieces
  alone : ∀ first ∈ mux.line, ∀ second ∈ mux.line, first = second
  holds : ∀ holder, mux.holder = some holder → ∀ source ∈ mux.line, source = holder

variable {mux : TextMux}

/-- Who takes the turn has the line, if need be behind a separator. -/
theorem Kept.takeTurn (kept : Kept mux pieces) {holder : Fin 2}
    {line : List (Fin 2)} {separator : List Piece}
    (turn : mux.takeTurn = some (holder, line, separator))
    : Linked line (pieces ++ separator) ∧ (∀ source ∈ line, source = holder)
      ∧ ∀ source, handled source separator = [] := by
  unfold TextMux.takeTurn at turn
  cases held : mux.holder with
  | some other =>
    rw [held] at turn
    cases turn
    rw [append_nil]
    exact ⟨kept.linked, kept.holds holder held, fun _ => rfl⟩
  | none =>
    rw [held] at turn
    obtain ⟨chosen, -, same⟩ := Option.map_eq_some_iff.mp turn
    split_ifs at same with other
    · cases same
      exact ⟨kept.linked.separator, nofun, fun _ => rfl⟩
    · cases same
      rw [append_nil]
      refine ⟨kept.linked, fun source member => ?_, fun _ => rfl⟩
      have isLast : mux.line.getLast? = some holder := by
        by_contra different
        exact other ⟨ne_nil_of_mem member, different⟩
      exact kept.alone source member holder (mem_of_getLast? isLast)

theorem Kept.congr {mux other : TextMux} (kept : Kept mux pieces)
    (line : other.line = mux.line)
    (holder : ∀ source, other.holder = some source → mux.holder = some source)
    : Kept other pieces := by
  refine ⟨?_, ?_, fun source held => ?_⟩
  · rw [line]
    exact kept.linked
  · rw [line]
    exact kept.alone
  · rw [line]
    exact kept.holds source (holder source held)

/-- What was dealt with was taken from the front of what was pending. -/
def Serves (mux : TextMux) (pieces : List Piece) (after : TextMux) : Prop :=
  ∀ source, handled source pieces ++ (after.sources source).pending = (mux.sources source).pending
    ∧ (after.sources source).incomplete = (mux.sources source).incomplete

/-- What one source has to say is taken from the front of what is pending. -/
theorem handled_drainedMux (mux : TextMux) {holder : Fin 2} {line : List (Fin 2)}
    {separator : List Piece} (none : ∀ source, handled source separator = [])
    : mux.Serves (separator ++ (drain holder line (mux.sources holder).pending).pieces)
        (mux.drainedMux holder (drain holder line (mux.sources holder).pending)) := by
  intro source
  have front := handled_drain holder source line (mux.sources holder).pending
  rw [handled_append, none, nil_append]
  by_cases isHolder : source = holder
  · simp only [drainedMux, setSource, if_pos isHolder] at front ⊢
    rw [front, isHolder]
    exact ⟨rfl, rfl⟩
  · simp only [drainedMux, setSource, if_neg isHolder, append_nil] at front ⊢
    rw [front]
    exact ⟨rfl, trivial⟩

/-- A round keeps this, and what it deals with is taken from what is pending. -/
theorem Kept.round (kept : Kept mux pieces) (nowMs : QWORD)
    : Kept (mux.round nowMs).1 (pieces ++ (mux.round nowMs).2.1)
      ∧ mux.Serves (mux.round nowMs).2.1 (mux.round nowMs).1 := by
  unfold TextMux.round
  cases turn : mux.takeTurn with
  | none =>
    simp only [append_nil]
    exact ⟨kept, fun source => ⟨rfl, rfl⟩⟩
  | some found =>
    obtain ⟨holder, line, separator⟩ := found
    obtain ⟨linked, own, nothing⟩ := kept.takeTurn turn
    obtain ⟨drained, still⟩ := linked.drain own (mux.sources holder).pending
    rw [append_assoc] at drained
    have front := @handled_drainedMux mux holder line separator nothing
    simp only
    generalize drain holder line (mux.sources holder).pending = drain at drained still front ⊢
    have after : Kept (mux.drainedMux holder drain) (pieces ++ (separator ++ drain.pieces)) := by
      refine ⟨drained, fun first isFirst second isSecond => ?_, fun other held => ?_⟩
      · exact (still first isFirst).trans (still second isSecond).symm
      · cases held
        exact still
    split_ifs with ends
    · have released : ((mux.drainedMux holder drain).endLine holder).line
            = (mux.drainedMux holder drain).line
          ∧ ((mux.drainedMux holder drain).endLine holder).holder = none := by
        unfold endLine
        split_ifs <;> exact ⟨rfl, rfl⟩
      refine ⟨after.congr released.1 (fun other held => ?_), fun source => ?_⟩
      · rw [released.2] at held
        cases held
      · rw [(sources_endLine _ holder source).1, (sources_endLine _ holder source).2]
        exact front source
    · exact ⟨after, front⟩
    · exact ⟨after.congr rfl (fun other held => nomatch held), front⟩

theorem Kept.pullLoop (kept : Kept mux pieces) {nowMs : QWORD} {allowed : Nat}
    {result : TextMux × List Piece} (returned : pullLoop nowMs allowed mux = some result)
    : Kept result.1 (pieces ++ result.2) ∧ mux.Serves result.2 result.1 := by
  induction allowed generalizing mux pieces result with
  | zero => cases returned
  | succ allowed ih =>
    obtain ⟨next, served⟩ := kept.round nowMs
    simp only [pullLoop] at returned
    split_ifs at returned with goesOn
    · obtain ⟨rest, isRest, same⟩ := Option.map_eq_some_iff.mp returned
      obtain ⟨last, later⟩ := ih next isRest
      rw [← same]
      rw [append_assoc] at last
      refine ⟨last, fun source => ⟨?_, (later source).2.trans (served source).2⟩⟩
      rw [handled_append, append_assoc, (later source).1, (served source).1]
    · cases returned
      exact ⟨next, served⟩

/-- `Pull` keeps the sources apart and loses nothing. -/
theorem Kept.pull (kept : Kept mux pieces) (nowMs : QWORD)
    : Kept (mux.pull nowMs).1 (pieces ++ (mux.pull nowMs).2)
      ∧ mux.Serves (mux.pull nowMs).2 (mux.pull nowMs).1 :=
  kept.pullLoop (Option.some_get _).symm

/-- What a push adds to its source. -/
theorem sources_pushTo (mux : TextMux) (source : Fin 2) (utf8 : List BYTE) (nowMs : QWORD)
    : (mux.pushTo source utf8 nowMs).line = mux.line
      ∧ (mux.pushTo source utf8 nowMs).holder = mux.holder
      ∧ ∀ other, ((mux.pushTo source utf8 nowMs).sources other).pending
          = (mux.sources other).pending
            ++ (if other = source then
              (decode ((mux.sources source).incomplete ++ utf8)).1.filter (· ≠ bom) else [])
        ∧ ((mux.pushTo source utf8 nowMs).sources other).incomplete
          = if other = source then (decode ((mux.sources source).incomplete ++ utf8)).2
            else (mux.sources other).incomplete := by
  unfold pushTo
  simp only
  generalize decode ((mux.sources source).incomplete ++ utf8) = read
  split_ifs with empty first
  all_goals
    refine ⟨rfl, rfl, fun other => ?_⟩
    by_cases same : other = source
    · simp only [setSource, *, if_true, append_nil, nil_append, and_self]
    · simp only [setSource, if_neg same, append_nil, and_self]

/-! Runs. -/

inductive Call
  | push (source : Int) (utf8 : List BYTE) (nowMs : QWORD)
  | pull (nowMs : QWORD)

/-- A multiplexer with what was pushed for each source, and what was pulled. -/
structure Session where
  mux : TextMux
  pushed : Fin 2 → List BYTE := fun _ => []
  pieces : List Piece := []

namespace Session

def output (session : Session) : List BYTE := session.pieces.flatMap Piece.bytes

def step (session : Session) : Call → Session
  | .push source utf8 nowMs =>
    { session with
      mux := session.mux.push source utf8 nowMs
      pushed := fun other =>
        session.pushed other ++ if source = other.val then utf8 else [] }
  | .pull nowMs =>
    { session with
      mux := (session.mux.pull nowMs).1
      pieces := session.pieces ++ (session.mux.pull nowMs).2 }

def characters (session : Session) (texts : Fin 2 → List Char) (source : Fin 2) : List Char :=
  (received (texts source) (session.pushed source).length).1

structure Sound (texts : Fin 2 → List Char) (session : Session) : Prop where
  kept : Kept session.mux session.pieces
  characters
    : ∀ source, handled source session.pieces ++ (session.mux.sources source).pending
      = ((session.characters texts source).map Char.toNat).filter (· ≠ bom)
  incomplete
    : ∀ source, (session.mux.sources source).incomplete
      = (received (texts source) (session.pushed source).length).2

theorem initially_sound (releaseMs : QWORD) (texts : Fin 2 → List Char)
    : Sound texts { mux := { releaseMs } } := by
  have nothing : ∀ text : List Char, received text 0 = ([], []) := by
    intro text
    cases text with
    | nil => rfl
    | cons c rest =>
      have long : 0 < (String.utf8EncodeChar c).length := by
        obtain ⟨lead, others, encoded, -⟩ := read_utf8 c
        rw [encoded]
        exact Nat.zero_lt_succ _
      rw [received, if_pos long]
      rfl
  refine ⟨⟨⟨⟨fun before piece after split => ?_, fun before after split => ?_⟩, rfl⟩,
    by simp, fun holder held => ?_⟩,
    fun source => ?_, fun source => ?_⟩
  · simp at split
  · rw [(append_eq_nil_iff.mp split.symm).1]
    intro front line rest isText
    obtain ⟨front, -⟩ := append_eq_nil_iff.mp isText.symm
    rw [(append_eq_nil_iff.mp front).2]
    simp
  · cases held
  · show _ = ((received (texts source) 0).1.map Char.toNat).filter (· ≠ bom)
    rw [nothing]
    rfl
  · show _ = (received (texts source) 0).2
    rw [nothing]

variable {texts : Fin 2 → List Char} {session : Session}

/-- What is pushed of a text becomes pending when it is complete. -/
theorem push_sound (sound : Sound texts session) (target : Int) (utf8 : List BYTE) (nowMs : QWORD)
    (valid : ∀ source, (session.step (.push target utf8 nowMs)).pushed source
      <+: TextMux.utf8 (texts source))
    : Sound texts (session.step (.push target utf8 nowMs)) := by
  by_cases known : 0 ≤ target ∧ target < 2
  · obtain ⟨source, isTarget⟩ : ∃ source : Fin 2, target = source.val :=
      ⟨⟨target.toNat, by omega⟩, by simp only; omega⟩
    have pushes : session.mux.push target utf8 nowMs = session.mux.pushTo source utf8 nowMs := by
      rw [push, dif_pos known]
      congr 1
      exact Fin.ext (by simp only; omega)
    obtain ⟨line, holder, sources⟩ := sources_pushTo session.mux source utf8 nowMs
    rw [← pushes] at line holder sources
    have pushed : ∀ other, (session.step (.push target utf8 nowMs)).pushed other
        = session.pushed other ++ if other = source then utf8 else [] := by
      intro other
      have same : (target = other.val) = (other = source) := propext
        ⟨fun is => Fin.ext (by omega), fun is => by rw [is, isTarget]⟩
      simp only [step, same]
    have kept : Kept (session.mux.push target utf8 nowMs) session.pieces :=
      sound.kept.congr line (fun other held => holder ▸ held)
    have isFront := valid source
    rw [pushed source, if_pos rfl] at isFront
    obtain ⟨fresh, characters, read⟩ := decode_resume isFront
    rw [← sound.incomplete source] at read
    refine ⟨kept, fun other => ?_, fun other => ?_⟩
    · have before := sound.characters other
      simp only [Session.characters] at before ⊢
      rw [pushed other]
      refine (congrArg (handled other session.pieces ++ ·) (sources other).1).trans ?_
      rw [← append_assoc, before]
      by_cases same : other = source
      · rw [if_pos same, if_pos same, same, characters, read, map_append, filter_append]
      · rw [if_neg same, if_neg same, append_nil, append_nil]
    · rw [pushed other]
      refine (sources other).2.trans ?_
      by_cases same : other = source
      · rw [if_pos same, if_pos same, same, read]
      · rw [if_neg same, if_neg same, append_nil, sound.incomplete other]
  · have ignored : session.step (.push target utf8 nowMs) = session := by
      have mux : session.mux.push target utf8 nowMs = session.mux := dif_neg known
      have pushed : (fun other => session.pushed other ++ if target = other.val then utf8 else [])
          = session.pushed := by
        funext other
        rw [if_neg (by have := other.isLt; omega), append_nil]
      simp only [step, mux, pushed]
    rw [ignored]
    exact sound

theorem pull_sound (sound : Sound texts session) (nowMs : QWORD)
    : Sound texts (session.step (.pull nowMs)) := by
  obtain ⟨kept, served⟩ := sound.kept.pull nowMs
  refine ⟨kept, fun source => ?_, fun source => (served source).2.trans (sound.incomplete source)⟩
  refine Eq.trans ?_ (sound.characters source)
  simp only [step]
  rw [handled_append, append_assoc, (served source).1]

theorem step_sound (sound : Sound texts session) (call : Call)
    (valid : ∀ source, (session.step call).pushed source <+: utf8 (texts source))
    : Sound texts (session.step call) := by
  cases call with
  | push source utf8 nowMs => exact push_sound sound source utf8 nowMs valid
  | pull nowMs => exact pull_sound sound nowMs

theorem pushed_step (session : Session) (call : Call) (source : Fin 2)
    : session.pushed source <+: (session.step call).pushed source := by
  cases call with
  | push target utf8 nowMs => exact prefix_append _ _
  | pull nowMs => exact prefix_refl _

theorem pushed_run (session : Session) (calls : List Call) (source : Fin 2)
    : session.pushed source <+: (Foundation.run step session calls).pushed source := by
  induction calls generalizing session with
  | nil => exact prefix_refl _
  | cons call rest ih => exact (pushed_step session call source).trans (ih _)

/-- A run of calls. The induction is on the calls; what is pushed at the end tells what was
pushed before.
-/
theorem run_sound {texts : Fin 2 → List Char} {session : Session} (sound : Sound texts session)
    (calls : List Call)
    (valid : ∀ source, (Foundation.run step session calls).pushed source <+: utf8 (texts source))
    : Sound texts (Foundation.run step session calls) := by
  induction calls generalizing session with
  | nil => exact sound
  | cons call rest ih =>
    exact ih (step_sound sound call
      (fun source => (pushed_run _ rest source).trans (valid source))) valid

/-- The characters that went out, with their separators. -/
def sent (session : Session) : List Char :=
  (session.pieces.filter Piece.sent).map (fun piece => Char.ofNat piece.c)

/-- Every character that was dealt with is one of a text, or a separator. -/
theorem valid_piece (sound : Sound texts session) {piece : Piece} (member : piece ∈ session.pieces)
    : appendUtf8 piece.c = String.utf8EncodeChar (Char.ofNat piece.c) := by
  cases origin : piece.source with
  | none =>
    obtain ⟨before, after, split⟩ := append_of_mem member
    rw [(sound.kept.linked.orderly.fits before piece after split).separator origin]
    decide
  | some source =>
    have isHandled : piece.c ∈ handled source session.pieces :=
      mem_map.mpr ⟨piece, mem_filter.mpr ⟨member, by simp [origin]⟩, rfl⟩
    have isCharacter := mem_append_left (session.mux.sources source).pending isHandled
    rw [sound.characters source] at isCharacter
    obtain ⟨c, -, same⟩ := mem_map.mp (mem_filter.mp isCharacter).1
    rw [← same, appendUtf8_eq, Char.ofNat_toNat]

theorem output_eq (sound : Sound texts session) : session.output = utf8 session.sent := by
  have pieces : ∀ pieces : List Piece, (∀ piece ∈ pieces, piece ∈ session.pieces)
      → pieces.flatMap Piece.bytes
        = utf8 ((pieces.filter Piece.sent).map (fun piece => Char.ofNat piece.c)) := by
    intro pieces inside
    induction pieces with
    | nil => rfl
    | cons piece rest ih =>
      have others := ih (fun other member => inside other (.tail piece member))
      rw [flatMap_cons, others, Piece.bytes]
      cases sent : piece.sent with
      | true =>
        rw [filter_cons_of_pos sent, map_cons, if_pos rfl,
          valid_piece sound (inside piece (.head rest))]
        rfl
      | false =>
        rw [filter_cons_of_neg (by rw [sent]; decide)]
        rfl
  exact pieces session.pieces (fun _ member => member)

/-- For every run in which the sources push texts, cut anywhere: for each source, what `Pull`
has dealt with and what is pending are the complete characters in their order, but for keep-alives;
of these all go out but erasures with nothing of their source on the line, and erasures that go
out remove a character of their source from the line; at no time does a line of the display
have characters of both sources. The output is the text of what goes out.
-/
theorem sources_stay_apart (releaseMs : QWORD) (texts : Fin 2 → List Char) (calls : List Call)
    {session : Session} (reached : session = Foundation.run step { mux := { releaseMs } } calls)
    (valid : ∀ source, session.pushed source <+: utf8 (texts source))
    : (∀ source, handled source session.pieces ++ (session.mux.sources source).pending
        = ((session.characters texts source).map Char.toNat).filter (· ≠ bom))
      ∧ Orderly session.pieces ∧ session.output = utf8 session.sent := by
  rw [reached] at valid ⊢
  have sound := run_sound (initially_sound releaseMs texts) calls valid
  exact ⟨sound.characters, sound.kept.linked.orderly, output_eq sound⟩

/-- One source types a character that is cut in two, and erases it; the other one speaks. -/
def typedAndSpoken : List Call :=
  [.push 0 [0x61, 0xC3] 0, .push 1 [0x62] 5, .pull 5, .push 0 [0xA9, 0x08] 10, .pull 2000]

theorem sources_stay_apart_typedAndSpoken
    : Orderly (Foundation.run step { mux := { releaseMs := 1000 } } typedAndSpoken).pieces
      ∧ (Foundation.run step { mux := { releaseMs := 1000 } } typedAndSpoken).characters
          (fun source => if source = 0 then ['a', 'é', Char.ofNat 8] else ['b']) 0
        = ['a', 'é', Char.ofNat 8] :=
  ⟨(sources_stay_apart 1000 (fun source => if source = 0 then ['a', 'é', Char.ofNat 8] else ['b'])
      typedAndSpoken rfl (by decide)).2.1, by decide⟩

end Session

end MediaServer.Text.TextMux
