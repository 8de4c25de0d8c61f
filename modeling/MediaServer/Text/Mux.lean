import MediaServer.Rtp.Packet
import Mathlib.Data.Fin.Basic

/-! `TextMux`: two sources of text share one output. One source holds the output until the end
of its line, or until it has been silent for some time.
-/

namespace MediaServer.Text

namespace TextMux

def lineSeparator : Nat := 0x2028

def backspace : Nat := 0x0008

def bom : Nat := 0xFEFF

def isEndOfLine (c : Nat) : Bool := c = lineSeparator ∨ c = 0x0A

def appendUtf8 (c : Nat) : List BYTE :=
  if c < 0x80 then [.ofNat c]
  else if c < 0x800 then [.ofNat (0xC0 ||| c >>> 6), .ofNat (0x80 ||| (c &&& 0x3F))]
  else if c < 0x10000 then
    [.ofNat (0xE0 ||| c >>> 12), .ofNat (0x80 ||| (c >>> 6 &&& 0x3F)),
      .ofNat (0x80 ||| (c &&& 0x3F))]
  else
    [.ofNat (0xF0 ||| c >>> 18), .ofNat (0x80 ||| (c >>> 12 &&& 0x3F)),
      .ofNat (0x80 ||| (c >>> 6 &&& 0x3F)), .ofNat (0x80 ||| (c &&& 0x3F))]

/-! Reading. -/

/-- The length of a sequence and the bits of its first byte, unless that is a stray
continuation.
-/
def leadOf (lead : BYTE) : Option (Nat × Nat) :=
  if lead < 0x80 then some (1, lead.toNat)
  else if lead &&& 0xE0 = 0xC0 then some (2, (lead &&& 0x1F).toNat)
  else if lead &&& 0xF0 = 0xE0 then some (3, (lead &&& 0x0F).toNat)
  else if lead &&& 0xF8 = 0xF0 then some (4, (lead &&& 0x07).toNat)
  else none

/-- The character of a sequence, unless a byte is not a continuation. -/
def continued : Nat → List BYTE → Option Nat
  | c, [] => some c
  | c, next :: rest =>
    if next &&& 0xC0 ≠ 0x80 then none else continued (c <<< 6 ||| (next &&& 0x3F).toNat) rest

/-- The loop of `Push`: the characters, and the sequence that is cut off at the end. A byte
that starts nothing is skipped.
-/
def decode : List BYTE → List Nat × List BYTE
  | [] => ([], [])
  | lead :: rest =>
    match leadOf lead with
    | none => decode rest
    | some (length, c) =>
      if rest.length + 1 < length then ([], lead :: rest)
      else
        match continued c (rest.take (length - 1)) with
        | none => decode rest
        | some c =>
          let (chars, incomplete) := decode (rest.drop (length - 1))
          (c :: chars, incomplete)
termination_by bytes => bytes.length
decreasing_by
  all_goals
    simp only [List.length_cons, List.length_drop]
    omega

/-- What is kept of a source; `incomplete` is a sequence whose rest is still to come. -/
structure Source where
  pending : List Nat := []
  incomplete : List BYTE := []
  lastInputMs : QWORD := 0
  queuedOrder : QWORD := 0

end TextMux

structure TextMux where
  releaseMs : QWORD := 1000
  sources : Fin 2 → TextMux.Source := fun _ => {}
  holder : Option (Fin 2) := none
  order : QWORD := 0
  line : List (Fin 2) := []

namespace TextMux

def setSource (mux : TextMux) (source : Fin 2) (state : Source) : TextMux :=
  { mux with sources := fun other => if other = source then state else mux.sources other }

def pushTo (mux : TextMux) (source : Fin 2) (utf8 : List BYTE) (nowMs : QWORD) : TextMux :=
  let state := mux.sources source
  let (chars, incomplete) := decode (state.incomplete ++ utf8)
  let text := chars.filter (· ≠ bom)
  if text = [] then mux.setSource source { state with incomplete }
  else if state.pending = [] then
    { mux.setSource source
        { pending := text, incomplete, lastInputMs := nowMs, queuedOrder := mux.order + 1 } with
      order := mux.order + 1 }
  else
    mux.setSource source
      { state with pending := state.pending ++ text, incomplete, lastInputMs := nowMs }

def push (mux : TextMux) (source : Int) (utf8 : List BYTE) (nowMs : QWORD) : TextMux :=
  if valid : 0 ≤ source ∧ source < 2 then mux.pushTo ⟨source.toNat, by omega⟩ utf8 nowMs else mux

def isEmpty (mux : TextMux) : Bool := ∀ source, (mux.sources source).pending = []

/-! Writing. -/

/-- What `Pull` did with a character: whose it was, if it was not a separator that the
multiplexer put in, and whether it went out.
-/
structure Piece where
  source : Option (Fin 2)
  c : Nat
  sent : Bool

def Piece.bytes (piece : Piece) : List BYTE := if piece.sent then appendUtf8 piece.c else []

/-- `Emit`: the line behind a character, and whether it goes out. An erasure is for a
character of its own source only.
-/
def emit (line : List (Fin 2)) (source : Fin 2) (c : Nat) : List (Fin 2) × Bool :=
  if c = backspace then
    if line.getLast? = some source then (line.dropLast, true) else (line, false)
  else if isEndOfLine c then ([], true)
  else (line ++ [source], true)

/-- What the inner loop leaves. -/
structure Drained where
  line : List (Fin 2)
  pending : List Nat
  pieces : List Piece
  endOfLine : Bool

def drain (source : Fin 2) : List (Fin 2) → List Nat → Drained
  | line, [] => ⟨line, [], [], false⟩
  | line, c :: rest =>
    let (after, sent) := emit line source c
    if isEndOfLine c then ⟨after, rest, [⟨some source, c, sent⟩], true⟩
    else
      let drained := drain source after rest
      { drained with pieces := ⟨some source, c, sent⟩ :: drained.pieces }

/-- The one of two sources that has been waiting longer. -/
def better (mux : TextMux) (chosen : Option (Fin 2)) (source : Fin 2) : Option (Fin 2) :=
  if (mux.sources source).pending = [] then chosen
  else
    match chosen with
    | none => some source
    | some best =>
      if (mux.sources source).queuedOrder < (mux.sources best).queuedOrder then some source
      else some best

def choose (mux : TextMux) : Option (Fin 2) := ([0, 1] : List (Fin 2)).foldl mux.better none

def takeTurn (mux : TextMux) : Option (Fin 2 × List (Fin 2) × List Piece) :=
  match mux.holder with
  | some holder => some (holder, mux.line, [])
  | none =>
    mux.choose.map fun chosen =>
      if mux.line ≠ [] ∧ mux.line.getLast? ≠ some chosen then
        (chosen, (emit mux.line chosen lineSeparator).1, [⟨none, lineSeparator, true⟩])
      else (chosen, mux.line, [])

/-- The multiplexer when a source has no more to say in a round. -/
def drainedMux (mux : TextMux) (holder : Fin 2) (drained : Drained) : TextMux :=
  { mux.setSource holder { mux.sources holder with pending := drained.pending } with
    holder := some holder
    line := drained.line }

def endLine (mux : TextMux) (holder : Fin 2) : TextMux :=
  if (mux.sources holder).pending = [] then { mux with holder := none }
  else
    { mux.setSource holder { mux.sources holder with queuedOrder := mux.order + 1 } with
      order := mux.order + 1
      holder := none }

/-- A round of the loop of `Pull`: what it does, and whether there is another one. -/
def round (nowMs : QWORD) (mux : TextMux) : TextMux × List Piece × Bool :=
  match mux.takeTurn with
  | none => (mux, [], false)
  | some (holder, line, separator) =>
    let drained := drain holder line (mux.sources holder).pending
    let after := mux.drainedMux holder drained
    if drained.endOfLine then (after.endLine holder, separator ++ drained.pieces, true)
    else if nowMs - (after.sources holder).lastInputMs < after.releaseMs then
      (after, separator ++ drained.pieces, false)
    else ({ after with holder := none }, separator ++ drained.pieces, !after.isEmpty)

def pullLoop (nowMs : QWORD) : Nat → TextMux → Option (TextMux × List Piece)
  | 0, _ => none
  | rounds + 1, mux =>
    let (after, pieces, goesOn) := mux.round nowMs
    if goesOn then
      (pullLoop nowMs rounds after).map (fun (last, more) => (last, pieces ++ more))
    else some (after, pieces)

def waiting (mux : TextMux) : Nat :=
  (mux.sources 0).pending.length + (mux.sources 1).pending.length

def rounds (mux : TextMux) : Nat := 2 * mux.waiting + (if mux.holder.isSome then 1 else 0) + 1

variable {mux : TextMux}

theorem better_pending {chosen : Option (Fin 2)} {source other : Fin 2}
    (waits : ∀ best, chosen = some best → (mux.sources best).pending ≠ [])
    (found : mux.better chosen source = some other) : (mux.sources other).pending ≠ [] := by
  unfold better at found
  split_ifs at found with empty
  · exact waits other found
  · cases chosen with
    | none => exact Option.some.inj found ▸ empty
    | some best =>
      simp only [] at found
      split_ifs at found
      · exact Option.some.inj found ▸ empty
      · exact waits other found

theorem pending_of_choose {chosen : Fin 2} (found : mux.choose = some chosen)
    : (mux.sources chosen).pending ≠ [] := by
  refine better_pending (fun _ first => better_pending (fun _ impossible => ?_) first) found
  cases impossible

theorem length_drain (source : Fin 2) (line : List (Fin 2)) (pending : List Nat)
    : if (drain source line pending).endOfLine
      then (drain source line pending).pending.length < pending.length
      else (drain source line pending).pending = [] := by
  induction pending generalizing line with
  | nil => rfl
  | cons c rest ih =>
    by_cases last : isEndOfLine c = true
    · simp only [drain, last, if_true, List.length_cons]
      exact Nat.lt_succ_self _
    · have shorter := ih (emit line source c).1
      simp only [drain, last, Bool.false_eq_true, if_false, List.length_cons]
      split_ifs at shorter ⊢
      · exact Nat.lt_succ_of_lt shorter
      · exact shorter

/-- What is waiting in both sources when one of them has been served. -/
theorem waiting_drainedMux (mux : TextMux) (holder : Fin 2) (drained : Drained)
    : (mux.drainedMux holder drained).waiting + (mux.sources holder).pending.length
      = mux.waiting + drained.pending.length := by
  rcases Fin.exists_fin_two.mp ⟨holder, rfl⟩ with isHolder | isHolder
  · subst isHolder
    simp only [drainedMux, setSource, waiting]
    simp
    omega
  · subst isHolder
    simp only [drainedMux, setSource, waiting]
    simp
    omega

theorem sources_endLine (mux : TextMux) (holder source : Fin 2)
    : ((mux.endLine holder).sources source).pending = (mux.sources source).pending
      ∧ ((mux.endLine holder).sources source).incomplete = (mux.sources source).incomplete := by
  unfold endLine
  split_ifs
  · exact ⟨rfl, rfl⟩
  · by_cases isHolder : source = holder <;> simp [setSource, isHolder]

theorem waiting_endLine (mux : TextMux) (holder : Fin 2)
    : (mux.endLine holder).waiting = mux.waiting := by
  rw [waiting, waiting, (sources_endLine mux holder 0).1, (sources_endLine mux holder 1).1]

/-- A source that takes its turn has something to say. -/
theorem pending_of_takeTurn {holder : Fin 2} {line : List (Fin 2)} {separator : List Piece}
    (turn : mux.takeTurn = some (holder, line, separator))
    : mux.holder = some holder ∨ mux.holder = none ∧ (mux.sources holder).pending ≠ [] := by
  unfold takeTurn at turn
  cases held : mux.holder with
  | some other =>
    rw [held] at turn
    cases turn
    exact .inl rfl
  | none =>
    rw [held] at turn
    obtain ⟨chosen, found, same⟩ := Option.map_eq_some_iff.mp turn
    have isHolder : chosen = holder := by
      split_ifs at same
      · exact congrArg Prod.fst same
      · exact congrArg Prod.fst same
    exact .inr ⟨rfl, isHolder ▸ pending_of_choose found⟩

/-- A round that is not the last one leaves less to do. -/
theorem rounds_round (nowMs : QWORD) (mux : TextMux) (goesOn : (mux.round nowMs).2.2 = true)
    : (mux.round nowMs).1.rounds < mux.rounds := by
  unfold round at goesOn ⊢
  cases turn : mux.takeTurn with
  | none =>
    rw [turn] at goesOn
    cases goesOn
  | some found =>
    obtain ⟨holder, line, separator⟩ := found
    simp only [turn] at goesOn ⊢
    have shorter := length_drain holder line (mux.sources holder).pending
    have total := waiting_drainedMux mux holder (drain holder line (mux.sources holder).pending)
    generalize drain holder line (mux.sources holder).pending = drained at goesOn shorter total ⊢
    by_cases ends : drained.endOfLine = true
    · rw [if_pos ends] at shorter ⊢
      have unheld : ((mux.drainedMux holder drained).endLine holder).holder = none := by
        unfold endLine
        split_ifs <;> rfl
      rw [rounds, rounds, waiting_endLine, unheld]
      simp only [Option.isSome_none, Bool.false_eq_true, if_false]
      omega
    · rw [if_neg ends] at shorter goesOn ⊢
      by_cases holds : nowMs - ((mux.drainedMux holder drained).sources holder).lastInputMs
          < (mux.drainedMux holder drained).releaseMs
      · rw [if_pos holds] at goesOn
        cases goesOn
      · rw [if_neg holds]
        have same : TextMux.waiting { mux.drainedMux holder drained with holder := none }
            = (mux.drainedMux holder drained).waiting := rfl
        rw [rounds, rounds, same]
        simp only [Option.isSome_none, Bool.false_eq_true, if_false]
        rw [shorter, List.length_nil] at total
        rcases pending_of_takeTurn turn with held | ⟨unheld, waits⟩
        · rw [held]
          simp only [Option.isSome_some, if_true]
          omega
        · have := List.length_pos_iff.mpr waits
          omega

/-- The loop comes to its end. The induction is on the rounds that are allowed. -/
theorem pullLoop_isSome (nowMs : QWORD) {allowed : Nat} (enough : mux.rounds ≤ allowed)
    : (pullLoop nowMs allowed mux).isSome := by
  induction allowed generalizing mux with
  | zero => exact absurd enough (by rw [rounds]; omega)
  | succ allowed ih =>
    have fewer := rounds_round nowMs mux
    simp only [pullLoop]
    split_ifs with goesOn
    · rw [Option.isSome_map]
      have := fewer goesOn
      exact ih (by omega)
    · rfl

/-- `Pull`, with what it did with each character. -/
def pull (mux : TextMux) (nowMs : QWORD) : TextMux × List Piece :=
  (pullLoop nowMs mux.rounds mux).get (pullLoop_isSome nowMs (Nat.le_refl _))

end TextMux

end MediaServer.Text
