import Mathlib.Data.List.Basic

/-! Loops that read a buffer turn by turn, and when a loop that is given its input in two
segments does the same as one that is given it at once.
-/

namespace MediaServer.Foundation

variable {σ τ α ε : Type}

/-! Results with more behind the buffer. -/

variable {result : Except ε σ}

/-- Two continuations of one result need to agree only on what it can be. -/
theorem bind_congr_ok {left right : σ → Except ε τ}
    (agree : ∀ value, result = .ok value → left value = right value)
    : result >>= left = result >>= right := by
  cases result with
  | error failure => rfl
  | ok value => exact agree value rfl

theorem map_ok {f : σ → τ} {value : τ} (success : result.map f = .ok value)
    : ∃ found, result = .ok found ∧ value = f found := by
  cases result with
  | error failure => cases success
  | ok found =>
    cases success
    exact ⟨found, rfl, rfl⟩

theorem map_error {f : σ → τ} {failure : ε} (fails : result.map f = .error failure)
    : result = .error failure := by
  cases result with
  | error reason =>
    cases fails
    rfl
  | ok found => cases fails

theorem map_injective {left right : Except ε σ} {f : σ → τ} (injective : ∀ a b, f a = f b → a = b)
    (same : left.map f = right.map f)
    : left = right := by
  cases left with
  | error failure =>
    cases right with
    | error other => exact congrArg _ (Except.error.inj same)
    | ok value => cases same
  | ok value =>
    cases right with
    | error other => cases same
    | ok other => exact congrArg _ (injective _ _ (Except.ok.inj same))

/-- What the result `one` tells of the result `both` with more behind the buffer: a reading that
fails, fails with more behind it as well, and of one that succeeds `next` is known.
-/
def Carries (one : Except ε σ) (both : Except ε τ) (next : σ → Prop) : Prop :=
  match one with
  | .error failure => both = .error failure
  | .ok value => next value

section

variable {one : Except ε σ} {both : Except ε τ} {next : σ → Prop}

theorem Carries.of_ok (carries : Carries one both next) {value : σ} (success : one = .ok value)
    : next value := by
  subst success
  exact carries

theorem Carries.of_error (carries : Carries one both next) {failure : ε}
    (fails : one = .error failure)
    : both = .error failure := by
  subst fails
  exact carries

theorem Carries.imp {after : σ → Prop} (carries : Carries one both next)
    (each : ∀ value, one = .ok value → next value → after value)
    : Carries one both after := by
  cases one with
  | ok value => exact each value rfl carries
  | error failure => exact carries

/-- A reading that goes on behind its own result. -/
theorem Carries.of_bind {resume : σ → Except ε τ} (same : both = one >>= resume)
    : Carries one both (fun value => both = resume value) := by
  cases one with
  | ok value => exact same
  | error failure => exact same

end

/-! Loops. -/

/-- What one turn of a loop leaves: the state, the rest of the buffer, and whether the loop
goes on.
-/
structure Pass (σ α : Type) where
  state : σ
  rest : List α
  again : Bool

/-- A loop that turns while its buffer holds something. States have a rank and each element
that is left counts `pace`, so that two turns can be compared; a loop that turns without end
comes to `stuck`.
-/
structure Loop (σ α ε : Type) where
  turn : σ → List α → Except ε (Pass σ α)
  rank : σ → Nat
  pace : Nat
  stuck : σ → ε

namespace Loop

def measure (loop : Loop σ α ε) (state : σ) (buffer : List α) : Nat :=
  loop.rank state + loop.pace * buffer.length

def follow (loop : Loop σ α ε) (next : σ → List α → Except ε (Pass σ α)) (state : σ)
    (buffer : List α) (pass : Pass σ α) : Except ε (Pass σ α) :=
  if pass.again then
    if loop.measure pass.state pass.rest < loop.measure state buffer
    then next pass.state pass.rest
    else .error (loop.stuck state)
  else .ok pass

def spin (loop : Loop σ α ε) : Nat → σ → List α → Except ε (Pass σ α)
  | 0, state, _ => .error (loop.stuck state)
  | fuel + 1, state, buffer =>
    if buffer.isEmpty then .ok ⟨state, [], true⟩
    else loop.turn state buffer >>= loop.follow (loop.spin fuel) state buffer

/-- The loop on a buffer: it turns as often as the measure can fall. -/
def run (loop : Loop σ α ε) (state : σ) (buffer : List α) : Except ε (Pass σ α) :=
  loop.spin (loop.measure state buffer + 1) state buffer

variable {loop : Loop σ α ε}

variable {state : σ} {buffer : List α} {pass : Pass σ α}

theorem follow_congr {first second : σ → List α → Except ε (Pass σ α)}
    (same
      : loop.measure pass.state pass.rest < loop.measure state buffer
        → first pass.state pass.rest = second pass.state pass.rest)
    : loop.follow first state buffer pass = loop.follow second state buffer pass := by
  simp only [follow]
  split_ifs with again smaller
  · exact same smaller
  · rfl
  · rfl

/-- More turns than the measure allows change nothing. -/
theorem spin_enough {fuel : Nat} (enough : loop.measure state buffer < fuel)
    : loop.spin fuel state buffer = loop.run state buffer := by
  have agree : ∀ fuel other state buffer, loop.measure state buffer < fuel
      → loop.measure state buffer < other
      → loop.spin fuel state buffer = loop.spin other state buffer := by
    intro fuel
    induction fuel with
    | zero => exact fun _ _ _ impossible => absurd impossible (Nat.not_lt_zero _)
    | succ fuel ih =>
      intro other state buffer first second
      cases other with
      | zero => exact absurd second (Nat.not_lt_zero _)
      | succ other =>
        simp only [spin]
        split
        · rfl
        · cases loop.turn state buffer with
          | error failure => rfl
          | ok pass =>
            exact follow_congr (fun smaller => ih other _ _ (by omega) (by omega))
  exact agree fuel _ state buffer enough (Nat.lt_succ_self _)

@[simp] theorem run_nil (state : σ) : loop.run state [] = .ok ⟨state, [], true⟩ := rfl

/-- One turn of the loop, and the rest of it. -/
theorem run_eq (holds : buffer ≠ [])
    : loop.run state buffer
      = loop.turn state buffer >>= loop.follow loop.run state buffer := by
  have full : buffer.isEmpty = false := by
    simpa only [List.isEmpty_eq_false_iff] using holds
  simp only [run, spin, full, Bool.false_eq_true, if_false]
  cases loop.turn state buffer with
  | error failure => rfl
  | ok pass => exact follow_congr (fun smaller => spin_enough smaller)

theorem run_error (holds : buffer ≠ []) {failure : ε}
    (turn : loop.turn state buffer = .error failure)
    : loop.run state buffer = .error failure := by
  rw [run_eq holds, turn]
  rfl

section

variable (holds : buffer ≠ []) (turn : loop.turn state buffer = .ok pass)
include holds turn

theorem run_again (again : pass.again = true)
    (smaller : loop.measure pass.state pass.rest < loop.measure state buffer)
    : loop.run state buffer = loop.run pass.state pass.rest := by
  rw [run_eq holds, turn]
  exact (if_pos again).trans (if_pos smaller)

theorem run_stuck (again : pass.again = true)
    (same : ¬ loop.measure pass.state pass.rest < loop.measure state buffer)
    : loop.run state buffer = .error (loop.stuck state) := by
  rw [run_eq holds, turn]
  exact (if_pos again).trans (if_neg same)

end

/-! What every turn begins with. -/

/-- The turns of the loop, as many as `fuel` allows, begin with states that permit their buffers. -/
def turnsPermit (loop : Loop σ α ε) (permits : σ → List α → Prop) : Nat → σ → List α → Prop
  | 0, _, _ => True
  | fuel + 1, state, buffer =>
    buffer = [] ∨ permits state buffer
      ∧ match loop.turn state buffer with
        | .error _ => True
        | .ok pass => pass.again = true → loop.turnsPermit permits fuel pass.state pass.rest

def EachTurn (loop : Loop σ α ε) (permits : σ → List α → Prop) (state : σ) (buffer : List α)
    : Prop :=
  loop.turnsPermit permits (loop.measure state buffer + 1) state buffer

instance decidableTurnsPermit (loop : Loop σ α ε) (permits : σ → List α → Prop)
    [∀ state buffer, Decidable (permits state buffer)] [DecidableEq α]
    : ∀ fuel state buffer, Decidable (loop.turnsPermit permits fuel state buffer)
  | 0, _, _ => .isTrue trivial
  | fuel + 1, state, buffer =>
    have : Decidable (match loop.turn state buffer with
        | .error _ => True
        | .ok pass => pass.again = true → loop.turnsPermit permits fuel pass.state pass.rest) :=
      match loop.turn state buffer with
      | .error _ => .isTrue trivial
      | .ok pass =>
        have := decidableTurnsPermit loop permits fuel pass.state pass.rest
        inferInstanceAs (Decidable (_ → _))
    inferInstanceAs (Decidable (_ ∨ _ ∧ _))

instance (loop : Loop σ α ε) (permits : σ → List α → Prop)
    [∀ state buffer, Decidable (permits state buffer)] [DecidableEq α] (state : σ)
    (buffer : List α)
    : Decidable (loop.EachTurn permits state buffer) :=
  inferInstanceAs (Decidable (loop.turnsPermit permits _ state buffer))

variable {permits : σ → List α → Prop}

/-- Fewer turns, by induction on them. -/
theorem turnsPermit_of_le {fuel fewer : Nat} (le : fewer ≤ fuel)
    (permitted : loop.turnsPermit permits fuel state buffer)
    : loop.turnsPermit permits fewer state buffer := by
  induction fewer generalizing fuel state buffer with
  | zero => trivial
  | succ fewer ih =>
    obtain ⟨fuel, rfl⟩ := Nat.exists_eq_add_of_le' (Nat.lt_of_lt_of_le (Nat.succ_pos fewer) le)
    simp only [turnsPermit] at permitted ⊢
    refine permitted.imp_right (And.imp_right fun rest => ?_)
    cases turn : loop.turn state buffer with
    | error failure => trivial
    | ok pass =>
      rw [turn] at rest
      exact fun again => ih (Nat.le_of_succ_le_succ le) (rest again)

section

variable (each : loop.EachTurn permits state buffer) (holds : buffer ≠ [])
include each holds

theorem EachTurn.here : permits state buffer := (each.resolve_left holds).1

theorem EachTurn.later (turn : loop.turn state buffer = .ok pass) (again : pass.again = true)
    (smaller : loop.measure pass.state pass.rest < loop.measure state buffer)
    : loop.EachTurn permits pass.state pass.rest := by
  have rest := (each.resolve_left holds).2
  rw [turn] at rest
  exact turnsPermit_of_le smaller (rest again)

end

/-! Input in two segments. -/

/-- One turn on `first` followed by more. A turn that leaves some of its buffer does not look at
what follows. One that uses all of it is done with it, or it goes on with what follows as if both
had come at once, where it is ready for that.
-/
def TurnResumes (loop : Loop σ α ε) (ready : σ → List α → Prop) (state : σ) (first second : List α)
    : Prop :=
  Carries (loop.turn state first) (loop.turn state (first ++ second)) fun pass =>
    (pass.rest = [] → ready pass.state second)
      → loop.turn state (first ++ second) = .ok { pass with rest := pass.rest ++ second }
        ∨ pass.rest = [] ∧ loop.turn state (first ++ second) = loop.turn pass.state second

/-- The turns of a loop in the states that can come up. A turn makes progress, or it changes
nothing and the loop turns for ever. No turn stops the loop.
-/
structure Resumes (loop : Loop σ α ε) (valid : σ → Prop) (permits ready : σ → List α → Prop)
    : Prop where
  steps
    : ∀ state buffer pass, valid state → buffer ≠ [] → loop.turn state buffer = .ok pass
      → (loop.measure pass.state pass.rest < loop.measure state buffer
          ∨ pass.state = state ∧ pass.rest = buffer)
        ∧ pass.again = true ∧ valid pass.state
  turns
    : ∀ state first second, valid state → first ≠ [] → second ≠ [] → permits state first
      → loop.TurnResumes ready state first second

section Resumes

variable {valid : σ → Prop} {ready : σ → List α → Prop}

/-- The loop uses up its buffer. -/
theorem run_ok (resumes : loop.Resumes valid permits ready) (isValid : valid state)
    (success : loop.run state buffer = .ok pass)
    : valid pass.state ∧ pass = ⟨pass.state, [], true⟩ := by
  generalize size : loop.measure state buffer = bound
  induction bound using Nat.strongRecOn generalizing state buffer with
  | ind bound ih =>
    by_cases empty : buffer = []
    · subst empty
      cases success
      exact ⟨isValid, rfl⟩
    · cases turn : loop.turn state buffer with
      | error failure => cases (run_error empty turn).symm.trans success
      | ok next =>
        obtain ⟨-, again, nextValid⟩ := resumes.steps _ _ _ isValid empty turn
        by_cases smaller : loop.measure next.state next.rest < loop.measure state buffer
        · exact ih _ (size ▸ smaller) nextValid
            ((run_again empty turn again smaller).symm.trans success) rfl
        · cases (run_stuck empty turn again smaller).symm.trans success

/-- The loop on two segments at once goes on with the second one. -/
def RunResumes (loop : Loop σ α ε) (ready : σ → List α → Prop) (state : σ) (first second : List α)
    : Prop :=
  Carries (loop.run state first) (loop.run state (first ++ second)) fun pass =>
    ready pass.state second → loop.run state (first ++ second) = loop.run pass.state second

/-- A turn on both segments that is the turn which the rest of the loop takes. -/
private theorem run_of_turn (resumes : loop.Resumes valid permits ready) {after : σ}
    (isValid : valid after) {buffer second : List α} (both : buffer ≠ []) (more : second ≠ [])
    (same : loop.turn state buffer = loop.turn after second)
    (below : loop.measure after second < loop.measure state buffer)
    : loop.run state buffer = loop.run after second := by
  cases next : loop.turn after second with
  | error failure => rw [run_error both (same.trans next), run_error more next]
  | ok last =>
    obtain ⟨falls | ⟨here, there⟩, again, -⟩ := resumes.steps _ _ _ isValid more next
    · rw [run_again both (same.trans next) again (Nat.lt_trans falls below),
        run_again more next again falls]
    · rw [run_again both (same.trans next) again (by rw [here, there]; exact below), here, there]

/-- A loop whose turns resume, resumes: by induction on what the loop can still do. -/
theorem run_resumes (resumes : loop.Resumes valid permits ready) (isValid : valid state)
    {first : List α} (permitted : loop.EachTurn permits state first) {second : List α}
    (more : second ≠ [])
    : loop.RunResumes ready state first second := by
  generalize size : loop.measure state first = bound
  induction bound using Nat.strongRecOn generalizing state first with
  | ind bound ih =>
    by_cases nonempty : first = []
    · subst nonempty
      exact fun _ => rfl
    have each := resumes.turns state first second isValid nonempty more (permitted.here nonempty)
    have both : first ++ second ≠ [] := by simp [nonempty]
    cases turn : loop.turn state first with
    | error failure =>
      rw [RunResumes, run_error nonempty turn]
      exact run_error both (each.of_error turn)
    | ok pass =>
      have onward := each.of_ok turn
      have whole (rest : pass.rest ≠ []) :=
        (onward (fun none => absurd none rest)).resolve_right (fun used => rest used.1)
      obtain ⟨progress, again, nextValid⟩ := resumes.steps _ _ _ isValid nonempty turn
      by_cases smaller : loop.measure pass.state pass.rest < loop.measure state first
      · have below : loop.measure pass.state (pass.rest ++ second)
            < loop.measure state (first ++ second) := by
          simp only [measure, List.length_append, Nat.mul_add] at smaller ⊢
          omega
        rw [RunResumes, run_again nonempty turn again smaller]
        by_cases rest : pass.rest = []
        · rw [rest] at below ⊢
          intro waits
          rcases onward (fun _ => waits) with whole | ⟨-, goesOn⟩
          · rw [run_again both whole again (by rw [rest]; exact below), rest]
            rfl
          · exact run_of_turn resumes nextValid both more goesOn below
        · rw [run_again both (whole rest) again below]
          exact ih _ (size ▸ smaller) nextValid (permitted.later nonempty turn again smaller) rfl
      · obtain ⟨here, there⟩ := progress.resolve_left smaller
        rw [RunResumes, run_stuck nonempty turn again smaller]
        refine run_stuck both (whole (there.symm ▸ nonempty)) again ?_
        rw [here, there]
        exact Nat.lt_irrefl _

end Resumes

/-! Loops that keep a count of their own. -/

section Project

variable {counted : Loop τ α ε} {forget : τ → σ} {permits : τ → List α → Prop}
  (sameMeasure
    : ∀ state buffer, counted.measure state buffer = loop.measure (forget state) buffer)
  (turns
    : ∀ state buffer, permits state buffer
      → (counted.turn state buffer).map (fun pass => ⟨forget pass.state, pass.rest, pass.again⟩)
        = loop.turn (forget state) buffer)
  {state : τ} {buffer : List α} (each : counted.EachTurn permits state buffer)
include sameMeasure turns each

/-- A loop whose permitted turns are those of another one runs like the other one. -/
theorem run_project (sameStuck : ∀ state, counted.stuck state = loop.stuck (forget state))
    : (counted.run state buffer).map (fun pass => ⟨forget pass.state, pass.rest, pass.again⟩)
      = loop.run (forget state) buffer := by
  generalize size : counted.measure state buffer = bound
  induction bound using Nat.strongRecOn generalizing state buffer with
  | ind bound ih =>
    by_cases empty : buffer = []
    · subst empty
      rfl
    · have same := turns state buffer (each.here empty)
      cases turn : counted.turn state buffer with
      | error failure =>
        rw [turn] at same
        rw [run_error empty turn, run_error empty same.symm]
        rfl
      | ok pass =>
        rw [turn] at same
        rw [run_eq empty, turn, run_eq empty, ← same]
        show (counted.follow counted.run state buffer pass).map _
          = loop.follow loop.run (forget state) buffer ⟨forget pass.state, pass.rest, pass.again⟩
        simp only [follow, ← sameMeasure]
        split_ifs with again smaller
        · exact ih _ (size ▸ smaller) (each.later empty turn again smaller) rfl
        · exact congrArg Except.error (sameStuck state)
        · rfl

/-- What the turns begin with, for the other loop. -/
theorem EachTurn.project {allows : σ → List α → Prop}
    (weaker : ∀ state buffer, permits state buffer → allows (forget state) buffer)
    : loop.EachTurn allows (forget state) buffer := by
  have all : ∀ fuel state buffer, counted.turnsPermit permits fuel state buffer
      → loop.turnsPermit allows fuel (forget state) buffer := by
    intro fuel
    induction fuel with
    | zero => exact fun _ _ _ => trivial
    | succ fuel ih =>
      intro state buffer permitted
      refine permitted.imp_right fun both => ⟨weaker _ _ both.1, ?_⟩
      rw [← turns state buffer both.1]
      cases turn : counted.turn state buffer with
      | error failure => trivial
      | ok pass =>
        have rest := both.2
        rw [turn] at rest
        exact fun again => ih _ _ (rest again)
  rw [EachTurn, ← sameMeasure]
  exact all _ state buffer each

end Project

end Loop

end MediaServer.Foundation
