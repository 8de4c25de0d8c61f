import Mathlib.Data.List.Basic
import Mathlib.Data.List.Induction
import Mathlib.Data.List.Nodup
import Mathlib.Logic.Relation

/-! Runs of a deterministic step function over a list of events, and the invariant rules
that lift a step lemma to whole runs.
-/

namespace MediaServer.Foundation

open List

variable {σ ε : Type}

/-- The state reached from `start` by taking one step for each event. -/
def run (step : σ → ε → σ) (start : σ) (events : List ε) : σ :=
  events.foldl step start

/-- Every event of the run is taken in a state that permits it. -/
def EachStep (step : σ → ε → σ) (permits : σ → ε → Prop) : σ → List ε → Prop
  | _, [] => True
  | state, event :: rest => permits state event ∧ EachStep step permits (step state event) rest

instance instDecidableEachStep {step : σ → ε → σ} {permits : σ → ε → Prop}
    [decidable : ∀ state event, Decidable (permits state event)]
    : ∀ start events, Decidable (EachStep step permits start events)
  | _, [] => .isTrue trivial
  | start, event :: rest =>
    @instDecidableAnd _ _ (decidable start event) (instDecidableEachStep (step start event) rest)

@[simp] theorem run_nil (step : σ → ε → σ) (start : σ) : run step start [] = start := rfl

@[simp] theorem run_cons (step : σ → ε → σ) (start : σ) (event : ε) (rest : List ε)
    : run step start (event :: rest) = run step (step start event) rest := rfl

theorem run_append (step : σ → ε → σ) (start : σ) (first second : List ε)
    : run step start (first ++ second) = run step (run step start first) second :=
  foldl_append

variable {step : σ → ε → σ}

/-- A property that every step preserves holds in every state reached. -/
theorem run_invariant {holds : σ → Prop}
    (preserved : ∀ state event, holds state → holds (step state event))
    {start : σ} (initially : holds start) (events : List ε)
    : holds (run step start events) := by
  induction events generalizing start with
  | nil => exact initially
  | cons event rest ih => exact ih (preserved start event initially)

/-- A property that every permitted step preserves holds after a permitted run. -/
theorem run_invariant_of_eachStep {permits : σ → ε → Prop} {holds : σ → Prop}
    (preserved : ∀ state event, holds state → permits state event → holds (step state event))
    {start : σ} (initially : holds start) {events : List ε}
    (permitted : EachStep step permits start events)
    : holds (run step start events) := by
  induction events generalizing start with
  | nil => exact initially
  | cons event rest ih =>
    exact ih (preserved start event initially permitted.1) permitted.2

/-- A reflexive and transitive relation that holds across each step holds across a chain. -/
theorem reflTransGen_related {r related : σ → σ → Prop} (refl : ∀ state, related state state)
    (trans : ∀ first second third, related first second → related second third
      → related first third)
    (each : ∀ before after, r before after → related before after) {before after : σ}
    (chain : Relation.ReflTransGen r before after)
    : related before after := by
  induction chain with
  | refl => exact refl before
  | tail _ step ih => exact trans _ _ _ ih (each _ _ step)

/-- A loop whose turns are chains of steps is one chain of them. -/
theorem foldl_reflTransGen {r : σ → σ → Prop} {body : σ → ε → σ}
    (each : ∀ state item, Relation.ReflTransGen r state (body state item)) (items : List ε)
    (start : σ)
    : Relation.ReflTransGen r start (items.foldl body start) := by
  induction items generalizing start with
  | nil => exact .refl
  | cons item rest ih => exact (each start item).trans (ih (body start item))

/-- A property of the state and of the events that have been taken so far, in a run that takes
no event twice.
-/
theorem run_visits {holds : List ε → σ → Prop} {start : σ} {events : List ε}
    (distinct : events.Nodup) (initially : holds [] start)
    (preserved
      : ∀ done state event, event ∈ events → event ∉ done → holds done state
        → holds (done ++ [event]) (step state event))
    : holds events (run step start events) := by
  induction events using List.reverseRecOn with
  | nil => exact initially
  | append_singleton front last ih =>
    rw [run_append]
    have apart : last ∉ front := by
      intro member
      exact (nodup_append.mp distinct).2.2 last member last (by simp) rfl
    refine preserved front _ last (by simp) apart (ih (distinct.sublist (by simp)) ?_)
    intro done state event member
    exact preserved done state event (mem_append_left _ member)

/-- Two conditions that agree in all states that can be reached permit the same runs. -/
theorem eachStep_congr {permits demands : σ → ε → Prop} {always : σ → Prop}
    (preserved : ∀ state event, always state → always (step state event))
    (agree : ∀ state event, always state → (demands state event ↔ permits state event))
    {start : σ} (initially : always start) (events : List ε)
    : EachStep step demands start events ↔ EachStep step permits start events := by
  induction events generalizing start with
  | nil => exact Iff.rfl
  | cons event rest ih =>
    exact and_congr (agree start event initially) (ih (preserved start event initially))

/-- Where `permits` tells exactly the steps behind which `shown` is the case, the permitted runs are
those that show it all the way. The permitted steps keep a stronger property, and all steps may
rely on an invariant of all runs.
-/
theorem eachStep_iff_prefixes {permits : σ → ε → Prop}
    {holds shown always : σ → Prop}
    (preserved : ∀ state event, always state → always (step state event))
    (sound
      : ∀ state event, always state → holds state → permits state event
        → holds (step state event))
    (visible : ∀ state, holds state → shown state)
    (complete
      : ∀ state event, always state → holds state → shown (step state event)
        → permits state event)
    {start : σ} (invariant : always start) (initially : holds start) (events : List ε)
    : EachStep step permits start events
      ↔ ∀ before, before <+: events → shown (run step start before) := by
  induction events generalizing start with
  | nil => simpa [EachStep] using visible start initially
  | cons event rest ih =>
    have kept := preserved start event invariant
    constructor
    · intro permitted before isPrefix
      have next := sound start event invariant initially permitted.1
      rcases prefix_cons_iff.mp isPrefix with rfl | ⟨tail, rfl, tailPrefix⟩
      · exact visible start initially
      · exact (ih kept next).mp permitted.2 tail tailPrefix
    · intro all
      have permitted := complete start event invariant initially
        (all [event] (cons_prefix_cons.mpr ⟨rfl, nil_prefix⟩))
      refine ⟨permitted, (ih kept (sound start event invariant initially permitted)).mpr ?_⟩
      intro before isPrefix
      exact all (event :: before) (cons_prefix_cons.mpr ⟨rfl, isPrefix⟩)

/-- Where a list that was extended at its end can be cut. -/
theorem concat_split {list before after : List ε} {last : ε}
    (split : list ++ [last] = before ++ after)
    : before = list ++ [last] ∧ after = [] ∨ ∃ front, after = front ++ [last]
        ∧ list = before ++ front := by
  rcases after.eq_nil_or_concat' with rfl | ⟨front, final, rfl⟩
  · exact .inl ⟨by simpa using split.symm, rfl⟩
  · rw [← append_assoc] at split
    obtain ⟨isFront, same⟩ := append_inj' split rfl
    cases singleton_inj.mp same
    exact .inr ⟨front, rfl, isFront⟩

/-- Where an element stands in a list that was extended at its end. -/
theorem concat_split_cons {list before after : List ε} {last item : ε}
    (split : list ++ [last] = before ++ item :: after)
    : before = list ∧ item = last ∧ after = [] ∨ ∃ front, after = front ++ [last]
        ∧ list = before ++ item :: front := by
  rcases concat_split (split.trans (append_cons ..)) with ⟨same, rfl⟩ | ⟨front, rfl, rfl⟩
  · obtain ⟨rfl, isLast⟩ := append_inj' same rfl
    exact .inl ⟨rfl, singleton_inj.mp isLast, rfl⟩
  · exact .inr ⟨front, rfl, by simp⟩

/-- The last event of the run that wrote something wrote the value, and no event behind it has
cleared it.
-/
def LastWrite {β : Type} (step : σ → ε → σ) (writes : σ → ε → Option β) (clears : ε → β → Prop)
    (start : σ) (events : List ε) (value : β) : Prop :=
  ∃ before event after, events = before ++ event :: after
    ∧ writes (run step start before) event = some value
    ∧ ∀ first other rest, after = first ++ other :: rest
      → writes (run step start (before ++ event :: first)) other = none ∧ ¬ clears other value

section LastWrite

variable {β : Type} {step : σ → ε → σ} {writes : σ → ε → Option β} {clears : ε → β → Prop}
  {start : σ} {value : β}

theorem lastWrite_concat (events : List ε) (last : ε)
    : LastWrite step writes clears start (events ++ [last]) value
      ↔ writes (run step start events) last = some value
        ∨ LastWrite step writes clears start events value
          ∧ writes (run step start events) last = none ∧ ¬ clears last value := by
  constructor
  · rintro ⟨before, event, after, split, written, kept⟩
    rcases concat_split_cons split with ⟨rfl, rfl, rfl⟩ | ⟨front, rfl, rfl⟩
    · exact .inl written
    · refine .inr ⟨⟨before, event, front, rfl, written, ?_⟩, ?_⟩
      · intro first other rest isFront
        exact kept first other (rest ++ [last]) (by simp [isFront])
      · exact kept front last [] (by simp)
  · rintro (written | ⟨⟨before, event, after, rfl, written, kept⟩, none, uncleared⟩)
    · exact ⟨events, last, [], rfl, written, by simp⟩
    · refine ⟨before, event, after ++ [last], by simp, written, ?_⟩
      intro first other rest isAfter
      rcases concat_split_cons isAfter with ⟨rfl, rfl, rfl⟩ | ⟨front, rfl, rfl⟩
      · exact ⟨none, uncleared⟩
      · exact kept first other front rfl

/-- A field that each event writes, clears or keeps holds what was written last. -/
theorem run_eq_some_iff_lastWrite {field : σ → Option β}
    (law
      : ∀ state event value, field (step state event) = some value
        ↔ writes state event = some value
          ∨ field state = some value ∧ writes state event = none ∧ ¬ clears event value)
    (unset : field start = none) (events : List ε)
    : field (run step start events) = some value
      ↔ LastWrite step writes clears start events value := by
  induction events using List.reverseRecOn with
  | nil => simp [unset, LastWrite]
  | append_singleton front last ih =>
    rw [lastWrite_concat, ← ih, run_append]
    exact law _ last value

end LastWrite

end MediaServer.Foundation
