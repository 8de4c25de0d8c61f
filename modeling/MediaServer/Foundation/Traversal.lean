import MediaServer.Foundation.OrderedMap

/-! Loops over a map that change its values and carry a state from entry to entry. -/

namespace MediaServer.Foundation.OrderedMap

variable {κ α σ : Type}

def traverseEntries (visit : κ → α → σ → α × σ) : List (κ × α) → σ → List (κ × α) × σ
  | [], state => ([], state)
  | (key, value) :: rest, state =>
    let (next, after) := visit key value state
    let (others, last) := traverseEntries visit rest after
    ((key, next) :: others, last)

theorem map_fst_traverseEntries (visit : κ → α → σ → α × σ) (entries : List (κ × α)) (state : σ)
    : (traverseEntries visit entries state).1.map Prod.fst = entries.map Prod.fst := by
  induction entries generalizing state with
  | nil => rfl
  | cons entry rest ih => exact congrArg (entry.1 :: ·) (ih _)

/-- A property of the values that every visit keeps. -/
theorem traverseEntries_forall {visit : κ → α → σ → α × σ} {holds : α → Prop}
    (kept : ∀ key value state, holds value → holds (visit key value state).1)
    {entries : List (κ × α)} (all : ∀ entry ∈ entries, holds entry.2) (state : σ)
    : ∀ entry ∈ (traverseEntries visit entries state).1, holds entry.2 := by
  induction entries generalizing state with
  | nil => exact all
  | cons first rest ih =>
    intro entry member
    rcases List.mem_cons.mp member with same | later
    · rw [same]
      exact kept _ _ _ (all first (.head rest))
    · exact ih (fun other inside => all other (.tail first inside)) _ entry later

/-- A property of the state that every visit keeps. -/
theorem traverseEntries_state {visit : κ → α → σ → α × σ} {holds : σ → Prop}
    (kept : ∀ key value state, holds state → holds (visit key value state).2)
    (entries : List (κ × α)) {state : σ} (initially : holds state)
    : holds (traverseEntries visit entries state).2 := by
  induction entries generalizing state with
  | nil => exact initially
  | cons entry rest ih => exact ih (kept _ _ _ initially)

variable [LinearOrder κ]

theorem sorted_of_fst {entries others : List (κ × α)}
    (sorted : entries.Pairwise (fun left right => left.1 < right.1))
    (same : others.map Prod.fst = entries.map Prod.fst)
    : others.Pairwise (fun left right => left.1 < right.1) := by
  rw [← List.pairwise_map, same]
  exact List.pairwise_map.mpr sorted

variable (map : OrderedMap κ α)

def traverse (visit : κ → α → σ → α × σ) (state : σ) : OrderedMap κ α × σ :=
  (⟨(traverseEntries visit map.entries state).1,
    sorted_of_fst map.sorted (map_fst_traverseEntries visit map.entries state)⟩,
    (traverseEntries visit map.entries state).2)

def mapValues (change : κ → α → α) : OrderedMap κ α :=
  ⟨map.entries.map (fun entry => (entry.1, change entry.1 entry.2)),
    sorted_of_fst map.sorted (by rw [List.map_map]; rfl)⟩

theorem keys_traverse (visit : κ → α → σ → α × σ) (state : σ)
    : (map.traverse visit state).1.keys = map.keys :=
  map_fst_traverseEntries visit map.entries state

theorem keys_mapValues (change : κ → α → α) : (map.mapValues change).keys = map.keys := by
  simp only [keys, mapValues, List.map_map]
  rfl

theorem mapValues_self : map.mapValues (fun _ value => value) = map := by
  obtain ⟨entries, sorted⟩ := map
  have same : entries.map (fun entry => (entry.1, entry.2)) = entries := List.map_id entries
  simp only [mapValues, same]

@[simp] theorem find?_mapValues (change : κ → α → α) (key : κ)
    : (map.mapValues change).find? key = (map.find? key).map (change key) := by
  obtain ⟨entries, sorted⟩ := map
  simp only [mapValues, find?]
  clear sorted
  induction entries with
  | nil => rfl
  | cons entry rest ih =>
    rw [List.map_cons, List.find?_cons, List.find?_cons]
    by_cases same : entry.1 = key
    · simp [same]
    · simpa [same] using ih

/-- A loop whose changes do not depend on its state, where a property of the state that every
visit keeps may be used. The induction is on the entries.
-/
theorem traverse_eq {map : OrderedMap κ α} {visit : κ → α → σ → α × σ} {holds : σ → Prop}
    {change : κ → α → α} {next : σ → κ × α → σ}
    (visits : ∀ entry ∈ map.entries, ∀ state, holds state
      → visit entry.1 entry.2 state = (change entry.1 entry.2, next state entry)
        ∧ holds (next state entry))
    {state : σ} (initially : holds state)
    : map.traverse visit state = (map.mapValues change, map.entries.foldl next state) := by
  have entries : ∀ entries : List (κ × α), (∀ entry ∈ entries, entry ∈ map.entries)
      → ∀ state, holds state → traverseEntries visit entries state
        = (entries.map (fun entry => (entry.1, change entry.1 entry.2)),
          entries.foldl next state) := by
    intro entries inside
    induction entries with
    | nil => exact fun _ _ => rfl
    | cons entry rest ih =>
      intro state now
      obtain ⟨visited, after⟩ := visits entry (inside entry (.head rest)) state now
      have others := ih (fun other member => inside other (.tail entry member)) _ after
      simp only [traverseEntries, visited, others]
      rfl
  have all := entries map.entries (fun _ member => member) state initially
  simp only [traverse, mapValues, all]

end MediaServer.Foundation.OrderedMap
