import Mathlib.Data.List.Perm.Subperm
import MediaServer.Foundation.OrderedMap

/-! A map of bounded size that gives up its least key for a new one. It holds the largest keys
of its history, which are the latest ones exactly when no older key is larger.
-/

namespace MediaServer.Foundation.OrderedMap

open List

variable {κ α : Type} [LinearOrder κ]

def insertBounded (capacity : Nat) (map : OrderedMap κ α) (key : κ) (value : α) : OrderedMap κ α :=
  if (map.insert key value).size > capacity then (map.insert key value).dropFront
  else map.insert key value

/-- The first entry, which has the least key, goes and the others stay. -/
theorem exists_least {map : OrderedMap κ α} (nonempty : 0 < map.size)
    : ∃ least ∈ map.entries,
        (∀ entry, entry ∈ map.dropFront.entries ↔ entry ∈ map.entries ∧ entry ≠ least)
        ∧ ∀ entry ∈ map.dropFront.entries, least.1 < entry.1 := by
  obtain ⟨entries, sorted⟩ := map
  cases entries with
  | nil => exact absurd nonempty (Nat.lt_irrefl 0)
  | cons least rest =>
    obtain ⟨above, _⟩ := pairwise_cons.mp sorted
    refine ⟨least, mem_cons_self, ?_, above⟩
    intro entry
    constructor
    · intro later
      exact ⟨mem_cons_of_mem _ later, fun same => lt_irrefl _ (same ▸ above entry later)⟩
    · rintro ⟨member, other⟩
      exact (mem_cons.mp member).resolve_left other

/-- What a bounded map holds of all entries ever stored, the latest first. -/
structure HoldsLargest (capacity : Nat) (history : List (κ × α)) (map : OrderedMap κ α)
    : Prop where
  held : ∀ entry ∈ map.entries, entry ∈ history
  left
    : ∀ old ∈ history, old ∉ map.entries
      → capacity < history.length ∧ ∀ entry ∈ map.entries, old.1 < entry.1
  size : map.size = min capacity history.length

namespace HoldsLargest

theorem empty (capacity : Nat)
    : HoldsLargest capacity ([] : List (κ × α)) (OrderedMap.empty : OrderedMap κ α) where
  held := fun _ member => nomatch member
  left := fun _ member => nomatch member
  size := (Nat.min_zero capacity).symm

variable {history : List (κ × α)} {map : OrderedMap κ α} {capacity : Nat}

theorem insertBounded (holds : HoldsLargest capacity history map) {key : κ} (value : α)
    (fresh : ∀ entry ∈ history, entry.1 ≠ key)
    : HoldsLargest capacity ((key, value) :: history) (map.insertBounded capacity key value) := by
  have absent : ∀ entry ∈ map.entries, entry.1 ≠ key :=
    fun entry member => fresh entry (holds.held entry member)
  have grown := size_insert value absent
  have size := holds.size
  have inserted : ∀ entry, entry ∈ (map.insert key value).entries
      ↔ entry = (key, value) ∨ entry ∈ map.entries := by
    intro entry
    rw [mem_insert]
    exact or_congr_right ⟨And.right, fun member => ⟨absent entry member, member⟩⟩
  rw [OrderedMap.insertBounded]
  split_ifs with exceeded
  · obtain ⟨least, stored, dropped, above⟩ :=
      exists_least (Nat.lt_of_le_of_lt (Nat.zero_le capacity) exceeded)
    refine ⟨?_, ?_, ?_⟩
    · intro entry member
      rcases (inserted entry).mp ((dropped entry).mp member).1 with new | old
      · rw [new]
        exact mem_cons_self
      · exact mem_cons_of_mem _ (holds.held entry old)
    · intro old member gone
      refine ⟨by rw [length_cons]; omega, ?_⟩
      by_cases present : old ∈ (map.insert key value).entries
      · -- it is the one that goes now
        obtain rfl : old = least := by
          by_contra other
          exact gone ((dropped old).mpr ⟨present, other⟩)
        exact above
      · -- it went before, below everything that was left then
        have earlier : old ∈ history :=
          (mem_cons.mp member).resolve_left (fun new => present ((inserted old).mpr (.inl new)))
        have absentBefore : old ∉ map.entries :=
          fun stored => present ((inserted old).mpr (.inr stored))
        have before := (holds.left old earlier absentBefore).2
        intro entry kept
        obtain ⟨here, other⟩ := (dropped entry).mp kept
        rcases (inserted entry).mp here with new | old
        · have leastOld : least ∈ map.entries :=
            ((inserted least).mp stored).resolve_left (fun same => other (new.trans same.symm))
          exact (before least leastOld).trans (above entry kept)
        · exact before entry old
    · have shorter : (map.insert key value).dropFront.size = (map.insert key value).size - 1 :=
        length_tail
      rw [shorter, length_cons]
      omega
  · refine ⟨?_, ?_, ?_⟩
    · intro entry member
      exact mem_cons.mpr (((inserted entry).mp member).imp_right (holds.held entry))
    · intro old member gone
      have earlier : old ∈ history :=
        (mem_cons.mp member).resolve_left (fun new => gone ((inserted old).mpr (.inl new)))
      have many := (holds.left old earlier (fun old => gone ((inserted _).mpr (.inr old)))).1
      omega
    · rw [length_cons]
      omega

/-- Where all older keys are smaller, no latest entry has gone: the map would have too few
entries left.
-/
theorem latest_held (holds : HoldsLargest capacity history map)
    (smaller : ∀ old ∈ history.drop capacity, ∀ kept ∈ history.take capacity, old.1 < kept.1)
    {kept : κ × α} (latest : kept ∈ history.take capacity) : kept ∈ map.entries := by
  by_contra gone
  obtain ⟨many, above⟩ := holds.left kept (mem_of_mem_take latest) gone
  obtain ⟨front, back, split⟩ := append_of_mem latest
  have others : map.entries ⊆ front ++ back := by
    intro entry member
    have stored := holds.held entry member
    rw [← take_append_drop capacity history] at stored
    rcases mem_append.mp stored with recent | old
    · rw [split] at recent
      rcases mem_append.mp recent with inFront | rest
      · exact mem_append_left _ inFront
      · rcases mem_cons.mp rest with rfl | inBack
        · exact absurd member gone
        · exact mem_append_right _ inBack
    · exact absurd (above entry member) (smaller entry old kept latest).not_gt
  have few := (subperm_of_subset map.entries_nodup others).length_le
  have length := congrArg List.length split
  have size := holds.size
  rw [length_take, length_append, length_cons] at length
  rw [length_append] at few
  rw [OrderedMap.size] at size
  omega

/-- The map is its latest entries exactly when all older keys are smaller. -/
theorem latest_iff (holds : HoldsLargest capacity history map) (distinct : history.Nodup)
    : (∀ entry, entry ∈ map.entries ↔ entry ∈ history.take capacity)
      ↔ ∀ old ∈ history.drop capacity, ∀ kept ∈ history.take capacity, old.1 < kept.1 := by
  constructor
  · intro latest old older kept recent
    have gone : old ∉ map.entries := fun member =>
      disjoint_take_drop distinct (Nat.le_refl capacity) ((latest old).mp member) older
    exact (holds.left old (mem_of_mem_drop older) gone).2 kept ((latest kept).mpr recent)
  · intro smaller entry
    have nodup := (take_sublist capacity history).nodup distinct
    have subset := subperm_of_subset nodup (fun _ latest => holds.latest_held smaller latest)
    have size := holds.size
    rw [OrderedMap.size] at size
    have same := subset.perm_of_length_le (Nat.le_of_eq (size.trans length_take.symm))
    exact same.symm.mem_iff

end HoldsLargest

end MediaServer.Foundation.OrderedMap
