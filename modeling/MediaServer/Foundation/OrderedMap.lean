import Mathlib.Order.Lattice
import Mathlib.Data.List.Basic
import Mathlib.Algebra.GroupWithZero.Nat

/-! Finite maps with an ordered iteration: entry lists kept strictly increasing in the key.
Every map carries its order, so operations need no well-formedness premise.
-/

namespace MediaServer.Foundation

open List

/-- What is dropped is at the front if nothing is dropped behind an item that stays. -/
theorem dropWhile_eq_filter {ε : Type} {drop : ε → Bool} {items : List ε}
    (front : items.Pairwise (fun left right => drop right → drop left))
    : items.dropWhile drop = items.filter (!drop ·) := by
  induction items with
  | nil => rfl
  | cons item rest ih =>
    obtain ⟨first, later⟩ := pairwise_cons.mp front
    by_cases dropped : drop item = true
    · rw [dropWhile_cons_of_pos dropped, filter_cons_of_neg (by simp [dropped]), ih later]
    · rw [dropWhile_cons_of_neg dropped, eq_comm, filter_eq_self]
      refine forall_mem_cons.mpr ⟨by simpa using dropped, fun other member => ?_⟩
      simpa using mt (first other member) dropped

/-- Entries of a finite map, in strictly increasing key order. -/
structure OrderedMap (κ α : Type) [LinearOrder κ] where
  entries : List (κ × α)
  sorted : entries.Pairwise (fun left right => left.1 < right.1)

namespace OrderedMap

variable {κ α : Type} [LinearOrder κ]

def empty : OrderedMap κ α := ⟨[], .nil⟩

def find? (map : OrderedMap κ α) (key : κ) : Option α :=
  (map.entries.find? (fun entry => entry.1 = key)).map Prod.snd

def insertEntry (key : κ) (value : α) : List (κ × α) → List (κ × α)
  | [] => [(key, value)]
  | entry :: rest =>
    if key < entry.1 then (key, value) :: entry :: rest
    else if key = entry.1 then (key, value) :: rest
    else entry :: insertEntry key value rest

variable {key : κ} {value : α} {entries : List (κ × α)} {entry : κ × α}

/-- An entry of the extended list is the new one or an old one. -/
theorem mem_insertEntry (member : entry ∈ insertEntry key value entries)
    : entry = (key, value) ∨ entry ∈ entries := by
  induction entries with
  | nil => simpa [insertEntry] using member
  | cons head rest ih =>
    simp only [insertEntry] at member
    split at member
    · simpa using member
    · split at member
      · exact (mem_cons.mp member).imp_right (mem_cons_of_mem head)
      · rcases mem_cons.mp member with same | later
        · exact Or.inr (by simp [same])
        · exact (ih later).imp_right (mem_cons_of_mem head)

/-- Insertion keeps the order, by induction on the entry list. -/
theorem insertEntry_sorted (key : κ) (value : α)
    (sorted : entries.Pairwise (fun left right => left.1 < right.1))
    : (insertEntry key value entries).Pairwise (fun left right => left.1 < right.1) := by
  induction entries with
  | nil => simp [insertEntry]
  | cons head rest ih =>
    obtain ⟨above, tail⟩ := pairwise_cons.mp sorted
    simp only [insertEntry]
    split
    · rename_i less
      refine pairwise_cons.mpr ⟨?_, sorted⟩
      intro entry member
      rcases mem_cons.mp member with same | later
      · exact same ▸ less
      · exact less.trans (above entry later)
    · rename_i notLess
      split
      · rename_i same
        exact pairwise_cons.mpr ⟨fun entry member => same ▸ above entry member, tail⟩
      · rename_i different
        refine pairwise_cons.mpr ⟨?_, ih tail⟩
        intro entry member
        rcases mem_insertEntry member with new | old
        · exact new ▸ lt_of_le_of_ne (not_lt.mp notLess) (Ne.symm different)
        · exact above entry old

/-- Store a value under a key, replacing what the key held. -/
def insert (map : OrderedMap κ α) (key : κ) (value : α) : OrderedMap κ α :=
  ⟨insertEntry key value map.entries, insertEntry_sorted key value map.sorted⟩

def erase (map : OrderedMap κ α) (key : κ) : OrderedMap κ α :=
  ⟨map.entries.filter (fun entry => entry.1 ≠ key), map.sorted.filter _⟩

/-- Remove entries from the front as long as they satisfy `drop`. -/
def dropFrontWhile (map : OrderedMap κ α) (drop : κ × α → Bool) : OrderedMap κ α :=
  ⟨map.entries.dropWhile drop, map.sorted.sublist (List.dropWhile_sublist drop)⟩

def dropFront (map : OrderedMap κ α) : OrderedMap κ α :=
  ⟨map.entries.tail, map.sorted.sublist (List.tail_sublist _)⟩

/-- The entries from the first key that is not below `key` on. -/
def lowerBound (map : OrderedMap κ α) (key : κ) : List (κ × α) :=
  map.entries.dropWhile (fun entry => entry.1 < key)

def keys (map : OrderedMap κ α) : List κ := map.entries.map Prod.fst

def size (map : OrderedMap κ α) : Nat := map.entries.length

variable {map : OrderedMap κ α}

/-- A lookup finds exactly the stored entries, since sorted keys are distinct. -/
theorem find?_eq_some_iff : map.find? key = some value ↔ (key, value) ∈ map.entries := by
  obtain ⟨entries, sorted⟩ := map
  simp only [find?]
  induction entries with
  | nil => simp
  | cons head rest ih =>
    obtain ⟨above, tail⟩ := pairwise_cons.mp sorted
    by_cases same : head.1 = key
    · simp only [find?_cons, same, decide_true, Option.map_some, Option.some.injEq, mem_cons]
      constructor
      · rintro rfl
        exact Or.inl (by rw [← same])
      · rintro (rfl | later)
        · rfl
        · exact absurd (same ▸ above _ later) (lt_irrefl _)
    · simp only [find?_cons, same, decide_false, mem_cons]
      rw [ih tail]
      constructor
      · exact Or.inr
      · rintro (rfl | later)
        · exact absurd rfl same
        · exact later

/-- A key is absent when no entry carries it. -/
theorem find?_eq_none_iff : map.find? key = none ↔ ∀ value, (key, value) ∉ map.entries := by
  rw [Option.eq_none_iff_forall_ne_some]
  exact forall_congr' fun value => not_congr find?_eq_some_iff

@[simp] theorem find?_empty (key : κ) : (empty : OrderedMap κ α).find? key = none := rfl

/-- The entry list after an insertion, by induction on the entries. -/
theorem find?_insertEntry (key other : κ) (value : α) (entries : List (κ × α))
    : ((insertEntry key value entries).find? (fun entry => entry.1 = other)).map Prod.snd
      = if other = key then some value
        else (entries.find? (fun entry => entry.1 = other)).map Prod.snd := by
  induction entries with
  | nil => by_cases same : other = key <;> simp [insertEntry, same, eq_comm]
  | cons head rest ih =>
    simp only [insertEntry]
    split
    · by_cases same : key = other
      · simp [same]
      · simp [find?_cons, same, Ne.symm same]
    · split
      · rename_i old
        by_cases same : key = other
        · simp [same]
        · simp [same, Ne.symm same, ← old]
      · rename_i different
        by_cases same : head.1 = other
        · have absent : other ≠ key := fun eq => different (eq ▸ same.symm)
          simp [same, absent]
        · simpa [find?_cons, same] using ih

/-- Lookup after storing a value. -/
@[simp] theorem find?_insert (map : OrderedMap κ α) (key other : κ) (value : α)
    : (map.insert key value).find? other
      = if other = key then some value else map.find? other :=
  find?_insertEntry key other value map.entries

/-- The second value of a key replaces the first. -/
theorem insert_insert (map : OrderedMap κ α) (key : κ) (value other : α)
    : (map.insert key value).insert key other = map.insert key other := by
  have entries : ∀ entries : List (κ × α),
      insertEntry key other (insertEntry key value entries) = insertEntry key other entries := by
    intro entries
    induction entries with
    | nil => simp [insertEntry]
    | cons head rest ih =>
      simp only [insertEntry]
      split_ifs with below same
      · simp [insertEntry]
      · simp [insertEntry]
      · rw [insertEntry, if_neg below, if_neg same, ih]
  simp only [insert, entries]

/-- Lookup after removing a key. -/
@[simp] theorem find?_erase (map : OrderedMap κ α) (key other : κ)
    : (map.erase key).find? other = if other = key then none else map.find? other := by
  apply Option.ext
  intro value
  rw [find?_eq_some_iff]
  by_cases same : other = key
  · simp [erase, same]
  · simp [erase, same, find?_eq_some_iff]

theorem find?_erase_eq_some {other : κ}
    : (map.erase key).find? other = some value ↔ other ≠ key ∧ map.find? other = some value := by
  rw [find?_erase]
  split_ifs with same <;> simp [same]

/-- What holds of every entry, and of one that is stored. -/
theorem forall_insert {holds : κ → α → Prop}
    (each : ∀ key value, map.find? key = some value → holds key value) (new : holds key value)
    : ∀ other found, (map.insert key value).find? other = some found → holds other found := by
  intro other found stored
  rw [find?_insert] at stored
  split_ifs at stored with same
  · cases stored
    exact same ▸ new
  · exact each other found stored

theorem entries_eq_nil (absent : ∀ key, map.find? key = none) : map.entries = [] := by
  rw [eq_nil_iff_forall_not_mem]
  intro entry member
  exact find?_eq_none_iff.mp (absent entry.1) entry.2 member

theorem mem_keys : key ∈ map.keys ↔ (map.find? key).isSome := by
  rw [Option.isSome_iff_exists]
  constructor
  · intro member
    obtain ⟨entry, stored, rfl⟩ := mem_map.mp member
    exact ⟨entry.2, find?_eq_some_iff.mpr stored⟩
  · intro found
    obtain ⟨value, found⟩ := found
    exact mem_map.mpr ⟨(key, value), find?_eq_some_iff.mp found, rfl⟩

theorem keys_nodup (map : OrderedMap κ α) : map.keys.Nodup := by
  rw [keys, List.Nodup, pairwise_map]
  exact map.sorted.imp ne_of_lt

/-- The entries after storing a value: the new one, and the old ones of other keys. -/
theorem mem_insert
    : entry ∈ (map.insert key value).entries
      ↔ entry = (key, value) ∨ (entry.1 ≠ key ∧ entry ∈ map.entries) := by
  obtain ⟨other, stored⟩ := entry
  rw [← find?_eq_some_iff, find?_insert]
  by_cases same : other = key
  · simp [same, eq_comm]
  · simp [same, find?_eq_some_iff]

theorem mem_keys_insert {key other : κ}
    : other ∈ (map.insert key value).keys ↔ other = key ∨ other ∈ map.keys := by
  rw [mem_keys, mem_keys, find?_insert]
  by_cases same : other = key
  · simp [same]
  · simp [same]

@[simp] theorem mem_erase
    : entry ∈ (map.erase key).entries ↔ entry ∈ map.entries ∧ entry.1 ≠ key := by
  simp [erase]

theorem entries_nodup (map : OrderedMap κ α) : map.entries.Nodup :=
  map.sorted.imp fun below same => below.ne (congrArg _ same)

/-- What is stored, beside the entries of the other keys. -/
theorem perm_insert (map : OrderedMap κ α) (key : κ) (value : α)
    : (map.insert key value).entries ~ (key, value) :: (map.erase key).entries := by
  -- no list has an entry twice, so that it is enough to compare the members
  refine (perm_ext_iff_of_nodup (entries_nodup _) ?_).mpr fun entry => ?_
  · exact nodup_cons.mpr ⟨by simp, entries_nodup _⟩
  · rw [mem_insert, mem_cons, mem_erase, and_comm]

theorem perm_insert_self (found : map.find? key = some value)
    : (map.insert key value).entries ~ map.entries := by
  refine (perm_ext_iff_of_nodup (entries_nodup _) map.entries_nodup).mpr fun entry => ?_
  rw [← find?_eq_some_iff, find?_insert, ← find?_eq_some_iff]
  split_ifs with same
  · rw [same, found]
  · rfl

theorem erase_absent (absent : ∀ entry ∈ map.entries, entry.1 ≠ key)
    : (map.erase key).entries = map.entries :=
  filter_eq_self.mpr (by simpa using absent)

theorem size_insert (value : α) (absent : ∀ entry ∈ map.entries, entry.1 ≠ key)
    : (map.insert key value).size = map.size + 1 := by
  rw [size, (perm_insert ..).length_eq, length_cons, erase_absent absent, size]

theorem find?_of_dropFrontWhile {drop : κ × α → Bool}
    (found : (map.dropFrontWhile drop).find? key = some value) : map.find? key = some value :=
  find?_eq_some_iff.mpr
    ((dropWhile_sublist drop).subset (find?_eq_some_iff.mp found))

/-- In a sorted list the entries not below a key are a suffix. -/
theorem lowerBound_eq_filter (map : OrderedMap κ α) (key : κ)
    : map.lowerBound key = map.entries.filter (fun entry => key ≤ entry.1) := by
  rw [lowerBound, dropWhile_eq_filter]
  · simp only [← decide_not, not_lt]
  · exact map.sorted.imp (fun less => by simpa using less.trans)

@[simp] theorem mem_lowerBound
    : entry ∈ map.lowerBound key ↔ entry ∈ map.entries ∧ key ≤ entry.1 := by
  simp [lowerBound_eq_filter]

theorem lowerBound_sorted (map : OrderedMap κ α) (key : κ)
    : (map.lowerBound key).Pairwise (fun left right => left.1 < right.1) :=
  map.sorted.sublist (dropWhile_sublist _)

/-- Entries below a bound are all at the front. -/
theorem find?_dropBelow (map : OrderedMap κ α) (bound key : κ)
    : (map.dropFrontWhile (fun entry => entry.1 < bound)).find? key
      = if key < bound then none else map.find? key := by
  have mem : ∀ value, (map.dropFrontWhile (fun entry => entry.1 < bound)).find? key = some value
      ↔ map.find? key = some value ∧ bound ≤ key := by
    intro value
    rw [find?_eq_some_iff, find?_eq_some_iff]
    exact mem_lowerBound
  split_ifs with below
  · rw [Option.eq_none_iff_forall_ne_some]
    exact fun value found => absurd ((mem value).mp found).2 (not_le.mpr below)
  · apply Option.ext
    intro value
    exact (mem value).trans (and_iff_left (not_lt.mp below))

/-- A new value changes a total by its own share. -/
theorem sum_insert {old : α} (share : α → Nat) (found : map.find? key = some old) (value : α)
    : ((map.insert key value).entries.map (fun entry => share entry.2)).sum + share old
      = (map.entries.map (fun entry => share entry.2)).sum + share value := by
  have before := (perm_insert_self found).symm.trans (map.perm_insert key old)
  rw [((map.perm_insert key value).map _).sum_nat, (before.map _).sum_nat]
  simp only [map_cons, sum_cons]
  omega

/-- A new key adds one to a count of the entries, or nothing. -/
theorem countP_insert (absent : map.find? key = none) (value : α) (test : κ × α → Bool)
    : (map.insert key value).entries.countP test
      = map.entries.countP test + if test (key, value) then 1 else 0 := by
  rw [(map.perm_insert key value).countP_eq, countP_cons, erase_absent]
  rintro entry member rfl
  exact find?_eq_none_iff.mp absent entry.2 member

theorem countP_erase (found : map.find? key = some value) (test : κ × α → Bool)
    : (map.erase key).entries.countP test + (if test (key, value) then 1 else 0)
      = map.entries.countP test := by
  rw [← (perm_insert_self found).countP_eq, (map.perm_insert key value).countP_eq, countP_cons]

/-- The last key is the largest one. -/
theorem le_of_getLast?_keys {last : κ} (found : map.keys.getLast? = some last)
    : last ∈ map.keys ∧ ∀ key ∈ map.keys, key ≤ last := by
  have sorted : map.keys.Pairwise (· < ·) := pairwise_map.mpr map.sorted
  obtain ⟨before, shape⟩ := getLast?_eq_some_iff.mp found
  rw [shape] at sorted ⊢
  refine ⟨by simp, fun key member => ?_⟩
  rcases mem_append.mp member with early | same
  · exact ((pairwise_append.mp sorted).2.2 key early last (by simp)).le
  · exact (mem_singleton.mp same).le

end OrderedMap

end MediaServer.Foundation
