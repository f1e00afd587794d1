/-!
Finite maps kept in ascending key order.

Main statements: `get?_insert` and `get?_erase` say what the operations do to every key, and the list
of entries is strictly ascending in its keys by the type, so it holds each key once.
-/
namespace OptimisticStore

open Std

structure SortedMap (κ : Type) [Ord κ] (α : Type) where
  entries : List (κ × α)
  ascending : entries.Pairwise fun a b => compare a.1 b.1 = .lt

namespace SortedMap

variable {κ α β : Type} [Ord κ]

@[ext] theorem ext {m n : SortedMap κ α} (same : m.entries = n.entries) : m = n := by
  cases m; cases n; simp_all

instance [DecidableEq κ] [DecidableEq α] : DecidableEq (SortedMap κ α) := fun m n =>
  decidable_of_iff (m.entries = n.entries) ⟨ext, fun same => same ▸ rfl⟩

def empty : SortedMap κ α := ⟨[], .nil⟩

instance : EmptyCollection (SortedMap κ α) := ⟨empty⟩

instance : Inhabited (SortedMap κ α) := ⟨empty⟩

def lookup (key : κ) : List (κ × α) → Option α
  | [] => none
  | (other, value) :: rest => if compare key other = .eq then some value else lookup key rest

def get? (m : SortedMap κ α) (key : κ) : Option α := lookup key m.entries

def contains (m : SortedMap κ α) (key : κ) : Bool := (m.get? key).isSome

def keys (m : SortedMap κ α) : List κ := m.entries.map Prod.fst

def size (m : SortedMap κ α) : Nat := m.entries.length

def isEmpty (m : SortedMap κ α) : Bool := m.entries.isEmpty

def place (key : κ) (value : α) : List (κ × α) → List (κ × α)
  | [] => [(key, value)]
  | (other, held) :: rest =>
    match compare key other with
    | .lt => (key, value) :: (other, held) :: rest
    | .eq => (key, value) :: rest
    | .gt => (other, held) :: place key value rest

theorem mem_place_cases {key : κ} {value : α} {entry : κ × α} {entries : List (κ × α)}
    (within : entry ∈ place key value entries) : entry = (key, value) ∨ entry ∈ entries := by
  induction entries with
  | nil => simp_all [place]
  | cons head rest ih =>
    unfold place at within
    split at within <;> simp_all <;> grind

theorem ascending_place [TransOrd κ] (key : κ) (value : α) (entries : List (κ × α))
    (sorted : entries.Pairwise fun a b => compare a.1 b.1 = .lt) :
    (place key value entries).Pairwise fun a b => compare a.1 b.1 = .lt := by
  induction entries with
  | nil => simp [place]
  | cons head rest ih =>
    obtain ⟨other, held⟩ := head
    obtain ⟨above, sortedRest⟩ := List.pairwise_cons.mp sorted
    unfold place
    split
    next less =>
      refine List.pairwise_cons.mpr ⟨fun entry within => ?_, sorted⟩
      rcases List.mem_cons.mp within with same | later
      · exact same ▸ less
      · exact TransCmp.lt_trans less (above entry later)
    next equal =>
      exact List.pairwise_cons.mpr
        ⟨fun entry within => TransCmp.lt_of_eq_of_lt equal (above entry within), sortedRest⟩
    next greater =>
      refine List.pairwise_cons.mpr ⟨fun entry within => ?_, ih sortedRest⟩
      rcases mem_place_cases within with same | later
      · exact same ▸ OrientedCmp.gt_iff_lt.mp greater
      · exact above entry later

def insert [TransOrd κ] (m : SortedMap κ α) (key : κ) (value : α) : SortedMap κ α :=
  ⟨place key value m.entries, ascending_place key value m.entries m.ascending⟩

def erase (m : SortedMap κ α) (key : κ) : SortedMap κ α :=
  ⟨m.entries.filter fun entry => compare key entry.1 != .eq, m.ascending.filter _⟩

def ofList [TransOrd κ] (bindings : List (κ × α)) : SortedMap κ α :=
  bindings.foldl (fun m binding => m.insert binding.1 binding.2) empty

/-- Add every entry of `other`, which wins where both bind a key. -/
def merge [TransOrd κ] (m other : SortedMap κ α) : SortedMap κ α :=
  other.entries.foldl (fun m binding => m.insert binding.1 binding.2) m

@[simp] theorem entries_empty : (empty : SortedMap κ α).entries = [] := rfl

@[simp] theorem get?_empty (key : κ) : (empty : SortedMap κ α).get? key = none := rfl

theorem lookup_place [LawfulEqOrd κ] (key other : κ) (value : α) (entries : List (κ × α)) :
    lookup other (place key value entries) =
      if compare other key = .eq then some value else lookup other entries := by
  induction entries with
  | nil => simp [place, lookup]
  | cons head rest ih =>
    obtain ⟨held, old⟩ := head
    unfold place
    split
    next => simp [lookup]
    next same =>
      have := LawfulEqOrd.compare_eq_iff_eq.mp same
      subst this
      simp only [lookup]
      split <;> simp_all
    next greater =>
      simp only [lookup, ih]
      by_cases hit : compare other held = .eq
      · have := LawfulEqOrd.compare_eq_iff_eq.mp hit
        subst this
        by_cases both : compare other key = .eq
        · have := LawfulEqOrd.compare_eq_iff_eq.mp both
          subst this
          simp_all
        · simp [both]
      · simp [hit]

theorem get?_insert [TransOrd κ] [LawfulEqOrd κ] [DecidableEq κ] (m : SortedMap κ α) (key other : κ)
    (value : α) : (m.insert key value).get? other = if other = key then some value else m.get? other := by
  simp [get?, insert, lookup_place]

@[simp] theorem get?_insert_self [TransOrd κ] [LawfulEqOrd κ] (m : SortedMap κ α) (key : κ)
    (value : α) : (m.insert key value).get? key = some value := by
  simp [get?, insert, lookup_place]

theorem lookup_filter_ne [LawfulEqOrd κ] (key other : κ) (entries : List (κ × α)) :
    lookup other (entries.filter fun entry => compare key entry.1 != .eq) =
      if compare other key = .eq then none else lookup other entries := by
  induction entries with
  | nil => simp [lookup]
  | cons head rest ih =>
    obtain ⟨held, old⟩ := head
    by_cases hit : compare key held = .eq
    · have := LawfulEqOrd.compare_eq_iff_eq.mp hit
      subst this
      by_cases both : compare other key = .eq <;> simp [lookup, ih, both]
    · by_cases both : compare other key = .eq
      · have := LawfulEqOrd.compare_eq_iff_eq.mp both
        subst this
        simp [lookup, hit, ih]
      · simp [lookup, hit, ih, both]

theorem get?_erase [LawfulEqOrd κ] [DecidableEq κ] (m : SortedMap κ α) (key other : κ) :
    (m.erase key).get? other = if other = key then none else m.get? other := by
  simp [get?, erase, lookup_filter_ne]

@[simp] theorem get?_erase_self [LawfulEqOrd κ] (m : SortedMap κ α) (key : κ) :
    (m.erase key).get? key = none := by
  simp [get?, erase, lookup_filter_ne]

theorem mem_of_lookup [LawfulEqOrd κ] {key : κ} {value : α} {entries : List (κ × α)}
    (found : lookup key entries = some value) : (key, value) ∈ entries := by
  induction entries with
  | nil => simp [lookup] at found
  | cons head rest ih =>
    obtain ⟨other, held⟩ := head
    simp only [lookup] at found
    split at found <;> simp_all

theorem lookup_of_mem [OrientedOrd κ] [LawfulEqOrd κ] {key : κ} {value : α} {entries : List (κ × α)}
    (sorted : entries.Pairwise fun a b => compare a.1 b.1 = .lt) (within : (key, value) ∈ entries) :
    lookup key entries = some value := by
  induction entries with
  | nil => simp at within
  | cons head rest ih =>
    obtain ⟨other, held⟩ := head
    obtain ⟨above, sortedRest⟩ := List.pairwise_cons.mp sorted
    rcases List.mem_cons.mp within with same | later
    · simp [lookup, ← (Prod.mk.inj same).1, ← (Prod.mk.inj same).2]
    · have less := above _ later
      have : compare key other ≠ .eq := by
        intro equal
        have := LawfulEqOrd.compare_eq_iff_eq.mp equal
        subst this
        simp at less
      simp [lookup, this, ih sortedRest later]

theorem mem_entries_iff [OrientedOrd κ] [LawfulEqOrd κ] {m : SortedMap κ α} {key : κ} {value : α} :
    (key, value) ∈ m.entries ↔ m.get? key = some value :=
  ⟨lookup_of_mem m.ascending, mem_of_lookup⟩

end SortedMap

end OptimisticStore
