/-!
Finite sets kept in ascending order, so that their members can be listed, printed and visited in one
order that does not depend on how the set was built.

Main statements: `mem_insert`, `mem_erase` say what the operations do to membership, and the list of
members is strictly ascending by the type.
-/
namespace OptimisticStore

open Std

structure SortedSet (κ : Type) [Ord κ] where
  toList : List κ
  ascending : toList.Pairwise fun a b => compare a b = .lt

namespace SortedSet

variable {κ : Type} [Ord κ]

@[ext] theorem ext {s t : SortedSet κ} (same : s.toList = t.toList) : s = t := by
  cases s; cases t; simp_all

instance [DecidableEq κ] : DecidableEq (SortedSet κ) := fun s t =>
  decidable_of_iff (s.toList = t.toList) ⟨ext, fun same => same ▸ rfl⟩

def empty : SortedSet κ := ⟨[], .nil⟩

instance : EmptyCollection (SortedSet κ) := ⟨empty⟩

instance : Inhabited (SortedSet κ) := ⟨empty⟩

def contains (s : SortedSet κ) (key : κ) : Bool := s.toList.any fun member => compare key member == .eq

instance : Membership κ (SortedSet κ) := ⟨fun s key => key ∈ s.toList⟩

def size (s : SortedSet κ) : Nat := s.toList.length

def isEmpty (s : SortedSet κ) : Bool := s.toList.isEmpty

def place (key : κ) : List κ → List κ
  | [] => [key]
  | member :: rest =>
    match compare key member with
    | .lt => key :: member :: rest
    | .eq => member :: rest
    | .gt => member :: place key rest

theorem mem_place_cases {key other : κ} {members : List κ} (within : other ∈ place key members) :
    other = key ∨ other ∈ members := by
  induction members with
  | nil => simp_all [place]
  | cons member rest ih =>
    unfold place at within
    split at within <;> simp_all
    grind

theorem ascending_place [TransOrd κ] (key : κ) (members : List κ)
    (sorted : members.Pairwise fun a b => compare a b = .lt) :
    (place key members).Pairwise fun a b => compare a b = .lt := by
  induction members with
  | nil => simp [place]
  | cons member rest ih =>
    obtain ⟨above, sortedRest⟩ := List.pairwise_cons.mp sorted
    unfold place
    split
    next less =>
      refine List.pairwise_cons.mpr ⟨fun other within => ?_, sorted⟩
      rcases List.mem_cons.mp within with same | later
      · exact same ▸ less
      · exact TransCmp.lt_trans less (above other later)
    next => exact sorted
    next greater =>
      refine List.pairwise_cons.mpr ⟨fun other within => ?_, ih sortedRest⟩
      rcases mem_place_cases within with same | later
      · exact same ▸ OrientedCmp.gt_iff_lt.mp greater
      · exact above other later

def insert [TransOrd κ] (s : SortedSet κ) (key : κ) : SortedSet κ :=
  ⟨place key s.toList, ascending_place key s.toList s.ascending⟩

def filter (s : SortedSet κ) (keep : κ → Bool) : SortedSet κ :=
  ⟨s.toList.filter keep, s.ascending.filter keep⟩

def erase (s : SortedSet κ) (key : κ) : SortedSet κ := s.filter fun member => compare key member != .eq

def ofList [TransOrd κ] (keys : List κ) : SortedSet κ := keys.foldl insert empty

def insertAll [TransOrd κ] (s : SortedSet κ) (keys : List κ) : SortedSet κ := keys.foldl insert s

def eraseAll (s : SortedSet κ) (keys : List κ) : SortedSet κ := keys.foldl erase s

@[simp] theorem toList_empty : (empty : SortedSet κ).toList = [] := rfl

@[simp] theorem not_mem_empty (key : κ) : key ∉ (empty : SortedSet κ) := List.not_mem_nil

theorem mem_def {s : SortedSet κ} {key : κ} : key ∈ s ↔ key ∈ s.toList := Iff.rfl

@[simp] theorem contains_iff [LawfulEqOrd κ] {s : SortedSet κ} {key : κ} :
    s.contains key = true ↔ key ∈ s := by
  simp [contains, mem_def, List.any_eq_true]

theorem mem_place [LawfulEqOrd κ] {key other : κ} {members : List κ} :
    other ∈ place key members ↔ other = key ∨ other ∈ members := by
  refine ⟨mem_place_cases, ?_⟩
  induction members with
  | nil => simp [place]
  | cons member rest ih =>
    unfold place
    split
    next => simp
    next same =>
      have := LawfulEqOrd.compare_eq_iff_eq.mp same
      grind
    next => grind

@[simp] theorem mem_insert [TransOrd κ] [LawfulEqOrd κ] {s : SortedSet κ} {key other : κ} :
    other ∈ s.insert key ↔ other = key ∨ other ∈ s := mem_place

@[simp] theorem mem_erase [LawfulEqOrd κ] {s : SortedSet κ} {key other : κ} :
    other ∈ s.erase key ↔ other ∈ s ∧ other ≠ key := by
  simp [erase, filter, mem_def, ne_comm]

@[simp] theorem mem_insertAll [TransOrd κ] [LawfulEqOrd κ] {s : SortedSet κ} {keys : List κ}
    {other : κ} : other ∈ s.insertAll keys ↔ other ∈ keys ∨ other ∈ s := by
  unfold insertAll
  induction keys generalizing s with
  | nil => simp
  | cons key rest ih => grind [mem_insert]

@[simp] theorem mem_eraseAll [LawfulEqOrd κ] {s : SortedSet κ} {keys : List κ} {other : κ} :
    other ∈ s.eraseAll keys ↔ other ∈ s ∧ other ∉ keys := by
  unfold eraseAll
  induction keys generalizing s with
  | nil => simp
  | cons key rest ih => grind [mem_erase]

@[simp] theorem mem_ofList [TransOrd κ] [LawfulEqOrd κ] {keys : List κ} {other : κ} :
    other ∈ ofList keys ↔ other ∈ keys := by
  have all : other ∈ insertAll empty keys ↔ other ∈ keys ∨ other ∈ (empty : SortedSet κ) :=
    mem_insertAll
  simpa [ofList, insertAll] using all

end SortedSet

end OptimisticStore
