import Mathlib.Data.List.Sort
import OptimisticStore.Ordered.Set
/-!
Sets told apart by their members alone.
-/
namespace OptimisticStore.SortedSet

open Std

variable {κ : Type} [Ord κ] [TransOrd κ]

instance : Std.Irrefl fun a b : κ => compare a b = .lt where
  irrefl a less := by
    rw [ReflOrd.compare_self] at less
    cases less

instance : Std.Antisymm fun a b : κ => compare a b = .lt where
  antisymm a b less back := by
    rw [OrientedCmp.gt_of_lt less] at back
    cases back

theorem ext_mem {s t : SortedSet κ} (same : ∀ key, key ∈ s ↔ key ∈ t) : s = t :=
  ext (s.ascending.eq_of_mem_iff t.ascending same)

omit [TransOrd κ] in
theorem mem_filter {s : SortedSet κ} {keep : κ → Bool} {key : κ} :
    key ∈ s.filter keep ↔ key ∈ s ∧ keep key = true :=
  List.mem_filter

end OptimisticStore.SortedSet
