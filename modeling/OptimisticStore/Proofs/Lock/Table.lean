import OptimisticStore.Lock.Table
import OptimisticStore.Proofs.Ordered.Set
/-!
What a request and a release do to the names held.
-/
namespace OptimisticStore

def LockGuard.holds (guard : LockGuard) : List String := if guard.held then guard.names else []

def LockGuard.spent (guard : LockGuard) : LockGuard := { guard with held := false }

@[simp] theorem LockGuard.holds_spent (guard : LockGuard) : guard.spent.holds = [] := rfl

namespace LockTable

variable {table after : LockTable} {names : List String} {guard : LockGuard}

theorem ext_held (same : ∀ name, name ∈ table.held ↔ name ∈ after.held) : table = after := by
  cases table
  cases after
  exact congrArg LockTable.mk (SortedSet.ext_mem same)

theorem not_mem_of_uncontended {wanted : SortedSet String} (free : table.contended wanted = false) :
    ∀ name ∈ wanted.toList, name ∉ table.held := by
  intro name within held
  have clear := List.any_eq_false.mp free name within
  exact clear (SortedSet.contains_iff.mpr held)

/-- A guard that is granted holds just the names asked for, each once, and the table has these from then
on as well. -/
theorem lock_eq_ok (granted : table.lock names = (.ok guard, after)) :
    table.contended (.ofList names) = false ∧ guard.holds = (SortedSet.ofList names).toList ∧
      after.held = table.held.insertAll guard.holds := by
  unfold lock tryLock at granted
  cases none : (SortedSet.ofList names).isEmpty with
  | true =>
    simp only [none, if_true, Prod.mk.injEq, Except.ok.injEq] at granted
    obtain ⟨rfl, rfl⟩ := granted
    have empty : (SortedSet.ofList names).toList = [] := List.isEmpty_iff.mp none
    exact ⟨by simp [contended, empty], empty.symm, rfl⟩
  | false =>
    cases busy : table.contended (SortedSet.ofList names) with
    | true => simp [none, busy] at granted
    | false =>
      simp only [none, busy, Bool.false_eq_true, if_false, Prod.mk.injEq, Except.ok.injEq] at granted
      obtain ⟨rfl, rfl⟩ := granted
      exact ⟨rfl, rfl, rfl⟩

theorem lock_granted (granted : table.lock names = (.ok guard, after)) :
    (∀ name ∈ guard.holds, name ∉ table.held) ∧
      (∀ name, name ∈ after.held ↔ name ∈ guard.holds ∨ name ∈ table.held) ∧
      ∀ name ∈ names, name ∈ guard.holds := by
  obtain ⟨free, holds, held⟩ := lock_eq_ok granted
  rw [holds] at held ⊢
  refine ⟨not_mem_of_uncontended free, ?_, ?_⟩
  · intro name
    rw [held, SortedSet.mem_insertAll]
  · intro name within
    exact SortedSet.mem_ofList.mpr within

theorem tryLock_eq_none_iff : table.tryLock names = none ↔ ∃ name ∈ names, name ∈ table.held := by
  have busy : table.contended (.ofList names) = true ↔ ∃ name ∈ names, name ∈ table.held := by
    rw [contended, List.any_eq_true]
    constructor
    · rintro ⟨name, within, held⟩
      exact ⟨name, SortedSet.mem_ofList.mp within, SortedSet.contains_iff.mp held⟩
    · rintro ⟨name, within, held⟩
      exact ⟨name, SortedSet.mem_ofList.mpr within, SortedSet.contains_iff.mpr held⟩
  rw [← busy]
  unfold tryLock
  cases none : (SortedSet.ofList names).isEmpty with
  | true =>
    have empty : (SortedSet.ofList names).toList = [] := List.isEmpty_iff.mp none
    simp [none, contended, empty]
  | false => simp [none]

theorem lock_eq_error {cause : LockError} (refused : table.lock names = (.error cause, after)) :
    table.tryLock names = none ∧ after = table := by
  unfold lock at refused
  split at refused
  next => simp at refused
  next none => exact ⟨none, (Prod.mk.inj refused).2.symm⟩

theorem lock_refused {cause : LockError} (refused : table.lock names = (.error cause, after)) :
    after = table :=
  (lock_eq_error refused).2

theorem mem_release {name : String} :
    name ∈ (table.release guard).held ↔ name ∈ table.held ∧ name ∉ guard.holds := by
  unfold release LockGuard.holds
  cases guard.held with
  | true => simp
  | false => simp

end LockTable

end OptimisticStore
