import Mathlib.Tactic.ByContra
import OptimisticStore.Cache.Node
/-!
What one call does to the slots and to the generation of a cache node.

Main statements: `CacheNode.serve_quiet`, by which a call that fills nothing only drops slots, and moves
the generation wherever it does, and `CacheNode.serve_putIf`, by which a fill is let in only while the
generation is the one the reader noted.
-/
namespace OptimisticStore

variable {K E : Type} [Key K]

def CacheCall.fills : CacheCall K E → Bool
  | .put .. | .putIf .. => true
  | _ => false

def CacheCall.Drops : (call : CacheCall K E) → call.Answer → K → Prop
  | .remove key, .ok _, other | .removeLocal key, .ok _, other => other = key
  | .removeAll keys, .ok _, other | .removeAllLocal keys, .ok _, other => other ∈ keys
  | _, _, _ => False

namespace CacheNode

variable [DecidableEq K] {node after : CacheNode K E}

theorem dropSlot_slots (key other : K) :
    (node.dropSlot key).slots.get? other = if other = key then none else node.slots.get? other := by
  unfold dropSlot
  cases there : node.slots.contains key with
  | true => exact SortedMap.get?_erase _ _ _
  | false =>
    have missing : node.slots.get? key = none := by simpa [SortedMap.contains] using there
    by_cases same : other = key
    · simp [same, missing]
    · simp [same]

theorem drop_slots (keys : List K) (other : K) :
    (node.drop keys).slots.get? other = if other ∈ keys then none else node.slots.get? other := by
  unfold drop
  have each : ∀ start : CacheNode K E,
      (keys.foldl dropSlot start).slots.get? other =
        if other ∈ keys then none else start.slots.get? other := by
    induction keys with
    | nil => simp
    | cons key rest ih =>
      intro start
      rw [List.foldl_cons, ih, dropSlot_slots]
      by_cases later : other ∈ rest
      · simp [later]
      · simp [later]
  exact each _

omit [DecidableEq K] in
theorem drop_rest (keys : List K) :
    (node.drop keys).generation = node.generation + 1 ∧ (node.drop keys).poisoned = node.poisoned := by
  unfold drop
  have each : ∀ start : CacheNode K E, (keys.foldl dropSlot start).generation = start.generation ∧
      (keys.foldl dropSlot start).poisoned = start.poisoned := by
    induction keys with
    | nil => simp
    | cons key rest ih =>
      intro start
      rw [List.foldl_cons, (ih _).1, (ih _).2]
      unfold dropSlot
      split
      · exact ⟨rfl, rfl⟩
      · exact ⟨rfl, rfl⟩
  exact each _

omit [DecidableEq K] in
theorem get_rest (key : K) : (node.get key).2.slots = node.slots ∧
    (node.get key).2.generation = node.generation ∧ (node.get key).2.poisoned = node.poisoned := by
  unfold get countLookup
  dsimp only
  split
  · exact ⟨rfl, rfl, rfl⟩
  · exact ⟨rfl, rfl, rfl⟩

omit [DecidableEq K] in
theorem getAll_rest (keys : List K) : (node.getAll keys).2.slots = node.slots ∧
    (node.getAll keys).2.generation = node.generation ∧
    (node.getAll keys).2.poisoned = node.poisoned := by
  induction keys generalizing node with
  | nil => exact ⟨rfl, rfl, rfl⟩
  | cons key rest ih =>
    obtain ⟨slots, generation, poisoned⟩ := @ih (node.get key).2
    obtain ⟨slots', generation', poisoned'⟩ := @get_rest _ _ _ node key
    exact ⟨slots.trans slots', generation.trans generation', poisoned.trans poisoned'⟩

/-- What a served call leaves of a node that can be reached: nobody is kept from it, the generation does
not go back, no slot appears, and a dropped key has no slot and a generation of its own. -/
structure Lessened (node : CacheNode K E) (dropped : K → Prop) (after : CacheNode K E) : Prop where
  reachable : after.poisoned = false
  generation : node.generation ≤ after.generation
  slots : ∀ key slot, after.slots.get? key = some slot → node.slots.get? key = some slot
  dropped : ∀ key, dropped key →
    after.slots.get? key = none ∧ node.generation < after.generation

omit [DecidableEq K] in
theorem lessened_of_same (reachable : after.poisoned = false)
    (generation : after.generation = node.generation) (slots : after.slots = node.slots) :
    Lessened node (fun _ => False) after := by
  refine ⟨reachable, by omega, ?_, fun _ => False.elim⟩
  intro key slot found
  rw [slots] at found
  exact found

theorem lessened_of_drop {keys : List K} (reachable : node.poisoned = false) :
    Lessened node (· ∈ keys) (node.drop keys) := by
  obtain ⟨generation, poisoned⟩ := @drop_rest _ _ _ node keys
  refine ⟨poisoned.trans reachable, by omega, ?_, ?_⟩
  · intro key slot found
    rw [drop_slots] at found
    split at found
    next => simp at found
    next => exact found
  · intro key within
    rw [drop_slots, if_pos within]
    exact ⟨rfl, by omega⟩

omit [DecidableEq K] in
theorem onSlots_of_reachable {α : Type} (reachable : node.poisoned = false)
    (step : CacheNode K E → α × CacheNode K E) :
    node.onSlots step = (.ok (step node).1, (step node).2) := by
  simp [onSlots, reachable]

theorem serve_quiet {call : CacheCall K E} {answer : call.Answer} (reachable : node.poisoned = false)
    (quiet : call.fills = false) (served : node.serve call = (answer, after)) :
    Lessened node (call.Drops answer) after := by
  cases call with
  | get key =>
    simp only [serve, onSlots_of_reachable reachable] at served
    obtain ⟨rfl, rfl⟩ := Prod.mk.inj served
    obtain ⟨slots, generation, poisoned⟩ := @get_rest _ _ _ node key
    exact lessened_of_same (poisoned.trans reachable) generation slots
  | getAll keys =>
    simp only [serve, onSlots_of_reachable reachable] at served
    obtain ⟨rfl, rfl⟩ := Prod.mk.inj served
    obtain ⟨slots, generation, poisoned⟩ := @getAll_rest _ _ _ node keys.toList
    exact lessened_of_same (poisoned.trans reachable) generation slots
  | generation =>
    obtain ⟨rfl, rfl⟩ := Prod.mk.inj served
    exact lessened_of_same reachable rfl rfl
  | put | putIf => simp [CacheCall.fills] at quiet
  | remove key | removeLocal key =>
    simp only [serve, onSlots_of_reachable reachable] at served
    obtain ⟨rfl, rfl⟩ := Prod.mk.inj served
    have lessened := @lessened_of_drop _ _ _ _ node [key] reachable
    simp only [List.mem_singleton] at lessened
    exact lessened
  | removeAll keys | removeAllLocal keys =>
    simp only [serve, onSlots_of_reachable reachable] at served
    obtain ⟨rfl, rfl⟩ := Prod.mk.inj served
    exact lessened_of_drop reachable

theorem serve_putIf {key : K} {slot : Slot E} {generation : Nat} {answer : Except StoreError Bool}
    (reachable : node.poisoned = false)
    (served : node.serve (.putIf key slot generation) = (answer, after)) :
    after.poisoned = false ∧ after.generation = node.generation ∧
      ∀ other held, after.slots.get? other = some held →
        node.slots.get? other = some held ∨
          other = key ∧ held = slot ∧ node.generation = generation := by
  simp only [serve, onSlots_of_reachable reachable, putIf] at served
  by_cases still : node.generation = generation
  · simp only [still, if_true] at served
    obtain ⟨_, rfl⟩ := Prod.mk.inj served
    refine ⟨reachable, rfl, ?_⟩
    intro other held found
    change (node.slots.insert key slot).get? other = some held at found
    rw [SortedMap.get?_insert] at found
    split at found
    next same => exact .inr ⟨same, (Option.some.inj found).symm, still⟩
    next => exact .inl found
  · simp only [still, if_false] at served
    obtain ⟨_, rfl⟩ := Prod.mk.inj served
    exact ⟨reachable, rfl, fun other held found => .inl found⟩

omit [DecidableEq K] in
theorem serve_removeLocal {key : K} {answer : Except StoreError Unit} (reachable : node.poisoned = false)
    (served : node.serve (.removeLocal key) = (answer, after)) : answer = .ok () := by
  simp only [serve, onSlots_of_reachable reachable] at served
  exact (Prod.mk.inj served).1.symm

omit [DecidableEq K] in
theorem serve_generation {generation : Nat}
    (served : node.serve .generation = (.ok generation, after)) : generation = node.generation := by
  exact (Except.ok.inj (Prod.mk.inj served).1).symm

end CacheNode

end OptimisticStore
