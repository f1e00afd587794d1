import OptimisticStore.Proofs.Ordered.Map
import OptimisticStore.Relation.Expand
/-!
What a registry asks for, and what comes back from loaders that answer from fixed tables.

Main statement: `Registry.resolve_spec`. If every target has a loader, resolving the registry of some pairs
succeeds and leaves each of them answered as the tables say.
-/
namespace OptimisticStore

def Resolved.Answers (resolved : Resolved) (tables : Tables) (pair : String × RelationKey) : Prop :=
  resolved.wasRequested pair.1 pair.2 = true ∧ resolved.get? pair.1 pair.2 = tables pair.1 pair.2

variable {S : Type} {tables : Tables} {loaders : Loaders} {good : S → Prop}
  {serve : (batch : batchCalls.Call) → StateM S (batchCalls.Answer batch)}

/-- As long as all is good, a batch for one of the loaders is answered, and each of its keys as the tables
say. Values that nobody asked for may be anything. -/
def Loaders.AnswerFrom (loaders : Loaders) (tables : Tables) (good : S → Prop)
    (serve : (batch : batchCalls.Call) → StateM S (batchCalls.Answer batch)) : Prop :=
  ∀ batch state, batch.1 ∈ loaders.targets → good state → ∃ values after,
    (serve batch).run state = (.ok values, after) ∧ good after ∧
      ∀ key ∈ batch.2, values.get? key = tables batch.1 key

namespace Registry

variable {registry : Registry} {target : String} {key : RelationKey}

theorem mem_keysOf_iff :
    key ∈ registry.keysOf target ↔ ∃ keys, registry.pending.get? target = some keys ∧ key ∈ keys := by
  unfold keysOf
  cases registry.pending.get? target with
  | none =>
    constructor
    · intro held
      exact absurd held (SortedSet.not_mem_empty key)
    · rintro ⟨keys, found, _⟩
      cases found
  | some keys => simp

theorem mem_keysOf_add {other : String} {added : RelationKey} :
    key ∈ (registry.add other added).keysOf target ↔
      (target, key) = (other, added) ∨ key ∈ registry.keysOf target := by
  unfold add keysOf
  dsimp only
  rw [SortedMap.get?_insert]
  by_cases same : target = other
  · subst same
    simp [SortedSet.mem_insert]
  · simp [same]

def Dense (registry : Registry) : Prop := ∀ target ∈ registry.targets, ∃ key, key ∈ registry.keysOf target

theorem Dense.add (dense : registry.Dense) {other : String} {added : RelationKey} :
    (registry.add other added).Dense := by
  intro target within
  by_cases same : target = other
  · subst same
    exact ⟨added, mem_keysOf_add.mpr (.inl rfl)⟩
  · obtain ⟨keys, found⟩ := SortedMap.mem_keys_iff.mp within
    change (registry.pending.insert other _).get? target = some keys at found
    rw [SortedMap.get?_insert, if_neg same] at found
    obtain ⟨key, held⟩ := dense target (SortedMap.mem_keys_iff.mpr ⟨keys, found⟩)
    exact ⟨key, mem_keysOf_add.mpr (.inr held)⟩

theorem dense_addAll (dense : registry.Dense) (pairs : List (String × RelationKey)) :
    (pairs.foldl (fun registry pair => registry.add pair.1 pair.2) registry).Dense := by
  induction pairs generalizing registry with
  | nil => exact dense
  | cons pair rest ih => exact ih dense.add

theorem mem_keysOf_addAll {pairs : List (String × RelationKey)} :
    key ∈ (pairs.foldl (fun registry pair => registry.add pair.1 pair.2) registry).keysOf target ↔
      (target, key) ∈ pairs ∨ key ∈ registry.keysOf target := by
  induction pairs generalizing registry with
  | nil => simp
  | cons pair rest ih =>
    rw [List.foldl_cons, ih, mem_keysOf_add, List.mem_cons]
    constructor
    · rintro (later | same | held)
      · exact .inl (.inr later)
      · exact .inl (.inl same)
      · exact .inr held
    · rintro ((same | later) | held)
      · exact .inr (.inl same)
      · exact .inl later
      · exact .inr (.inr held)

theorem mem_keysOf_ofPairs {pairs : List (String × RelationKey)} :
    key ∈ (ofPairs pairs).keysOf target ↔ (target, key) ∈ pairs := by
  unfold ofPairs
  rw [mem_keysOf_addAll]
  have none : key ∉ ({} : Registry).keysOf target := SortedSet.not_mem_empty key
  simp [none]

theorem dense_ofPairs (pairs : List (String × RelationKey)) : (ofPairs pairs).Dense := by
  apply dense_addAll
  intro target within
  cases within

theorem eq_nil_of_isEmpty {pairs : List (String × RelationKey)}
    (empty : (ofPairs pairs).isEmpty = true) : pairs = [] := by
  rw [List.eq_nil_iff_forall_not_mem]
  rintro ⟨target, key⟩ among
  obtain ⟨keys, found, held⟩ := mem_keysOf_iff.mp (mem_keysOf_ofPairs.mpr among)
  have none := List.all_eq_true.mp empty _ (SortedMap.mem_entries_iff.mpr found)
  have nothing : keys.toList = [] := List.isEmpty_iff.mp none
  rw [SortedSet.mem_def, nothing] at held
  cases held

end Registry

namespace Loaders

theorem requireAll_of_targets {loaders : Loaders} {targets : List String}
    (known : ∀ target ∈ targets, target ∈ loaders.targets) : loaders.requireAll targets = .ok () := by
  induction targets with
  | nil => rfl
  | cons target rest ih =>
    have first : loaders.require target = .ok () := by
      unfold require
      rw [if_pos (SortedSet.contains_iff.mpr (known target List.mem_cons_self))]
    unfold requireAll
    rw [first, ih fun other later => known other (List.mem_cons_of_mem _ later)]
    rfl

end Loaders

namespace Resolved

variable {resolved : Resolved} {target other : String} {keys : SortedSet RelationKey}
  {values : SortedMap RelationKey LoadedValue}

theorem wasRequested_insert {key : RelationKey} :
    (resolved.insert target keys values).wasRequested other key = true ↔
      other = target ∧ key ∈ keys ∨ resolved.wasRequested other key = true := by
  unfold wasRequested insert
  dsimp only
  rw [SortedMap.get?_insert]
  by_cases same : other = target
  · subst same
    simp only [if_true, Option.map_some, Option.getD_some, SortedSet.contains_iff,
      SortedSet.mem_insertAll, ← SortedSet.mem_def, true_and]
    cases resolved.requested.get? other with
    | none =>
      have absent : key ∉ ({} : SortedSet RelationKey) := SortedSet.not_mem_empty key
      simp [absent]
    | some held => simp
  · simp [same]

theorem answers_insert (unknown : resolved.values.get? target = none)
    (fixed : ∀ key ∈ keys.toList, values.get? key = tables target key) {key : RelationKey}
    (among : key ∈ keys) : (resolved.insert target keys values).Answers tables (target, key) := by
  constructor
  · simp only [wasRequested, insert, SortedMap.get?_insert_self, Option.map_some, Option.getD_some,
      SortedSet.contains_iff, SortedSet.mem_insertAll]
    exact .inl among
  · simp only [get?, insert, SortedMap.get?_insert_self, Option.bind_some]
    rw [unknown, ← fixed key among]
    exact SortedMap.get?_merge_of_empty (fun _ => rfl) key

structure SameAt (before after : Resolved) (target : String) : Prop where
  values : after.values.get? target = before.values.get? target
  requested : after.requested.get? target = before.requested.get? target

theorem SameAt.refl : SameAt resolved resolved target := ⟨rfl, rfl⟩

theorem SameAt.trans {mid after : Resolved} (first : SameAt resolved mid target)
    (second : SameAt mid after target) : SameAt resolved after target :=
  ⟨second.values.trans first.values, second.requested.trans first.requested⟩

theorem sameAt_insert (apart : other ≠ target) :
    SameAt resolved (resolved.insert target keys values) other := by
  constructor
  · simp only [insert, SortedMap.get?_insert, if_neg apart]
  · simp only [insert, SortedMap.get?_insert, if_neg apart]

theorem SameAt.answers {after : Resolved} (same : SameAt resolved after target) {key : RelationKey}
    (answered : resolved.Answers tables (target, key)) : after.Answers tables (target, key) := by
  unfold Answers wasRequested get? at answered ⊢
  rw [same.values, same.requested]
  exact answered

end Resolved

namespace Registry

/-- Batches for targets of which nothing is known yet leave all their keys answered, and leave alone what
other targets have been answered. -/
theorem resolveBatches_spec (fixed : loaders.AnswerFrom tables good serve)
    {entries : List (String × SortedSet RelationKey)} (known : ∀ entry ∈ entries, entry.1 ∈ loaders.targets)
    (apart : entries.Pairwise fun a b => a.1 ≠ b.1) {resolved : Resolved}
    (unknown : ∀ entry ∈ entries, resolved.values.get? entry.1 = none) {state : S} (start : good state) :
    ∃ after last, ((resolveBatches entries resolved).run serve).run state = (.ok after, last) ∧
      good last ∧
      (∀ entry ∈ entries, ∀ key ∈ entry.2, after.Answers tables (entry.1, key)) ∧
      ∀ other, (∀ entry ∈ entries, other ≠ entry.1) → Resolved.SameAt resolved after other := by
  induction entries generalizing resolved state with
  | nil => exact ⟨resolved, state, rfl, start, nofun, fun _ _ => .refl⟩
  | cons entry rest ih =>
    obtain ⟨target, keys⟩ := entry
    rw [List.pairwise_cons] at apart
    obtain ⟨first, apart⟩ := apart
    have later : ∀ entry ∈ rest, entry.1 ∈ loaders.targets :=
      fun entry among => known entry (List.mem_cons_of_mem _ among)
    cases empty : keys.isEmpty with
    | true =>
      have nothing : keys.toList = [] := List.isEmpty_iff.mp empty
      obtain ⟨after, last, run, fine, answered, others⟩ := ih later apart
        (fun entry among => unknown entry (List.mem_cons_of_mem _ among)) start
      refine ⟨after, last, ?_, fine, ?_, ?_⟩
      · unfold resolveBatches
        rw [if_pos empty]
        exact run
      · intro entry among key held
        rcases List.mem_cons.mp among with rfl | among
        · rw [SortedSet.mem_def, nothing] at held
          cases held
        · exact answered entry among key held
      · intro other outside
        exact others other fun entry among => outside entry (List.mem_cons_of_mem _ among)
    | false =>
      obtain ⟨values, mid, served, fine, agree⟩ :=
        fixed (target, keys.toList) state (known _ List.mem_cons_self) start
      have kept : ∀ entry ∈ rest, (resolved.insert target keys values).values.get? entry.1 = none := by
        intro entry among
        rw [(Resolved.sameAt_insert (first entry among).symm).values]
        exact unknown entry (List.mem_cons_of_mem _ among)
      obtain ⟨after, last, run, fine, answered, others⟩ := ih later apart kept fine
      refine ⟨after, last, ?_, fine, ?_, ?_⟩
      · unfold resolveBatches
        rw [if_neg (by simp [empty]), Task.run_bind, Task.run_ask, StateT.run_bind, served]
        exact run
      · intro entry among key held
        rcases List.mem_cons.mp among with rfl | among
        · apply (others target first).answers
          exact Resolved.answers_insert (unknown _ List.mem_cons_self) agree held
        · exact answered entry among key held
      · intro other outside
        have onward := others other fun entry among => outside entry (List.mem_cons_of_mem _ among)
        exact (Resolved.sameAt_insert (outside _ List.mem_cons_self)).trans onward

theorem resolve_spec (fixed : loaders.AnswerFrom tables good serve) {pairs : List (String × RelationKey)}
    (known : ∀ pair ∈ pairs, pair.1 ∈ loaders.targets) {state : S} (start : good state) :
    ∃ resolved last, (((ofPairs pairs).resolve loaders).run serve).run state = (.ok resolved, last) ∧
      good last ∧ ∀ pair ∈ pairs, resolved.Answers tables pair := by
  have targets : ∀ target ∈ (ofPairs pairs).targets, target ∈ loaders.targets := by
    intro target within
    obtain ⟨key, held⟩ := dense_ofPairs pairs target within
    exact known _ (mem_keysOf_ofPairs.mp held)
  have entries : ∀ entry ∈ (ofPairs pairs).pending.entries, entry.1 ∈ loaders.targets :=
    fun entry among => targets entry.1 (List.mem_map_of_mem among)
  have unknown : ∀ entry ∈ (ofPairs pairs).pending.entries,
      ({} : Resolved).values.get? entry.1 = none := fun _ _ => rfl
  obtain ⟨resolved, last, run, fine, answered, _⟩ :=
    resolveBatches_spec fixed entries SortedMap.entries_apart unknown start
  refine ⟨resolved, last, ?_, fine, ?_⟩
  · unfold resolve
    rw [Loaders.requireAll_of_targets targets]
    exact run
  · rintro ⟨target, key⟩ among
    obtain ⟨keys, found, held⟩ := mem_keysOf_iff.mp (mem_keysOf_ofPairs.mpr among)
    exact answered _ (SortedMap.mem_entries_iff.mpr found) key held

end Registry

end OptimisticStore
