import OptimisticStore.Proofs.Store.Rows
/-!
How rows develop from write to write.

Main statements: every write keeps rows under their own keys and unique values apart, and while no row
is removed a row once seen is still there or was replaced by a later version
(`Table.Passed.of_effect`), so a writer that finds the version it saw finds the row it saw
(`Table.Passed.eq_of_version`). A removal is the one call that leaves a key vacant
(`Table.Passed.or_vacant`).
-/
namespace OptimisticStore

variable {K E : Type} {family : Family K E}

def Family.Versioned (family : Family K E) : Prop := ∀ entity, (family.version entity).isSome

/-- Setting the key sets it and no unique column, and setting the version touches neither. -/
structure Family.Separate (family : Family K E) : Prop where
  key_withKey : ∀ key entity, family.key (family.withKey key entity) = some key
  unique_withKey : ∀ key entity,
    family.uniqueFields (family.withKey key entity) = family.uniqueFields entity
  key_withVersion : ∀ version entity, family.key (family.withVersion version entity) = family.key entity
  unique_withVersion : ∀ version entity,
    family.uniqueFields (family.withVersion version entity) = family.uniqueFields entity

theorem Family.Lawful.separate (lawful : family.Lawful) : family.Separate where
  key_withKey := lawful.key_withKey
  unique_withKey := lawful.unique_withKey
  key_withVersion := lawful.key_withVersion
  unique_withVersion := lawful.unique_withVersion

/-- Removing a row is the one call after which its versions may start over. -/
def StoreCall.removes [Key K] : StoreCall K E → Bool
  | .delete _ => true
  | _ => false

namespace Table

section Separate

variable (separate : family.Separate)
include separate

theorem key_firstVersion (entity : E) :
    family.key (firstVersion family entity) = family.key entity := by
  unfold firstVersion
  split
  · exact separate.key_withVersion 1 entity
  · rfl

theorem key_nextVersion (current entity : E) :
    family.key (nextVersion family current entity) = family.key entity := by
  unfold nextVersion
  split
  · exact separate.key_withVersion _ entity
  · rfl

theorem unique_firstVersion (entity : E) :
    family.uniqueFields (firstVersion family entity) = family.uniqueFields entity := by
  unfold firstVersion
  split
  · exact separate.unique_withVersion 1 entity
  · rfl

theorem unique_nextVersion (current entity : E) :
    family.uniqueFields (nextVersion family current entity) = family.uniqueFields entity := by
  unfold nextVersion
  split
  · exact separate.unique_withVersion _ entity
  · rfl

theorem key_of_own {entity held : E} {key : K}
    (own : family.key entity = some key ∧ held = entity ∨
      family.key entity = none ∧ held = family.withKey key entity) :
    family.key held = some key := by
  rcases own with ⟨own, rfl⟩ | ⟨_, rfl⟩
  · exact own
  · exact separate.key_withKey key entity

theorem unique_of_own {entity held : E} {key : K}
    (own : family.key entity = some key ∧ held = entity ∨
      family.key entity = none ∧ held = family.withKey key entity) :
    family.uniqueFields held = family.uniqueFields entity := by
  rcases own with ⟨_, rfl⟩ | ⟨_, rfl⟩
  · rfl
  · exact separate.unique_withKey key entity

end Separate

theorem version_nextVersion (lawful : family.Lawful) {current entity : E} {version : Int}
    (held : family.version current = some version)
    (same : family.version current = family.version entity) :
    family.version (nextVersion family current entity) = some (version + 1) := by
  simp [nextVersion, held, lawful.version_withVersion, ← same]

variable [Key K] [DecidableEq K]

theorem get?_of_inserted {table after : Table K E} {key : K} {row : E}
    (rows : after.rows = table.rows.insert key row) (other : K) :
    after.rows.get? other = if other = key then some row else table.rows.get? other := by
  rw [rows, SortedMap.get?_insert]

theorem Keyed.of_inserted {table after : Table K E} {key : K} {row : E} (keyed : table.Keyed family)
    (own : family.key row = some key) (rows : after.rows = table.rows.insert key row) :
    after.Keyed family := by
  intro other held found
  rw [get?_of_inserted rows] at found
  split at found
  next same =>
    obtain rfl := Option.some.inj found
    exact same ▸ own
  next => exact keyed other held found

theorem Keyed.of_effect (separate : family.Separate) {table after : Table K E} {call : StoreCall K E}
    {answer : call.Answer} (keyed : table.Keyed family)
    (effect : table.Effect family call answer after) : after.Keyed family := by
  rcases effect with ⟨_, writes⟩ | ⟨_, rows⟩
  · cases writes with
    | insert own _ _ rows =>
      exact keyed.of_inserted
        ((key_firstVersion separate _).trans (key_of_own separate own)) rows
    | merge own _ _ _ rows =>
      exact keyed.of_inserted ((key_nextVersion separate _ _).trans own) rows
    | delete _ _ _ rows =>
      intro other held found
      rw [rows, SortedMap.get?_erase] at found
      split at found
      next => simp at found
      next => exact keyed other held found
  · unfold Keyed
    rw [rows]
    exact keyed

theorem Distinct.of_inserted {table after : Table K E} {key : K} {entity row : E}
    (distinct : table.Distinct family) (unshared : table.Unshared family key entity)
    (same : family.uniqueFields row = family.uniqueFields entity)
    (rows : after.rows = table.rows.insert key row) : after.Distinct family := by
  intro one first foundFirst other second foundSecond field within shared
  rw [get?_of_inserted rows] at foundFirst foundSecond
  split at foundFirst <;> split at foundSecond
  next oneKey otherKey => exact otherKey.trans oneKey.symm
  next oneKey _ =>
    obtain rfl := Option.some.inj foundFirst
    exact (unshared other second foundSecond field (same ▸ within) shared).trans oneKey.symm
  next _ otherKey =>
    obtain rfl := Option.some.inj foundSecond
    exact otherKey.trans (unshared one first foundFirst field (same ▸ shared) within).symm
  next => exact distinct one first foundFirst other second foundSecond field within shared

theorem Distinct.of_effect (separate : family.Separate) {table after : Table K E} {call : StoreCall K E}
    {answer : call.Answer} (distinct : table.Distinct family)
    (effect : table.Effect family call answer after) : after.Distinct family := by
  rcases effect with ⟨_, writes⟩ | ⟨_, rows⟩
  · cases writes with
    | insert own _ unshared rows =>
      exact distinct.of_inserted unshared (unique_firstVersion separate _) rows
    | merge own _ _ unshared rows =>
      exact distinct.of_inserted unshared (unique_nextVersion separate _ _) rows
    | delete _ _ _ rows =>
      intro one first foundFirst other second foundSecond field within shared
      rw [rows, SortedMap.get?_erase] at foundFirst foundSecond
      split at foundFirst
      next => simp at foundFirst
      next =>
        split at foundSecond
        next => simp at foundSecond
        next => exact distinct one first foundFirst other second foundSecond field within shared
  · unfold Distinct Unshared
    rw [rows]
    exact distinct

/-- `row` is the row of `key`, or was it before the one there now, which has a later version. -/
def Passed (family : Family K E) (table : Table K E) (key : K) (row : E) : Prop :=
  ∃ current, table.rows.get? key = some current ∧
    (current = row ∨ ∃ older newer, family.version row = some older ∧
      family.version current = some newer ∧ older < newer)

omit [DecidableEq K] in
theorem passed_of_found {table : Table K E} {key : K} {row : E}
    (found : table.rows.get? key = some row) : table.Passed family key row :=
  ⟨row, found, .inl rfl⟩

omit [DecidableEq K] in
/-- Whoever finds the version it saw finds the row it saw. -/
theorem Passed.eq_of_version {table : Table K E} {key : K} {row current : E}
    (passed : table.Passed family key row) (found : table.rows.get? key = some current)
    (same : family.version current = family.version row) : current = row := by
  obtain ⟨there, foundThere, rfl | ⟨older, newer, old, new, less⟩⟩ := passed
  · exact Option.some.inj (found.symm.trans foundThere)
  · obtain rfl := Option.some.inj (found.symm.trans foundThere)
    have := Option.some.inj (new.symm.trans (same.trans old))
    omega

theorem Passed.of_effect (lawful : family.Lawful) (versioned : family.Versioned)
    {table after : Table K E} {call : StoreCall K E} {answer : call.Answer} {key : K} {row : E}
    (passed : table.Passed family key row) (effect : table.Effect family call answer after)
    (keeps : call.removes = false) : after.Passed family key row := by
  obtain ⟨there, foundThere, relation⟩ := passed
  rcases effect with ⟨_, writes⟩ | ⟨_, rows⟩
  · cases writes with
    | @insert _ held other _ _ vacant _ rows =>
      refine ⟨there, ?_, relation⟩
      have apart : key ≠ other := by
        rintro rfl
        simp [vacant] at foundThere
      rw [get?_of_inserted rows, if_neg apart, foundThere]
    | @merge entity current other _ _ found same _ rows =>
      by_cases hit : key = other
      · subst hit
        obtain rfl := Option.some.inj (foundThere.symm.trans found)
        obtain ⟨newer, new⟩ := Option.isSome_iff_exists.mp (versioned there)
        have newest := version_nextVersion lawful new same
        refine ⟨_, by rw [get?_of_inserted rows, if_pos rfl], .inr ?_⟩
        rcases relation with rfl | ⟨older, newer', old, new', less⟩
        · exact ⟨newer, newer + 1, new, newest, by omega⟩
        · obtain rfl := Option.some.inj (new.symm.trans new')
          exact ⟨older, newer + 1, old, newest, by omega⟩
      · exact ⟨there, by rw [get?_of_inserted rows, if_neg hit, foundThere], relation⟩
    | delete => simp [StoreCall.removes] at keeps
  · exact ⟨there, by rw [rows, foundThere], relation⟩

theorem Passed.of_delete {table after : Table K E} {entity : E} {answer : Except StoreError Unit}
    {key : K} {row : E} (passed : table.Passed family key row)
    (effect : table.Effect family (.delete entity) answer after) :
    after.Passed family key row ∨ after.rows.get? key = none := by
  obtain ⟨there, foundThere, relation⟩ := passed
  rcases effect with ⟨_, writes⟩ | ⟨_, rows⟩
  · cases writes with
    | @delete _ _ other _ own found same rows =>
      by_cases hit : key = other
      · right
        rw [rows, SortedMap.get?_erase, if_pos hit]
      · left
        refine ⟨there, ?_, relation⟩
        rw [rows, SortedMap.get?_erase, if_neg hit, foundThere]
  · left
    exact ⟨there, by rw [rows, foundThere], relation⟩

theorem Passed.or_vacant (lawful : family.Lawful) (versioned : family.Versioned)
    {table after : Table K E} {call : StoreCall K E} {answer : call.Answer} {key : K} {row : E}
    (passed : table.Passed family key row) (effect : table.Effect family call answer after) :
    after.Passed family key row ∨ after.rows.get? key = none := by
  cases call with
  | delete entity => exact passed.of_delete effect
  | _ => exact .inl (passed.of_effect lawful versioned effect rfl)

end Table

end OptimisticStore
