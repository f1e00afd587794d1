import OptimisticStore.Proofs.Store.Runs
/-!
What a store does with a row that a client read some time ago.

The version of a row tells it from every other row that its key has had since the row was inserted, but a
key that is given up and taken again starts over at version 1. Main statement: `Store.guards_iff`, by which an
outdated row is refused after every run, except where the key was vacant meanwhile and has come to the
same version again.
-/
namespace OptimisticStore

variable {K E : Type} [Key K] {family : Family K E}

namespace Table

variable {table : Table K E} {key : K} {entity : E}

theorem merge_of_outdated [DecidableEq E] (own : family.key entity = some key)
    (outdated : ∀ current, table.rows.get? key = some current →
      family.version current ≠ family.version entity) :
    table.merge family entity = (.error (conflict family key), table) := by
  cases found : table.rows.get? key with
  | none => simp only [merge, own, found]
  | some current =>
    have apart := outdated current found
    have other : current ≠ entity := by
      rintro rfl
      exact apart rfl
    simp only [merge, own, found, if_neg other, if_pos apart]

theorem delete_of_outdated (own : family.key entity = some key)
    (outdated : ∀ current, table.rows.get? key = some current →
      family.version current ≠ family.version entity) :
    table.delete family entity = (.error (conflict family key), table) := by
  cases found : table.rows.get? key with
  | none => simp only [delete, own, found]
  | some current => simp only [delete, own, found, if_pos (outdated current found)]

theorem delete_of_version {current : E} (own : family.key entity = some key)
    (found : table.rows.get? key = some current)
    (same : family.version current = family.version entity) :
    (table.delete family entity).1 = .ok () := by
  simp [delete, own, found, same]

end Table

namespace Store

variable [DecidableEq E]

theorem serve_merge_of_reached {store : Store K E} {entity : E} {key : K}
    (reached : store.poisoned = false) (own : family.key entity = some key) :
    (store.serve family (.merge entity)).1 = (store.table.merge family entity).1 := by
  simp [serve, onKeyed, onTable, record_poisoned, reached, own]

theorem serve_delete_of_reached {store : Store K E} {entity : E} {key : K}
    (reached : store.poisoned = false) (own : family.key entity = some key) :
    (store.serve family (.delete entity)).1 = (store.table.delete family entity).1 := by
  simp [serve, onKeyed, onTable, record_poisoned, reached, own]

/-- What a client may count on that has read `row` under `key` and comes back with it, or with an
`entity` that it made from it: only the row it has read is replaced or removed. -/
structure Guards (family : Family K E) (store : Store K E) (key : K) (row entity : E) : Prop where
  merge : ∀ merged, (store.serve family (.merge entity)).1 = .ok merged → merged.changed = true →
    store.row? key = some row
  delete : (store.serve family (.delete row)).1 = .ok () → store.row? key = some row
  refuse : store.row? key ≠ some row →
    (store.serve family (.merge entity)).1 = .error (Table.conflict family key) ∧
      (store.serve family (.delete row)).1 = .error (Table.conflict family key)

/-- During the run `key` was vacant for a moment, and afterwards it has a row of the same version as
`row` again. -/
def Restarted (family : Family K E) (store : Store K E) (actions : List (Action K E)) (key : K)
    (row : E) : Prop :=
  (∃ between rest, actions = between ++ rest ∧ (store.after family between).row? key = none) ∧
    ∃ current, (store.after family actions).row? key = some current ∧
      family.version current = family.version row

section Runs

variable [DecidableEq K] (lawful : family.Lawful) (versioned : family.Versioned)
include lawful versioned

theorem passed_of_act {store : Store K E} {key : K} {row : E} (action : Action K E)
    (passed : store.table.Passed family key row) :
    (store.act family action).table.Passed family key row ∨
      (store.act family action).table.rows.get? key = none := by
  cases action with
  | call call => exact passed.or_vacant lawful versioned (serve_effect family rfl)
  | seed entities =>
    left
    exact seed_keeps (Table.Passed family · key row) entities
      (fun held effect => held.of_effect lawful versioned effect rfl) passed
  | clear =>
    change store.clear.table.Passed family key row ∨ store.clear.table.rows.get? key = none
    rcases clear_cases store with same | emptied
    · left
      rw [same]
      exact passed
    · right
      rw [emptied]
      rfl

theorem passed_or_vacated {store : Store K E} {key : K} {row : E} (actions : List (Action K E))
    (passed : store.table.Passed family key row) :
    (store.after family actions).table.Passed family key row ∨
      ∃ between rest, actions = between ++ rest ∧
        (store.after family between).table.rows.get? key = none := by
  induction actions generalizing store with
  | nil => exact .inl passed
  | cons action later ih =>
    rcases passed_of_act lawful versioned action passed with kept | vacant
    · rcases ih kept with there | ⟨between, rest, split, vacant⟩
      · exact .inl there
      · refine .inr ⟨action :: between, rest, ?_, vacant⟩
        rw [split, List.cons_append]
    · exact .inr ⟨[action], later, rfl, vacant⟩

end Runs

theorem Guards.of_unchanged {store : Store K E} {key : K} {row entity : E}
    (same : store.row? key = some row) : store.Guards family key row entity where
  merge _ _ _ := same
  delete _ := same
  refuse apart := absurd same apart

theorem Guards.of_outdated {store : Store K E} {key : K} {row entity : E}
    (reached : store.poisoned = false) (ownRow : family.key row = some key)
    (ownEntity : family.key entity = some key)
    (version : family.version entity = family.version row)
    (outdated : ∀ current, store.row? key = some current →
      family.version current ≠ family.version row) : store.Guards family key row entity := by
  rw [row?_of_reached reached] at outdated
  have merges : (store.serve family (.merge entity)).1 = .error (Table.conflict family key) := by
    rw [serve_merge_of_reached reached ownEntity]
    rw [Table.merge_of_outdated ownEntity (version ▸ outdated)]
  have deletes : (store.serve family (.delete row)).1 = .error (Table.conflict family key) := by
    rw [serve_delete_of_reached reached ownRow]
    rw [Table.delete_of_outdated ownRow outdated]
  constructor
  · intro merged answer _
    rw [merges] at answer
    cases answer
  · intro answer
    rw [deletes] at answer
    cases answer
  · intro _
    exact ⟨merges, deletes⟩

/-- A client that read a row at some point of a run and comes back with its version later on is
served only if the row is still the one it read, and refused if it is any other, exactly as long as the
key was not vacant meanwhile and taken to the same version again. -/
theorem guards_iff [DecidableEq K] (lawful : family.Lawful) (versioned : family.Versioned)
    (first later : List (Action K E)) {key : K} {row entity : E}
    (read : (after family {} first).row? key = some row)
    (own : family.key entity = some key) (version : family.version entity = family.version row) :
    (after family (after family {} first) later).Guards family key row entity ↔
      (after family (after family {} first) later).row? key = some row ∨
        ¬ Restarted family (after family {} first) later key row := by
  have kept : (after family {} first).WellKept family := wellKept_after lawful.separate first
  have ownRow : family.key row = some key := kept.keyed key row read
  have reached : ∀ actions, (after family (after family {} first) actions).poisoned = false := by
    intro actions
    rw [after_poisoned, after_poisoned]
  have rows := fun actions => row?_of_reached (reached actions) key
  constructor
  · intro guards
    by_contra neither
    obtain ⟨apart, restarted⟩ := not_or.mp neither
    obtain ⟨_, current, found, same⟩ := not_not.mp restarted
    rw [rows] at found
    have refused := (guards.refuse apart).2
    rw [serve_delete_of_reached (reached later) ownRow] at refused
    rw [Table.delete_of_version ownRow found same] at refused
    cases refused
  · rintro (same | fresh)
    · exact .of_unchanged same
    · have passed : (after family {} first).table.Passed family key row := by
        rw [row?_of_reached (after_poisoned first)] at read
        exact Table.passed_of_found read
      rcases passed_or_vacated lawful versioned later passed with there | ⟨between, rest, split, vacant⟩
      · by_cases same : (after family (after family {} first) later).row? key = some row
        · exact .of_unchanged same
        · apply Guards.of_outdated (reached later) ownRow own version
          intro current found sameVersion
          have foundRow := found
          rw [rows] at foundRow
          rw [there.eq_of_version foundRow sameVersion] at found
          exact same found
      · apply Guards.of_outdated (reached later) ownRow own version
        intro current found sameVersion
        refine fresh ⟨⟨between, rest, split, ?_⟩, current, found, sameVersion⟩
        rw [rows]
        exact vacant

section Takeover

def opened : Account := { Account.fresh "ann" 5 with id := some 1, version := 1 }

def opening : Action Int64 Account := .call (.insert { Account.fresh "ann" 5 with id := some 1 })

def saving : Action Int64 Account := .call (.merge { opened with balance := 9 })

def saved : Account := { opened with balance := 9, version := 2 }

def taking : Action Int64 Account := .call (.insert { Account.fresh "bob" 70 with id := some 1 })

def taken : Account := { Account.fresh "bob" 70 with id := some 1, version := 1 }

theorem guards_iff_takeover :
    let seen := after Account.family {} [opening, saving]
    let later := [.call (.delete saved), taking]
    let entity := { saved with balance := 10 }
    seen.row? 1 = some saved ∧ Account.family.key entity = some 1 ∧
      Account.family.version entity = Account.family.version saved ∧
      (after Account.family seen later).row? 1 = some taken ∧
      (after Account.family seen later).Guards Account.family 1 saved entity := by
  intro seen later entity
  have read : seen.row? 1 = some saved := by decide +kernel
  have own : Account.family.key entity = some 1 := rfl
  have version : Account.family.version entity = Account.family.version saved := rfl
  have there : (after Account.family seen later).row? 1 = some taken := by decide +kernel
  refine ⟨read, own, version, there, ?_⟩
  have versioned : Account.family.Versioned := fun _ => rfl
  have guarded :=
    guards_iff Account.family_lawful versioned [opening, saving] later read own version
  apply guarded.mpr
  right
  rintro ⟨_, current, found, same⟩
  obtain rfl := Option.some.inj (there.symm.trans found)
  revert same
  decide

/-- Ann's first version passes for Bob's: what she read is gone, and yet she overwrites his row or
removes it. -/
theorem unguarded_takeover :
    let seen := after Account.family {} [opening]
    let last := after Account.family seen [.call (.delete opened), taking]
    let entity := { opened with balance := 6 }
    seen.row? 1 = some opened ∧ Account.family.key entity = some 1 ∧
      Account.family.version entity = Account.family.version opened ∧
      last.row? 1 = some taken ∧ taken ≠ opened ∧
      (last.serve Account.family (.merge entity)).1 = .ok ⟨{ entity with version := 2 }, true⟩ ∧
      (last.serve Account.family (.delete opened)).1 = .ok () ∧
      ¬ last.Guards Account.family 1 opened entity := by
  intro seen last entity
  have there : last.row? 1 = some taken := by decide +kernel
  have apart : taken ≠ opened := by decide
  have removes : (last.serve Account.family (.delete opened)).1 = .ok () := rfl
  refine ⟨by decide +kernel, rfl, rfl, there, apart, by rfl, removes, ?_⟩
  intro guards
  have same := guards.delete removes
  rw [there] at same
  exact apart (Option.some.inj same)

end Takeover

end Store

end OptimisticStore
