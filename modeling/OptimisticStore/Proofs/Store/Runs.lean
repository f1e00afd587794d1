import OptimisticStore.Proofs.Store.History
import OptimisticStore.Sample.Account
/-!
Runs of operations on one store, and what every run keeps.

Main statement: `Store.wellKept_after`, by which after any run, whatever was refused on the way, every
row stands under its own key and a unique value has one holder at most, whom a lookup finds.
-/
namespace OptimisticStore

variable {K E : Type} [Key K] {family : Family K E}

theorem Table.seed_keeps (Holds : Table K E → Prop) {table : Table K E} (entities : List E)
    (inserted : ∀ {table after : Table K E} {entity : E} {answer : Except StoreError E}, Holds table →
      table.Effect family (.insert entity) answer after → Holds after)
    (now : Holds table) : Holds (table.seed family entities).2 := by
  induction entities generalizing table with
  | nil => exact now
  | cons entity rest ih =>
    cases step : table.insert family entity with
    | mk answer mid =>
      have kept : Holds mid := inserted now (insert_effect family step)
      cases answer with
      | error cause => simpa only [seed, step] using kept
      | ok row =>
        have later := ih kept
        cases seeded : mid.seed family rest with
        | mk result last =>
          rw [seeded] at later
          cases result with
          | error cause => simpa only [seed, step, seeded] using later
          | ok rows => simpa only [seed, step, seeded] using later

namespace Store

inductive Action (K E : Type) [Key K] where
  | call (call : StoreCall K E)
  | seed (entities : List E)
  | clear

section Runs

variable [DecidableEq E] (family)

def act (store : Store K E) : Action K E → Store K E
  | .call call => (store.serve family call).2
  | .seed entities => (store.seed family entities).2
  | .clear => store.clear

def after (store : Store K E) (actions : List (Action K E)) : Store K E := actions.foldl (act family) store

variable {family} {store : Store K E}

omit [DecidableEq E] in
theorem record_poisoned (call : StoreCall K E) :
    (store.record call).poisoned = store.poisoned := by
  unfold record
  split
  · rfl
  · rfl

omit [DecidableEq E] in
theorem onTable_poisoned {α : Type} (step : Table K E → Except StoreError α × Table K E) :
    (store.onTable step).2.poisoned = store.poisoned := by
  unfold onTable
  split
  · rfl
  · rfl

omit [DecidableEq E] in
theorem onKeyed_poisoned {α : Type} (entity : E) (operation : String)
    (step : Table K E → Except StoreError α × Table K E) :
    (store.onKeyed family entity operation step).2.poisoned = store.poisoned := by
  unfold onKeyed
  split
  · rfl
  · exact onTable_poisoned step

theorem act_poisoned (action : Action K E) : (store.act family action).poisoned = store.poisoned := by
  cases action with
  | call call =>
    cases call <;> simp [act, serve, record_poisoned, onTable_poisoned, onKeyed_poisoned]
  | seed entities => simp [act, seed, onTable_poisoned]
  | clear =>
    change store.clear.poisoned = store.poisoned
    unfold clear
    split
    · rfl
    · rfl

theorem after_poisoned (actions : List (Action K E)) :
    (store.after family actions).poisoned = store.poisoned := by
  induction actions generalizing store with
  | nil => rfl
  | cons action rest ih => exact ih.trans (act_poisoned action)

omit [DecidableEq E] in
theorem seed_keeps (Holds : Table K E → Prop) (entities : List E)
    (inserted : ∀ {table after : Table K E} {entity : E} {answer : Except StoreError E}, Holds table →
      table.Effect family (.insert entity) answer after → Holds after)
    (now : Holds store.table) : Holds (store.seed family entities).2.table := by
  unfold seed onTable
  split
  · exact now
  · exact Table.seed_keeps Holds entities inserted now

omit [DecidableEq E] in
theorem clear_cases (store : Store K E) :
    store.clear.table = store.table ∨ store.clear.table = store.table.clear := by
  unfold clear
  split
  · exact .inl rfl
  · exact .inr rfl

/-- What every call keeps and every clearing brings about holds after every run. -/
theorem after_keeps (Holds : Table K E → Prop)
    (called : ∀ {table after : Table K E} {call : StoreCall K E} {answer : call.Answer}, Holds table →
      table.Effect family call answer after → Holds after)
    (cleared : ∀ table : Table K E, Holds table.clear) (actions : List (Action K E))
    (now : Holds store.table) : Holds (store.after family actions).table := by
  induction actions generalizing store with
  | nil => exact now
  | cons action rest ih =>
    apply ih
    cases action with
    | call call => exact called now (serve_effect family rfl)
    | seed entities => exact seed_keeps Holds entities (fun held effect => called held effect) now
    | clear =>
      rcases clear_cases store with same | emptied
      · change Holds store.clear.table
        rw [same]
        exact now
      · change Holds store.clear.table
        rw [emptied]
        exact cleared store.table

end Runs

/-- Every row stands under its own key, no two rows share a unique value, and looking a value up finds
the only row that holds it, if there is one. -/
structure WellKept [DecidableEq E] (family : Family K E) (store : Store K E) : Prop where
  keyed : ∀ key row, store.row? key = some row → family.key row = some key
  distinct : ∀ one first other second, store.row? one = some first → store.row? other = some second →
    one ≠ other → ∀ field ∈ family.uniqueFields first, field ∉ family.uniqueFields second
  finds : ∀ field, ∃ found, (store.serve family (.findUnique field)).1 = .ok found ∧
    ∀ key, found = some key ↔ ∃ row, store.row? key = some row ∧ field ∈ family.uniqueFields row

end Store

namespace Table

variable {table : Table K E}

theorem keyed_of_empty (empty : ∀ key, table.rows.get? key = none) : table.Keyed family := by
  intro key row found
  rw [empty key] at found
  cases found

theorem distinct_of_empty (empty : ∀ key, table.rows.get? key = none) : table.Distinct family := by
  intro key row found
  rw [empty key] at found
  cases found

theorem findUnique_eq_some_iff (distinct : table.Distinct family) {field : UniqueField} {key : K} :
    table.findUnique family field = some key ↔
      ∃ row, table.rows.get? key = some row ∧ field ∈ family.uniqueFields row := by
  constructor
  · intro found
    exact holds_of_findUnique family found
  · rintro ⟨row, there, holds⟩
    cases found : table.findUnique family field with
    | none => exact absurd holds (not_held_of_findUnique family found there)
    | some owner =>
      obtain ⟨held, thereToo, holdsToo⟩ := holds_of_findUnique family found
      have same : owner = key := distinct key row there owner held thereToo field holds holdsToo
      rw [same]

end Table

namespace Store

variable [DecidableEq E]

omit [DecidableEq E] in
theorem row?_of_reached {store : Store K E} (reached : store.poisoned = false) (key : K) :
    store.row? key = store.table.rows.get? key := by
  simp [row?, reached]

theorem serve_findUnique_of_reached {store : Store K E} (reached : store.poisoned = false)
    (field : UniqueField) :
    (store.serve family (.findUnique field)).1 = .ok (store.table.findUnique family field) := by
  simp [serve, onTable, record_poisoned, reached]

theorem WellKept.of_table {store : Store K E} (reached : store.poisoned = false)
    (keyed : store.table.Keyed family) (distinct : store.table.Distinct family) :
    store.WellKept family := by
  have rows := row?_of_reached reached
  constructor
  · intro key row found
    rw [rows] at found
    exact keyed key row found
  · intro one first other second foundFirst foundSecond apart field within shared
    rw [rows] at foundFirst foundSecond
    have same : other = one :=
      distinct one first foundFirst other second foundSecond field within shared
    exact apart same.symm
  · intro field
    refine ⟨_, serve_findUnique_of_reached reached field, ?_⟩
    intro key
    rw [Table.findUnique_eq_some_iff distinct, rows]

/-- A store that was new is well kept after every run of calls, seedings and clearings. -/
theorem wellKept_after [DecidableEq K] (separate : family.Separate) (actions : List (Action K E)) :
    (after family {} actions).WellKept family := by
  have vacant : ∀ key, (({} : Store K E).table.rows).get? key = none := fun _ => rfl
  have keyed : (after family {} actions).table.Keyed family := by
    apply after_keeps (Table.Keyed family) (fun held effect => held.of_effect separate effect)
    · exact fun table => Table.keyed_of_empty fun _ => rfl
    · exact Table.keyed_of_empty vacant
  have distinct : (after family {} actions).table.Distinct family := by
    apply after_keeps (Table.Distinct family) (fun held effect => held.of_effect separate effect)
    · exact fun table => Table.distinct_of_empty fun _ => rfl
    · exact Table.distinct_of_empty vacant
  have reached : (after family {} actions).poisoned = false := after_poisoned actions
  exact .of_table reached keyed distinct

/-- Four accounts seeded of which the third takes the first one's email, then an email taken, one
given up with its account, one changed, and one taken over by an account that needs a key. -/
def openings : List (Action Int64 Account) :=
  [.seed [.fresh "ann" 0, .fresh "bob" 5, { Account.fresh "abe" 0 with email := "ann@example.com" },
      .fresh "cy" 1],
    .call (.insert { Account.fresh "bob" 7 with id := some 9 }),
    .call (.insert { Account.fresh "dan" 2 with id := some 4 }),
    .call (.merge { Account.fresh "bob" 5 with id := some 2, version := 1, email := "dan@example.com" }),
    .call (.delete { Account.fresh "ann" 0 with id := some 1, version := 1 }),
    .call (.merge { Account.fresh "bob" 6 with id := some 2, version := 1, email := "b@example.com" }),
    .call (.insert (.fresh "ann" 3))]

theorem wellKept_after_openings :
    Account.family.Separate ∧ (after Account.family {} openings).WellKept Account.family ∧
      (after Account.family {} openings).table.rows.keys = [2, 4, 5] ∧
      ((after Account.family {} openings).serve Account.family
        (.findUnique ⟨"email", "ann@example.com"⟩)).1 = .ok (some 5) := by
  have separate := Account.family_lawful.separate
  refine ⟨separate, wellKept_after separate openings, ?_, ?_⟩
  · decide +kernel
  · rfl

end Store

end OptimisticStore
