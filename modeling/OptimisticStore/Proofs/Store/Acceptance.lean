import OptimisticStore.Proofs.Store.Runs
/-!
Which records a table accepts, and which calls get through to it.

A table decides about a record by its key, its version and its unique values. Main statements:
`Table.insert_of_fits` and `Table.merge_of_fits` with their converses, and `FaultyStore.serve_of_admits`,
by which a store that fails some writes passes on all other calls.
-/
namespace OptimisticStore

variable {K E : Type} [Key K] {family : Family K E}

namespace Table

variable {table other : Table K E} {before : Option E} {entity : E}

/-- No row is in the way of a record, to be inserted or to take the place of the row of its key. -/
inductive Fits (family : Family K E) (table : Table K E) : Option E → E → Prop where
  | insert {entity : E} {key : K} (own : family.key entity = some key)
      (vacant : table.rows.get? key = none) (unshared : table.Unshared family key entity) :
      Fits family table none entity
  | insertDrawn {entity : E} (unkeyed : family.key entity = none)
      (unshared : ∀ key, table.rows.get? key = none → table.Unshared family key entity) :
      Fits family table none entity
  | merge {held entity current : E} {key : K} (own : family.key entity = some key)
      (found : table.rows.get? key = some current)
      (version : family.version current = family.version entity)
      (unshared : table.Unshared family key entity) : Fits family table (some held) entity

def HasKeyFor (family : Family K E) (table : Table K E) (entity : E) : Prop :=
  family.key entity = none → ∃ key after, freshKey family table = (.ok key, after)

theorem Unshared.congr {key : K} {twin : E} (unshared : table.Unshared family key entity)
    (rows : other.rows = table.rows) (unique : family.uniqueFields twin = family.uniqueFields entity) :
    other.Unshared family key twin := by
  intro holder row found field within shared
  rw [rows] at found
  rw [unique] at within
  exact unshared holder row found field within shared

theorem Fits.congr {twin : E} (fits : table.Fits family before entity) (rows : other.rows = table.rows)
    (key : family.key twin = family.key entity)
    (unique : family.uniqueFields twin = family.uniqueFields entity)
    (version : before.isSome → family.version twin = family.version entity) :
    other.Fits family before twin := by
  cases fits with
  | insert own vacant unshared =>
    exact .insert (key.trans own) (rows ▸ vacant) (unshared.congr rows unique)
  | insertDrawn unkeyed unshared =>
    refine .insertDrawn (key.trans unkeyed) fun drawn vacant => ?_
    rw [rows] at vacant
    exact (unshared drawn vacant).congr rows unique
  | merge own found same unshared =>
    exact .merge (key.trans own) (rows ▸ found) (same.trans (version rfl).symm)
      (unshared.congr rows unique)

theorem Fits.hasKeyFor {held : E} (fits : table.Fits family (some held) entity) :
    table.HasKeyFor family entity := by
  cases fits with
  | merge own =>
    intro unkeyed
    rw [own] at unkeyed
    cases unkeyed

theorem freshKeyWithin_refused {after : Table K E} {steps : Nat} {cause : StoreError}
    (drawn : freshKeyWithin family table steps = (.error cause, after)) :
    cause = noSequence family := by
  induction steps generalizing table with
  | zero => exact (Except.error.inj (Prod.mk.inj drawn).1).symm
  | succ steps ih =>
    unfold freshKeyWithin at drawn
    dsimp only at drawn
    split at drawn
    next => exact (Except.error.inj (Prod.mk.inj drawn).1).symm
    next =>
      split at drawn
      next => exact ih drawn
      next => cases (Prod.mk.inj drawn).1

theorem insertAt_of_unshared {key : K} (vacant : table.rows.get? key = none)
    (unshared : table.Unshared family key entity) :
    ∃ after, insertAt family table key entity = (.ok (firstVersion family entity), after) := by
  have free := contains_eq_false_iff.mpr vacant
  have accepted := (checkUnique_eq_ok_iff family).mpr unshared
  simp [insertAt, free, accepted]

/-- A record that fits is inserted, unless it needs a key and there is none left; this is not worth another
attempt. -/
theorem insert_of_fits (lawful : family.Lawful) (fits : table.Fits family none entity) :
    (∃ row after, table.insert family entity = (.ok row, after)) ∨
      ¬ table.HasKeyFor family entity ∧
        ∃ cause after, cause.isRetryable = false ∧ table.insert family entity = (.error cause, after) := by
  cases fits with
  | insert own vacant unshared =>
    left
    obtain ⟨after, done⟩ := insertAt_of_unshared vacant unshared
    exact ⟨_, after, by simpa only [Table.insert, own] using done⟩
  | insertDrawn unkeyed unshared =>
    cases drawn : freshKey family table with
    | mk result after =>
      cases result with
      | ok key =>
        left
        obtain ⟨rows, vacant⟩ := freshKeyWithin_spec family drawn
        have free := vacant key rfl
        have apart := (unshared key free).congr rows (lawful.unique_withKey key entity)
        rw [← rows] at free
        obtain ⟨last, done⟩ := insertAt_of_unshared free apart
        exact ⟨_, last, by simpa only [Table.insert, unkeyed, drawn] using done⟩
      | error cause =>
        right
        constructor
        · intro left
          obtain ⟨key, other, drawn'⟩ := left unkeyed
          rw [drawn] at drawn'
          cases (Prod.mk.inj drawn').1
        · refine ⟨cause, after, ?_, by simp only [Table.insert, unkeyed, drawn]⟩
          rw [freshKeyWithin_refused drawn]
          rfl

theorem fits_of_insert (lawful : family.Lawful) {row : E} {after : Table K E}
    (done : table.insert family entity = (.ok row, after)) :
    table.Fits family none entity ∧ table.HasKeyFor family entity := by
  have writes := Effect.writes (insert_effect family done) rfl
  cases writes with
  | @insert _ held key _ own vacant unshared rows =>
    rcases own with ⟨own, rfl⟩ | ⟨unkeyed, rfl⟩
    · refine ⟨.insert own vacant unshared, fun unkeyed => ?_⟩
      rw [own] at unkeyed
      cases unkeyed
    · constructor
      · refine .insertDrawn unkeyed fun other _ holder row found field within shared => ?_
        rw [← lawful.unique_withKey key] at within
        have same := unshared holder row found field within shared
        subst same
        rw [vacant] at found
        cases found
      · intro _
        cases drawn : freshKey family table with
        | mk result last =>
          cases result with
          | ok key => exact ⟨key, last, rfl⟩
          | error cause => simp [Table.insert, unkeyed, drawn] at done

variable [DecidableEq E] {held : E}

theorem merge_of_fits (fits : table.Fits family (some held) entity) :
    ∃ merged after, table.merge family entity = (.ok merged, after) := by
  cases fits with
  | merge own found version unshared =>
    have accepted := (checkUnique_eq_ok_iff family).mpr unshared
    simp only [Table.merge, own, found]
    split
    next => exact ⟨_, _, rfl⟩
    next => simp [version, accepted]

theorem fits_of_merge (distinct : table.Distinct family) {merged : Merged E} {after : Table K E}
    (done : table.merge family entity = (.ok merged, after)) : table.Fits family (some held) entity := by
  unfold Table.merge at done
  split at done
  next => cases (Prod.mk.inj done).1
  next key own =>
    split at done
    next => cases (Prod.mk.inj done).1
    next current found =>
      split at done
      next same =>
        subst same
        exact .merge own found rfl (distinct key current found)
      next =>
        split at done
        next => cases (Prod.mk.inj done).1
        next version =>
          split at done
          next => cases (Prod.mk.inj done).1
          next accepted =>
            exact .merge own found (not_not.mp version) ((checkUnique_eq_ok_iff family).mp accepted)

end Table

def StoreCall.writing : StoreCall K E → Bool
  | .insert _ | .merge _ | .delete _ => true
  | _ => false

namespace Store

variable [DecidableEq E] {store : Store K E}

theorem serve_read {call : StoreCall K E} (quiet : call.writing = false) :
    ∃ counts, (store.serve family call).2 = { store with counts } := by
  have recorded : ∃ counts, store.record call = { store with counts } := by
    unfold record
    split
    · exact ⟨store.counts, rfl⟩
    · exact ⟨_, rfl⟩
  have read : ∀ {α : Type} (answer : Table K E → α),
      ((store.record call).onTable fun table => (.ok (answer table), table)).2 = store.record call := by
    intro α answer
    unfold onTable
    split <;> rfl
  obtain ⟨counts, recorded⟩ := recorded
  cases call with
  | insert | merge | delete => cases quiet
  | inTransaction => exact ⟨store.counts, rfl⟩
  | _ => exact ⟨counts, (read _).trans recorded⟩

theorem answer_fetch (key : K) :
    (store.serve family (.fetch key)).1 =
      if store.poisoned then .error .poisoned else .ok (store.table.rows.get? key) := by
  simp only [serve, onTable, record_poisoned, record_table]
  split <;> rfl

theorem answer_findUnique (field : UniqueField) :
    (store.serve family (.findUnique field)).1 =
      if store.poisoned then .error .poisoned else .ok (store.table.findUnique family field) := by
  simp only [serve, onTable, record_poisoned, record_table]
  split <;> rfl

omit [DecidableEq E] in
theorem reached_of_onTable {α : Type} {value : α}
    {step : Table K E → Except StoreError α × Table K E} (done : (store.onTable step).1 = .ok value) :
    store.poisoned = false := by
  unfold onTable at done
  split at done
  next => cases done
  next reached => simpa using reached

end Store

namespace FaultyStore

variable {store : FaultyStore K E} {call : StoreCall K E}

def admits (store : FaultyStore K E) : StoreCall K E → Bool
  | .insert _ => store.insertFaults == 0
  | .merge _ => store.mergeFaults == 0
  | _ => true

/-- How many of the next commits are going to fail, of those that replace a row or of those that insert
one. -/
def pending (store : FaultyStore K E) (replacing : Bool) : Nat :=
  if replacing then store.mergeFaults else store.insertFaults

@[simp] theorem admits_insert (store : FaultyStore K E) (entity : E) :
    store.admits (.insert entity) = (store.pending false == 0) := rfl

@[simp] theorem admits_merge (store : FaultyStore K E) (entity : E) :
    store.admits (.merge entity) = (store.pending true == 0) := rfl

def failOnce (store : FaultyStore K E) (replacing : Bool) : FaultyStore K E :=
  if replacing then { store with mergeFaults := store.mergeFaults - 1, injected := store.injected + 1 }
  else { store with insertFaults := store.insertFaults - 1, injected := store.injected + 1 }

theorem pending_failOnce (store : FaultyStore K E) (replacing : Bool) :
    (store.failOnce replacing).pending replacing = store.pending replacing - 1 := by
  cases replacing <;> rfl

theorem inner_failOnce (store : FaultyStore K E) (replacing : Bool) :
    (store.failOnce replacing).inner = store.inner := by
  cases replacing <;> rfl

variable [DecidableEq E]

theorem serve_of_admits (admitted : store.admits call = true) :
    store.serve family call = store.pass family call := by
  cases call with
  | insert entity =>
    have none : store.insertFaults = 0 := by simpa [admits] using admitted
    simp only [serve, none]
  | merge entity =>
    have none : store.mergeFaults = 0 := by simpa [admits] using admitted
    simp only [serve, none]
  | _ => rfl

theorem inner_of_not_admits (refused : store.admits call = false) :
    (store.serve family call).2.inner = store.inner := by
  cases call with
  | insert entity =>
    cases faults : store.insertFaults with
    | zero => simp [admits, faults] at refused
    | succ faults => simp only [serve, faults]
  | merge entity =>
    cases faults : store.mergeFaults with
    | zero => simp [admits, faults] at refused
    | succ faults => simp only [serve, faults]
  | _ => cases refused

theorem serve_poisoned :
    (store.serve family call).2.inner.poisoned = store.inner.poisoned := by
  cases admitted : store.admits call with
  | true =>
    rw [serve_of_admits admitted]
    exact Store.act_poisoned (.call call)
  | false => rw [inner_of_not_admits admitted]

theorem pending_serve_le {replacing : Bool} :
    (store.serve family call).2.pending replacing ≤ store.pending replacing := by
  unfold serve
  split
  next =>
    split
    next => exact Nat.le_refl _
    next faults => cases replacing <;> simp [pending, faults]
  next =>
    split
    next => exact Nat.le_refl _
    next faults => cases replacing <;> simp [pending, faults]
  next => exact Nat.le_refl _

theorem serve_insert_failing {entity : E} (failing : 0 < store.pending false) :
    store.serve family (.insert entity) = (.error (takenKey family), store.failOnce false) := by
  change 0 < store.insertFaults at failing
  cases faults : store.insertFaults with
  | zero => omega
  | succ faults => simp [serve, failOnce, faults]

theorem serve_merge_failing {entity : E} (failing : 0 < store.pending true) :
    store.serve family (.merge entity) = (.error (staleMerge family entity), store.failOnce true) := by
  change 0 < store.mergeFaults at failing
  cases faults : store.mergeFaults with
  | zero => omega
  | succ faults => simp [serve, failOnce, faults]

theorem reached_of_insert {entity row : E} (done : (store.serve family (.insert entity)).1 = .ok row) :
    store.inner.poisoned = false := by
  cases faults : store.insertFaults with
  | zero =>
    simp only [serve, faults] at done
    change ((store.inner.record (.insert entity)).onTable fun table => table.insert family entity).1 = _
      at done
    exact (store.inner.record_poisoned _).symm.trans (Store.reached_of_onTable done)
  | succ faults => simp [serve, faults] at done

theorem reached_of_merge {entity : E} {merged : Merged E}
    (done : (store.serve family (.merge entity)).1 = .ok merged) : store.inner.poisoned = false := by
  cases faults : store.mergeFaults with
  | zero =>
    simp only [serve, faults] at done
    change ((store.inner.record _).onKeyed family entity _ _).1 = _ at done
    unfold Store.onKeyed at done
    split at done
    next => cases done
    next => exact (store.inner.record_poisoned _).symm.trans (Store.reached_of_onTable done)
  | succ faults => simp [serve, faults] at done

end FaultyStore

end OptimisticStore
