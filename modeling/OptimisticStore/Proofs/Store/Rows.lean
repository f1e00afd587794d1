import Mathlib.Tactic.ByContra
import OptimisticStore.Proofs.Ordered.Map
import OptimisticStore.Store.Faulty
/-!
What one call to a store does to its rows.

Main statements: `FaultyStore.serve_effect`, by which a call leaves the rows alone or is one of the three
writes of `Table.Writes`, and `Table.checkUnique_eq_ok_iff`, by which the check made at a write accepts
exactly the records whose unique values no other row holds.
-/
namespace OptimisticStore

open Std

variable {K E : Type} [Key K] (family : Family K E)

namespace Table

def Keyed (table : Table K E) : Prop :=
  ∀ key row, table.rows.get? key = some row → family.key row = some key

/-- No row of a key other than `key` holds a unique value of `entity`. -/
def Unshared (table : Table K E) (key : K) (entity : E) : Prop :=
  ∀ other row, table.rows.get? other = some row →
    ∀ field ∈ family.uniqueFields entity, field ∈ family.uniqueFields row → other = key

def Distinct (table : Table K E) : Prop :=
  ∀ key row, table.rows.get? key = some row → table.Unshared family key row

omit [Key K] in
theorem sharedField?_eq_none_iff {fields : List UniqueField} {other : E} :
    sharedField? family fields other = none ↔
      ∀ field ∈ fields, field ∉ family.uniqueFields other := by
  simp [sharedField?]

theorem checkUnique_eq_ok_iff {table : Table K E} {key : K} {entity : E} :
    checkUnique family table key entity = .ok () ↔ table.Unshared family key entity := by
  unfold checkUnique
  dsimp only
  split
  next free =>
    rw [List.findSome?_eq_none_iff] at free
    refine ⟨fun _ other row held field within shared => ?_, fun _ => rfl⟩
    by_contra apart
    have clear := free (other, row) (SortedMap.mem_entries_iff.mpr held)
    simp only [LawfulEqOrd.compare_eq_iff_eq, apart, if_false, sharedField?_eq_none_iff] at clear
    exact clear field within shared
  next clash =>
    obtain ⟨⟨other, row⟩, within, shares⟩ := List.exists_of_findSome?_eq_some clash
    have held := SortedMap.mem_entries_iff.mp within
    by_cases same : other = key
    · simp [same] at shares
    · simp only [LawfulEqOrd.compare_eq_iff_eq, same, if_false] at shares
      constructor
      · intro accepted
        cases accepted
      · intro unshared
        have clear := (sharedField?_eq_none_iff family).mpr fun field within shared =>
          same (unshared other row held field within shared)
        rw [clear] at shares
        cases shares

theorem holds_of_findUnique {table : Table K E} {field : UniqueField} {owner : K}
    (found : table.findUnique family field = some owner) :
    ∃ row, table.rows.get? owner = some row ∧ field ∈ family.uniqueFields row := by
  obtain ⟨⟨_, row⟩, hit, rfl⟩ := Option.map_eq_some_iff.mp found
  refine ⟨row, SortedMap.mem_entries_iff.mp (List.mem_of_find?_eq_some hit), ?_⟩
  simpa using List.find?_some hit

theorem not_held_of_findUnique {table : Table K E} {field : UniqueField}
    (found : table.findUnique family field = none) {key : K} {row : E}
    (held : table.rows.get? key = some row) : field ∉ family.uniqueFields row := by
  have missing := Option.map_eq_none_iff.mp found
  rw [List.find?_eq_none] at missing
  simpa using missing (key, row) (SortedMap.mem_entries_iff.mpr held)

theorem get?_select [DecidableEq K] {table : Table K E} {keys : List K} {key : K}
    (asked : key ∈ keys) : (table.select keys).get? key = table.rows.get? key := by
  have bound : ∀ row, (key, row) ∈ keys.filterMap (fun key => (table.rows.get? key).map (key, ·)) ↔
      table.rows.get? key = some row := by
    intro row
    simp only [List.mem_filterMap, Option.map_eq_some_iff, Prod.mk.injEq]
    constructor
    · rintro ⟨_, _, _, held, rfl, rfl⟩
      exact held
    · intro held
      exact ⟨key, asked, row, held, rfl, rfl⟩
  cases held : table.rows.get? key with
  | some row =>
    refine SortedMap.get?_insertAll_of_agree ((bound row).mpr held) fun other among => ?_
    exact Option.some.inj (((bound other).mp among).symm.trans held)
  | none =>
    refine SortedMap.get?_insertAll_eq_none_iff.mpr ⟨fun row among => ?_, rfl⟩
    have there := (bound row).mp among
    simp [held] at there

theorem contains_eq_false_iff {table : Table K E} {key : K} :
    table.rows.contains key = false ↔ table.rows.get? key = none := by
  simp [SortedMap.contains]

theorem freshKeyWithin_spec {table after : Table K E} {steps : Nat} {result : Except StoreError K}
    (drawn : freshKeyWithin family table steps = (result, after)) :
    after.rows = table.rows ∧ ∀ key, result = .ok key → table.rows.get? key = none := by
  induction steps generalizing table with
  | zero =>
    simp only [freshKeyWithin, Prod.mk.injEq] at drawn
    obtain ⟨rfl, rfl⟩ := drawn
    simp
  | succ steps ih =>
    unfold freshKeyWithin at drawn
    cases made : (Key.ofSequence (table.sequence + 1) : Option K) with
    | none =>
      simp only [made, Prod.mk.injEq] at drawn
      obtain ⟨rfl, rfl⟩ := drawn
      simp
    | some key =>
      simp only [made] at drawn
      cases taken : table.rows.contains key with
      | true =>
        simp only [taken, if_true] at drawn
        have rest := ih drawn
        exact rest
      | false =>
        simp only [taken, Bool.false_eq_true, if_false, Prod.mk.injEq] at drawn
        obtain ⟨rfl, rfl⟩ := drawn
        simpa using contains_eq_false_iff.mp taken

inductive Writes (table : Table K E) : (call : StoreCall K E) → call.Answer → Table K E → Prop where
  | insert {entity held : E} {key : K} {after : Table K E}
      (own : family.key entity = some key ∧ held = entity ∨
        family.key entity = none ∧ held = family.withKey key entity)
      (vacant : table.rows.get? key = none) (unshared : table.Unshared family key held)
      (rows : after.rows = table.rows.insert key (firstVersion family held)) :
      Writes table (.insert entity) (.ok (firstVersion family held)) after
  | merge {entity current : E} {key : K} {after : Table K E} (own : family.key entity = some key)
      (found : table.rows.get? key = some current)
      (version : family.version current = family.version entity)
      (unshared : table.Unshared family key entity)
      (rows : after.rows = table.rows.insert key (nextVersion family current entity)) :
      Writes table (.merge entity) (.ok ⟨nextVersion family current entity, true⟩) after
  | delete {entity current : E} {key : K} {after : Table K E} (own : family.key entity = some key)
      (found : table.rows.get? key = some current)
      (version : family.version current = family.version entity)
      (rows : after.rows = table.rows.erase key) :
      Writes table (.delete entity) (.ok ()) after

end Table

def StoreCall.wrote : (call : StoreCall K E) → call.Answer → Bool
  | .insert _, .ok _ => true
  | .merge _, .ok merged => merged.changed
  | .delete _, .ok _ => true
  | _, _ => false

namespace Table

def Effect (table : Table K E) (call : StoreCall K E) (answer : call.Answer) (after : Table K E) :
    Prop :=
  call.wrote answer = true ∧ Writes family table call answer after ∨
    call.wrote answer = false ∧ after.rows = table.rows

variable {family} in
theorem Effect.writes {table after : Table K E} {call : StoreCall K E} {answer : call.Answer}
    (effect : table.Effect family call answer after) (wrote : call.wrote answer = true) :
    table.Writes family call answer after := by
  rcases effect with ⟨_, writes⟩ | ⟨quiet, _⟩
  · exact writes
  · exact absurd (quiet.symm.trans wrote) (by simp)

theorem insertAt_effect {table before after : Table K E} {entity held : E} {key : K}
    {answer : Except StoreError E}
    (own : family.key entity = some key ∧ held = entity ∨
      family.key entity = none ∧ held = family.withKey key entity)
    (rows : before.rows = table.rows) (run : insertAt family before key held = (answer, after)) :
    table.Effect family (.insert entity) answer after := by
  unfold insertAt at run
  cases taken : before.rows.contains key with
  | true =>
    simp only [taken, if_true, Prod.mk.injEq] at run
    obtain ⟨rfl, rfl⟩ := run
    exact .inr ⟨rfl, rows⟩
  | false =>
    cases verdict : checkUnique family before key held with
    | error cause =>
      simp only [taken, verdict, Bool.false_eq_true, if_false, Prod.mk.injEq] at run
      obtain ⟨rfl, rfl⟩ := run
      exact .inr ⟨rfl, rows⟩
    | ok =>
      simp only [taken, verdict, Bool.false_eq_true, if_false, Prod.mk.injEq] at run
      obtain ⟨rfl, rfl⟩ := run
      have vacant := contains_eq_false_iff.mp taken
      have unshared := (checkUnique_eq_ok_iff family).mp verdict
      unfold Unshared at unshared
      rw [rows] at vacant unshared
      exact .inl ⟨rfl, .insert own vacant unshared (by simp [rows])⟩

theorem insert_effect {table after : Table K E} {entity : E} {answer : Except StoreError E}
    (run : insert family table entity = (answer, after)) :
    table.Effect family (.insert entity) answer after := by
  unfold insert at run
  cases own : family.key entity with
  | some key =>
    simp only [own] at run
    exact insertAt_effect family (.inl ⟨own, rfl⟩) rfl run
  | none =>
    cases drawn : freshKey family table with
    | mk result fresh =>
      have kept := (freshKeyWithin_spec family drawn).1
      cases result with
      | error cause =>
        simp only [own, drawn, Prod.mk.injEq] at run
        obtain ⟨rfl, rfl⟩ := run
        exact .inr ⟨rfl, kept⟩
      | ok key =>
        simp only [own, drawn] at run
        exact insertAt_effect family (.inr ⟨own, rfl⟩) kept run

theorem merge_effect [DecidableEq E] {table after : Table K E} {entity : E}
    {answer : Except StoreError (Merged E)} (run : merge family table entity = (answer, after)) :
    table.Effect family (.merge entity) answer after := by
  unfold merge at run
  cases own : family.key entity with
  | none =>
    simp only [own, Prod.mk.injEq] at run
    obtain ⟨rfl, rfl⟩ := run
    exact .inr ⟨rfl, rfl⟩
  | some key =>
    cases found : table.rows.get? key with
    | none =>
      simp only [own, found, Prod.mk.injEq] at run
      obtain ⟨rfl, rfl⟩ := run
      exact .inr ⟨rfl, rfl⟩
    | some current =>
      simp only [own, found] at run
      split at run
      next =>
        obtain ⟨rfl, rfl⟩ := Prod.mk.inj run
        exact .inr ⟨rfl, rfl⟩
      next =>
        split at run
        next =>
          obtain ⟨rfl, rfl⟩ := Prod.mk.inj run
          exact .inr ⟨rfl, rfl⟩
        next version =>
          cases verdict : checkUnique family table key entity with
          | error cause =>
            simp only [verdict, Prod.mk.injEq] at run
            obtain ⟨rfl, rfl⟩ := run
            exact .inr ⟨rfl, rfl⟩
          | ok =>
            simp only [verdict, Prod.mk.injEq] at run
            obtain ⟨rfl, rfl⟩ := run
            exact .inl ⟨rfl, .merge own found (not_not.mp version)
              ((checkUnique_eq_ok_iff family).mp verdict) rfl⟩

theorem delete_effect {table after : Table K E} {entity : E} {answer : Except StoreError Unit}
    (run : delete family table entity = (answer, after)) :
    table.Effect family (.delete entity) answer after := by
  unfold delete at run
  cases own : family.key entity with
  | none =>
    simp only [own, Prod.mk.injEq] at run
    obtain ⟨rfl, rfl⟩ := run
    exact .inr ⟨rfl, rfl⟩
  | some key =>
    cases found : table.rows.get? key with
    | none =>
      simp only [own, found, Prod.mk.injEq] at run
      obtain ⟨rfl, rfl⟩ := run
      exact .inr ⟨rfl, rfl⟩
    | some current =>
      simp only [own, found] at run
      split at run
      next =>
        obtain ⟨rfl, rfl⟩ := Prod.mk.inj run
        exact .inr ⟨rfl, rfl⟩
      next version =>
        obtain ⟨rfl, rfl⟩ := Prod.mk.inj run
        exact .inl ⟨rfl, .delete own found (not_not.mp version) rfl⟩

end Table

namespace Store

@[simp] theorem record_table (store : Store K E) (call : StoreCall K E) :
    (store.record call).table = store.table := by
  unfold record
  split <;> rfl

theorem onTable_cases {α : Type} {store after : Store K E} {answer : Except StoreError α}
    {step : Table K E → Except StoreError α × Table K E}
    (run : store.onTable step = (answer, after)) :
    answer = .error .poisoned ∧ after.table = store.table ∨
      step store.table = (answer, after.table) := by
  unfold onTable at run
  split at run
  next =>
    obtain ⟨rfl, rfl⟩ := Prod.mk.inj run
    exact .inl ⟨rfl, rfl⟩
  next =>
    obtain ⟨rfl, rfl⟩ := Prod.mk.inj run
    exact .inr rfl

theorem onKeyed_cases {α : Type} {store after : Store K E} {entity : E} {operation : String}
    {answer : Except StoreError α} {step : Table K E → Except StoreError α × Table K E}
    (run : store.onKeyed family entity operation step = (answer, after)) :
    (∃ cause, answer = .error cause) ∧ after.table = store.table ∨
      step store.table = (answer, after.table) := by
  unfold onKeyed at run
  split at run
  next =>
    obtain ⟨rfl, rfl⟩ := Prod.mk.inj run
    exact .inl ⟨⟨_, rfl⟩, rfl⟩
  next =>
    rcases onTable_cases run with ⟨refused, kept⟩ | done
    · exact .inl ⟨⟨_, refused⟩, kept⟩
    · exact .inr done

theorem onTable_read {α : Type} {store after : Store K E} {read : Table K E → α}
    {answer : Except StoreError α}
    (run : (store.onTable fun table => (.ok (read table), table)) = (answer, after)) :
    after.table = store.table ∧ ∀ value, answer = .ok value → value = read store.table := by
  rcases onTable_cases run with ⟨rfl, kept⟩ | done
  · exact ⟨kept, by simp⟩
  · obtain ⟨rfl, kept⟩ := Prod.mk.inj done
    exact ⟨kept.symm, by simp [eq_comm]⟩

theorem serve_fetch [DecidableEq E] {store after : Store K E} {key : K}
    {answer : Except StoreError (Option E)}
    (served : store.serve family (.fetch key) = (answer, after)) :
    after.table = store.table ∧ ∀ found, answer = .ok found → found = store.table.rows.get? key := by
  simp only [serve] at served
  simpa using onTable_read served

theorem serve_fetchMany [DecidableEq E] {store after : Store K E} {keys : SortedSet K}
    {answer : Except StoreError (SortedMap K E)}
    (served : store.serve family (.fetchMany keys) = (answer, after)) :
    after.table = store.table ∧
      ∀ found, answer = .ok found → found = store.table.select keys.toList := by
  simp only [serve] at served
  simpa using onTable_read served

theorem serve_findUnique [DecidableEq E] {store after : Store K E} {field : UniqueField}
    {answer : Except StoreError (Option K)}
    (served : store.serve family (.findUnique field) = (answer, after)) :
    after.table = store.table ∧
      ∀ owner, answer = .ok owner → owner = store.table.findUnique family field := by
  simp only [serve] at served
  simpa using onTable_read served

theorem serve_insert [DecidableEq E] {store after : Store K E} {entity row : E}
    (served : store.serve family (.insert entity) = (.ok row, after)) :
    store.table.insert family entity = (.ok row, after.table) := by
  simp only [serve] at served
  rcases onTable_cases served with ⟨refused, _⟩ | done
  · simp at refused
  · simpa using done

theorem serve_merge [DecidableEq E] {store after : Store K E} {entity : E} {merged : Merged E}
    (served : store.serve family (.merge entity) = (.ok merged, after)) :
    store.table.merge family entity = (.ok merged, after.table) := by
  simp only [serve] at served
  rcases onKeyed_cases family served with ⟨⟨_, refused⟩, _⟩ | done
  · simp at refused
  · simpa using done

theorem serve_effect [DecidableEq E] {store after : Store K E} {call : StoreCall K E}
    {answer : call.Answer} (served : store.serve family call = (answer, after)) :
    store.table.Effect family call answer after.table := by
  cases call with
  | fetch key => exact .inr ⟨rfl, by rw [(serve_fetch family served).1]⟩
  | fetchMany keys => exact .inr ⟨rfl, by rw [(serve_fetchMany family served).1]⟩
  | insert entity =>
    simp only [serve] at served
    rcases onTable_cases served with ⟨rfl, kept⟩ | done
    · exact .inr ⟨rfl, by simp [kept]⟩
    · simpa using Table.insert_effect family done
  | merge entity =>
    simp only [serve] at served
    rcases onKeyed_cases family served with ⟨⟨_, rfl⟩, kept⟩ | done
    · exact .inr ⟨rfl, by simp [kept]⟩
    · simpa using Table.merge_effect family done
  | delete entity =>
    simp only [serve] at served
    rcases onKeyed_cases family served with ⟨⟨_, rfl⟩, kept⟩ | done
    · exact .inr ⟨rfl, by simp [kept]⟩
    · simpa using Table.delete_effect family done
  | findUnique field => exact .inr ⟨rfl, by rw [(serve_findUnique family served).1]⟩
  | inTransaction =>
    obtain ⟨rfl, rfl⟩ := Prod.mk.inj served
    exact .inr ⟨rfl, rfl⟩

end Store

namespace FaultyStore

theorem serve_effect [DecidableEq E] {store after : FaultyStore K E} {call : StoreCall K E}
    {answer : call.Answer} (served : store.serve family call = (answer, after)) :
    store.inner.table.Effect family call answer after.inner.table := by
  have passed {call : StoreCall K E} {answer : call.Answer}
      (served : store.pass family call = (answer, after)) :
      store.inner.table.Effect family call answer after.inner.table := by
    obtain ⟨rfl, rfl⟩ := Prod.mk.inj served
    exact Store.serve_effect family rfl
  unfold serve at served
  split at served
  next =>
    split at served
    next => exact passed served
    next =>
      obtain ⟨rfl, rfl⟩ := Prod.mk.inj served
      exact .inr ⟨rfl, rfl⟩
  next =>
    split at served
    next => exact passed served
    next =>
      obtain ⟨rfl, rfl⟩ := Prod.mk.inj served
      exact .inr ⟨rfl, rfl⟩
  next => exact passed served

theorem serve_insert [DecidableEq E] {store after : FaultyStore K E} {entity row : E}
    (served : store.serve family (.insert entity) = (.ok row, after)) :
    store.inner.table.insert family entity = (.ok row, after.inner.table) := by
  cases faults : store.insertFaults with
  | zero =>
    simp only [serve, faults] at served
    obtain ⟨same, rfl⟩ := Prod.mk.inj served
    exact Store.serve_insert family (Prod.ext same rfl)
  | succ faults => simp [serve, faults] at served

theorem serve_merge [DecidableEq E] {store after : FaultyStore K E} {entity : E} {merged : Merged E}
    (served : store.serve family (.merge entity) = (.ok merged, after)) :
    store.inner.table.merge family entity = (.ok merged, after.inner.table) := by
  cases faults : store.mergeFaults with
  | zero =>
    simp only [serve, faults] at served
    obtain ⟨same, rfl⟩ := Prod.mk.inj served
    exact Store.serve_merge family (Prod.ext same rfl)
  | succ faults => simp [serve, faults] at served

theorem serve_fetch [DecidableEq E] {store after : FaultyStore K E} {key : K} {found : Option E}
    (served : store.serve family (.fetch key) = (.ok found, after)) :
    found = store.inner.table.rows.get? key := by
  obtain ⟨same, rfl⟩ := Prod.mk.inj served
  exact (Store.serve_fetch family (Prod.ext same rfl)).2 found rfl

theorem serve_fetchMany [DecidableEq E] {store after : FaultyStore K E} {keys : SortedSet K}
    {found : SortedMap K E} (served : store.serve family (.fetchMany keys) = (.ok found, after)) :
    found = store.inner.table.select keys.toList := by
  obtain ⟨same, rfl⟩ := Prod.mk.inj served
  exact (Store.serve_fetchMany family (Prod.ext same rfl)).2 found rfl

theorem serve_findUnique [DecidableEq E] {store after : FaultyStore K E} {field : UniqueField}
    {owner : Option K} (served : store.serve family (.findUnique field) = (.ok owner, after)) :
    owner = store.inner.table.findUnique family field := by
  obtain ⟨same, rfl⟩ := Prod.mk.inj served
  exact (Store.serve_findUnique family (Prod.ext same rfl)).2 owner rfl

end FaultyStore

end OptimisticStore
