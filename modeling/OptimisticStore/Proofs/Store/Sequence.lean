import Mathlib.Data.List.FinRange
import OptimisticStore.Proofs.Key.Typed
import OptimisticStore.Proofs.Store.Runs
/-!
Keys that a store makes from its running sequence.

Drawing a key passes over the numbers whose keys have rows. Different numbers make different keys, so it
passes over no more numbers than there are rows. Main statement: `Store.drawn_once`, by which a draw ends
with a key that has no row, or where the numbers that make keys end, and no run draws a key twice.
-/
namespace OptimisticStore

/-- A store's sequence makes a key of each number in a range, and no key of two numbers. -/
structure Key.Numbered (K : Type) [Key K] (range : Nat → Prop) : Prop where
  injective : ∀ {m n : Nat} {key : K}, Key.ofSequence m = some key → Key.ofSequence n = some key → m = n
  range : ∀ n, range n ↔ ∃ key : K, Key.ofSequence n = some key

namespace Key

theorem Numbered.of_read {K : Type} [Key K] {range : Nat → Prop} (number : K → Option Nat)
    (read : ∀ {n : Nat} {key : K}, ofSequence n = some key → number key = some n)
    (inRange : ∀ n, range n ↔ ∃ key : K, ofSequence n = some key) : Numbered K range where
  injective first second := Option.some.inj ((read first).symm.trans (read second))
  range := inRange

theorem numbered_int32 : Numbered Int32 fun n => (n : Int) ≤ Int32.maxValue.toInt := by
  apply Numbered.of_read fun key => some key.toInt.toNat
  · intro n key made
    simp only [ofSequence, Option.ite_none_right_eq_some, Option.some.injEq] at made
    obtain ⟨small, rfl⟩ := made
    have most : Int32.maxValue.toInt = 2147483647 := by decide
    rw [Int32.toInt_ofNat_of_lt (by omega)]
    rfl
  · intro n
    simp [ofSequence]

theorem numbered_int64 : Numbered Int64 fun n => (n : Int) ≤ Int64.maxValue.toInt := by
  apply Numbered.of_read fun key => some key.toInt.toNat
  · intro n key made
    simp only [ofSequence, Option.ite_none_right_eq_some, Option.some.injEq] at made
    obtain ⟨small, rfl⟩ := made
    have most : Int64.maxValue.toInt = 9223372036854775807 := by decide
    rw [Int64.toInt_ofNat_of_lt (by omega)]
    rfl
  · intro n
    simp [ofSequence]

theorem numbered_uint64 : Numbered UInt64 (· < UInt64.size) := by
  apply Numbered.of_read fun key => some key.toNat
  · intro n key made
    simp only [ofSequence, Option.ite_none_right_eq_some, Option.some.injEq] at made
    obtain ⟨small, rfl⟩ := made
    rw [UInt64.toNat_ofNat_of_lt' small]
  · intro n
    simp [ofSequence]

theorem numbered_string : Numbered String fun _ => True := by
  apply Numbered.of_read Text.readUnsigned
  · intro n key made
    obtain rfl := Option.some.inj made
    exact readUnsigned_toString n
  · intro n
    simp [ofSequence]

end Key

variable {K E : Type} [Key K] {family : Family K E} {range : Nat → Prop}

namespace Table

variable {table mid after : Table K E}

def Taken (table : Table K E) (n : Nat) : Prop :=
  ∃ (key : K) (row : E), Key.ofSequence n = some key ∧ table.rows.get? key = some row

/-- A draw uses up the numbers of taken keys and the first other one, of so many at most. It yields the key
of that one; if that one makes no key, which is so just outside the range of those that do, it is refused. -/
structure Draws (family : Family K E) (range : Nat → Prop) (steps : Nat) (table : Table K E)
    (result : Except StoreError K) (after : Table K E) : Prop where
  rows : after.rows = table.rows
  onward : table.sequence < after.sequence
  bound : after.sequence ≤ table.sequence + steps
  passed : ∀ n, table.sequence < n → n < after.sequence → table.Taken n
  fresh : ∀ key, result = .ok key ↔
    Key.ofSequence after.sequence = some key ∧ table.rows.get? key = none
  refused : ∀ cause, result = .error cause ↔ ¬ range after.sequence ∧ cause = noSequence family

section Draws

variable {steps : Nat} {result : Except StoreError K}

theorem Draws.of_first {key : K} (numbered : Key.Numbered K range)
    (made : Key.ofSequence (table.sequence + 1) = some key) (free : table.rows.get? key = none) :
    table.Draws family range (steps + 1) (.ok key) { table with sequence := table.sequence + 1 } where
  rows := rfl
  onward := Nat.lt_succ_self _
  bound := by dsimp only; omega
  passed n above below := absurd above (by dsimp only at below; omega)
  fresh other := by
    constructor
    · rintro ⟨⟩
      exact ⟨made, free⟩
    · rintro ⟨same, _⟩
      exact congrArg _ (Option.some.inj (made.symm.trans same))
  refused cause := ⟨nofun, fun outside => absurd ((numbered.range _).mpr ⟨key, made⟩) outside.1⟩

theorem Draws.of_ended (numbered : Key.Numbered K range)
    (none : (Key.ofSequence (table.sequence + 1) : Option K) = none) :
    table.Draws family range (steps + 1) (.error (noSequence family))
      { table with sequence := table.sequence + 1 } where
  rows := rfl
  onward := Nat.lt_succ_self _
  bound := by dsimp only; omega
  passed n above below := absurd above (by dsimp only at below; omega)
  fresh key := by
    refine ⟨nofun, fun made => ?_⟩
    cases none.symm.trans made.1
  refused cause := by
    have outside : ¬ range (table.sequence + 1) := by
      rw [numbered.range, none]
      rintro ⟨_, ⟨⟩⟩
    exact ⟨fun same => ⟨outside, (Except.error.inj same).symm⟩, fun cause => congrArg _ cause.2.symm⟩

theorem taken_of_first (here : table.Taken (table.sequence + 1)) {n : Nat} (above : table.sequence < n)
    (later : table.sequence + 1 < n → table.Taken n) : table.Taken n := by
  by_cases first : n = table.sequence + 1
  · exact first ▸ here
  · exact later (by omega)

theorem Draws.of_later (here : table.Taken (table.sequence + 1))
    (rest : Draws family range steps { table with sequence := table.sequence + 1 } result after) :
    table.Draws family range (steps + 1) result after := by
  obtain ⟨rows, onward, bound, passed, fresh, refused⟩ := rest
  dsimp only at onward bound
  refine ⟨rows, by omega, by omega, fun n above below => ?_, fresh, refused⟩
  exact taken_of_first here above fun later => passed n later below

theorem freshKeyWithin_cases (numbered : Key.Numbered K range)
    (drawn : freshKeyWithin family table steps = (result, after)) :
    table.Draws family range steps result after ∨
      ∀ n, table.sequence < n → n ≤ table.sequence + steps → table.Taken n := by
  induction steps generalizing table with
  | zero => exact .inr fun n above below => absurd above (by omega)
  | succ steps ih =>
    unfold freshKeyWithin at drawn
    cases made : (Key.ofSequence (table.sequence + 1) : Option K) with
    | none =>
      simp only [made, Prod.mk.injEq] at drawn
      obtain ⟨rfl, rfl⟩ := drawn
      exact .inl (.of_ended numbered made)
    | some key =>
      simp only [made] at drawn
      cases held : table.rows.contains key with
      | false =>
        simp only [held, Bool.false_eq_true, if_false, Prod.mk.injEq] at drawn
        obtain ⟨rfl, rfl⟩ := drawn
        exact .inl (.of_first numbered made (contains_eq_false_iff.mp held))
      | true =>
        simp only [held, if_true] at drawn
        obtain ⟨row, found⟩ := Option.isSome_iff_exists.mp held
        have here : table.Taken (table.sequence + 1) := ⟨key, row, made, found⟩
        rcases ih drawn with rest | taken
        · exact .inl (.of_later here rest)
        · refine .inr fun n above below => taken_of_first here above fun later => taken n later ?_
          dsimp only
          omega

end Draws

/-- As many numbers in a row as there are rows, and one more, are not all taken. -/
theorem exists_not_taken (numbered : Key.Numbered K range) (table : Table K E) :
    ∃ n, table.sequence < n ∧ n ≤ table.sequence + (table.rows.size + 1) ∧ ¬ table.Taken n := by
  by_contra none
  have taken : ∀ i : Fin (table.rows.size + 1), table.Taken (table.sequence + 1 + i) := by
    intro i
    by_contra free
    exact none ⟨_, by omega, by omega, free⟩
  choose keyAt row made found using taken
  have distinct : (List.ofFn keyAt).Nodup := by
    rw [List.nodup_ofFn]
    intro i j same
    have numbers := numbered.injective (made i) (same ▸ made j)
    exact Fin.ext (by omega)
  have within : List.ofFn keyAt ⊆ table.rows.keys := by
    intro key among
    obtain ⟨i, rfl⟩ := List.mem_ofFn.mp among
    exact SortedMap.mem_keys_iff.mpr ⟨row i, found i⟩
  have many := distinct.length_le_of_subset within
  rw [List.length_ofFn, SortedMap.keys, List.length_map] at many
  exact absurd many (Nat.not_succ_le_self _)

/-- A draw is not cut short: it ends where drawing on and on would, at most one number past as many as
there are rows. -/
theorem freshKey_draws (family : Family K E) (numbered : Key.Numbered K range) (table : Table K E) :
    table.Draws family range (table.rows.size + 1) (freshKey family table).1
      (freshKey family table).2 := by
  obtain ⟨n, above, below, free⟩ := exists_not_taken numbered table
  have run : freshKeyWithin family table (table.rows.size + 1) =
      ((freshKey family table).1, (freshKey family table).2) := rfl
  rcases freshKeyWithin_cases numbered run with drawn | taken
  · exact drawn
  · exact absurd (taken n above below) free

section Handouts

variable (family)

def drawn (table : Table K E) (entity : E) : List K :=
  match family.key entity, (freshKey family table).1 with
  | none, .ok key => [key]
  | _, _ => []

def drawnAll (table : Table K E) : List E → List K
  | [] => []
  | entity :: rest => table.drawn family entity ++
      match table.insert family entity with
      | (.ok _, after) => after.drawnAll rest
      | (.error _, _) => []

variable {family}

/-- The keys were made from numbers that the sequence came to on the way, none of them twice. -/
structure Spends (before : Table K E) (keys : List K) (after : Table K E) : Prop where
  onward : before.sequence ≤ after.sequence
  numbers : ∀ key ∈ keys, ∃ n, before.sequence < n ∧ n ≤ after.sequence ∧ Key.ofSequence n = some key
  nodup : keys.Nodup

theorem Spends.nothing (same : after.sequence = table.sequence) : table.Spends [] after :=
  ⟨same.ge, nofun, .nil⟩

theorem Spends.trans (numbered : Key.Numbered K range) {keys later : List K}
    (first : table.Spends keys mid) (second : mid.Spends later after) :
    table.Spends (keys ++ later) after := by
  refine ⟨first.onward.trans second.onward, fun key among => ?_, ?_⟩
  · rcases List.mem_append.mp among with among | among
    · obtain ⟨n, above, below, made⟩ := first.numbers key among
      exact ⟨n, above, below.trans second.onward, made⟩
    · obtain ⟨n, above, below, made⟩ := second.numbers key among
      exact ⟨n, first.onward.trans_lt above, below, made⟩
  · refine List.nodup_append.mpr ⟨first.nodup, second.nodup, ?_⟩
    rintro key among _ among' rfl
    obtain ⟨m, _, below, made⟩ := first.numbers key among
    obtain ⟨n, above, _, made'⟩ := second.numbers key among'
    have same : m = n := numbered.injective made made'
    omega

theorem insertAt_sequence (key : K) (entity : E) :
    (insertAt family table key entity).2.sequence = table.sequence := by
  unfold insertAt
  split
  · rfl
  · split
    · rfl
    · rfl

theorem insert_spends (family : Family K E) (numbered : Key.Numbered K range) (table : Table K E)
    (entity : E) :
    table.Spends (table.drawn family entity) (table.insert family entity).2 := by
  unfold drawn insert
  cases family.key entity with
  | some key => exact .nothing (insertAt_sequence key entity)
  | none =>
    have draws := freshKey_draws family numbered table
    cases drawn : freshKey family table with
    | mk result after =>
      rw [drawn] at draws
      cases result with
      | error cause => exact ⟨draws.onward.le, nofun, .nil⟩
      | ok key =>
        have made := ((draws.fresh key).mp rfl).1
        have kept : (insertAt family after key (family.withKey key entity)).2.sequence = after.sequence :=
          insertAt_sequence key _
        refine ⟨?_, fun other among => ?_, List.nodup_singleton key⟩
        · exact draws.onward.le.trans kept.ge
        · obtain rfl := List.mem_singleton.mp among
          exact ⟨_, draws.onward, kept.ge, made⟩

theorem seed_spends (numbered : Key.Numbered K range) (table : Table K E) (entities : List E) :
    table.Spends (table.drawnAll family entities) (table.seed family entities).2 := by
  induction entities generalizing table with
  | nil => exact .nothing rfl
  | cons entity rest ih =>
    have first := insert_spends family numbered table entity
    cases inserted : table.insert family entity with
    | mk answer mid =>
      rw [inserted] at first
      cases answer with
      | error cause =>
        have ended := first.trans numbered (.nothing rfl)
        simpa only [drawnAll, seed, inserted] using ended
      | ok row =>
        have later := first.trans numbered (ih mid)
        cases seeded : mid.seed family rest with
        | mk result last =>
          rw [seeded] at later
          cases result with
          | error cause => simpa only [drawnAll, seed, inserted, seeded] using later
          | ok rows => simpa only [drawnAll, seed, inserted, seeded] using later

end Handouts

theorem insertAt_eq_ok [DecidableEq K] {key : K} {entity row : E}
    (done : insertAt family table key entity = (.ok row, after)) :
    table.rows.get? key = none ∧ after.rows.get? key = some row := by
  unfold insertAt at done
  split at done
  next => cases (Prod.mk.inj done).1
  next free =>
    split at done
    next => cases (Prod.mk.inj done).1
    next =>
      obtain ⟨same, rfl⟩ := Prod.mk.inj done
      obtain rfl := Except.ok.inj same
      exact ⟨contains_eq_false_iff.mp (by simpa using free), SortedMap.get?_insert_self ..⟩

theorem drawn_of_inserted [DecidableEq K] {entity row : E} (unkeyed : family.key entity = none)
    (done : table.insert family entity = (.ok row, after)) :
    ∃ key, table.drawn family entity = [key] ∧ table.rows.get? key = none ∧
      after.rows.get? key = some row := by
  unfold drawn
  simp only [insert, unkeyed] at done ⊢
  cases draw : freshKey family table with
  | mk result mid =>
    rw [draw] at done
    cases result with
    | error cause => cases (Prod.mk.inj done).1
    | ok key =>
      obtain ⟨_, stands⟩ := insertAt_eq_ok done
      exact ⟨key, rfl, (freshKeyWithin_spec family draw).2 key rfl, stands⟩

theorem merge_sequence [DecidableEq E] (entity : E) :
    (table.merge family entity).2.sequence = table.sequence := by
  unfold merge
  repeat' split
  all_goals rfl

theorem delete_sequence (entity : E) : (table.delete family entity).2.sequence = table.sequence := by
  unfold delete
  repeat' split
  all_goals rfl

end Table

namespace Store

variable [DecidableEq E] (family)

def drawnBy (store : Store K E) : Action K E → List K
  | .call (.insert entity) => if store.poisoned then [] else store.table.drawn family entity
  | .seed entities => if store.poisoned then [] else store.table.drawnAll family entities
  | _ => []

def drawn (store : Store K E) : List (Action K E) → List K
  | [] => []
  | action :: rest => store.drawnBy family action ++ (store.act family action).drawn rest

variable {family} {store : Store K E}

omit [DecidableEq E] in
theorem onTable_spends {α : Type} (step : Table K E → Except StoreError α × Table K E) {keys : List K}
    (spends : store.table.Spends keys (step store.table).2) :
    store.table.Spends (if store.poisoned then [] else keys) (store.onTable step).2.table := by
  unfold onTable
  split
  · exact .nothing rfl
  · exact spends

omit [DecidableEq E] in
theorem onTable_sequence {α : Type} {step : Table K E → Except StoreError α × Table K E}
    (keeps : ∀ table, (step table).2.sequence = table.sequence) :
    (store.onTable step).2.table.sequence = store.table.sequence := by
  unfold onTable
  split
  · rfl
  · exact keeps store.table

omit [DecidableEq E] in
theorem onKeyed_sequence {α : Type} {entity : E} {operation : String}
    {step : Table K E → Except StoreError α × Table K E}
    (keeps : ∀ table, (step table).2.sequence = table.sequence) :
    (store.onKeyed family entity operation step).2.table.sequence = store.table.sequence := by
  unfold onKeyed
  split
  · rfl
  · exact onTable_sequence keeps

theorem act_spends (numbered : Key.Numbered K range) (action : Action K E) :
    store.table.Spends (store.drawnBy family action) (store.act family action).table := by
  cases action with
  | call call =>
    have recorded : (store.record call).table = store.table := record_table store call
    rw [← recorded]
    cases call with
    | insert entity =>
      have spends := Table.insert_spends family numbered (store.record (.insert entity)).table entity
      have served := onTable_spends (fun table => table.insert family entity) spends
      rw [record_poisoned, recorded] at served
      exact recorded ▸ served
    | fetch | fetchMany | findUnique => exact .nothing (onTable_sequence fun _ => rfl)
    | merge => exact .nothing (onKeyed_sequence fun _ => Table.merge_sequence _)
    | delete => exact .nothing (onKeyed_sequence fun _ => Table.delete_sequence _)
    | inTransaction => exact .nothing (congrArg Table.sequence recorded.symm)
  | seed entities => exact onTable_spends _ (Table.seed_spends numbered store.table entities)
  | clear =>
    rcases clear_cases store with same | emptied
    · exact .nothing (congrArg Table.sequence same)
    · exact .nothing ((congrArg Table.sequence emptied).trans rfl)

theorem after_spends (numbered : Key.Numbered K range) (actions : List (Action K E)) :
    store.table.Spends (store.drawn family actions) (store.after family actions).table := by
  induction actions generalizing store with
  | nil => exact .nothing rfl
  | cons action rest ih => exact (act_spends numbered action).trans numbered ih

/-- A run draws no key twice, whatever becomes of the records and rows that it was drawn for, and every
draw comes to an end by itself. The four kinds of keys that a store counts out are numbered. -/
theorem drawn_once [DecidableEq K] (numbered : Key.Numbered K range) (store : Store K E)
    (actions : List (Action K E)) :
    (store.drawn family actions).Nodup ∧
      (∀ table : Table K E, table.Draws family range (table.rows.size + 1)
        (Table.freshKey family table).1 (Table.freshKey family table).2) ∧
      (∀ (table after : Table K E) (entity row : E), family.key entity = none →
        table.insert family entity = (.ok row, after) →
        ∃ key, table.drawn family entity = [key] ∧ table.rows.get? key = none ∧
          after.rows.get? key = some row) ∧
      Key.Numbered Int32 (fun n => (n : Int) ≤ Int32.maxValue.toInt) ∧
      Key.Numbered Int64 (fun n => (n : Int) ≤ Int64.maxValue.toInt) ∧
      Key.Numbered UInt64 (· < UInt64.size) ∧ Key.Numbered String fun _ => True :=
  ⟨(after_spends numbered actions).nodup, Table.freshKey_draws family numbered,
    fun _ _ _ _ => Table.drawn_of_inserted, Key.numbered_int32, Key.numbered_int64,
    Key.numbered_uint64, Key.numbered_string⟩

def turnover : List (Action Int64 Account) :=
  [.call (.insert (.fresh "ann" 10)),
    .call (.insert { Account.fresh "ben" 20 with id := some 2 }),
    .call (.insert (.fresh "cleo" 30)),
    .call (.insert (.fresh "ann" 40)),
    .call (.delete { Account.fresh "ann" 10 with id := some 1, version := 1 }),
    .seed [.fresh "ann" 50, .fresh "dora" 60],
    .clear,
    .call (.insert (.fresh "ann" 70))]

theorem drawn_once_turnover : Key.Numbered Int64 (fun n => (n : Int) ≤ Int64.maxValue.toInt) ∧
    (({} : Store Int64 Account).drawn Account.family turnover).Nodup ∧
    ({} : Store Int64 Account).drawn Account.family turnover = [1, 3, 4, 5, 6, 7] ∧
    (({} : Store Int64 Account).after Account.family turnover).table.rows.keys = [7] :=
  ⟨Key.numbered_int64, (drawn_once Key.numbered_int64 {} turnover).1, by decide +kernel,
    by decide +kernel⟩

end Store

end OptimisticStore
