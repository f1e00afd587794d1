import OptimisticStore.Ordered.Set
import OptimisticStore.Store.Table
/-!
A store: a table of rows behind a lock, with counts of the calls made to it.

`StoreCall` lists the calls that caches and writers make; each is one atomic step, `Store.serve`. A
store whose lock was poisoned refuses every call that needs the rows, after counting it.
-/
namespace OptimisticStore

inductive StoreCall (K E : Type) [Key K] where
  | fetch (key : K)
  | fetchMany (keys : SortedSet K)
  | insert (entity : E)
  | merge (entity : E)
  | delete (entity : E)
  | findUnique (field : UniqueField)
  | inTransaction

abbrev StoreCall.Answer {K E : Type} [Key K] : StoreCall K E → Type
  | .fetch _ => Except StoreError (Option E)
  | .fetchMany _ => Except StoreError (SortedMap K E)
  | .insert _ => Except StoreError E
  | .merge _ => Except StoreError (Merged E)
  | .delete _ => Except StoreError Unit
  | .findUnique _ => Except StoreError (Option K)
  | .inTransaction => Bool

def StoreCall.name {K E : Type} [Key K] : StoreCall K E → String
  | .fetch _ => "fetch"
  | .fetchMany _ => "fetchMany"
  | .insert _ => "insert"
  | .merge _ => "merge"
  | .delete _ => "delete"
  | .findUnique _ => "findUnique"
  | .inTransaction => "inTransaction"

/-- The answer of a store that refuses a call; whether a transaction is open is not refused. -/
def StoreCall.refuse {K E : Type} [Key K] (cause : StoreError) : (call : StoreCall K E) → call.Answer
  | .inTransaction => false
  | .fetch _ | .fetchMany _ | .insert _ | .merge _ | .delete _ | .findUnique _ => Except.error cause

/-- How often each kind of call was made, and the key sets of the bulk reads in call order. -/
structure CallCounts (K : Type) where
  fetch : Nat := 0
  fetchMany : Nat := 0
  insert : Nat := 0
  merge : Nat := 0
  delete : Nat := 0
  findUnique : Nat := 0
  batches : List (List K) := []
deriving DecidableEq, Inhabited

namespace CallCounts

variable {K : Type}

def reads (counts : CallCounts K) : Nat := counts.fetch + counts.fetchMany

def writes (counts : CallCounts K) : Nat := counts.insert + counts.merge + counts.delete

def record {E : Type} [Key K] (counts : CallCounts K) : StoreCall K E → CallCounts K
  | .fetch _ => { counts with fetch := counts.fetch + 1 }
  | .fetchMany keys => { counts with
      fetchMany := counts.fetchMany + 1
      batches := counts.batches ++ [keys.toList] }
  | .insert _ => { counts with insert := counts.insert + 1 }
  | .merge _ => { counts with merge := counts.merge + 1 }
  | .delete _ => { counts with delete := counts.delete + 1 }
  | .findUnique _ => { counts with findUnique := counts.findUnique + 1 }
  | .inTransaction => counts

end CallCounts

structure Store (K E : Type) [Key K] where
  table : Table K E := {}
  counts : CallCounts K := {}
  transactions : Nat := 0
  poisoned : Bool := false
  uncounted : Bool := false

namespace Store

variable {K E : Type} [Key K] (family : Family K E)

instance : Inhabited (Store K E) := ⟨{}⟩

def record (store : Store K E) (call : StoreCall K E) : Store K E :=
  if store.uncounted then store else { store with counts := store.counts.record call }

def onTable {α : Type} (store : Store K E) (step : Table K E → Except StoreError α × Table K E) :
    Except StoreError α × Store K E :=
  if store.poisoned then (.error .poisoned, store)
  else
    let (answer, table) := step store.table
    (answer, { store with table })

/-- As `onTable`, for a record that must have a key: a missing key is noticed first. -/
def onKeyed {α : Type} (store : Store K E) (entity : E) (operation : String)
    (step : Table K E → Except StoreError α × Table K E) : Except StoreError α × Store K E :=
  if (family.key entity).isNone then (.error (Table.keyRequired family operation), store)
  else store.onTable step

def serve [DecidableEq E] (store : Store K E) (call : StoreCall K E) : call.Answer × Store K E :=
  let counted := store.record call
  match call with
  | .fetch key => counted.onTable fun table => (.ok (table.rows.get? key), table)
  | .fetchMany keys => counted.onTable fun table => (.ok (table.select keys.toList), table)
  | .insert entity => counted.onTable fun table => table.insert family entity
  | .merge entity =>
    counted.onKeyed family entity "merge_existing" fun table => table.merge family entity
  | .delete entity => counted.onKeyed family entity "delete" fun table => table.delete family entity
  | .findUnique field => counted.onTable fun table => (.ok (table.findUnique family field), table)
  | .inTransaction => (decide (0 < store.transactions), store)

def seed (store : Store K E) (entities : List E) : Except StoreError (List E) × Store K E :=
  store.onTable fun table => table.seed family entities

/-- The row of `key`, without counting a call. -/
def row? (store : Store K E) (key : K) : Option E :=
  if store.poisoned then none else store.table.rows.get? key

def size (store : Store K E) : Nat := if store.poisoned then 0 else store.table.rows.size

def clear (store : Store K E) : Store K E :=
  if store.poisoned then store else { store with table := store.table.clear }

def resetCounts (store : Store K E) : Store K E :=
  if store.uncounted then store else { store with counts := {} }

def poison (store : Store K E) : Store K E := { store with poisoned := true }

def loseCounts (store : Store K E) : Store K E := { store with counts := {}, uncounted := true }

def beginTransaction (store : Store K E) : Store K E :=
  { store with transactions := store.transactions + 1 }

def endTransaction (store : Store K E) : Store K E :=
  { store with transactions := store.transactions - 1 }

end Store

end OptimisticStore
