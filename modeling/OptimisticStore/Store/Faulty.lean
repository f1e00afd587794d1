import OptimisticStore.Store.Basic
/-!
A store that fails some of its writes as if a concurrent writer had come first.

A failed merge reports a stale version and a failed insert a taken key, the two conflicts that are
worth another attempt. A failed write never reaches the store beneath.
-/
namespace OptimisticStore

structure FaultyStore (K E : Type) [Key K] where
  inner : Store K E := {}
  /-- How many of the next merges and inserts fail. -/
  mergeFaults : Nat := 0
  insertFaults : Nat := 0
  /-- How many writes have been failed so far. -/
  injected : Nat := 0

namespace FaultyStore

variable {K E : Type} [Key K] (family : Family K E)

instance : Inhabited (FaultyStore K E) := ⟨{}⟩

/-- A merge that found the row changed; the message has no key for a record without one. -/
def staleMerge (entity : E) : StoreError :=
  .concurrentModification family.kind (((family.key entity).map Key.display).getD "")

def takenKey : StoreError := .uniqueViolation family.kind family.keyColumn true

def pass [DecidableEq E] (store : FaultyStore K E) (call : StoreCall K E) :
    call.Answer × FaultyStore K E :=
  let (answer, inner) := store.inner.serve family call
  (answer, { store with inner })

def serve [DecidableEq E] (store : FaultyStore K E) (call : StoreCall K E) :
    call.Answer × FaultyStore K E :=
  match call with
  | .insert entity => match store.insertFaults with
    | 0 => store.pass family (.insert entity)
    | faults + 1 => (.error (takenKey family),
        { store with insertFaults := faults, injected := store.injected + 1 })
  | .merge entity => match store.mergeFaults with
    | 0 => store.pass family (.merge entity)
    | faults + 1 => (.error (staleMerge family entity),
        { store with mergeFaults := faults, injected := store.injected + 1 })
  | call => store.pass family call

def failMerges (store : FaultyStore K E) (count : Nat) : FaultyStore K E :=
  { store with mergeFaults := count }

def failInserts (store : FaultyStore K E) (count : Nat) : FaultyStore K E :=
  { store with insertFaults := count }

def onInner (store : FaultyStore K E) (change : Store K E → Store K E) : FaultyStore K E :=
  { store with inner := change store.inner }

end FaultyStore

end OptimisticStore
