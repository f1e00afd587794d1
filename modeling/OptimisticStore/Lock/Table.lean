import OptimisticStore.Error
import OptimisticStore.Ordered.Set
/-!
Named locks, taken in sets.

A request gets all its names at once or none, so no two requests can hold halves of each other's
sets. Whoever was granted names holds a `LockGuard`, the only way to give them back; giving back twice
gives back nothing the second time.
-/
namespace OptimisticStore

structure LockGuard where
  names : List String
  held : Bool
deriving DecidableEq, Inhabited

namespace LockGuard

def empty : LockGuard := ⟨[], false⟩

def isEmpty (guard : LockGuard) : Bool := guard.names.isEmpty

def shown (guard : LockGuard) : String :=
  s!"LockGuard \x7b names: {Text.quoteList guard.names}, held: {guard.held} \x7d"

end LockGuard

structure LockTable where
  held : SortedSet String := {}
deriving DecidableEq

namespace LockTable

instance : Inhabited LockTable := ⟨{}⟩

def contended (table : LockTable) (wanted : SortedSet String) : Bool :=
  wanted.toList.any table.held.contains

/-- Take all names of a request if every one is free. An empty request is granted nothing. -/
def tryLock (table : LockTable) (names : List String) : Option (LockGuard × LockTable) :=
  let wanted := SortedSet.ofList names
  if wanted.isEmpty then some (.empty, table)
  else if table.contended wanted then none
  else some (⟨wanted.toList, true⟩, { table with held := table.held.insertAll wanted.toList })

def timedOut (names : List String) : LockError :=
  .acquisitionFailed (SortedSet.ofList names).toList "timed out"

def lock (table : LockTable) (names : List String) : Except LockError LockGuard × LockTable :=
  match table.tryLock names with
  | some (guard, after) => (.ok guard, after)
  | none => (.error (timedOut names), table)

def release (table : LockTable) (guard : LockGuard) : LockTable :=
  if guard.held then { table with held := table.held.eraseAll guard.names } else table

def isHeld (table : LockTable) (name : String) : Bool := table.held.contains name

def heldCount (table : LockTable) : Nat := table.held.size

end LockTable

end OptimisticStore
