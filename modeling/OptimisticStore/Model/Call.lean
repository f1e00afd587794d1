import OptimisticStore.Cache.Node
import OptimisticStore.Journal.Change
import OptimisticStore.Lock.Table
import OptimisticStore.Store.Basic
import OptimisticStore.Task
/-!
The atomic calls of a model, and programs made of them.

Reads and writes of records are programs (`Program`) over one vocabulary: calls to the store, to the
cache, to the lock table, to the clock, to the functions that the caller passed in, and to the
journal. What a program means beside others, or alone, is decided by whoever serves its calls.
-/
namespace OptimisticStore

inductive Mutation where
  | changed
  | unchanged
  /-- Give the operation up, without writing or trying again. -/
  | cancel
deriving DecidableEq

namespace Mutation

def name : Mutation → String
  | .changed => "Changed"
  | .unchanged => "Unchanged"
  | .cancel => "Cancel"

def ofWord? : String → Option Mutation
  | "changed" => some .changed
  | "unchanged" => some .unchanged
  | "cancel" => some .cancel
  | _ => none

/-- A mutator that reports whether it changed anything; one that reports nothing always did. -/
def ofReport : Option Bool → Mutation
  | some false => .unchanged
  | _ => .changed

end Mutation

inductive Call (K E : Type) [Key K] where
  | store (call : StoreCall K E)
  | cache (call : CacheCall K E)
  | lock (names : List String)
  | unlock (guard : LockGuard)
  | tick
  | stopped
  /-- Wait before another attempt; answers false when told to stop meanwhile. -/
  | pause
  | mutate (entity : E)
  | create (key : K)
  | post (change : Change E)

abbrev Call.Answer {K E : Type} [Key K] : Call K E → Type
  | .store call => call.Answer
  | .cache call => call.Answer
  | .lock _ => Except LockError LockGuard
  | .unlock _ => Unit
  | .tick => Int
  | .stopped => Bool
  | .pause => Bool
  | .mutate _ => E × Mutation
  | .create _ => E
  | .post _ => Unit

abbrev calls (K E : Type) [Key K] : Vocabulary where
  Call := Call K E
  Answer := Call.Answer

abbrev Program (K E : Type) [Key K] (α : Type) := Task (calls K E) α

namespace Program

variable {K E : Type} [Key K]

def ask (request : Call K E) : Program K E request.Answer := Task.ask (V := calls K E) request

def fetch (key : K) : Program K E (Except StoreError (Option E)) := ask (.store (.fetch key))

def fetchMany (keys : SortedSet K) : Program K E (Except StoreError (SortedMap K E)) :=
  ask (.store (.fetchMany keys))

def insertRow (entity : E) : Program K E (Except StoreError E) := ask (.store (.insert entity))

def mergeRow (entity : E) : Program K E (Except StoreError (Merged E)) :=
  ask (.store (.merge entity))

def deleteRow (entity : E) : Program K E (Except StoreError Unit) := ask (.store (.delete entity))

def findUnique (field : UniqueField) : Program K E (Except StoreError (Option K)) :=
  ask (.store (.findUnique field))

def inTransaction : Program K E Bool := ask (.store .inTransaction)

def cached (request : CacheCall K E) : Program K E request.Answer := ask (.cache request)

def lock (names : List String) : Program K E (Except LockError LockGuard) := ask (.lock names)

def unlock (guard : LockGuard) : Program K E Unit := ask (.unlock guard)

def tick : Program K E Int := ask .tick

def stopped : Program K E Bool := ask .stopped

def pause : Program K E Bool := ask .pause

def mutate (entity : E) : Program K E (E × Mutation) := ask (.mutate entity)

def create (key : K) : Program K E E := ask (.create key)

def post (change : Change E) : Program K E Unit := ask (.post change)

end Program

end OptimisticStore
