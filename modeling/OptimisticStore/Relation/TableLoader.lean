import OptimisticStore.Relation.Registry
/-!
A loader that answers from a fixed table of rows, for a family that has no store.

It can return its whole table whatever was asked, return values of another type for some keys, and
fail always or at one of its calls.
-/
namespace OptimisticStore

structure TableLoader where
  target : String
  rows : SortedMap RelationKey Node := {}
  /-- Keys answered by a value that no reference can hold. -/
  foreign : SortedSet RelationKey := {}
  /-- Why it fails, if it does, and at which call; zero for every call. -/
  failure : Option String := none
  failingCall : Nat := 0
  /-- Whether all rows are returned, requested or not. -/
  greedy : Bool := false
  calls : Nat := 0
deriving DecidableEq

namespace TableLoader

def values (loader : TableLoader) (keys : List RelationKey) : SortedMap RelationKey LoadedValue :=
  let rows := loader.rows.entries.filter fun entry => loader.greedy || keys.contains entry.1
  let nodes := rows.map fun (key, node) => (key, LoadedValue.node node)
  let others := (keys.filter loader.foreign.contains).map fun key => (key, LoadedValue.foreign)
  .ofList (nodes ++ others)

def serve (loader : TableLoader) (keys : List RelationKey) :
    Except Error (SortedMap RelationKey LoadedValue) × TableLoader :=
  let called := { loader with calls := loader.calls + 1 }
  match loader.failure with
  | some reason =>
    if loader.failingCall = 0 ∨ loader.failingCall = called.calls then
      (.error (.load (.loaderFailed loader.target reason)), called)
    else (.ok (loader.values keys), called)
  | none => (.ok (loader.values keys), called)

end TableLoader

structure LoaderBench where
  loaders : SortedMap String TableLoader := {}
  batches : List (String × List RelationKey) := []

namespace LoaderBench

instance : Inhabited LoaderBench := ⟨{}⟩

def register (bench : LoaderBench) (loader : TableLoader) : LoaderBench :=
  { bench with loaders := bench.loaders.insert loader.target loader }

def registered (bench : LoaderBench) : Loaders := ⟨.ofList bench.loaders.keys⟩

/-- Serve one batch; a target without a loader is an error and no call. -/
def serve (batch : String × List RelationKey) :
    StateM LoaderBench (Except Error (SortedMap RelationKey LoadedValue)) := fun bench =>
  match bench.loaders.get? batch.1 with
  | none => (.error (.load (.missingLoader batch.1)), bench)
  | some loader =>
    let (answer, called) := loader.serve batch.2
    (answer, { loaders := bench.loaders.insert batch.1 called, batches := bench.batches ++ [batch] })

def run {α : Type} (task : Task batchCalls α) : StateM LoaderBench α :=
  Task.run (V := batchCalls) serve task

end LoaderBench

end OptimisticStore
