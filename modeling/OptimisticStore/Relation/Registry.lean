import OptimisticStore.Error
import OptimisticStore.Ordered.Map
import OptimisticStore.Ordered.Set
import OptimisticStore.Relation.Node
import OptimisticStore.Task
/-!
Keys to load, values that loaders returned, and the batches between them.

A registry holds each pair of a target and a key once, however many references ask for it. Resolving
it calls each target's loader once, in target order, with the target's keys in ascending order; a
target without a loader is noticed before any loader is called.
-/
namespace OptimisticStore

/-- The pairs of target and key that references wait for. -/
structure Registry where
  pending : SortedMap String (SortedSet RelationKey) := {}
deriving DecidableEq

/-- A value that a loader returned: a node, or something of a type that no reference can hold. -/
inductive LoadedValue where
  | node (node : Node)
  | foreign
deriving DecidableEq

def LoadedValue.as? (holds : RefType) : LoadedValue → Option Node
  | .node found => if holds.accepts found then some found else none
  | .foreign => none

namespace Registry

instance : Inhabited Registry := ⟨{}⟩

def keysOf (registry : Registry) (target : String) : SortedSet RelationKey :=
  (registry.pending.get? target).getD {}

def contains (registry : Registry) (target : String) (key : RelationKey) : Bool :=
  (registry.keysOf target).contains key

def add (registry : Registry) (target : String) (key : RelationKey) : Registry :=
  ⟨registry.pending.insert target ((registry.keysOf target).insert key)⟩

def clear (_registry : Registry) : Registry := {}

def ofPairs (pairs : List (String × RelationKey)) : Registry :=
  pairs.foldl (fun registry pair => registry.add pair.1 pair.2) {}

def size (registry : Registry) : Nat := (registry.pending.entries.map (·.2.size)).foldr (· + ·) 0

def isEmpty (registry : Registry) : Bool := registry.pending.entries.all (·.2.isEmpty)

def targets (registry : Registry) : List String := registry.pending.keys

end Registry

structure Resolved where
  values : SortedMap String (SortedMap RelationKey LoadedValue) := {}
  requested : SortedMap String (SortedSet RelationKey) := {}
deriving DecidableEq

namespace Resolved

instance : Inhabited Resolved := ⟨{}⟩

def insert (resolved : Resolved) (target : String) (requested : SortedSet RelationKey)
    (values : SortedMap RelationKey LoadedValue) : Resolved :=
  { values := resolved.values.insert target
      (((resolved.values.get? target).getD {}).merge values)
    requested := resolved.requested.insert target
      (((resolved.requested.get? target).getD {}).insertAll requested.toList) }

def get? (resolved : Resolved) (target : String) (key : RelationKey) : Option LoadedValue :=
  (resolved.values.get? target).bind (·.get? key)

def wasRequested (resolved : Resolved) (target : String) (key : RelationKey) : Bool :=
  ((resolved.requested.get? target).map (·.contains key)).getD false

def size (resolved : Resolved) : Nat := (resolved.values.entries.map (·.2.size)).foldr (· + ·) 0

def shownTarget (target : String) : String := s!"EntityKind({Text.quote target})"

def braced (entries : List String) : String :=
  "\x7b" ++ ", ".intercalate entries ++ "\x7d"

def shown (resolved : Resolved) : String :=
  let requested := resolved.requested.entries.map fun (target, keys) =>
    s!"{shownTarget target}: {braced (keys.toList.map RelationKey.shown)}"
  let returned := resolved.values.entries.map fun (target, values) =>
    s!"{shownTarget target}: {values.size}"
  s!"Resolved \x7b requested: {braced requested}, returned: {braced returned} \x7d"

end Resolved

structure Loaders where
  targets : SortedSet String := {}
deriving DecidableEq

namespace Loaders

instance : Inhabited Loaders := ⟨{}⟩

def require (loaders : Loaders) (target : String) : Except LoadError Unit :=
  if loaders.targets.contains target then .ok () else .error (.missingLoader target)

def requireAll (loaders : Loaders) : List String → Except LoadError Unit
  | [] => .ok ()
  | target :: rest => do
    loaders.require target
    loaders.requireAll rest

def shown (loaders : Loaders) : String :=
  s!"Loaders \x7b targets: {Text.bracketed (loaders.targets.toList.map Resolved.shownTarget)} \x7d"

end Loaders

abbrev batchCalls : Vocabulary where
  Call := String × List RelationKey
  Answer _ := Except Error (SortedMap RelationKey LoadedValue)

namespace Registry

/-- One batch per target, added to what is resolved already; stops at the first that fails. -/
def resolveBatches :
    List (String × SortedSet RelationKey) → Resolved → Task batchCalls (Except Error Resolved)
  | [], resolved => return .ok resolved
  | (target, keys) :: rest, resolved => do
    if keys.isEmpty then resolveBatches rest resolved
    else
      match ← Task.ask (V := batchCalls) (target, keys.toList) with
      | .error cause => return .error cause
      | .ok values => resolveBatches rest (resolved.insert target keys values)

def resolve (registry : Registry) (loaders : Loaders) : Task batchCalls (Except Error Resolved) :=
  match loaders.requireAll registry.targets with
  | .error cause => return .error (.load cause)
  | .ok () => resolveBatches registry.pending.entries {}

end Registry

end OptimisticStore
