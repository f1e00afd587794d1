import OptimisticStore.Model.ReadThrough
/-!
Loading relations through the read cache of their family.
-/
namespace OptimisticStore.CacheLoader

variable {K E : Type} [Key K] (family : Family K E)

def typedKeys (keys : List RelationKey) : SortedSet K := .ofList (keys.filterMap Key.recover)

def byRelationKey (found : SortedMap K (Option E)) : SortedMap RelationKey E :=
  .ofList (found.entries.filterMap fun (key, entity) => entity.map (Key.erase key, ·))

/-- The records of some relation keys. Keys of another type and keys without a row are left out. -/
def loadBatch (keys : List RelationKey) :
    Program K E (Except Error (SortedMap RelationKey E)) := do
  match ← ReadThrough.getAll (E := E) (typedKeys keys) with
  | .error cause => return .error (.load (.loaderFailed family.kind cause.message))
  | .ok found => return .ok (byRelationKey found)

end OptimisticStore.CacheLoader
