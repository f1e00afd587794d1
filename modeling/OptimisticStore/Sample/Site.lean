import OptimisticStore.Model.CacheLoader
import OptimisticStore.Model.World
import OptimisticStore.Relation.Load
import OptimisticStore.Sample.Blog
/-!
A site of authors and posts: each family has its store and its read cache, and graphs are loaded from
both through the caches.
-/
namespace OptimisticStore.Blog

structure Site where
  authors : World Int64 Node := {}
  posts : World Int64 Node := {}

namespace Site

instance : Inhabited Site := ⟨{}⟩

def stocked (family : Family Int64 Node) (rows : List Node) : Except StoreError (World Int64 Node) :=
  match Store.seed family {} rows with
  | (.error cause, _) => .error cause
  | (.ok _, inner) => .ok { store := { inner } }

def ofRows (authors posts : List Node) : Except StoreError Site := do
  return { authors := ← stocked authorFamily authors, posts := ← stocked postFamily posts }

/-- A site is only read through its caches. -/
def reader : Client Int64 Node :=
  { reading := fun _ => 0, mutate := fun node => (node, .unchanged), create := fun _ => default }

def onAuthors {α : Type} (program : Program Int64 Node α) : StateM Site α := fun site =>
  let (answer, authors) := (World.run authorFamily reader program).run site.authors
  (answer, { site with authors })

def onPosts {α : Type} (program : Program Int64 Node α) : StateM Site α := fun site =>
  let (answer, posts) := (World.run postFamily reader program).run site.posts
  (answer, { site with posts })

def asValues (found : SortedMap RelationKey Node) : SortedMap RelationKey LoadedValue :=
  .ofList (found.entries.map fun (key, node) => (key, .node node))

def serve (batch : batchCalls.Call) : StateM Site (batchCalls.Answer batch) := do
  let (target, keys) := batch
  if target = authorFamily.kind then
    return (← onAuthors (CacheLoader.loadBatch authorFamily keys)).map asValues
  else if target = postFamily.kind then
    return (← onPosts (CacheLoader.loadBatch postFamily keys)).map asValues
  else return .error (.load (.missingLoader target))

def load (scenario : Option String) (loaders : Loaders) (cap : Nat) (root : Node) :
    StateM Site (Except Error LoadReport × Loading) :=
  Task.run serve (({ schemas, scenario } : Walker).load loaders cap root)

end Site

end OptimisticStore.Blog
