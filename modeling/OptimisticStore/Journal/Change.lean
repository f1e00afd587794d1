import OptimisticStore.Family
/-!
Committed changes, the journal that keeps them in order, and what the rows look like after them.
-/
namespace OptimisticStore

structure Change (E : Type) where
  kind : String
  change : ChangeKind
  before : Option E
  after : Option E
  timestamp : Int
deriving DecidableEq

namespace Change

def key {K E : Type} (family : Family K E) (change : Change E) : Option K :=
  (change.after.bind family.key).or (change.before.bind family.key)

end Change

/-- A journal that keeps every change posted to it, as long as it is open. -/
structure Journal (E : Type) where
  changes : List (Change E) := []
  closed : Bool := false

namespace Journal

variable {E : Type}

instance : Inhabited (Journal E) := ⟨{}⟩

def post (journal : Journal E) (change : Change E) : Journal E :=
  if journal.closed then journal else { journal with changes := journal.changes ++ [change] }

def clear (journal : Journal E) : Journal E := { journal with changes := [] }

def close (_ : Journal E) : Journal E := { changes := [], closed := true }

end Journal

end OptimisticStore
