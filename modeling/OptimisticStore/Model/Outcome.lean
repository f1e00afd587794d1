import OptimisticStore.Journal.Change
/-!
What an operation on one record did.
-/
namespace OptimisticStore

/-- The result of one write. If nothing was written, `before` and `after` are the same. -/
structure Outcome (E : Type) where
  kind : String
  before : Option E
  after : Option E
  updated : Bool
  inserted : Bool
  deleted : Bool
  canceled : Bool
  timestamp : Int
deriving DecidableEq

namespace Outcome

variable {E : Type}

def ofCancel (kind : String) : Outcome E :=
  { kind, before := none, after := none, updated := false, inserted := false, deleted := false
    canceled := true, timestamp := 0 }

def ofUnchanged (kind : String) (state : E) (timestamp : Int) : Outcome E :=
  { kind, before := some state, after := some state, updated := false, inserted := false
    deleted := false, canceled := false, timestamp }

def ofInsert (kind : String) (after : E) (timestamp : Int) : Outcome E :=
  { kind, before := none, after := some after, updated := true, inserted := true, deleted := false
    canceled := false, timestamp }

def ofUpdate (kind : String) (before after : E) (timestamp : Int) : Outcome E :=
  { kind, before := some before, after := some after, updated := true, inserted := false
    deleted := false, canceled := false, timestamp }

def ofDelete (kind : String) (before : E) (timestamp : Int) : Outcome E :=
  { kind, before := some before, after := none, updated := true, inserted := false, deleted := true
    canceled := false, timestamp }

def key {K : Type} (family : Family K E) (outcome : Outcome E) : Option K :=
  (outcome.after.or outcome.before).bind family.key

def change? (outcome : Outcome E) : Option ChangeKind :=
  if !outcome.updated then none
  else if outcome.inserted then some .insert
  else if outcome.deleted then some .delete
  else some .update

end Outcome

end OptimisticStore
