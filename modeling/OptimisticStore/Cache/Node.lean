import OptimisticStore.Error
import OptimisticStore.Key.Typed
import OptimisticStore.Ordered.Map
import OptimisticStore.Ordered.Set
/-!
One node's share of the cache: remembered lookups with a generation that every removal advances.

A reader notes the generation before it fetches from the store and fills the slot only if the
generation has not moved, so a value fetched before a removal is never cached after it. `CacheCall`
lists the calls to a cache; on one node each is an atomic step, `CacheNode.serve`.
-/
namespace OptimisticStore

/-- A remembered lookup: the row found, or that there was none. -/
inductive Slot (E : Type) where
  | present (entity : E)
  | absent
deriving DecidableEq

namespace Slot

variable {E : Type}

def ofOption : Option E → Slot E
  | some entity => .present entity
  | none => .absent

def toOption : Slot E → Option E
  | .present entity => some entity
  | .absent => none

def isAbsent : Slot E → Bool
  | .present _ => false
  | .absent => true

@[simp] theorem toOption_ofOption (found : Option E) : (ofOption found).toOption = found := by
  cases found <;> rfl

@[simp] theorem ofOption_toOption (slot : Slot E) : ofOption slot.toOption = slot := by
  cases slot <;> rfl

end Slot

/-- A call to a cache. The `Local` removals drop keys on one node, the others on every node. -/
inductive CacheCall (K E : Type) [Key K] where
  | get (key : K)
  | getAll (keys : SortedSet K)
  | put (key : K) (slot : Slot E)
  | generation
  | putIf (key : K) (slot : Slot E) (generation : Nat)
  | remove (key : K)
  | removeAll (keys : SortedSet K)
  | removeLocal (key : K)
  | removeAllLocal (keys : SortedSet K)

abbrev CacheCall.Answer {K E : Type} [Key K] : CacheCall K E → Type
  | .get _ => Except StoreError (Option (Slot E))
  | .getAll _ => Except StoreError (SortedMap K (Slot E))
  | .put _ _ => Except StoreError Unit
  | .generation => Except StoreError Nat
  | .putIf _ _ _ => Except StoreError Bool
  | .remove _ => Except StoreError Unit
  | .removeAll _ => Except StoreError Unit
  | .removeLocal _ => Except StoreError Unit
  | .removeAllLocal _ => Except StoreError Unit

def CacheCall.name {K E : Type} [Key K] : CacheCall K E → String
  | .get _ => "get"
  | .getAll _ => "getAll"
  | .put .. => "put"
  | .generation => "generation"
  | .putIf .. => "putIf"
  | .remove _ => "remove"
  | .removeAll _ => "removeAll"
  | .removeLocal _ => "removeLocal"
  | .removeAllLocal _ => "removeAllLocal"

def CacheCall.refuse {K E : Type} [Key K] (cause : StoreError) : (call : CacheCall K E) → call.Answer
  | .get _ | .getAll _ | .put .. | .generation | .putIf .. | .remove _ | .removeAll _
  | .removeLocal _ | .removeAllLocal _ => Except.error cause

structure CacheNode (K E : Type) [Key K] where
  slots : SortedMap K (Slot E) := {}
  /-- Lookups that found a slot, those of them that found it absent, and those that found none. -/
  hits : Nat := 0
  negativeHits : Nat := 0
  misses : Nat := 0
  removals : Nat := 0
  generation : Nat := 0
  poisoned : Bool := false

structure CacheStats where
  hits : Nat
  misses : Nat
  negativeHits : Nat
  entryCount : Nat
  removals : Nat
deriving DecidableEq

namespace CacheNode

variable {K E : Type} [Key K]

instance : Inhabited (CacheNode K E) := ⟨{}⟩

def countLookup (node : CacheNode K E) : Option (Slot E) → CacheNode K E
  | none => { node with misses := node.misses + 1 }
  | some slot => { node with
      hits := node.hits + 1
      negativeHits := if slot.isAbsent then node.negativeHits + 1 else node.negativeHits }

def get (node : CacheNode K E) (key : K) : Option (Slot E) × CacheNode K E :=
  let slot := node.slots.get? key
  (slot, node.countLookup slot)

def getAll (node : CacheNode K E) : List K → SortedMap K (Slot E) × CacheNode K E
  | [] => ({}, node)
  | key :: rest =>
    let (slot, counted) := node.get key
    let (found, last) := counted.getAll rest
    (match slot with
      | some slot => found.insert key slot
      | none => found, last)

def put (node : CacheNode K E) (key : K) (slot : Slot E) : CacheNode K E :=
  { node with slots := node.slots.insert key slot }

/-- Fill a slot unless a removal came since the generation was read. -/
def putIf (node : CacheNode K E) (key : K) (slot : Slot E) (generation : Nat) :
    Bool × CacheNode K E :=
  if node.generation = generation then (true, node.put key slot) else (false, node)

def dropSlot (node : CacheNode K E) (key : K) : CacheNode K E :=
  if node.slots.contains key then
    { node with slots := node.slots.erase key, removals := node.removals + 1 }
  else node

/-- Drop the slots of some keys. The generation advances once, whether or not there was a slot. -/
def drop (node : CacheNode K E) (keys : List K) : CacheNode K E :=
  keys.foldl dropSlot { node with generation := node.generation + 1 }

def onSlots {α : Type} (node : CacheNode K E) (step : CacheNode K E → α × CacheNode K E) :
    Except StoreError α × CacheNode K E :=
  if node.poisoned then (.error .poisoned, node)
  else
    let (answer, after) := step node
    (.ok answer, after)

def serve (node : CacheNode K E) (call : CacheCall K E) : call.Answer × CacheNode K E :=
  match call with
  | .get key => node.onSlots fun node => node.get key
  | .getAll keys => node.onSlots fun node => node.getAll keys.toList
  | .put key slot => node.onSlots fun node => ((), node.put key slot)
  | .generation => (.ok node.generation, node)
  | .putIf key slot generation => node.onSlots fun node => node.putIf key slot generation
  | .remove key => node.onSlots fun node => ((), node.drop [key])
  | .removeAll keys => node.onSlots fun node => ((), node.drop keys.toList)
  | .removeLocal key => node.onSlots fun node => ((), node.drop [key])
  | .removeAllLocal keys => node.onSlots fun node => ((), node.drop keys.toList)

def holds (node : CacheNode K E) (key : K) : Bool := !node.poisoned && node.slots.contains key

def size (node : CacheNode K E) : Nat := if node.poisoned then 0 else node.slots.size

def poison (node : CacheNode K E) : CacheNode K E := { node with poisoned := true }

def stats (node : CacheNode K E) : CacheStats :=
  { hits := node.hits
    misses := node.misses
    negativeHits := node.negativeHits
    entryCount := node.size
    removals := node.removals }

end CacheNode

def CacheStats.hitRate (stats : CacheStats) : Float :=
  let lookups := stats.hits.toUInt64 + stats.misses.toUInt64
  if lookups = 0 then 0 else stats.hits.toUInt64.toFloat / lookups.toFloat

end OptimisticStore
