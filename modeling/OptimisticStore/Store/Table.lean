import OptimisticStore.Constraint
import OptimisticStore.Key.Typed
import OptimisticStore.Ordered.Map
/-!
The rows of one family and the rules by which they change.

A versioned record is stored with version 1 and gains one with every change; a merge or a removal is
refused unless it carries the stored version. No two rows may share a value in a column declared
unique. Every operation is one atomic step: it returns its answer and the table after it, and a
refused operation changes no row (it may use up sequence numbers).
-/
namespace OptimisticStore

structure Table (K E : Type) [Key K] where
  rows : SortedMap K E := {}
  sequence : Nat := 0

structure Merged (E : Type) where
  entity : E
  changed : Bool
deriving DecidableEq

namespace Table

variable {K E : Type} [Key K] (family : Family K E)

instance : Inhabited (Table K E) := ⟨{}⟩

def conflict (key : K) : StoreError := .concurrentModification family.kind (Key.display key)

def keyRequired (operation : String) : StoreError :=
  .backend s!"{operation} requires a keyed {family.kind}"

def noSequence : StoreError := .backend s!"{family.kind} keys cannot be generated by the store"

def keyTaken : StoreError :=
  let constraints := Constraints.ofFamily family
  constraints.translate constraints.primaryKeyName []

/-- The first key among the next `steps` of the sequence that no row has. A number tried is used up,
also when it yields no key. -/
def freshKeyWithin (table : Table K E) : Nat → Except StoreError K × Table K E
  | 0 => (.error (noSequence family), table)
  | steps + 1 =>
    let sequence := table.sequence + 1
    match Key.ofSequence sequence with
    | none => (.error (noSequence family), { table with sequence })
    | some key =>
      if table.rows.contains key then freshKeyWithin { table with sequence } steps
      else (.ok key, { table with sequence })

/-- A key that no row has. Different numbers make different keys, so one more step than there are
rows is always enough. -/
def freshKey (table : Table K E) : Except StoreError K × Table K E :=
  freshKeyWithin family table (table.rows.size + 1)

def sharedField? (fields : List UniqueField) (other : E) : Option UniqueField :=
  fields.find? fun field => (family.uniqueFields other).contains field

/-- Whether a record may be stored under `key`: no other row, in key order, holds one of its unique
values. -/
def checkUnique (table : Table K E) (key : K) (entity : E) : Except StoreError Unit :=
  let fields := family.uniqueFields entity
  let clash := table.rows.entries.findSome? fun (other, row) =>
    if compare other key = .eq then none else sharedField? family fields row
  match clash with
  | none => .ok ()
  | some field =>
    let constraints := Constraints.ofFamily family
    .error (constraints.translate (constraints.uniqueName field.column)
      (fields.map UniqueField.column))

def firstVersion (entity : E) : E :=
  if (family.version entity).isSome then family.withVersion 1 entity else entity

def insertAt (table : Table K E) (key : K) (entity : E) : Except StoreError E × Table K E :=
  if table.rows.contains key then (.error (keyTaken family), table)
  else match checkUnique family table key entity with
    | .error cause => (.error cause, table)
    | .ok () =>
      let row := firstVersion family entity
      (.ok row, { table with rows := table.rows.insert key row })

def insert (table : Table K E) (entity : E) : Except StoreError E × Table K E :=
  match family.key entity with
  | some key => insertAt family table key entity
  | none => match freshKey family table with
    | (.error cause, after) => (.error cause, after)
    | (.ok key, after) => insertAt family after key (family.withKey key entity)

/-- Insert records one after another up to the first that is refused; those before it stay. -/
def seed (table : Table K E) : List E → Except StoreError (List E) × Table K E
  | [] => (.ok [], table)
  | entity :: rest => match insert family table entity with
    | (.error cause, after) => (.error cause, after)
    | (.ok row, after) => match seed after rest with
      | (.error cause, last) => (.error cause, last)
      | (.ok rows, last) => (.ok (row :: rows), last)

/-- The record as the row that replaces `current`: one version further if that is versioned, which never
takes a store that began without rows beyond a 64-bit word (`Counted.version_le`). -/
def nextVersion (current entity : E) : E :=
  match family.version current with
  | some version => family.withVersion (version + 1) entity
  | none => entity

/-- Replace the row of the record's key. An equal record changes nothing, whatever its version; any
other must carry the stored version. A row that is gone is a conflict too. -/
def merge [DecidableEq E] (table : Table K E) (entity : E) :
    Except StoreError (Merged E) × Table K E :=
  match family.key entity with
  | none => (.error (keyRequired family "merge_existing"), table)
  | some key => match table.rows.get? key with
    | none => (.error (conflict family key), table)
    | some current =>
      if current = entity then (.ok ⟨entity, false⟩, table)
      else if family.version current ≠ family.version entity then
        (.error (conflict family key), table)
      else match checkUnique family table key entity with
        | .error cause => (.error cause, table)
        | .ok () =>
          let row := nextVersion family current entity
          (.ok ⟨row, true⟩, { table with rows := table.rows.insert key row })

def delete (table : Table K E) (entity : E) : Except StoreError Unit × Table K E :=
  match family.key entity with
  | none => (.error (keyRequired family "delete"), table)
  | some key => match table.rows.get? key with
    | none => (.error (conflict family key), table)
    | some current =>
      if family.version current ≠ family.version entity then (.error (conflict family key), table)
      else (.ok (), { table with rows := table.rows.erase key })

def findUnique (table : Table K E) (field : UniqueField) : Option K :=
  (table.rows.entries.find? fun entry => (family.uniqueFields entry.2).contains field).map Prod.fst

def select (table : Table K E) (keys : List K) : SortedMap K E :=
  .ofList (keys.filterMap fun key => (table.rows.get? key).map (key, ·))

/-- Remove all rows; the sequence goes on where it was. -/
def clear (table : Table K E) : Table K E := { table with rows := {} }

end Table

end OptimisticStore
