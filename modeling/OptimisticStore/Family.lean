import OptimisticStore.Time.Timestamp
/-!
Entity families: what the library has to know of a kind of record to store, cache and update it.

A `Family K E` describes records of type `E` with primary keys of type `K`. Key, version and unique
columns are read and set through it, so the record's own shape stays free. `Family.Lawful` says that
these accessors belong together.
-/
namespace OptimisticStore

structure UniqueField where
  column : String
  value : String
deriving DecidableEq

inductive ChangeKind where
  | insert
  | update
  | delete
deriving DecidableEq

namespace ChangeKind

def word : ChangeKind → String
  | .insert => "insert"
  | .update => "update"
  | .delete => "delete"

def name : ChangeKind → String
  | .insert => "Insert"
  | .update => "Update"
  | .delete => "Delete"

def ofName? : String → Option ChangeKind
  | "Insert" => some .insert
  | "Update" => some .update
  | "Delete" => some .delete
  | _ => none

theorem ofName?_name (change : ChangeKind) : ofName? change.name = some change := by
  cases change <;> rfl

end ChangeKind

/-- A family of records with a primary key, and whatever else of a version, creation and update
stamps and unique columns its records have. -/
structure Family (K E : Type) where
  kind : String
  keyColumn : String := "id"
  /-- The primary key, once the record has one. -/
  key : E → Option K
  withKey : K → E → E
  /-- The version that a write must still find stored; none for records without versions. It has no bound
  here: that of a 64-bit word is out of reach, a version being at most the number of calls made
  (`Counted.version_le`). -/
  version : E → Option Int := fun _ => none
  withVersion : Int → E → E := fun _ entity => entity
  markCreated : Timestamp → E → E := fun _ entity => entity
  markUpdated : Timestamp → E → E := fun _ entity => entity
  uniqueFields : E → List UniqueField := fun _ => []

namespace Family

variable {K E : Type}

/-- Setting the key or the version sets just that, and stamps touch none of key, version and unique
columns. -/
structure Lawful (family : Family K E) : Prop where
  key_withKey : ∀ key entity, family.key (family.withKey key entity) = some key
  version_withKey : ∀ key entity, family.version (family.withKey key entity) = family.version entity
  unique_withKey : ∀ key entity,
    family.uniqueFields (family.withKey key entity) = family.uniqueFields entity
  key_withVersion : ∀ version entity, family.key (family.withVersion version entity) = family.key entity
  version_withVersion : ∀ version entity,
    family.version (family.withVersion version entity) = (family.version entity).map fun _ => version
  unique_withVersion : ∀ version entity,
    family.uniqueFields (family.withVersion version entity) = family.uniqueFields entity
  key_markCreated : ∀ moment entity, family.key (family.markCreated moment entity) = family.key entity
  version_markCreated : ∀ moment entity,
    family.version (family.markCreated moment entity) = family.version entity
  unique_markCreated : ∀ moment entity,
    family.uniqueFields (family.markCreated moment entity) = family.uniqueFields entity
  key_markUpdated : ∀ moment entity, family.key (family.markUpdated moment entity) = family.key entity
  version_markUpdated : ∀ moment entity,
    family.version (family.markUpdated moment entity) = family.version entity
  unique_markUpdated : ∀ moment entity,
    family.uniqueFields (family.markUpdated moment entity) = family.uniqueFields entity

end Family

end OptimisticStore
