import OptimisticStore.Family
/-!
Records of no particular kind: any key, a version or none, a number, a text, and as many unique values
as each record likes.
-/
namespace OptimisticStore

structure Record (K : Type) where
  id : Option K := none
  version : Option Int := none
  number : Int := 0
  text : String := ""
  unique : List UniqueField := []
  created : Option Timestamp := none
  updated : Option Timestamp := none
deriving DecidableEq, Inhabited

namespace Record

variable {K : Type}

/-- Records of a given kind; without stamps the moments of creation and update are left alone. -/
def family (kind keyColumn : String) (stamped : Bool) : Family K (Record K) where
  kind := kind
  keyColumn := keyColumn
  key record := record.id
  withKey key record := { record with id := some key }
  version record := record.version
  withVersion version record := { record with version := record.version.map fun _ => version }
  markCreated moment record := if stamped then { record with created := some moment } else record
  markUpdated moment record := if stamped then { record with updated := some moment } else record
  uniqueFields record := record.unique

theorem family_lawful (kind keyColumn : String) (stamped : Bool) :
    (family (K := K) kind keyColumn stamped).Lawful := by
  constructor <;> intros <;> simp only [family] <;> first | rfl | (split <;> rfl)

end Record

end OptimisticStore
