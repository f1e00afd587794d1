import OptimisticStore.Key.Relation
import OptimisticStore.Text.Numeral
/-!
Primary keys of one type: 32- and 64-bit numbers, texts and identifiers.

A key can be erased to a relation key and recovered from one, and most kinds can be made by a store
from its running sequence. Erasure is exact: a number too large for a relation key's 64-bit signed
value is carried as its decimal text.
-/
namespace OptimisticStore

class Key (K : Type) extends Ord K, Std.TransOrd K, Std.LawfulEqOrd K where
  display : K → String
  /-- The key of the `n`-th step of a store's sequence, if the kind has one there. -/
  ofSequence : Nat → Option K
  erase : K → RelationKey
  recover : RelationKey → Option K

namespace Key

instance : Key Int64 where
  display key := toString key.toInt
  ofSequence n := if (n : Int) ≤ Int64.maxValue.toInt then some (Int64.ofNat n) else none
  erase := .int
  recover
    | .int value => some value
    | _ => none

instance : Key Int32 where
  display key := toString key.toInt
  ofSequence n := if (n : Int) ≤ Int32.maxValue.toInt then some (Int32.ofNat n) else none
  erase key := .int (Int64.ofInt key.toInt)
  recover
    | .int value =>
      if Int32.minValue.toInt ≤ value.toInt ∧ value.toInt ≤ Int32.maxValue.toInt then
        some (Int32.ofInt value.toInt) else none
    | _ => none

instance : Key UInt64 where
  display key := toString key.toNat
  ofSequence n := if n < UInt64.size then some (UInt64.ofNat n) else none
  erase key :=
    if (key.toNat : Int) ≤ Int64.maxValue.toInt then .int (Int64.ofNat key.toNat)
    else .text (toString key.toNat)
  recover
    | .int value => if 0 ≤ value.toInt then some (UInt64.ofNat value.toInt.toNat) else none
    | .text digits => (Text.readBelow UInt64.size digits).map UInt64.ofNat
    | .uuid _ => none

instance : Key String where
  display key := key
  ofSequence n := some (toString n)
  erase := .text
  recover
    | .text value => some value
    | _ => none

instance : Key Uuid where
  display := Uuid.text
  ofSequence n := some (Uuid.ordered n)
  erase := .uuid
  recover
    | .uuid value => some value
    | _ => none

end Key

/-- A text key that only callers choose: a store has no sequence for it. -/
structure ChosenKey where
  name : String
deriving DecidableEq, Inhabited

instance : Ord ChosenKey := ⟨compareOn ChosenKey.name⟩

instance : Std.TransOrd ChosenKey := inferInstanceAs (Std.TransCmp (compareOn ChosenKey.name))

instance : Std.LawfulEqOrd ChosenKey where
  eq_of_compare {a b} same := by
    cases a; cases b
    exact congrArg ChosenKey.mk (Std.LawfulEqOrd.compare_eq_iff_eq.mp same)

instance : Key ChosenKey where
  display := ChosenKey.name
  ofSequence _ := none
  erase key := .text key.name
  recover
    | .text name => some ⟨name⟩
    | _ => none

end OptimisticStore
