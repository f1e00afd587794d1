import OptimisticStore.Key.Uuid
import OptimisticStore.Text.Quoted
/-!
Keys whose type has been forgotten, as relations and batch loaders carry them.

They are ordered by kind first (numbers, texts, identifiers) and by value within a kind.
-/
namespace OptimisticStore

open Std

inductive RelationKey where
  | int (value : Int64)
  | text (value : String)
  | uuid (value : Uuid)
deriving DecidableEq

namespace RelationKey

def rank : RelationKey → Nat
  | .int _ => 0
  | .text _ => 1
  | .uuid _ => 2

def intPart : RelationKey → Int64
  | .int value => value
  | _ => 0

def textPart : RelationKey → String
  | .text value => value
  | _ => ""

def uuidPart : RelationKey → Uuid
  | .uuid value => value
  | _ => ⟨0⟩

def order : RelationKey → RelationKey → Ordering :=
  compareLex (compareOn rank) (compareLex (compareOn intPart)
    (compareLex (compareOn textPart) (compareOn uuidPart)))

instance : Ord RelationKey := ⟨order⟩

instance : TransOrd RelationKey := inferInstanceAs (TransCmp (compareLex (compareOn rank)
  (compareLex (compareOn intPart) (compareLex (compareOn textPart) (compareOn uuidPart)))))

theorem order_eq_iff {a b : RelationKey} : order a b = .eq ↔
    a.rank = b.rank ∧ a.intPart = b.intPart ∧ a.textPart = b.textPart ∧ a.uuidPart = b.uuidPart := by
  simp [order, compareLex_eq_eq, compareOn]

instance : LawfulEqOrd RelationKey where
  eq_of_compare {a b} same := by
    have parts := order_eq_iff.mp same
    cases a <;> cases b <;> simp_all [rank, intPart, textPart, uuidPart]

def display : RelationKey → String
  | .int value => toString value.toInt
  | .text value => value
  | .uuid value => value.text

def shown : RelationKey → String
  | .int value => s!"Int({toString value.toInt})"
  | .text value => s!"Str({Text.quote value})"
  | .uuid value => s!"Uuid({value.text})"

end RelationKey

end OptimisticStore
