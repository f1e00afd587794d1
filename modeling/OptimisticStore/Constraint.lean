import OptimisticStore.Error
import OptimisticStore.Family
/-!
Names of uniqueness constraints, and what a violated one says about the columns.

A table `t` with key column `k` has the constraint `t_pkey`; a unique column `c` has `t_c_key` or
`t_c_idx`, and several columns together have their names joined by underscores in between. Since
column names may hold underscores themselves, a joined name is split by the declared columns, longest
first with backtracking (`splitColumns`); the bound on its steps never shows (`splitWithin_congr`).
-/
namespace OptimisticStore

structure Constraints where
  kind : String
  table : String
  keyColumn : String
deriving DecidableEq

def afterStart? : List Char → List Char → Option (List Char)
  | [], text => some text
  | _ :: _, [] => none
  | h :: head, c :: text => if h = c then afterStart? head text else none

def beforeEnd? (tail text : List Char) : Option (List Char) :=
  (afterStart? tail.reverse text.reverse).map List.reverse

def afterColumn? (column body : List Char) : Option (List Char) :=
  (afterStart? column body).bind (afterStart? ['_'])

theorem eq_append_of_afterStart {head text rest : List Char} (found : afterStart? head text = some rest) :
    text = head ++ rest := by
  induction head generalizing text with
  | nil => simp_all [afterStart?]
  | cons h head ih =>
    cases text with
    | nil => simp [afterStart?] at found
    | cons c text =>
      simp only [afterStart?] at found
      split at found
      next same => simp [same, ih found]
      next => simp at found

theorem length_afterColumn {column body rest : List Char} (found : afterColumn? column body = some rest) :
    rest.length < body.length := by
  unfold afterColumn? at found
  obtain ⟨middle, first, second⟩ := Option.bind_eq_some_iff.mp found
  have := eq_append_of_afterStart first
  have := eq_append_of_afterStart second
  simp_all
  omega

def byteLength (text : List Char) : Nat := (text.map Char.utf8Size).foldr (· + ·) 0

/-- Longest first; columns of one length keep their order. -/
def longestFirst (columns : List (List Char)) : List (List Char) :=
  columns.mergeSort fun a b => byteLength b ≤ byteLength a

/-- The first way to read `body` as at most `steps` column names with an underscore between two of
them, trying the columns in the given order at each place. -/
def splitWithin (columns : List (List Char)) : Nat → List Char → Option (List (List Char))
  | _, [] => some []
  | 0, _ => none
  | steps + 1, body => columns.findSome? fun column =>
    if body = column then some [column]
    else (afterColumn? column body).bind fun rest =>
      (splitWithin columns steps rest).map (column :: ·)

/-- Each name takes at least one character with its underscore, so no search comes to the end of as many
steps as there are characters. -/
theorem splitWithin_congr {columns : List (List Char)} {body : List Char} {steps others : Nat}
    (enough : body.length ≤ steps) (enough' : body.length ≤ others) :
    splitWithin columns steps body = splitWithin columns others body := by
  induction steps generalizing body others with
  | zero =>
    obtain rfl := List.length_eq_zero_iff.mp (Nat.le_zero.mp enough)
    cases others <;> rfl
  | succ steps ih =>
    cases body with
    | nil => cases others <;> rfl
    | cons c body =>
      obtain ⟨less, rfl⟩ := Nat.exists_eq_succ_of_ne_zero (Nat.ne_zero_of_lt enough')
      unfold splitWithin
      congr 1
      funext column
      split
      · rfl
      · cases after : afterColumn? column (c :: body) with
        | none => rfl
        | some rest =>
          have shorter := length_afterColumn after
          rw [Option.bind_some, Option.bind_some, @ih rest less (by omega) (by omega)]

def splitColumns (columns : List (List Char)) (body : List Char) : Option (List (List Char)) :=
  splitWithin (longestFirst columns) body.length body

namespace Constraints

def ofFamily {K E : Type} (family : Family K E) : Constraints :=
  ⟨family.kind, family.kind, family.keyColumn⟩

def primaryKeyName (c : Constraints) : String := c.table ++ "_pkey"

def uniqueName (c : Constraints) (column : String) : String := c.table ++ "_" ++ column ++ "_key"

def violation (c : Constraints) (field : String) (primaryKey : Bool) : StoreError :=
  .uniqueViolation c.kind field primaryKey

def unrecognized (c : Constraints) (name : String) : StoreError :=
  .backend s!"unrecognized constraint {name} on table {c.table}"

def body? (rest : List Char) : Option (List Char) :=
  ((beforeEnd? "_key".toList rest).or (beforeEnd? "_idx".toList rest)).filter fun body => !body.isEmpty

def fieldName (columns : List String) (body : List Char) : String :=
  match splitColumns (columns.map String.toList) body with
  | some split => ",".intercalate (split.map String.ofList)
  | none => String.ofList body

/-- What the violation of a constraint means, given the columns declared unique. A name that is not
of this table is a backend failure, so that it is never taken for a conflict worth another attempt. -/
def translate (c : Constraints) (name : String) (columns : List String) : StoreError :=
  match afterColumn? c.table.toList name.toList with
  | none => c.unrecognized name
  | some rest =>
    if rest = "pkey".toList then c.violation c.keyColumn true
    else match body? rest with
      | none => c.unrecognized name
      | some body =>
        let field := fieldName columns body
        c.violation field (field == c.keyColumn)

end Constraints

end OptimisticStore
