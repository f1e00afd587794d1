import OptimisticStore.Json.Value
import OptimisticStore.Ordered.Set
/-!
Values that do not depend on the readings of a clock.

The numbers of chosen members are replaced by labels that tell only their order: equal numbers have
equal labels, and a larger number has a later one.
-/
namespace OptimisticStore.Json

abbrev Choice := String → Int → Bool

mutual

def chosen (choice : Choice) : Json → List Int
  | .array items => chosenItems choice items
  | .object members => chosenMembers choice members
  | _ => []

def chosenItems (choice : Choice) : List Json → List Int
  | [] => []
  | item :: rest => item.chosen choice ++ chosenItems choice rest

def chosenMembers (choice : Choice) : List (String × Json) → List Int
  | [] => []
  | (name, value) :: rest =>
    (match value with
      | .integer number => if choice name number then [number] else []
      | value => value.chosen choice) ++ chosenMembers choice rest

end

mutual

def relabel (choice : Choice) (label : Int → String) : Json → Json
  | .array items => .array (relabelItems choice label items)
  | .object members => .object (relabelMembers choice label members)
  | json => json

def relabelItems (choice : Choice) (label : Int → String) : List Json → List Json
  | [] => []
  | item :: rest => item.relabel choice label :: relabelItems choice label rest

def relabelMembers (choice : Choice) (label : Int → String) :
    List (String × Json) → List (String × Json)
  | [] => []
  | (name, value) :: rest =>
    (name, match value with
      | .integer number => if choice name number then .string (label number) else .integer number
      | value => value.relabel choice label) :: relabelMembers choice label rest

end

/-- The chosen members by their ranks, `t1` for the least number. -/
def ranked (choice : Choice) (json : Json) : Json :=
  let numbers := (SortedSet.ofList (json.chosen choice)).toList
  json.relabel choice fun number => s!"t{numbers.idxOf number + 1}"

end OptimisticStore.Json
