/-!
JSON values as the library stores and reads them.
-/
namespace OptimisticStore

/-- A JSON value. A number is `integer` only if it is written without fraction and exponent and fits
64 bits, signed or not, else a `fraction`, kept as written; the order of the members of an object is
kept. -/
inductive Json where
  | null
  | boolean (value : Bool)
  | integer (value : Int)
  | fraction (text : String)
  | string (value : String)
  | array (items : List Json)
  | object (members : List (String × Json))

mutual

def Json.height : Json → Nat
  | .array items => Json.heights items + 1
  | .object members => Json.memberHeights members + 1
  | _ => 1

def Json.heights : List Json → Nat
  | [] => 0
  | item :: rest => max item.height (Json.heights rest)

def Json.memberHeights : List (String × Json) → Nat
  | [] => 0
  | (_, value) :: rest => max value.height (Json.memberHeights rest)

end

namespace Json

instance : Inhabited Json := ⟨.null⟩

def integer? : Json → Option Int
  | .integer value => some value
  | _ => none

def boolean? : Json → Option Bool
  | .boolean value => some value
  | _ => none

def string? : Json → Option String
  | .string value => some value
  | _ => none

def items : Json → List Json
  | .array items => items
  | _ => []

def members : Json → List (String × Json)
  | .object members => members
  | _ => []

def member (name : String) (json : Json) : Json := (json.members.lookup name).getD .null

def update (name : String) (change : Json → Json) (json : Json) : Json :=
  .object ((name, change (json.member name)) :: json.members.filter fun entry => entry.1 != name)

/-- The sum of two integers in 64 bits or the two texts joined, as `verb` says; else `value` takes the
place of what was there. -/
def edited (verb : String) (value : Json) : Json → Json
  | .integer current => match verb, value with
    | "add", .integer number => .integer ((current + number).bmod UInt64.size)
    | _, _ => value
  | .string current => match verb, value with
    | "append", .string text => .string (current ++ text)
    | _, _ => value
  | _ => value

def given? : Json → Option Json
  | .null => none
  | json => some json

def ofOption {α : Type} (write : α → Json) : Option α → Json
  | some value => write value
  | none => .null

def below? (bound : Nat) (json : Json) : Option Nat := do
  let value ← json.integer?
  if 0 ≤ value ∧ value < bound then some value.toNat else none

end Json

end OptimisticStore
