import OptimisticStore.Json.Value
import OptimisticStore.Key.Typed
/-!
Keys as they are stored: a typed key as a bare number or text, a relation key as an object whose only
member binds the name of its kind to the value.
-/
namespace OptimisticStore

class StoredKey (K : Type) where
  toJson : K → Json
  ofJson? : Json → Option K

namespace StoredKey

def word? (json : Json) : Option Int64 := do
  let value ← json.integer?
  if Int64.minValue.toInt ≤ value ∧ value ≤ Int64.maxValue.toInt then some (Int64.ofInt value)
  else none

instance : StoredKey Int64 := ⟨fun key => .integer key.toInt, word?⟩

instance : StoredKey Int32 where
  toJson key := .integer key.toInt
  ofJson? json := do
    let value ← json.integer?
    if Int32.minValue.toInt ≤ value ∧ value ≤ Int32.maxValue.toInt then some (Int32.ofInt value)
    else none

instance : StoredKey UInt64 :=
  ⟨fun key => .integer key.toNat, fun json => (json.below? UInt64.size).map UInt64.ofNat⟩

instance : StoredKey String := ⟨.string, Json.string?⟩

instance : StoredKey Uuid := ⟨fun key => .string key.text, fun json => json.string?.bind Uuid.read?⟩

instance : StoredKey ChosenKey := ⟨fun key => .string key.name, fun json => json.string?.map .mk⟩

instance : StoredKey RelationKey where
  toJson
    | .int value => .object [("Int", toJson value)]
    | .text value => .object [("Str", toJson value)]
    | .uuid value => .object [("Uuid", toJson value)]
  ofJson?
    | .object [("Int", value)] => (ofJson? value).map .int
    | .object [("Str", value)] => (ofJson? value).map .text
    | .object [("Uuid", value)] => (ofJson? value).map .uuid
    | _ => none

end StoredKey

end OptimisticStore
