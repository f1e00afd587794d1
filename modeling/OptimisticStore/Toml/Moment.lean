import OptimisticStore.Toml.Scalar
/-!
Tables that stand for a moment in time.

A table below the root whose first name is the reserved one is no table: it is the moment that the
value of that name spells. `Value.marksMoments` says that every such table within a value spells one;
what else the table holds does not matter then.
-/
namespace OptimisticStore.Toml

def momentName : String := "$__toml_private_datetime"

def isMoment (text : String) : Bool := (Text.Reader.readAll moment text).isSome

def Value.spellsMoment : Value → Bool
  | .string text => isMoment text
  | _ => false

mutual

def Value.marksMoments : Value → Bool
  | .array items => itemsMarkMoments items
  | .table _ entries => tableMarksMoments entries
  | .tables elements => elementsMarkMoments elements
  | _ => true

def itemsMarkMoments : List Value → Bool
  | [] => true
  | item :: rest => item.marksMoments && itemsMarkMoments rest

def entriesMarkMoments : List (String × Value) → Bool
  | [] => true
  | (_, value) :: rest => value.marksMoments && entriesMarkMoments rest

def tableMarksMoments : List (String × Value) → Bool
  | [] => true
  | (name, value) :: rest =>
    if name = momentName then value.spellsMoment
    else value.marksMoments && entriesMarkMoments rest

def elementsMarkMoments : List (List (String × Value)) → Bool
  | [] => true
  | entries :: rest => tableMarksMoments entries && elementsMarkMoments rest

end

end OptimisticStore.Toml
