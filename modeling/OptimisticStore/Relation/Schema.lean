import OptimisticStore.Ordered.Map
/-!
Declared relations of a type, and the named selections of them that a walk may follow.
-/
namespace OptimisticStore

inductive Cardinality where
  | single
  | list
  | mapValues
deriving DecidableEq

inductive FieldKind where
  | relation (target : String) (cardinality : Cardinality)
  | nested
deriving DecidableEq

def FieldKind.target? : FieldKind → Option String
  | .relation target _ => some target
  | .nested => none

structure FieldSpec where
  name : String
  kind : FieldKind
deriving DecidableEq

structure Schema where
  typeName : String
  fields : List FieldSpec := []
  /-- Field names by scenario. -/
  scenarios : SortedMap String (List String) := {}
deriving DecidableEq

namespace Schema

/-- The scenario followed when none is named, or the named one is not declared. -/
def defaultScenario : String := "default"

/-- The entry of a scenario that stands for every declared field. -/
def everyField : String := "*"

def relation (schema : Schema) (name target : String) (cardinality : Cardinality) : Schema :=
  { schema with fields := schema.fields ++ [⟨name, .relation target cardinality⟩] }

def nested (schema : Schema) (name : String) : Schema :=
  { schema with fields := schema.fields ++ [⟨name, .nested⟩] }

def scenario (schema : Schema) (name : String) (fields : List String) : Schema :=
  { schema with scenarios := schema.scenarios.insert name fields }

def field? (schema : Schema) (name : String) : Option FieldSpec :=
  schema.fields.find? fun field => field.name == name

/-- The fields that a walk follows, in the order of their declaration: those of the named scenario,
else of the default one, else all. -/
def fieldsFor (schema : Schema) (scenario : Option String) : List FieldSpec :=
  let selection := (scenario.bind schema.scenarios.get?).or (schema.scenarios.get? defaultScenario)
  match selection with
  | none => schema.fields
  | some names =>
    if names.contains everyField then schema.fields
    else schema.fields.filter fun field => names.contains field.name

def DeclaresOnce (schema : Schema) : Prop := (schema.fields.map FieldSpec.name).Nodup

instance (schema : Schema) : Decidable schema.DeclaresOnce :=
  inferInstanceAs (Decidable (schema.fields.map FieldSpec.name).Nodup)

end Schema

end OptimisticStore
