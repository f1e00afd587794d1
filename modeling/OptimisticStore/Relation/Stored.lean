import OptimisticStore.Key.Stored
import OptimisticStore.Relation.Load
import OptimisticStore.Relation.TableLoader
/-!
Graphs, and what loading them takes and reports, as JSON.

A graph is written by `Node.write`, which leaves to a `Node.Form` how one node looks; references and
containers look the same in every form. The plain form names each field's shape, so it can be read
back (`Node.ofJson?`).
-/
namespace OptimisticStore

namespace Shape

def tag : Shape → String
  | .reference => "one"
  | .node => "node"
  | .boxed _ => "box"
  | .optional .node => "opt_node"
  | .optional _ => "opt"
  | .sequence .node => "nodes"
  | .sequence (.sequence _) => "lists"
  | .sequence _ => "list"
  | .ordered .node => "node_map"
  | .ordered _ => "map"
  | .hashed _ => "hash"

def tagged : List Shape :=
  [.reference, .node, .boxed .reference, .optional .reference, .optional .node, .sequence .reference,
    .sequence (.sequence .reference), .sequence .node, .ordered .reference, .ordered .node,
    .hashed .reference]

def ofTag? (name : String) : Option Shape := tagged.find? fun shape => shape.tag == name

def group : Shape → List (String × Json) → Json
  | .boxed _, [(_, value)] => value
  | .optional _, [] => .null
  | .optional _, [(_, value)] => value
  | .ordered _, members => .object members
  | .hashed _, members => .object members
  | _, members => .array (members.map Prod.snd)

end Shape

def Content.shape : Content → Shape
  | .reference _ _ => .reference
  | .node _ => .node
  | .group shape _ => shape

abbrev Node.Form := String → Columns → List (String × Shape × Json) → Json

mutual

def Ref.write (form : Node.Form) : Ref → Json
  | .null => .string "null"
  | .pending key => .object [("pending", StoredKey.toJson key)]
  | .loaded key node => .object [("loaded", .array [StoredKey.toJson key, node.write form])]
  | .dangling key => .object [("dangling", StoredKey.toJson key)]

def Content.write (form : Node.Form) : Content → Json
  | .reference _ ref => ref.write form
  | .node node => node.write form
  | .group shape members => shape.group (members.write form)

def Members.write (form : Node.Form) : Members → List (String × Json)
  | .nil => []
  | .cons label content rest => (label, content.write form) :: rest.write form

def Members.writeFields (form : Node.Form) : Members → List (String × Shape × Json)
  | .nil => []
  | .cons field content rest =>
    (field, content.shape, content.write form) :: rest.writeFields form

def Node.write (form : Node.Form) : Node → Json
  | .mk type columns fields => form type columns (fields.writeFields form)

end

namespace Node

def plain : Form := fun type _ fields =>
  .object [("type", .string type), ("fields", .object (fields.map fun (name, shape, value) =>
    (name, .object [(shape.tag, value)])))]

def toJson (node : Node) : Json := node.write plain

end Node

def Ref.ofJson? (node : Json → Option Node) : Json → Option Ref
  | .string "null" => some .null
  | .object [("pending", key)] => (StoredKey.ofJson? key).map .pending
  | .object [("dangling", key)] => (StoredKey.ofJson? key).map .dangling
  | .object [("loaded", .array [key, value])] => do
    return .loaded (← StoredKey.ofJson? key) (← node value)
  | _ => none

def Content.ofJson? (node : Json → Option Node) : Shape → Json → Option Content
  | .reference, json => (Ref.ofJson? node json).map (.reference .any)
  | .node, json => (node json).map .node
  | .boxed of, json => do
    return .group (.boxed of) (.ofList [("", ← ofJson? node of json)])
  | .optional of, json => do
    let members ← json.given?.toList.mapM fun value => return ("", ← ofJson? node of value)
    return .group (.optional of) (.ofList members)
  | .sequence of, json => do
    let members ← json.items.mapM fun value => return ("", ← ofJson? node of value)
    return .group (.sequence of) (.ofList members)
  | .ordered of, json => do
    let members ← json.members.mapM fun member => return (member.1, ← ofJson? node of member.2)
    return .group (.ordered of) (.ofList (SortedMap.ofList members).entries)
  | .hashed of, json => do
    let members ← json.members.mapM fun member => return (member.1, ← ofJson? node of member.2)
    return .group (.hashed of) (.ofList (SortedMap.ofList members).entries)

namespace Node

def read (depth : Nat) (json : Json) : Option Node :=
  match depth with
  | 0 => none
  | depth + 1 => do
    let fields ← (json.member "fields").members.mapM fun member => match member.2 with
      | .object [(tag, value)] => do
        return (member.1, ← Content.ofJson? (read depth) (← Shape.ofTag? tag) value)
      | _ => none
    return .mk ((json.member "type").string?.getD "") {} (.ofList fields)

def ofJson? (json : Json) : Option Node := read json.height json

end Node

namespace Cardinality

def name : Cardinality → String
  | .single => "Single"
  | .list => "List"
  | .mapValues => "MapValues"

def ofName? : String → Option Cardinality
  | "Single" => some .single
  | "List" => some .list
  | "MapValues" => some .mapValues
  | _ => none

end Cardinality

def FieldSpec.toJson (spec : FieldSpec) : Json :=
  match spec.kind with
  | .nested => .object [("name", .string spec.name), ("nested", .boolean true)]
  | .relation target cardinality => .object [
      ("name", .string spec.name),
      ("target", .string target),
      ("cardinality", .string cardinality.name)]

namespace Schema

/-- Declare a field; one without a target holds inline values. -/
def declare (schema : Schema) (spec : Json) : Schema :=
  let name := (spec.member "name").string?.getD ""
  let cardinality := ((spec.member "cardinality").string?.bind Cardinality.ofName?).getD .single
  match (spec.member "target").string? with
  | some target => schema.relation name target cardinality
  | none => schema.nested name

def declareScenario (schema : Schema) : Json → Schema
  | .array [.string name, .array fields] => schema.scenario name (fields.filterMap Json.string?)
  | _ => schema

def ofJson (json : Json) : Schema :=
  let typeName := (json.member "type_name").string?.getD ""
  let declared := (json.member "fields").items.foldl declare { typeName }
  (json.member "scenarios").items.foldl declareScenario declared

end Schema

def Place.ofJson : Json → Place
  | .integer index => .position index.toNat
  | .string name => .label name
  | _ => .only

def pathOfPairs (json : Json) : List (String × Place) :=
  json.items.filterMap fun pair => match pair with
    | .array [.string field, place] => some (field, .ofJson place)
    | .array [.string field] => some (field, .only)
    | _ => none

def nodesOfPairs (json : Json) : SortedMap RelationKey Node :=
  .ofList (json.items.filterMap fun pair => match pair with
    | .array [key, node] => do return (← StoredKey.ofJson? key, ← Node.ofJson? node)
    | _ => none)

def TableLoader.ofJson (json : Json) : TableLoader :=
  { target := (json.member "target").string?.getD ""
    rows := nodesOfPairs (json.member "rows")
    foreign := .ofList ((json.member "wrong").items.filterMap StoredKey.ofJson?)
    failure := (json.member "fail").string?
    failingCall := ((json.member "fail_on").integer?.getD 0).toNat
    greedy := (json.member "greedy").boolean?.getD false }

def batchJson (batch : String × List RelationKey) : Json :=
  .array [.string batch.1, .array (batch.2.map StoredKey.toJson)]

def Registry.toJson (registry : Registry) : Json :=
  .object [
    ("len", .integer registry.size),
    ("empty", .boolean registry.isEmpty),
    ("targets", .array (registry.targets.map .string)),
    ("keys", .array (registry.pending.entries.map fun (target, keys) =>
      batchJson (target, keys.toList)))]

def Resolved.lookupJson (resolved : Resolved) (target : String) (key : RelationKey) : Json :=
  let found := match resolved.get? target key with
    | some (.node node) => node.toJson
    | some .foreign => .string "other"
    | none => .null
  .array [found, .boolean (resolved.wasRequested target key)]

def LoadReport.toJson (report : LoadReport) : Json :=
  .object [
    ("passes", .integer report.passes),
    ("requested", .integer report.requested),
    ("loaded", .integer report.loaded),
    ("capped", .boolean report.capped)]

end OptimisticStore
