import OptimisticStore.Relation.Registry
import OptimisticStore.Relation.Schema
/-!
Walking a graph along the fields that a scenario selects.

A walk visits the selected fields of a node in the order of their declaration and goes into nodes held
inline and into loaded references. `Node.waiting` lists what the reached references wait for;
`Walker.inject` fills them from what was resolved and counts those that became loaded. A reference is
loaded as the target declared for its own field; one outside a declared relation field is passed over.
A field declared more than once is visited once per declaration, each visit finding what the one
before left.
-/
namespace OptimisticStore

/-- A walk's schemas and scenario. Of two schemas for a type the later one holds; a type without a
schema has no fields. -/
structure Walker where
  schemas : List Schema
  scenario : Option String := none
deriving DecidableEq

namespace Walker

def schemaOf (walker : Walker) (type : String) : Schema :=
  (walker.schemas.reverse.find? fun schema => schema.typeName == type).getD { typeName := type }

/-- The declarations under which a field of a type is visited, as the targets they give to
references; a field of inline values gives none. -/
def visits (walker : Walker) (type field : String) : List (Option String) :=
  (((walker.schemaOf type).fieldsFor walker.scenario).filter fun declared =>
    declared.name == field).map fun declared => declared.kind.target?

end Walker

mutual

def Ref.waiting (walker : Walker) (target : Option String) : Ref → List (String × RelationKey)
  | .null => []
  | .pending key => target.toList.map (·, key)
  | .loaded _ node => if target.isSome then node.waiting walker else []
  | .dangling _ => []

def Content.waiting (walker : Walker) (target : Option String) :
    Content → List (String × RelationKey)
  | .reference _ ref => ref.waiting walker target
  | .node node => node.waiting walker
  | .group _ members => members.waiting walker target

def Members.waiting (walker : Walker) (target : Option String) :
    Members → List (String × RelationKey)
  | .nil => []
  | .cons _ content rest => content.waiting walker target ++ rest.waiting walker target

def Members.waitingFields (walker : Walker) (type : String) : Members → List (String × RelationKey)
  | .nil => []
  | .cons field content rest =>
    (walker.visits type field).flatMap (fun target => content.waiting walker target) ++
      rest.waitingFields walker type

def Node.waiting (walker : Walker) : Node → List (String × RelationKey)
  | .mk type _ fields => fields.waitingFields walker type

end

namespace Walker

def frontier (walker : Walker) (root : Node) : Registry := .ofPairs (root.waiting walker)

end Walker

inductive Offer where
  | found (node : Node)
  /-- Asked for and not returned, or returned as something that the reference cannot hold. -/
  | missing
  | nothing

def Resolved.offer (resolved : Resolved) (holds : RefType) (target : String) (key : RelationKey) :
    Offer :=
  match resolved.get? target key with
  | some value => match value.as? holds with
    | some node => .found node
    | none => .missing
  | none => if resolved.wasRequested target key then .missing else .nothing

/-- Further visits of a field that has been visited: the targets of the visits, what the visits before
left, and how many references they loaded. -/
abbrev Revisit := List (Option String) → Content × Nat → Content × Nat

mutual

def Ref.inject (walker : Walker) (resolved : Resolved) (revisit : Revisit) (target : Option String)
    (holds : RefType) : Ref → Ref × Nat
  | .null => (.null, 0)
  | .pending key =>
    match target.map fun target => resolved.offer holds target key with
    | some (.found node) => (.loaded key node, 1)
    | some .missing => (.dangling key, 0)
    | _ => (.pending key, 0)
  | .loaded key node =>
    if target.isSome then
      let (filled, count) := node.injectWith walker resolved revisit
      (.loaded key filled, count)
    else (.loaded key node, 0)
  | .dangling key => (.dangling key, 0)

def Content.inject (walker : Walker) (resolved : Resolved) (revisit : Revisit)
    (target : Option String) : Content → Content × Nat
  | .reference holds ref =>
    let (filled, count) := ref.inject walker resolved revisit target holds
    (.reference holds filled, count)
  | .node node =>
    let (filled, count) := node.injectWith walker resolved revisit
    (.node filled, count)
  | .group shape members =>
    let (filled, count) := members.inject walker resolved revisit target
    (.group shape filled, count)

def Members.inject (walker : Walker) (resolved : Resolved) (revisit : Revisit)
    (target : Option String) : Members → Members × Nat
  | .nil => (.nil, 0)
  | .cons label content rest =>
    let (filled, count) := content.inject walker resolved revisit target
    let (others, more) := rest.inject walker resolved revisit target
    (.cons label filled others, count + more)

def Members.injectFields (walker : Walker) (resolved : Resolved) (revisit : Revisit)
    (type : String) : Members → Members × Nat
  | .nil => (.nil, 0)
  | .cons field content rest =>
    let (filled, count) := match walker.visits type field with
      | [] => (content, 0)
      | target :: others => revisit others (content.inject walker resolved revisit target)
    let (others, more) := rest.injectFields walker resolved revisit type
    (.cons field filled others, count + more)

def Node.injectWith (walker : Walker) (resolved : Resolved) (revisit : Revisit) : Node → Node × Nat
  | .mk type columns fields =>
    let (filled, count) := fields.injectFields walker resolved revisit type
    (.mk type columns filled, count)

end

mutual

def Ref.height : Ref → Nat
  | .loaded _ node => node.height
  | _ => 0

def Content.height : Content → Nat
  | .reference _ ref => ref.height
  | .node node => node.height
  | .group _ members => members.height

def Members.height : Members → Nat
  | .nil => 0
  | .cons _ content rest => max content.height rest.height

def Node.height : Node → Nat
  | .mk _ _ fields => fields.height + 1

end

namespace Resolved

def heights (values : SortedMap RelationKey LoadedValue) : Nat :=
  (values.entries.map fun entry => match entry.2 with
    | .node node => node.height
    | .foreign => 0).foldr (· + ·) 0

def height (resolved : Resolved) : Nat :=
  (resolved.values.entries.map fun entry => heights entry.2).foldr (· + ·) 0

end Resolved

namespace Walker

def revisits (walker : Walker) (resolved : Resolved) : Nat → Revisit
  | 0, _, before => before
  | depth + 1, targets, before => targets.foldl (fun before target =>
      let (filled, count) :=
        before.1.inject walker resolved (walker.revisits resolved depth) target
      (filled, before.2 + count)) before

/-- Fill the references that wait for what was resolved, and count those that became loaded. Nodes
lie within each other at most as deep as the graph is high with every resolved node put into it. -/
def inject (walker : Walker) (resolved : Resolved) (root : Node) : Node × Nat :=
  root.injectWith walker resolved (walker.revisits resolved (root.height + resolved.height))

end Walker

end OptimisticStore
