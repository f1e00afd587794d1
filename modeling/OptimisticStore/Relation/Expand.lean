import OptimisticStore.Relation.Walk
/-!
What loading a graph is to bring about, said reference by reference.

`Node.expand tables walker depth` replaces every waiting reference that the walk reaches by what the
tables hold for it, and goes on inside the replacement with one step less. No batches, no passes and
no registry occur in it.
-/
namespace OptimisticStore

abbrev Tables := String → RelationKey → Option LoadedValue

abbrev Inside := Node → Node

mutual

def Ref.expandWith (tables : Tables) (walker : Walker) (inside : Option Inside)
    (target : Option String) (holds : RefType) : Ref → Ref
  | .null => .null
  | .pending key =>
    match target, inside with
    | some target, some inside => match (tables target key).bind (·.as? holds) with
      | some node => .loaded key (inside node)
      | none => .dangling key
    | _, _ => .pending key
  | .loaded key node =>
    if target.isSome then .loaded key (node.expandWith tables walker inside) else .loaded key node
  | .dangling key => .dangling key

def Content.expandWith (tables : Tables) (walker : Walker) (inside : Option Inside)
    (target : Option String) : Content → Content
  | .reference holds ref => .reference holds (ref.expandWith tables walker inside target holds)
  | .node node => .node (node.expandWith tables walker inside)
  | .group shape members => .group shape (members.expandWith tables walker inside target)

def Members.expandWith (tables : Tables) (walker : Walker) (inside : Option Inside)
    (target : Option String) : Members → Members
  | .nil => .nil
  | .cons label content rest => .cons label (content.expandWith tables walker inside target)
      (rest.expandWith tables walker inside target)

def Members.expandFields (tables : Tables) (walker : Walker) (inside : Option Inside)
    (type : String) : Members → Members
  | .nil => .nil
  | .cons field content rest =>
    let expanded := match walker.visits type field with
      | [] => content
      | target :: _ => content.expandWith tables walker inside target
    .cons field expanded (rest.expandFields tables walker inside type)

def Node.expandWith (tables : Tables) (walker : Walker) (inside : Option Inside) : Node → Node
  | .mk type columns fields => .mk type columns (fields.expandFields tables walker inside type)

end

/-- The graph with all references loaded that lie at most `depth` waiting references deep. -/
def Node.expand (tables : Tables) (walker : Walker) : Nat → Node → Node
  | 0, node => node.expandWith tables walker none
  | depth + 1, node => node.expandWith tables walker (some (expand tables walker depth))

end OptimisticStore
