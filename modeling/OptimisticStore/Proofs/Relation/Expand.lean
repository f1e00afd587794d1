import OptimisticStore.Relation.Expand
/-!
How expansions of a graph compose.

Main statements: `Node.expand_of_idle`, by which a graph that waits for nothing is expanded already, and
`Node.expand_step`, by which expanding one step and then `depth` more is expanding `depth + 1` at once.
-/
namespace OptimisticStore

variable {tables : Tables} {walker : Walker} {inside : Option Inside}

mutual

theorem Ref.expandWith_of_idle {target : Option String} {holds : RefType} : (ref : Ref) →
    (inside.isSome → ref.waiting walker target = []) →
    ref.expandWith tables walker inside target holds = ref
  | .null, _ => rfl
  | .dangling _, _ => rfl
  | .pending key, idle => by
    cases target with
    | none => rfl
    | some target =>
      cases inside with
      | none => rfl
      | some inside => simp [Ref.waiting] at idle
  | .loaded key node, idle => by
    unfold Ref.expandWith
    unfold Ref.waiting at idle
    cases declared : target.isSome with
    | false => rfl
    | true =>
      simp only [declared, if_true] at idle ⊢
      rw [Node.expandWith_of_idle node idle]

theorem Content.expandWith_of_idle {target : Option String} : (content : Content) →
    (inside.isSome → content.waiting walker target = []) →
    content.expandWith tables walker inside target = content
  | .reference holds ref, idle => by
    unfold Content.waiting at idle
    unfold Content.expandWith
    rw [Ref.expandWith_of_idle ref idle]
  | .node node, idle => by
    unfold Content.waiting at idle
    unfold Content.expandWith
    rw [Node.expandWith_of_idle node idle]
  | .group shape members, idle => by
    unfold Content.waiting at idle
    unfold Content.expandWith
    rw [Members.expandWith_of_idle members idle]

theorem Members.expandWith_of_idle {target : Option String} : (members : Members) →
    (inside.isSome → members.waiting walker target = []) →
    members.expandWith tables walker inside target = members
  | .nil, _ => rfl
  | .cons label content rest, idle => by
    unfold Members.waiting at idle
    simp only [List.append_eq_nil_iff] at idle
    unfold Members.expandWith
    rw [Content.expandWith_of_idle content fun putting => (idle putting).1,
      Members.expandWith_of_idle rest fun putting => (idle putting).2]

theorem Members.expandFields_of_idle {type : String} : (members : Members) →
    (inside.isSome → members.waitingFields walker type = []) →
    members.expandFields tables walker inside type = members
  | .nil, _ => rfl
  | .cons field content rest, idle => by
    unfold Members.waitingFields at idle
    simp only [List.append_eq_nil_iff] at idle
    unfold Members.expandFields
    rw [Members.expandFields_of_idle rest fun putting => (idle putting).2]
    cases visits : walker.visits type field with
    | nil => rfl
    | cons target others =>
      have first : inside.isSome → content.waiting walker target = [] := by
        intro putting
        have none := (idle putting).1
        simp only [visits, List.flatMap_cons, List.append_eq_nil_iff] at none
        exact none.1
      simp only [Content.expandWith_of_idle content first]

theorem Node.expandWith_of_idle : (node : Node) →
    (inside.isSome → node.waiting walker = []) → node.expandWith tables walker inside = node
  | .mk type columns fields, idle => by
    unfold Node.waiting at idle
    unfold Node.expandWith
    rw [Members.expandFields_of_idle fields idle]

end

abbrev Inside.ofExpansion (tables : Tables) (walker : Walker) (inside : Option Inside) : Inside :=
  fun node => node.expandWith tables walker inside

mutual

/-- Putting in nodes as they are, and then expanding all, expands each node as it is put in. -/
theorem Ref.expandWith_expandWith {target : Option String} {holds : RefType} : (ref : Ref) →
    (ref.expandWith tables walker (some id) target holds).expandWith tables walker inside target holds =
      ref.expandWith tables walker (some (.ofExpansion tables walker inside)) target holds
  | .null => rfl
  | .dangling _ => rfl
  | .pending key => by
    cases target with
    | none => rfl
    | some target =>
      cases found : (tables target key).bind (·.as? holds) with
      | none => simp only [Ref.expandWith, found]
      | some node => simp only [Ref.expandWith, found, Option.isSome_some, if_true, id]
  | .loaded key node => by
    cases target with
    | none => rfl
    | some target =>
      have inner := Node.expandWith_expandWith node
      simp only [Ref.expandWith, Option.isSome_some, if_true, inner]

theorem Content.expandWith_expandWith {target : Option String} : (content : Content) →
    (content.expandWith tables walker (some id) target).expandWith tables walker inside target =
      content.expandWith tables walker (some (.ofExpansion tables walker inside)) target
  | .reference holds ref => by
    simp only [Content.expandWith]
    rw [Ref.expandWith_expandWith ref]
  | .node node => by
    simp only [Content.expandWith]
    rw [Node.expandWith_expandWith node]
  | .group shape members => by
    simp only [Content.expandWith]
    rw [Members.expandWith_expandWith members]

theorem Members.expandWith_expandWith {target : Option String} : (members : Members) →
    (members.expandWith tables walker (some id) target).expandWith tables walker inside target =
      members.expandWith tables walker (some (.ofExpansion tables walker inside)) target
  | .nil => rfl
  | .cons label content rest => by
    simp only [Members.expandWith]
    rw [Content.expandWith_expandWith content, Members.expandWith_expandWith rest]

theorem Members.expandFields_expandFields {type : String} : (members : Members) →
    (members.expandFields tables walker (some id) type).expandFields tables walker inside type =
      members.expandFields tables walker (some (.ofExpansion tables walker inside)) type
  | .nil => rfl
  | .cons field content rest => by
    simp only [Members.expandFields]
    rw [Members.expandFields_expandFields rest]
    cases walker.visits type field with
    | nil => rfl
    | cons target others => simp only [Content.expandWith_expandWith content]

theorem Node.expandWith_expandWith : (node : Node) →
    (node.expandWith tables walker (some id)).expandWith tables walker inside =
      node.expandWith tables walker (some (.ofExpansion tables walker inside))
  | .mk type columns fields => by
    simp only [Node.expandWith]
    rw [Members.expandFields_expandFields fields]

end

namespace Node

variable {node : Node}

theorem expand_zero : node.expand tables walker 0 = node :=
  expandWith_of_idle node nofun

theorem expand_of_idle (depth : Nat) (idle : node.waiting walker = []) :
    node.expand tables walker depth = node := by
  cases depth with
  | zero => exact expandWith_of_idle node fun _ => idle
  | succ depth => exact expandWith_of_idle node fun _ => idle

theorem expand_step (depth : Nat) :
    (node.expandWith tables walker (some id)).expand tables walker depth =
      node.expand tables walker (depth + 1) := by
  cases depth with
  | zero => exact expandWith_expandWith node
  | succ depth => exact expandWith_expandWith node

end Node

end OptimisticStore
