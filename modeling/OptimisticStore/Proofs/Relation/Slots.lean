import OptimisticStore.Proofs.Relation.Reach
import OptimisticStore.Relation.Load
/-!
The places of a graph, and the references that a walk comes to at them.

A place is given by the positions on the way to it from the root. Main statement: `Walker.look_iff`, by which
looking at a graph finds the keys of exactly the pending references that are come to along selected fields.
-/
namespace OptimisticStore

namespace Content

/-- What a content consists of: the members of a group, or the fields of the node that is held. -/
def inside : Content → Members
  | .reference _ (.loaded _ held) => held.fields
  | .reference _ _ => .nil
  | .node held => held.fields
  | .group _ members => members

def follow (content : Content) : List Nat → Option Content
  | [] => some content
  | i :: path => content.inside.toList[i]?.bind fun entry => entry.2.follow path

def emptied : Content → Content
  | .reference holds (.loaded key (.mk type columns _)) =>
    .reference holds (.loaded key (.mk type columns .nil))
  | .reference holds ref => .reference holds ref
  | .node (.mk type columns _) => .node (.mk type columns .nil)
  | .group shape _ => .group shape .nil

def outline (content : Content) : Content × List String :=
  (content.emptied, content.inside.toList.map Prod.fst)

end Content

inductive Node.Leads (walker : Walker) (node : Node) : Nat → Option String → Content → Prop where
  | field {i : Nat} {label : String} {part : Content} {declared : FieldSpec}
      (here : node.fields.toList[i]? = some (label, part))
      (selected : declared ∈ (walker.schemaOf node.type).fieldsFor walker.scenario)
      (named : declared.name = label) : Node.Leads walker node i declared.kind.target? part

/-- A walk goes on from a content, visited under a target, to a part of it: to the members of a group under
the same target, and into nodes that are held inline or by a loaded reference with a target. -/
inductive Content.Leads (walker : Walker) :
    Option String → Content → Nat → Option String → Content → Prop where
  | member {target : Option String} {shape : Shape} {members : Members} {i : Nat} {label : String}
      {part : Content} (here : members.toList[i]? = some (label, part)) :
      Content.Leads walker target (.group shape members) i target part
  | inline {target next : Option String} {node : Node} {i : Nat} {part : Content}
      (field : node.Leads walker i next part) : Content.Leads walker target (.node node) i next part
  | loaded {outer : String} {next : Option String} {holds : RefType} {key : RelationKey} {node : Node}
      {i : Nat} {part : Content} (field : node.Leads walker i next part) :
      Content.Leads walker (some outer) (.reference holds (.loaded key node)) i next part

/-- A walk that visits a content under a target comes to a place of it, and visits what is there under
another target. -/
inductive Content.Reaches (walker : Walker) :
    Option String → Content → List Nat → Option String → Content → Prop where
  | here {target : Option String} {content : Content} :
      Content.Reaches walker target content [] target content
  | inside {target next last : Option String} {content part found : Content} {i : Nat} {path : List Nat}
      (leads : content.Leads walker target i next part)
      (onward : Content.Reaches walker next part path last found) :
      Content.Reaches walker target content (i :: path) last found

section Induction

-- Each theorem of the block needs this for the others.
set_option linter.unusedSectionVars false

variable {P : Content → Prop}
  (step : ∀ content : Content, (∀ entry ∈ content.inside.toList, P entry.2) → P content)

include step

mutual

theorem Ref.holds_inside (holds : RefType) : (ref : Ref) →
    ∀ entry ∈ (Content.reference holds ref).inside.toList, P entry.2
  | .null => nofun
  | .pending _ => nofun
  | .dangling _ => nofun
  | .loaded _ node => Node.holds_inside node

theorem Content.inside_induction : (content : Content) → P content
  | .reference holds ref => step _ (Ref.holds_inside holds ref)
  | .node node => step _ (Node.holds_inside node)
  | .group _ members => step _ (Members.holds_each members)

theorem Members.holds_each : (members : Members) → ∀ entry ∈ members.toList, P entry.2
  | .nil => nofun
  | .cons _ content rest => by
    intro entry among
    rcases List.mem_cons.mp among with rfl | among
    · exact Content.inside_induction content
    · exact Members.holds_each rest entry among

theorem Node.holds_inside : (node : Node) → ∀ entry ∈ node.fields.toList, P entry.2
  | .mk _ _ fields => Members.holds_each fields

end

end Induction

theorem Members.list_induction {P : Members → Prop} (nil : P .nil)
    (cons : ∀ label content rest, P rest → P (.cons label content rest)) (members : Members) : P members :=
  @Members.rec (fun _ => True) (fun _ => True) P (fun _ => True) trivial (fun _ => trivial)
    (fun _ _ _ => trivial) (fun _ => trivial) (fun _ _ _ => trivial) (fun _ _ => trivial)
    (fun _ _ _ => trivial) nil (fun label content rest _ => cons label content rest) (fun _ _ _ _ => trivial)
    members

namespace Node

def follow (root : Node) (path : List Nat) : Option Content := (Content.node root).follow path

/-- A walk from the root comes to a reference at a place that waits for a key of a target. -/
def Waits (walker : Walker) (root : Node) (path : List Nat) (holds : RefType) (target : String)
    (key : RelationKey) : Prop :=
  Content.Reaches walker none (.node root) path (some target) (.reference holds (.pending key))

end Node

section Waiting

variable {walker : Walker} {pair : String × RelationKey}

theorem Members.mem_waiting_iff_part {target : Option String} (members : Members) :
    pair ∈ members.waiting walker target ↔
      ∃ entry ∈ members.toList, pair ∈ entry.2.waiting walker target := by
  induction members using Members.list_induction with
  | nil => simp [waiting, toList]
  | cons label content rest ih =>
    simp only [waiting, toList, List.mem_append, List.exists_mem_cons_iff, ih]

theorem Members.mem_waitingFields_iff_part {type : String} (members : Members) :
    pair ∈ members.waitingFields walker type ↔ ∃ entry ∈ members.toList,
      ∃ next ∈ walker.visits type entry.1, pair ∈ entry.2.waiting walker next := by
  induction members using Members.list_induction with
  | nil => simp [waitingFields, toList]
  | cons field content rest ih =>
    simp only [waitingFields, toList, List.mem_append, List.mem_flatMap, List.exists_mem_cons_iff, ih]

theorem Node.mem_waiting_iff_leads {node : Node} :
    pair ∈ node.waiting walker ↔
      ∃ i next part, node.Leads walker i next part ∧ pair ∈ part.waiting walker next := by
  cases node with
  | mk type columns fields =>
    simp only [waiting, Members.mem_waitingFields_iff_part]
    constructor
    · rintro ⟨⟨label, part⟩, among, next, visited, waits⟩
      obtain ⟨i, here⟩ := List.mem_iff_getElem?.mp among
      obtain ⟨declared, selected, named, rfl⟩ := Walker.mem_visits_iff.mp visited
      exact ⟨i, _, part, .field here selected named, waits⟩
    · rintro ⟨i, next, part, leads, waits⟩
      cases leads with
      | field here selected named =>
        refine ⟨_, List.mem_of_getElem? here, _, ?_, waits⟩
        exact Walker.mem_visits_iff.mpr ⟨_, selected, named, rfl⟩

theorem Content.mem_waiting_iff_leads {target : Option String} {content : Content} :
    pair ∈ content.waiting walker target ↔
      (∃ holds, target = some pair.1 ∧ content = .reference holds (.pending pair.2)) ∨
        ∃ i next part, content.Leads walker target i next part ∧ pair ∈ part.waiting walker next := by
  cases content with
  | reference holds ref =>
    cases ref with
    | null | dangling =>
      constructor
      · intro waits
        cases waits
      · rintro (⟨_, _, ⟨⟩⟩ | ⟨_, _, _, ⟨⟩, _⟩)
    | pending key =>
      cases target with
      | none =>
        constructor
        · intro waits
          cases waits
        · rintro (⟨_, ⟨⟩, _⟩ | ⟨_, _, _, ⟨⟩, _⟩)
      | some target =>
        simp only [waiting, Ref.waiting, Option.toList_some, List.map_cons, List.map_nil,
          List.mem_singleton]
        constructor
        · rintro rfl
          exact .inl ⟨holds, rfl, rfl⟩
        · rintro (⟨_, same, same'⟩ | ⟨_, _, _, ⟨⟩, _⟩)
          cases same
          cases same'
          rfl
    | loaded key node =>
      cases target with
      | none =>
        constructor
        · intro waits
          cases waits
        · rintro (⟨_, ⟨⟩, _⟩ | ⟨_, _, _, ⟨⟩, _⟩)
      | some target =>
        simp only [waiting, Ref.waiting, Option.isSome_some, if_true, Node.mem_waiting_iff_leads]
        constructor
        · rintro ⟨i, next, part, leads, waits⟩
          exact .inr ⟨i, next, part, .loaded leads, waits⟩
        · rintro (⟨_, _, ⟨⟩⟩ | ⟨i, next, part, leads, waits⟩)
          cases leads with
          | loaded field => exact ⟨i, next, part, field, waits⟩
  | node node =>
    simp only [waiting, Node.mem_waiting_iff_leads]
    constructor
    · rintro ⟨i, next, part, leads, waits⟩
      exact .inr ⟨i, next, part, .inline leads, waits⟩
    · rintro (⟨_, _, ⟨⟩⟩ | ⟨i, next, part, leads, waits⟩)
      cases leads with
      | inline field => exact ⟨i, next, part, field, waits⟩
  | group shape members =>
    simp only [waiting, Members.mem_waiting_iff_part]
    constructor
    · rintro ⟨⟨label, part⟩, among, waits⟩
      obtain ⟨i, here⟩ := List.mem_iff_getElem?.mp among
      exact .inr ⟨i, target, part, .member here, waits⟩
    · rintro (⟨_, _, ⟨⟩⟩ | ⟨i, next, part, leads, waits⟩)
      cases leads with
      | member here => exact ⟨_, List.mem_of_getElem? here, waits⟩

theorem Content.Leads.part {target next : Option String} {content part : Content} {i : Nat}
    (leads : content.Leads walker target i next part) :
    ∃ label, content.inside.toList[i]? = some (label, part) := by
  cases leads with
  | member here => exact ⟨_, here⟩
  | inline field =>
    cases field with
    | field here _ _ => exact ⟨_, here⟩
  | loaded field =>
    cases field with
    | field here _ _ => exact ⟨_, here⟩

/-- A content waits for the keys of the pending references in it that a walk comes to, each under the target
that it is visited under. -/
theorem Content.mem_waiting_iff_reaches {target : Option String} {content : Content} :
    pair ∈ content.waiting walker target ↔ ∃ path holds,
      content.Reaches walker target path (some pair.1) (.reference holds (.pending pair.2)) := by
  induction content using Content.inside_induction generalizing target with
  | step content ih =>
    rw [mem_waiting_iff_leads]
    constructor
    · rintro (⟨holds, rfl, rfl⟩ | ⟨i, next, part, leads, waits⟩)
      · exact ⟨[], holds, .here⟩
      · obtain ⟨label, here⟩ := leads.part
        obtain ⟨path, holds, onward⟩ := (ih _ (List.mem_of_getElem? here)).mp waits
        exact ⟨i :: path, holds, .inside leads onward⟩
    · rintro ⟨path, holds, reaches⟩
      cases reaches with
      | here => exact .inl ⟨holds, rfl, rfl⟩
      | inside leads onward =>
        obtain ⟨label, here⟩ := leads.part
        exact .inr ⟨_, _, _, leads, (ih _ (List.mem_of_getElem? here)).mpr ⟨_, holds, onward⟩⟩

theorem Content.Reaches.follow {target last : Option String} {content found : Content} {path : List Nat}
    (reaches : content.Reaches walker target path last found) : content.follow path = some found := by
  induction reaches with
  | here => rfl
  | inside leads _ ih =>
    obtain ⟨label, here⟩ := leads.part
    rw [Content.follow, here]
    exact ih

/-- What a graph awaits are the keys of the references that a walk finds pending at some place. -/
theorem Node.awaits_iff_waits {root : Node} :
    root.Awaits walker pair ↔ ∃ path holds, root.Waits walker path holds pair.1 pair.2 := by
  have waiting : pair ∈ (Content.node root).waiting walker none ↔
      ∃ path holds, root.Waits walker path holds pair.1 pair.2 := Content.mem_waiting_iff_reaches
  exact (Node.mem_waiting_iff root).symm.trans waiting

end Waiting

theorem Walker.look_iff {walker : Walker} {loading : Loading} {target : String} {key : RelationKey} :
    (walker.look loading).registry.contains target key = true ↔
      ∃ path holds, loading.root.Waits walker path holds target key := by
  have looked : (walker.look loading).registry = walker.frontier loading.root := rfl
  have listed : (target, key) ∈ (walker.frontier loading.root).pairs ↔
      loading.root.Awaits walker (target, key) := mem_frontier_iff
  unfold Registry.contains
  rw [SortedSet.contains_iff, looked]
  exact Registry.mem_pairs_iff.symm.trans (listed.trans Node.awaits_iff_waits)

end OptimisticStore
