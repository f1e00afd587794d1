import OptimisticStore.Proofs.Relation.Expand
import OptimisticStore.Proofs.Relation.Registry
/-!
What one pass over a graph puts in.

Main statement: `Walker.inject_spec`. If every field is declared once and everything that the graph waits
for has been answered from the tables, filling the references expands the graph by one step; and if none
became loaded, the graph waits for nothing more.
-/
namespace OptimisticStore

namespace Schema

theorem filter_name_cases {fields : List FieldSpec} (once : (fields.map FieldSpec.name).Nodup)
    (name : String) : fields.filter (·.name == name) = [] ∨
      ∃ field, fields.filter (·.name == name) = [field] := by
  induction fields with
  | nil => exact .inl rfl
  | cons field rest ih =>
    rw [List.map_cons, List.nodup_cons] at once
    obtain ⟨apart, once⟩ := once
    by_cases same : field.name = name
    · have none : rest.filter (·.name == name) = [] := by
        rw [List.filter_eq_nil_iff]
        intro other later equal
        have named : other.name = field.name := (beq_iff_eq.mp equal).trans same.symm
        apply apart
        rw [← named]
        exact List.mem_map_of_mem later
      rw [List.filter_cons_of_pos (by simpa using same), none]
      exact .inr ⟨field, rfl⟩
    · rw [List.filter_cons_of_neg (by simpa using same)]
      exact ih once

theorem fieldsFor_sublist (schema : Schema) (scenario : Option String) :
    (schema.fieldsFor scenario).Sublist schema.fields := by
  unfold fieldsFor
  dsimp only
  split
  · exact .refl _
  · split
    · exact .refl _
    · exact List.filter_sublist

end Schema

namespace Walker

variable {walker : Walker}

theorem schemaOf_declaresOnce (once : ∀ schema ∈ walker.schemas, schema.DeclaresOnce) (type : String) :
    (walker.schemaOf type).DeclaresOnce := by
  unfold schemaOf
  cases found : walker.schemas.reverse.find? fun schema => schema.typeName == type with
  | none => exact List.nodup_nil
  | some schema =>
    have within := List.mem_of_find?_eq_some found
    exact once schema (List.mem_reverse.mp within)

theorem visits_cases (once : ∀ schema ∈ walker.schemas, schema.DeclaresOnce) (type field : String) :
    walker.visits type field = [] ∨ ∃ target, walker.visits type field = [target] := by
  have declared : (((walker.schemaOf type).fieldsFor walker.scenario).map FieldSpec.name).Nodup :=
    (schemaOf_declaresOnce once type).sublist ((Schema.fieldsFor_sublist _ _).map _)
  unfold visits
  rcases Schema.filter_name_cases declared field with none | ⟨spec, one⟩
  · rw [none]
    exact .inl rfl
  · rw [one]
    exact .inr ⟨spec.kind.target?, rfl⟩

theorem revisits_nil {resolved : Resolved} (depth : Nat) (before : Content × Nat) :
    walker.revisits resolved depth [] before = before := by
  cases depth with
  | zero => rfl
  | succ depth => rfl

end Walker

variable {tables : Tables} {walker : Walker} {resolved : Resolved} {revisit : Revisit}

theorem Resolved.offer_of_answers (holds : RefType) {target : String} {key : RelationKey}
    (answered : resolved.Answers tables (target, key)) :
    resolved.offer holds target key = match (tables target key).bind (·.as? holds) with
      | some node => .found node
      | none => .missing := by
  obtain ⟨requested, same⟩ := answered
  unfold offer
  rw [same]
  cases tables target key with
  | none => simp only [requested, if_true, Option.bind_none]
  | some value => rfl

structure Fills {α : Type} (waiting : α → List (String × RelationKey)) (filled : α × Nat)
    (expanded : α) : Prop where
  same : filled.1 = expanded
  finished : filled.2 = 0 → waiting expanded = []

section Passes

-- Each theorem of the block needs these for the others.
set_option linter.unusedSectionVars false

variable (once : ∀ schema ∈ walker.schemas, schema.DeclaresOnce)
  (still : ∀ before, revisit [] before = before)

include once still

mutual

/-- Filling a reference whose pairs have been answered expands it by one step. -/
theorem Ref.inject_fills {target : Option String} (holds : RefType) : (ref : Ref) →
    (∀ pair ∈ ref.waiting walker target, resolved.Answers tables pair) →
    Fills (Ref.waiting walker target) (ref.inject walker resolved revisit target holds)
      (ref.expandWith tables walker (some id) target holds)
  | .null, _ => ⟨rfl, fun _ => rfl⟩
  | .dangling _, _ => ⟨rfl, fun _ => rfl⟩
  | .pending key, answered => by
    cases target with
    | none => exact ⟨rfl, fun _ => rfl⟩
    | some target =>
      have here : resolved.Answers tables (target, key) := by
        apply answered
        simp [Ref.waiting]
      have offered := Resolved.offer_of_answers holds here
      cases found : (tables target key).bind (·.as? holds) with
      | none =>
        rw [found] at offered
        simp only [Ref.inject, Ref.expandWith, Option.map_some, offered, found]
        exact ⟨rfl, fun _ => rfl⟩
      | some node =>
        rw [found] at offered
        simp only [Ref.inject, Ref.expandWith, Option.map_some, offered, found]
        exact ⟨rfl, nofun⟩
  | .loaded key node, answered => by
    cases target with
    | none => exact ⟨rfl, fun _ => rfl⟩
    | some target =>
      obtain ⟨same, finished⟩ := Node.inject_fills node answered
      exact ⟨congrArg (Ref.loaded key) same, finished⟩

theorem Content.inject_fills {target : Option String} : (content : Content) →
    (∀ pair ∈ content.waiting walker target, resolved.Answers tables pair) →
    Fills (Content.waiting walker target) (content.inject walker resolved revisit target)
      (content.expandWith tables walker (some id) target)
  | .reference holds ref, answered => by
    obtain ⟨same, finished⟩ := Ref.inject_fills holds ref answered
    exact ⟨congrArg (Content.reference holds) same, finished⟩
  | .node node, answered => by
    obtain ⟨same, finished⟩ := Node.inject_fills node answered
    exact ⟨congrArg Content.node same, finished⟩
  | .group shape members, answered => by
    obtain ⟨same, finished⟩ := Members.inject_fills members answered
    exact ⟨congrArg (Content.group shape) same, finished⟩

theorem Members.inject_fills {target : Option String} : (members : Members) →
    (∀ pair ∈ members.waiting walker target, resolved.Answers tables pair) →
    Fills (Members.waiting walker target) (members.inject walker resolved revisit target)
      (members.expandWith tables walker (some id) target)
  | .nil, _ => ⟨rfl, fun _ => rfl⟩
  | .cons label content rest, answered => by
    obtain ⟨same, finished⟩ := Content.inject_fills content fun pair among =>
      answered pair (List.mem_append_left _ among)
    obtain ⟨others, more⟩ := Members.inject_fills rest fun pair among =>
      answered pair (List.mem_append_right _ among)
    constructor
    · simp only [Members.inject, Members.expandWith, same, others]
    · intro none
      have both : _ ∧ _ := Nat.add_eq_zero_iff.mp none
      simp only [Members.expandWith, Members.waiting, List.append_eq_nil_iff]
      exact ⟨finished both.1, more both.2⟩

theorem Members.injectFields_fills {type : String} : (members : Members) →
    (∀ pair ∈ members.waitingFields walker type, resolved.Answers tables pair) →
    Fills (Members.waitingFields walker type) (members.injectFields walker resolved revisit type)
      (members.expandFields tables walker (some id) type)
  | .nil, _ => ⟨rfl, fun _ => rfl⟩
  | .cons field content rest, answered => by
    obtain ⟨others, more⟩ := Members.injectFields_fills rest fun pair among =>
      answered pair (List.mem_append_right _ among)
    rcases Walker.visits_cases once type field with unvisited | ⟨target, visited⟩
    · constructor
      · simp only [Members.injectFields, Members.expandFields, unvisited, others]
      · intro none
        simp only [Members.injectFields, unvisited, Nat.zero_add] at none
        simp only [Members.expandFields, Members.waitingFields, unvisited, List.flatMap_nil,
          List.nil_append]
        exact more none
    · obtain ⟨same, finished⟩ := Content.inject_fills content fun pair among => by
        apply answered pair
        simp only [Members.waitingFields, visited, List.flatMap_cons, List.flatMap_nil,
          List.append_nil]
        exact List.mem_append_left _ among
      constructor
      · simp only [Members.injectFields, Members.expandFields, visited, still, same, others]
      · intro none
        simp only [Members.injectFields, visited, still, Nat.add_eq_zero_iff] at none
        simp only [Members.expandFields, Members.waitingFields, visited, List.flatMap_cons,
          List.flatMap_nil, List.append_nil, List.append_eq_nil_iff]
        exact ⟨finished none.1, more none.2⟩

theorem Node.inject_fills : (node : Node) →
    (∀ pair ∈ node.waiting walker, resolved.Answers tables pair) →
    Fills (Node.waiting walker) (node.injectWith walker resolved revisit)
      (node.expandWith tables walker (some id))
  | .mk type columns fields, answered => by
    obtain ⟨same, finished⟩ := Members.injectFields_fills fields answered
    exact ⟨congrArg (Node.mk type columns) same, finished⟩

end

end Passes

/-- A pass that has answers to everything expands the graph by one step, and has come to an end if it
loads nothing. -/
theorem Walker.inject_spec (once : ∀ schema ∈ walker.schemas, schema.DeclaresOnce) {root : Node}
    (answered : ∀ pair ∈ root.waiting walker, resolved.Answers tables pair) :
    Fills (Node.waiting walker) (walker.inject resolved root)
      (root.expandWith tables walker (some id)) :=
  Node.inject_fills once (Walker.revisits_nil _) root answered

end OptimisticStore
