import OptimisticStore.Proofs.Relation.Registry
/-!
Which references of a graph wait to be loaded, said by the path that leads to them.

Main statements: `Node.mem_waiting_iff`, by which a walk lists exactly the references that can be reached
along the selected fields, and `Registry.mem_pairs_ofPairs` and `Registry.length_pairs`, by which a registry
holds each pair once.
-/
namespace OptimisticStore

mutual

/-- A reference in a field with a target awaits a key of that target if it is pending, and otherwise what
the node it holds awaits. In a field without one it awaits nothing. -/
inductive Ref.Awaits (walker : Walker) : Option String → Ref → String × RelationKey → Prop where
  | pending {target : String} {key : RelationKey} :
      Ref.Awaits walker (some target) (.pending key) (target, key)
  | loaded {target : String} {key : RelationKey} {node : Node} {pair : String × RelationKey}
      (within : Node.Awaits walker node pair) : Ref.Awaits walker (some target) (.loaded key node) pair

inductive Content.Awaits (walker : Walker) : Option String → Content → String × RelationKey → Prop where
  | reference {target : Option String} {holds : RefType} {ref : Ref} {pair : String × RelationKey}
      (within : Ref.Awaits walker target ref pair) : Content.Awaits walker target (.reference holds ref) pair
  | node {target : Option String} {node : Node} {pair : String × RelationKey}
      (within : Node.Awaits walker node pair) : Content.Awaits walker target (.node node) pair
  | group {target : Option String} {shape : Shape} {members : Members} {pair : String × RelationKey}
      (within : Members.Awaits walker target members pair) :
      Content.Awaits walker target (.group shape members) pair

inductive Members.Awaits (walker : Walker) : Option String → Members → String × RelationKey → Prop where
  | here {target : Option String} {label : String} {content : Content} {rest : Members}
      {pair : String × RelationKey} (within : Content.Awaits walker target content pair) :
      Members.Awaits walker target (.cons label content rest) pair
  | later {target : Option String} {label : String} {content : Content} {rest : Members}
      {pair : String × RelationKey} (within : Members.Awaits walker target rest pair) :
      Members.Awaits walker target (.cons label content rest) pair

inductive Members.AwaitsFields (walker : Walker) :
    String → Members → String × RelationKey → Prop where
  | here {type field : String} {content : Content} {rest : Members} {pair : String × RelationKey}
      (declared : FieldSpec) (selected : declared ∈ (walker.schemaOf type).fieldsFor walker.scenario)
      (named : declared.name = field)
      (within : Content.Awaits walker declared.kind.target? content pair) :
      Members.AwaitsFields walker type (.cons field content rest) pair
  | later {type field : String} {content : Content} {rest : Members} {pair : String × RelationKey}
      (within : Members.AwaitsFields walker type rest pair) :
      Members.AwaitsFields walker type (.cons field content rest) pair

inductive Node.Awaits (walker : Walker) : Node → String × RelationKey → Prop where
  | field {type : String} {columns : Columns} {fields : Members} {pair : String × RelationKey}
      (within : Members.AwaitsFields walker type fields pair) :
      Node.Awaits walker (.mk type columns fields) pair

end

theorem Walker.mem_visits_iff {walker : Walker} {type field : String} {target : Option String} :
    target ∈ walker.visits type field ↔
      ∃ declared ∈ (walker.schemaOf type).fieldsFor walker.scenario,
        declared.name = field ∧ declared.kind.target? = target := by
  simp only [visits, List.mem_map, List.mem_filter, beq_iff_eq, and_assoc]

section Waiting

variable {walker : Walker} {pair : String × RelationKey}

mutual

theorem Ref.mem_waiting_iff {target : Option String} : (ref : Ref) →
    (pair ∈ ref.waiting walker target ↔ Ref.Awaits walker target ref pair)
  | .null => ⟨nofun, nofun⟩
  | .dangling _ => ⟨nofun, nofun⟩
  | .pending key => by
    cases target with
    | none => exact ⟨nofun, nofun⟩
    | some target =>
      simp only [Ref.waiting, Option.toList_some, List.map_cons, List.map_nil, List.mem_singleton]
      constructor
      · rintro rfl
        exact .pending
      · rintro ⟨⟩
        rfl
  | .loaded key node => by
    cases target with
    | none => exact ⟨nofun, nofun⟩
    | some target =>
      have within := Node.mem_waiting_iff node
      constructor
      · intro among
        exact .loaded (within.mp among)
      · rintro ⟨⟩
        next awaits => exact within.mpr awaits

theorem Content.mem_waiting_iff {target : Option String} : (content : Content) →
    (pair ∈ content.waiting walker target ↔ Content.Awaits walker target content pair)
  | .reference holds ref => by
    have within := @Ref.mem_waiting_iff target ref
    exact ⟨fun among => .reference (within.mp among), fun | .reference awaits => within.mpr awaits⟩
  | .node node => by
    have within := Node.mem_waiting_iff node
    exact ⟨fun among => .node (within.mp among), fun | .node awaits => within.mpr awaits⟩
  | .group shape members => by
    have within := @Members.mem_waiting_iff target members
    exact ⟨fun among => .group (within.mp among), fun | .group awaits => within.mpr awaits⟩

theorem Members.mem_waiting_iff {target : Option String} : (members : Members) →
    (pair ∈ members.waiting walker target ↔ Members.Awaits walker target members pair)
  | .nil => ⟨nofun, nofun⟩
  | .cons label content rest => by
    have first := @Content.mem_waiting_iff target content
    have others := @Members.mem_waiting_iff target rest
    simp only [Members.waiting, List.mem_append]
    constructor
    · rintro (among | among)
      · exact .here (first.mp among)
      · exact .later (others.mp among)
    · rintro (awaits | awaits)
      · exact .inl (first.mpr awaits)
      · exact .inr (others.mpr awaits)

theorem Members.mem_waitingFields_iff {type : String} : (members : Members) →
    (pair ∈ members.waitingFields walker type ↔ Members.AwaitsFields walker type members pair)
  | .nil => ⟨nofun, nofun⟩
  | .cons field content rest => by
    have others := @Members.mem_waitingFields_iff type rest
    simp only [Members.waitingFields, List.mem_append, List.mem_flatMap, Walker.mem_visits_iff]
    constructor
    · rintro (⟨_, ⟨declared, selected, named, rfl⟩, among⟩ | among)
      · exact .here declared selected named (Content.mem_waiting_iff content |>.mp among)
      · exact .later (others.mp among)
    · rintro (⟨declared, selected, named, awaits⟩ | awaits)
      · exact .inl ⟨_, ⟨declared, selected, named, rfl⟩, Content.mem_waiting_iff content |>.mpr awaits⟩
      · exact .inr (others.mpr awaits)

theorem Node.mem_waiting_iff : (node : Node) →
    (pair ∈ node.waiting walker ↔ Node.Awaits walker node pair)
  | .mk type columns fields => by
    have within := @Members.mem_waitingFields_iff type fields
    exact ⟨fun among => .field (within.mp among), fun | .field awaits => within.mpr awaits⟩

end

end Waiting

namespace Registry

def pairs (registry : Registry) : List (String × RelationKey) :=
  registry.pending.entries.flatMap fun entry => entry.2.toList.map (entry.1, ·)

theorem length_pairs (registry : Registry) : registry.pairs.length = registry.size := by
  unfold pairs size SortedSet.size
  induction registry.pending.entries with
  | nil => rfl
  | cons entry rest ih => simp [ih]

theorem mem_pairs_iff {registry : Registry} {pair : String × RelationKey} :
    pair ∈ registry.pairs ↔ pair.2 ∈ registry.keysOf pair.1 := by
  obtain ⟨target, key⟩ := pair
  unfold pairs
  rw [List.mem_flatMap, mem_keysOf_iff]
  constructor
  · rintro ⟨⟨target, keys⟩, within, among⟩
    obtain ⟨key, held, same⟩ := List.mem_map.mp among
    obtain ⟨rfl, rfl⟩ := Prod.mk.inj same
    exact ⟨keys, SortedMap.mem_entries_iff.mp within, held⟩
  · rintro ⟨keys, found, held⟩
    exact ⟨(target, keys), SortedMap.mem_entries_iff.mpr found, List.mem_map_of_mem held⟩

theorem nodup_pairs (registry : Registry) : registry.pairs.Nodup := by
  unfold pairs
  rw [List.nodup_flatMap]
  constructor
  · intro entry _
    apply List.Nodup.map _ entry.2.ascending.nodup
    intro key other same
    exact (Prod.mk.inj same).2
  · apply SortedMap.entries_apart.imp
    intro one other apart pair among among'
    obtain ⟨_, _, rfl⟩ := List.mem_map.mp among
    obtain ⟨_, _, same⟩ := List.mem_map.mp among'
    exact apart (Prod.mk.inj same).1.symm

theorem isEmpty_iff_pairs {registry : Registry} : registry.isEmpty = true ↔ registry.pairs = [] := by
  simp [isEmpty, pairs, SortedSet.isEmpty]

theorem mem_pairs_ofPairs {pairs : List (String × RelationKey)} {pair : String × RelationKey} :
    pair ∈ (ofPairs pairs).pairs ↔ pair ∈ pairs :=
  mem_pairs_iff.trans mem_keysOf_ofPairs

end Registry

/-- The registry of a walk holds each awaited pair once. -/
theorem Walker.mem_frontier_iff {walker : Walker} {root : Node} {pair : String × RelationKey} :
    pair ∈ (walker.frontier root).pairs ↔ root.Awaits walker pair :=
  Registry.mem_pairs_ofPairs.trans (Node.mem_waiting_iff root)

theorem Walker.frontier_isEmpty_iff {walker : Walker} {root : Node} :
    (walker.frontier root).isEmpty = true ↔ ∀ pair, ¬ root.Awaits walker pair := by
  rw [Registry.isEmpty_iff_pairs, List.eq_nil_iff_forall_not_mem]
  simp only [mem_frontier_iff]

end OptimisticStore
