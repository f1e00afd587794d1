import OptimisticStore.Proofs.Relation.Reach
/-!
How a graph develops while references of it are filled, and how many of them become loaded.

Main statements: `Walker.inject_develops`, by which filling a graph loads as many references as it says,
and `Walker.inject_settles`, by which a graph of which everything was asked for, and nothing loaded, awaits
nothing any more. No field has to be declared only once.
-/
namespace OptimisticStore

mutual

/-- A reference becomes another while so many references become loaded. One that becomes loaded holds a
node that was brought for its key, which may have developed since. -/
inductive Ref.Develops (brought : RelationKey → Node → Prop) : Ref → Ref → Nat → Prop where
  | stays (ref : Ref) : Ref.Develops brought ref ref 0
  | misses (key : RelationKey) : Ref.Develops brought (.pending key) (.dangling key) 0
  | loads {key : RelationKey} {node after : Node} {loaded : Nat} (found : brought key node)
      (within : Node.Develops brought node after loaded) :
      Ref.Develops brought (.pending key) (.loaded key after) (loaded + 1)
  | within {key : RelationKey} {before after : Node} {loaded : Nat}
      (within : Node.Develops brought before after loaded) :
      Ref.Develops brought (.loaded key before) (.loaded key after) loaded

inductive Content.Develops (brought : RelationKey → Node → Prop) : Content → Content → Nat → Prop where
  | reference {holds : RefType} {before after : Ref} {loaded : Nat}
      (within : Ref.Develops brought before after loaded) :
      Content.Develops brought (.reference holds before) (.reference holds after) loaded
  | node {before after : Node} {loaded : Nat} (within : Node.Develops brought before after loaded) :
      Content.Develops brought (.node before) (.node after) loaded
  | group {shape : Shape} {before after : Members} {loaded : Nat}
      (within : Members.Develops brought before after loaded) :
      Content.Develops brought (.group shape before) (.group shape after) loaded

inductive Members.Develops (brought : RelationKey → Node → Prop) : Members → Members → Nat → Prop where
  | nil : Members.Develops brought .nil .nil 0
  | cons {label : String} {before after : Content} {rest others : Members} {loaded more : Nat}
      (first : Content.Develops brought before after loaded)
      (later : Members.Develops brought rest others more) :
      Members.Develops brought (.cons label before rest) (.cons label after others) (loaded + more)

inductive Node.Develops (brought : RelationKey → Node → Prop) : Node → Node → Nat → Prop where
  | mk {type : String} {columns : Columns} {before after : Members} {loaded : Nat}
      (within : Members.Develops brought before after loaded) :
      Node.Develops brought (.mk type columns before) (.mk type columns after) loaded

end

section Develops

variable {brought : RelationKey → Node → Prop} {loaded more : Nat}

mutual

theorem Content.Develops.refl : (content : Content) → Content.Develops brought content content 0
  | .reference _ ref => .reference (.stays ref)
  | .node node => .node (Node.Develops.refl node)
  | .group _ members => .group (Members.Develops.refl members)

theorem Members.Develops.refl : (members : Members) → Members.Develops brought members members 0
  | .nil => .nil
  | .cons _ content rest => .cons (Content.Develops.refl content) (Members.Develops.refl rest)

theorem Node.Develops.refl : (node : Node) → Node.Develops brought node node 0
  | .mk _ _ fields => .mk (Members.Develops.refl fields)

end

-- The recursion is on the graph in the middle, which the second development starts from.
mutual

theorem Ref.Develops.trans {first last : Ref} {loaded more : Nat} : (mid : Ref) →
    Ref.Develops brought first mid loaded → Ref.Develops brought mid last more →
    Ref.Develops brought first last (loaded + more)
  | .null, one, other => by
    cases one with
    | stays => exact (Nat.zero_add more).symm ▸ other
  | .pending _, one, other => by
    cases one with
    | stays => exact (Nat.zero_add more).symm ▸ other
  | .dangling _, one, other => by
    cases one with
    | stays => exact (Nat.zero_add more).symm ▸ other
    | misses =>
      cases other with
      | stays => exact .misses _
  | .loaded _ mid, one, other => by
    cases other with
    | stays => exact one
    | within further =>
      cases one with
      | stays => exact (Nat.zero_add more).symm ▸ .within further
      | within within => exact .within (Node.Develops.trans mid within further)
      | loads found within =>
        rw [Nat.add_right_comm]
        exact .loads found (Node.Develops.trans mid within further)

theorem Content.Develops.trans {first last : Content} {loaded more : Nat} : (mid : Content) →
    Content.Develops brought first mid loaded → Content.Develops brought mid last more →
    Content.Develops brought first last (loaded + more)
  | .reference _ mid, .reference one, .reference other => .reference (Ref.Develops.trans mid one other)
  | .node mid, .node one, .node other => .node (Node.Develops.trans mid one other)
  | .group _ mid, .group one, .group other => .group (Members.Develops.trans mid one other)

theorem Members.Develops.trans {first last : Members} {loaded more : Nat} : (mid : Members) →
    Members.Develops brought first mid loaded → Members.Develops brought mid last more →
    Members.Develops brought first last (loaded + more)
  | .nil, .nil, .nil => .nil
  | .cons _ mid rest, .cons one later, .cons other further => by
    rw [Nat.add_add_add_comm]
    exact .cons (Content.Develops.trans mid one other) (Members.Develops.trans rest later further)

theorem Node.Develops.trans {first last : Node} {loaded more : Nat} : (mid : Node) →
    Node.Develops brought first mid loaded → Node.Develops brought mid last more →
    Node.Develops brought first last (loaded + more)
  | .mk _ _ mid, .mk one, .mk other => .mk (Members.Develops.trans mid one other)

end

-- What else was brought does not matter.
mutual

theorem Ref.Develops.mono {wider : RelationKey → Node → Prop}
    (within : ∀ key node, brought key node → wider key node) {before after : Ref} {loaded : Nat} :
    Ref.Develops brought before after loaded → Ref.Develops wider before after loaded
  | .stays ref => .stays ref
  | .misses key => .misses key
  | .loads found inside => .loads (within _ _ found) (Node.Develops.mono within inside)
  | .within inside => .within (Node.Develops.mono within inside)

theorem Content.Develops.mono {wider : RelationKey → Node → Prop}
    (within : ∀ key node, brought key node → wider key node) {before after : Content} {loaded : Nat} :
    Content.Develops brought before after loaded → Content.Develops wider before after loaded
  | .reference inside => .reference (Ref.Develops.mono within inside)
  | .node inside => .node (Node.Develops.mono within inside)
  | .group inside => .group (Members.Develops.mono within inside)

theorem Members.Develops.mono {wider : RelationKey → Node → Prop}
    (within : ∀ key node, brought key node → wider key node) {before after : Members} {loaded : Nat} :
    Members.Develops brought before after loaded → Members.Develops wider before after loaded
  | .nil => .nil
  | .cons first later => .cons (Content.Develops.mono within first) (Members.Develops.mono within later)

theorem Node.Develops.mono {wider : RelationKey → Node → Prop}
    (within : ∀ key node, brought key node → wider key node) {before after : Node} {loaded : Nat} :
    Node.Develops brought before after loaded → Node.Develops wider before after loaded
  | .mk inside => .mk (Members.Develops.mono within inside)

end

section Calm

variable {walker : Walker}

-- If nothing becomes loaded, no node is put in: the recursion is on the graph before.
mutual

theorem Ref.Develops.height_le {after : Ref} {loaded : Nat} : (before : Ref) →
    Ref.Develops brought before after loaded → loaded = 0 → after.height ≤ before.height
  | _, .stays _, _ => Nat.le_refl _
  | _, .misses _, _ => Nat.le_refl _
  | .loaded _ before, .within within, calm => Node.Develops.height_le before within calm

theorem Content.Develops.height_le {after : Content} {loaded : Nat} : (before : Content) →
    Content.Develops brought before after loaded → loaded = 0 → after.height ≤ before.height
  | .reference _ before, .reference within, calm => Ref.Develops.height_le before within calm
  | .node before, .node within, calm => Node.Develops.height_le before within calm
  | .group _ before, .group within, calm => Members.Develops.height_le before within calm

theorem Members.Develops.height_le {after : Members} {loaded : Nat} : (before : Members) →
    Members.Develops brought before after loaded → loaded = 0 → after.height ≤ before.height
  | .nil, .nil, _ => Nat.le_refl _
  | .cons _ before rest, .cons first later, calm => by
    obtain ⟨calm, calm'⟩ := Nat.add_eq_zero_iff.mp calm
    have here := Content.Develops.height_le before first calm
    have others := Members.Develops.height_le rest later calm'
    simp only [Members.height]
    omega

theorem Node.Develops.height_le {after : Node} {loaded : Nat} : (before : Node) →
    Node.Develops brought before after loaded → loaded = 0 → after.height ≤ before.height
  | .mk _ _ before, .mk within, calm => Nat.succ_le_succ (Members.Develops.height_le before within calm)

end

mutual

theorem Ref.Develops.waiting_subset {target : Option String} {after : Ref} {loaded : Nat} : (before : Ref) →
    Ref.Develops brought before after loaded → loaded = 0 →
    after.waiting walker target ⊆ before.waiting walker target
  | _, .stays _, _ => List.Subset.refl _
  | _, .misses _, _ => List.nil_subset _
  | .loaded _ before, .within within, calm => by
    have inside := Node.Develops.waiting_subset before within calm
    simp only [Ref.waiting]
    split
    · exact inside
    · exact List.Subset.refl _

theorem Content.Develops.waiting_subset {target : Option String} {after : Content} {loaded : Nat} : (before : Content) →
    Content.Develops brought before after loaded → loaded = 0 →
    after.waiting walker target ⊆ before.waiting walker target
  | .reference _ before, .reference within, calm => Ref.Develops.waiting_subset before within calm
  | .node before, .node within, calm => Node.Develops.waiting_subset before within calm
  | .group _ before, .group within, calm => Members.Develops.waiting_subset before within calm

theorem Members.Develops.waiting_subset {target : Option String} {after : Members} {loaded : Nat} : (before : Members) →
    Members.Develops brought before after loaded → loaded = 0 →
    after.waiting walker target ⊆ before.waiting walker target
  | .nil, .nil, _ => List.Subset.refl _
  | .cons _ before rest, .cons first later, calm => by
    obtain ⟨calm, calm'⟩ := Nat.add_eq_zero_iff.mp calm
    have here := @Content.Develops.waiting_subset target _ _ before first calm
    have others := @Members.Develops.waiting_subset target _ _ rest later calm'
    intro pair among
    rcases List.mem_append.mp among with among | among
    · exact List.mem_append_left _ (here among)
    · exact List.mem_append_right _ (others among)

theorem Members.Develops.waitingFields_subset {type : String} {after : Members} {loaded : Nat} : (before : Members) →
    Members.Develops brought before after loaded → loaded = 0 →
    after.waitingFields walker type ⊆ before.waitingFields walker type
  | .nil, .nil, _ => List.Subset.refl _
  | .cons _ before rest, .cons first later, calm => by
    obtain ⟨calm, calm'⟩ := Nat.add_eq_zero_iff.mp calm
    have others := @Members.Develops.waitingFields_subset type _ _ rest later calm'
    intro pair among
    rcases List.mem_append.mp among with among | among
    · obtain ⟨target, visited, among⟩ := List.mem_flatMap.mp among
      have here := Content.Develops.waiting_subset before first calm among
      exact List.mem_append_left _ (List.mem_flatMap.mpr ⟨target, visited, here⟩)
    · exact List.mem_append_right _ (others among)

theorem Node.Develops.waiting_subset {after : Node} {loaded : Nat} : (before : Node) →
    Node.Develops brought before after loaded → loaded = 0 →
    after.waiting walker ⊆ before.waiting walker
  | .mk _ _ before, .mk within, calm => Members.Develops.waitingFields_subset before within calm

end

end Calm

end Develops

def Resolved.Brings (resolved : Resolved) (key : RelationKey) (node : Node) : Prop :=
  ∃ target, resolved.get? target key = some (.node node)

def Resolved.Asked (resolved : Resolved) (pairs : List (String × RelationKey)) : Prop :=
  ∀ pair ∈ pairs, resolved.wasRequested pair.1 pair.2 = true

/-- Visiting a field again counts the references that it loads; and where all that is awaited was asked
for, in a field with less than so many nodes within each other, nothing is awaited after visits that load
nothing. -/
structure Revisit.Steady (walker : Walker) (resolved : Resolved) (room : Nat) (revisit : Revisit) : Prop where
  develops : ∀ targets before, ∃ more, (revisit targets before).2 = before.2 + more ∧
    before.1.Develops resolved.Brings (revisit targets before).1 more
  settles : ∀ targets before, before.1.height < room →
    (∀ target ∈ targets, resolved.Asked (before.1.waiting walker target)) →
    (revisit targets before).2 = before.2 →
    ∀ target ∈ targets, (revisit targets before).1.waiting walker target = []

theorem Resolved.offer_cases {resolved : Resolved} (holds : RefType) {target : String} {key : RelationKey} :
    (∃ node, resolved.offer holds target key = .found node ∧ resolved.Brings key node) ∨
      resolved.offer holds target key = .missing ∨
      resolved.offer holds target key = .nothing ∧ resolved.wasRequested target key = false := by
  unfold offer
  cases found : resolved.get? target key with
  | none =>
    cases requested : resolved.wasRequested target key with
    | true => exact .inr (.inl rfl)
    | false => exact .inr (.inr ⟨rfl, rfl⟩)
  | some value =>
    cases value with
    | foreign => exact .inr (.inl rfl)
    | node node =>
      cases accepted : holds.accepts node with
      | true => exact .inl ⟨node, by simp only [LoadedValue.as?, accepted, if_true], target, found⟩
      | false =>
        exact .inr (.inl (by simp only [LoadedValue.as?, accepted, Bool.false_eq_true, if_false]))

theorem Content.Develops.settles_cons {walker : Walker} {resolved : Resolved} {target : Option String}
    {others : List (Option String)} {before filled last : Content}
    (first : before.Develops resolved.Brings filled 0) (here : filled.waiting walker target = [])
    (onward : filled.Develops resolved.Brings last 0)
    (asked : ∀ visited ∈ target :: others, resolved.Asked (before.waiting walker visited))
    (still : (∀ visited ∈ others, resolved.Asked (filled.waiting walker visited)) →
      ∀ visited ∈ others, last.waiting walker visited = []) :
    ∀ visited ∈ target :: others, last.waiting walker visited = [] := by
  intro visited among
  rcases List.mem_cons.mp among with rfl | later
  · exact List.subset_nil.mp (here ▸ onward.waiting_subset _ rfl)
  · refine still ?_ visited later
    intro visited later pair among
    exact asked visited (.tail _ later) pair (first.waiting_subset _ rfl among)

section Inject

-- Each theorem of a block needs this for the others.
set_option linter.unusedSectionVars false

variable {walker : Walker} {resolved : Resolved} {revisit : Revisit} {room : Nat}
  (steady : revisit.Steady walker resolved room)

include steady

mutual

theorem Ref.inject_develops {target : Option String} (holds : RefType) : (ref : Ref) →
    ref.Develops resolved.Brings (ref.inject walker resolved revisit target holds).1
      (ref.inject walker resolved revisit target holds).2
  | .null => .stays _
  | .dangling _ => .stays _
  | .pending key => by
    cases target with
    | none => exact .stays _
    | some target =>
      simp only [Ref.inject, Option.map_some]
      rcases Resolved.offer_cases holds with ⟨node, offered, brought⟩ | offered | ⟨offered, _⟩
      · rw [offered]
        exact .loads brought (.refl node)
      · rw [offered]
        exact .misses key
      · rw [offered]
        exact .stays _
  | .loaded _ node => by
    cases target with
    | none => exact .stays _
    | some target => exact .within (Node.inject_develops node)

theorem Content.inject_develops {target : Option String} : (content : Content) →
    content.Develops resolved.Brings (content.inject walker resolved revisit target).1
      (content.inject walker resolved revisit target).2
  | .reference holds ref => .reference (Ref.inject_develops holds ref)
  | .node node => .node (Node.inject_develops node)
  | .group _ members => .group (Members.inject_develops members)

theorem Members.inject_develops {target : Option String} : (members : Members) →
    members.Develops resolved.Brings (members.inject walker resolved revisit target).1
      (members.inject walker resolved revisit target).2
  | .nil => .nil
  | .cons _ content rest => .cons (Content.inject_develops content) (Members.inject_develops rest)

theorem Members.injectFields_develops {type : String} : (members : Members) →
    members.Develops resolved.Brings (members.injectFields walker resolved revisit type).1
      (members.injectFields walker resolved revisit type).2
  | .nil => .nil
  | .cons field content rest => by
    apply Members.Develops.cons _ (Members.injectFields_develops rest)
    cases walker.visits type field with
    | nil => exact .refl content
    | cons target others =>
      obtain ⟨more, counted, onward⟩ :=
        steady.develops others (content.inject walker resolved revisit target)
      dsimp only
      rw [counted]
      exact (Content.inject_develops content).trans _ onward

theorem Node.inject_develops : (node : Node) →
    node.Develops resolved.Brings (node.injectWith walker resolved revisit).1
      (node.injectWith walker resolved revisit).2
  | .mk _ _ fields => .mk (Members.injectFields_develops fields)

end

mutual

theorem Ref.inject_settles {target : Option String} (holds : RefType) : (ref : Ref) →
    ref.height ≤ room → resolved.Asked (ref.waiting walker target) →
    (ref.inject walker resolved revisit target holds).2 = 0 →
    (ref.inject walker resolved revisit target holds).1.waiting walker target = []
  | .null, _, _, _ => rfl
  | .dangling _, _, _, _ => rfl
  | .pending key, _, asked, calm => by
    cases target with
    | none => rfl
    | some target =>
      have requested : resolved.wasRequested target key = true := asked _ (.head _)
      simp only [Ref.inject, Option.map_some] at calm ⊢
      rcases Resolved.offer_cases holds with ⟨node, offered, _⟩ | offered | ⟨_, unasked⟩
      · rw [offered] at calm
        cases calm
      · rw [offered]
        rfl
      · rw [requested] at unasked
        cases unasked
  | .loaded _ node, low, asked, calm => by
    cases target with
    | none => rfl
    | some target => exact Node.inject_settles node low asked calm

theorem Content.inject_settles {target : Option String} : (content : Content) →
    content.height ≤ room → resolved.Asked (content.waiting walker target) →
    (content.inject walker resolved revisit target).2 = 0 →
    (content.inject walker resolved revisit target).1.waiting walker target = []
  | .reference holds ref, low, asked, calm => Ref.inject_settles holds ref low asked calm
  | .node node, low, asked, calm => Node.inject_settles node low asked calm
  | .group _ members, low, asked, calm => Members.inject_settles members low asked calm

theorem Members.inject_settles {target : Option String} : (members : Members) →
    members.height ≤ room → resolved.Asked (members.waiting walker target) →
    (members.inject walker resolved revisit target).2 = 0 →
    (members.inject walker resolved revisit target).1.waiting walker target = []
  | .nil, _, _, _ => rfl
  | .cons _ content rest, low, asked, calm => by
    obtain ⟨calm, calm'⟩ : _ ∧ _ := Nat.add_eq_zero_iff.mp calm
    simp only [Members.height, Nat.max_le] at low
    apply List.append_eq_nil_iff.mpr
    constructor
    · exact Content.inject_settles content low.1
        (fun pair among => asked pair (List.mem_append_left _ among)) calm
    · exact Members.inject_settles rest low.2
        (fun pair among => asked pair (List.mem_append_right _ among)) calm'

theorem Members.injectFields_settles {type : String} : (members : Members) →
    members.height < room → resolved.Asked (members.waitingFields walker type) →
    (members.injectFields walker resolved revisit type).2 = 0 →
    (members.injectFields walker resolved revisit type).1.waitingFields walker type = []
  | .nil, _, _, _ => rfl
  | .cons field content rest, low, asked, calm => by
    obtain ⟨calm, calm'⟩ : _ ∧ _ := Nat.add_eq_zero_iff.mp calm
    simp only [Members.height, Nat.max_lt] at low
    apply List.append_eq_nil_iff.mpr
    constructor
    · have each : ∀ target ∈ walker.visits type field, resolved.Asked (content.waiting walker target) :=
        fun target visited pair among => asked pair
          (List.mem_append_left _ (List.mem_flatMap.mpr ⟨target, visited, among⟩))
      rw [List.flatMap_eq_nil_iff]
      cases visited : walker.visits type field with
      | nil => exact nofun
      | cons target others =>
        rw [visited] at each calm
        have filled := @Content.inject_develops _ _ _ _ steady target content
        obtain ⟨more, counted, onward⟩ :=
          steady.develops others (content.inject walker resolved revisit target)
        obtain ⟨first, rfl⟩ := Nat.add_eq_zero_iff.mp (counted.symm.trans calm)
        rw [first] at filled
        have here := Content.inject_settles content low.1.le (each target (.head _)) first
        have lower := Nat.lt_of_le_of_lt (filled.height_le _ rfl) low.1
        exact filled.settles_cons here onward each fun still =>
          steady.settles others _ lower still counted
    · exact Members.injectFields_settles rest low.2
        (fun pair among => asked pair (List.mem_append_right _ among)) calm'

theorem Node.inject_settles : (node : Node) → node.height ≤ room →
    resolved.Asked (node.waiting walker) → (node.injectWith walker resolved revisit).2 = 0 →
    (node.injectWith walker resolved revisit).1.waiting walker = []
  | .mk _ _ fields, low, asked, calm => Members.injectFields_settles fields low asked calm

end

end Inject

namespace Walker

variable {walker : Walker} {resolved : Resolved}

section Again

variable {depth : Nat} (steady : (walker.revisits resolved depth).Steady walker resolved depth)

include steady

theorem revisits_develops (targets : List (Option String)) (before : Content × Nat) : ∃ more,
    (walker.revisits resolved (depth + 1) targets before).2 = before.2 + more ∧
      before.1.Develops resolved.Brings (walker.revisits resolved (depth + 1) targets before).1 more := by
  induction targets generalizing before with
  | nil => exact ⟨0, rfl, .refl before.1⟩
  | cons target rest others =>
    obtain ⟨more, counted, onward⟩ := others
      ((before.1.inject walker resolved (walker.revisits resolved depth) target).1,
        before.2 + (before.1.inject walker resolved (walker.revisits resolved depth) target).2)
    exact ⟨_, counted.trans (Nat.add_assoc _ _ _),
      (Content.inject_develops steady before.1).trans _ onward⟩

theorem revisits_settles (targets : List (Option String)) (before : Content × Nat)
    (low : before.1.height < depth + 1)
    (asked : ∀ target ∈ targets, resolved.Asked (before.1.waiting walker target))
    (calm : (walker.revisits resolved (depth + 1) targets before).2 = before.2) :
    ∀ target ∈ targets,
      (walker.revisits resolved (depth + 1) targets before).1.waiting walker target = [] := by
  induction targets generalizing before with
  | nil => exact nofun
  | cons target rest others =>
    have filled := @Content.inject_develops _ _ _ _ steady target before.1
    obtain ⟨more, counted, onward⟩ := revisits_develops steady rest
      ((before.1.inject walker resolved (walker.revisits resolved depth) target).1,
        before.2 + (before.1.inject walker resolved (walker.revisits resolved depth) target).2)
    have kept := counted.symm.trans calm
    dsimp only at kept
    obtain ⟨first, rfl⟩ : (before.1.inject walker resolved (walker.revisits resolved depth) target).2 = 0 ∧
      more = 0 := by omega
    rw [first] at filled
    have here := Content.inject_settles steady before.1 (Nat.le_of_lt_succ low) (asked target (.head _)) first
    have lower := Nat.lt_of_le_of_lt (filled.height_le _ rfl) low
    exact filled.settles_cons here onward asked fun still => others _ lower still counted

end Again

theorem revisits_steady (depth : Nat) : (walker.revisits resolved depth).Steady walker resolved depth := by
  induction depth with
  | zero => exact ⟨fun _ before => ⟨0, rfl, .refl before.1⟩, fun _ _ low => absurd low (Nat.not_lt_zero _)⟩
  | succ depth ih => exact ⟨revisits_develops ih, revisits_settles ih⟩

/-- Filling a graph loads as many references of it as it says, with nodes resolved for their keys. -/
theorem inject_develops (root : Node) :
    root.Develops resolved.Brings (walker.inject resolved root).1 (walker.inject resolved root).2 :=
  Node.inject_develops (revisits_steady _) root

/-- If all that a graph awaits was asked for, and filling it loads nothing, it awaits nothing any more. -/
theorem inject_settles {root : Node} (asked : resolved.Asked (root.waiting walker))
    (calm : (walker.inject resolved root).2 = 0) :
    (walker.inject resolved root).1.waiting walker = [] :=
  Node.inject_settles (revisits_steady _) root (Nat.le_add_right _ _) asked calm

end Walker

end OptimisticStore
