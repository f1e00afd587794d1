import Mathlib.Data.Set.Card
import OptimisticStore.Proofs.Relation.Errands
import OptimisticStore.Proofs.Relation.Slots
import OptimisticStore.Proofs.Relation.Walk
import OptimisticStore.Sample.Blog
/-!
Which places of a graph a pass changes, and how.

Main statement: `Walker.pass_fills`. The answers to what a graph waits for are put in at exactly the places
where a walk finds a pending reference; the graph is the same at every other place. What is inside an answer
is at no place of the graph before, and no pass looks at it before the next.
-/
namespace OptimisticStore

def Offer.fill (key : RelationKey) : Offer → Ref
  | .found node => .loaded key node
  | .missing => .dangling key
  | .nothing => .pending key

theorem Offer.fill_eq_loaded {offer : Offer} {key : RelationKey} {node : Node} :
    offer.fill key = .loaded key node ↔ offer = .found node := by
  cases offer with
  | found other => simp [fill]
  | missing => simp [fill]
  | nothing => simp [fill]

def Offer.count : Offer → Nat
  | .found _ => 1
  | .missing => 0
  | .nothing => 0

variable {walker : Walker} {resolved : Resolved} {revisit : Revisit} {target next : Option String}

def Content.Pends (target : Option String) (content : Content) (holds : RefType) (under : String)
    (key : RelationKey) : Prop :=
  target = some under ∧ content = .reference holds (.pending key)

theorem Content.inject_of_pends {content : Content} {holds : RefType} {under : String} {key : RelationKey}
    (pends : content.Pends target holds under key) : content.inject walker resolved revisit target =
      (.reference holds ((resolved.offer holds under key).fill key),
        (resolved.offer holds under key).count) := by
  obtain ⟨rfl, rfl⟩ := pends
  simp only [inject, Ref.inject, Option.map_some]
  cases resolved.offer holds under key with
  | found node => rfl
  | missing => rfl
  | nothing => rfl

/-- The target under which a walk goes on to the parts with a label, if it does. -/
def Content.onward (walker : Walker) (target : Option String) (label : String) :
    Content → Option (Option String)
  | .group _ _ => some target
  | .node held => (walker.visits held.type label).head?
  | .reference _ (.loaded _ held) => if target.isSome then (walker.visits held.type label).head? else none
  | .reference _ _ => none

def Content.fillUnder (walker : Walker) (resolved : Resolved) (revisit : Revisit) (part : Content) :
    Option (Option String) → Content × Nat
  | some next => part.inject walker resolved revisit next
  | none => (part, 0)

structure FillsParts (fill : String × Content → Content × Nat) (before after : Members) (loaded : Nat) :
    Prop where
  parts : after.toList = before.toList.map fun entry => (entry.1, (fill entry).1)
  counted : loaded = (before.toList.map fun entry => (fill entry).2).sum

namespace FillsParts

variable {fill : String × Content → Content × Nat}

theorem nil : FillsParts fill .nil .nil 0 := ⟨rfl, rfl⟩

theorem cons (label : String) (content : Content) {rest others : Members} {loaded : Nat}
    (later : FillsParts fill rest others loaded) :
    FillsParts fill (.cons label content rest) (.cons label (fill (label, content)).1 others)
      ((fill (label, content)).2 + loaded) := by
  constructor
  · simp only [Members.toList, List.map_cons, later.parts]
  · simp only [Members.toList, List.map_cons, List.sum_cons, later.counted]

theorem refl (members : Members) : FillsParts (fun entry => (entry.2, 0)) members members 0 := by
  constructor
  · simp
  · simp

theorem labels {before after : Members} {loaded : Nat} (fills : FillsParts fill before after loaded) :
    after.toList.map Prod.fst = before.toList.map Prod.fst := by
  rw [fills.parts, List.map_map]
  rfl

end FillsParts

theorem Members.inject_fillsParts (members : Members) :
    FillsParts (fun entry => entry.2.fillUnder walker resolved revisit (some target)) members
      (members.inject walker resolved revisit target).1
      (members.inject walker resolved revisit target).2 := by
  induction members using Members.list_induction with
  | nil => exact .nil
  | cons label content rest ih => exact .cons label content ih

section Once

variable (once : ∀ schema ∈ walker.schemas, schema.DeclaresOnce)

include once

theorem Members.injectFields_fillsParts (still : ∀ before, revisit [] before = before) (type : String)
    (members : Members) :
    FillsParts (fun entry => entry.2.fillUnder walker resolved revisit (walker.visits type entry.1).head?)
      members (members.injectFields walker resolved revisit type).1
      (members.injectFields walker resolved revisit type).2 := by
  induction members using Members.list_induction with
  | nil => exact .nil
  | cons field content rest ih =>
    have both := ih.cons field content
    unfold injectFields
    rcases Walker.visits_cases once type field with unvisited | ⟨next, visited⟩
    · simp only [unvisited, List.head?_nil, Content.fillUnder] at both ⊢
      exact both
    · simp only [visited, List.head?_cons, Content.fillUnder, still] at both ⊢
      exact both

theorem Content.inject_fillsParts (resolved : Resolved) (still : ∀ before, revisit [] before = before)
    {content : Content} (free : ∀ holds under key, ¬ content.Pends target holds under key) :
    (content.inject walker resolved revisit target).1.emptied = content.emptied ∧
      FillsParts
        (fun entry => entry.2.fillUnder walker resolved revisit (content.onward walker target entry.1))
        content.inside (content.inject walker resolved revisit target).1.inside
        (content.inject walker resolved revisit target).2 := by
  cases content with
  | reference holds ref =>
    cases ref with
    | null | dangling => exact ⟨rfl, .nil⟩
    | pending key =>
      cases target with
      | none => exact ⟨rfl, .nil⟩
      | some under => exact absurd ⟨rfl, rfl⟩ (free holds under key)
    | loaded key node =>
      cases target with
      | none => exact ⟨rfl, .refl _⟩
      | some under =>
        cases node with
        | mk type columns fields => exact ⟨rfl, fields.injectFields_fillsParts once still type⟩
  | node node =>
    cases node with
    | mk type columns fields => exact ⟨rfl, fields.injectFields_fillsParts once still type⟩
  | group shape members => exact ⟨rfl, members.inject_fillsParts⟩

theorem Walker.head?_visits_iff {type label : String} :
    (walker.visits type label).head? = some next ↔ next ∈ walker.visits type label := by
  rcases Walker.visits_cases once type label with unvisited | ⟨other, visited⟩
  · simp [unvisited]
  · simp [visited, eq_comm]

theorem Node.leads_iff {node : Node} {i : Nat} {part : Content} :
    node.Leads walker i next part ↔ ∃ label, node.fields.toList[i]? = some (label, part) ∧
      (walker.visits node.type label).head? = some next := by
  simp only [Walker.head?_visits_iff once, Walker.mem_visits_iff]
  constructor
  · rintro ⟨here, selected, named⟩
    exact ⟨_, here, _, selected, named, rfl⟩
  · rintro ⟨label, here, declared, selected, named, rfl⟩
    exact .field here selected named

theorem Content.leads_iff {content : Content} {i : Nat} {part : Content} :
    content.Leads walker target i next part ↔ ∃ label, content.inside.toList[i]? = some (label, part) ∧
      content.onward walker target label = some next := by
  constructor
  · intro leads
    cases leads with
    | member here => exact ⟨_, here, rfl⟩
    | inline field => exact (Node.leads_iff once).mp field
    | loaded field => exact (Node.leads_iff once).mp field
  · rintro ⟨label, here, visited⟩
    cases content with
    | reference holds ref =>
      cases ref with
      | null | pending | dangling => cases visited
      | loaded key node =>
        cases target with
        | none => cases visited
        | some outer => exact .loaded ((Node.leads_iff once).mpr ⟨label, here, visited⟩)
    | node node => exact .inline ((Node.leads_iff once).mpr ⟨label, here, visited⟩)
    | group shape members =>
      obtain rfl := Option.some.inj visited
      exact .member here

end Once

theorem Content.Pends.not_leads {content part : Content} {holds : RefType} {under : String}
    {key : RelationKey} {i : Nat} (pends : content.Pends target holds under key) :
    ¬ content.Leads walker target i next part := by
  obtain ⟨rfl, rfl⟩ := pends
  nofun

/-- On the way to a place, and at it, a walk finds no pending reference. -/
def Content.Avoids (walker : Walker) (target : Option String) (content : Content) (path : List Nat) : Prop :=
  ∀ up, up <+: path → ∀ holds under key,
    ¬ content.Reaches walker target up (some under) (.reference holds (.pending key))

namespace Content.Avoids

variable {content within : Content} {path : List Nat} {i : Nat}

theorem not_pends (avoids : content.Avoids walker target path) :
    ∀ holds under key, ¬ content.Pends target holds under key := by
  rintro holds under key ⟨rfl, rfl⟩
  exact avoids [] List.nil_prefix holds under key .here

theorem part (avoids : content.Avoids walker target (i :: path))
    (leads : content.Leads walker target i next within) : within.Avoids walker next path := by
  intro up before holds under key onward
  exact avoids (i :: up) (List.cons_prefix_cons.mpr ⟨rfl, before⟩) holds under key (.inside leads onward)

end Content.Avoids

section Places

-- Where each field is declared once, it is never visited again.
variable (once : ∀ schema ∈ walker.schemas, schema.DeclaresOnce)
  (still : ∀ before, revisit [] before = before)

include once still

/-- At a place where a walk finds a pending reference is what was offered to it. -/
theorem Content.follow_inject_of_reaches {content : Content} {path : List Nat} {holds : RefType}
    {under : String} {key : RelationKey}
    (reaches : content.Reaches walker target path (some under) (.reference holds (.pending key))) :
    (content.inject walker resolved revisit target).1.follow path =
      some (.reference holds ((resolved.offer holds under key).fill key)) := by
  generalize last : some under = visited at reaches
  generalize is : Content.reference holds (.pending key) = found at reaches
  induction reaches with
  | here =>
    subst last is
    rw [inject_of_pends ⟨rfl, rfl⟩]
    rfl
  | inside leads _ ih =>
    obtain ⟨label, here, visited⟩ := (leads_iff once).mp leads
    obtain ⟨_, fills⟩ := inject_fillsParts once resolved still
      fun _ _ _ pends => pends.not_leads leads
    rw [follow, fills.parts, List.getElem?_map, here]
    simp only [Option.map_some, Option.bind_some, visited, fillUnder]
    exact ih last is

/-- At a place that a walk gets to without finding a pending reference is what was there, its parts apart. -/
theorem Content.outline_follow_inject {content : Content} {path : List Nat}
    (avoids : content.Avoids walker target path) :
    ((content.inject walker resolved revisit target).1.follow path).map outline =
      (content.follow path).map outline := by
  induction path generalizing content target with
  | nil =>
    obtain ⟨same, fills⟩ := inject_fillsParts once resolved still avoids.not_pends
    simp only [follow, Option.map_some, outline, same, fills.labels]
  | cons i path ih =>
    obtain ⟨_, fills⟩ := inject_fillsParts once resolved still avoids.not_pends
    rw [follow, follow, fills.parts, List.getElem?_map]
    cases here : content.inside.toList[i]? with
    | none => rfl
    | some entry =>
      obtain ⟨label, part⟩ := entry
      simp only [Option.map_some, Option.bind_some]
      cases visited : content.onward walker target label with
      | none => rfl
      | some next => exact ih (avoids.part ((leads_iff once).mpr ⟨label, here, visited⟩))

end Places

/-- A walk finds a pending reference at the place, and a node is offered to it. -/
def Content.Loads (walker : Walker) (resolved : Resolved) (target : Option String) (content : Content)
    (path : List Nat) : Prop :=
  ∃ holds under key node, content.Reaches walker target path (some under) (.reference holds (.pending key)) ∧
    resolved.offer holds under key = .found node

theorem Content.Pends.loads_iff {content : Content} {holds : RefType} {under : String} {key : RelationKey}
    (pends : content.Pends target holds under key) {path : List Nat} :
    content.Loads walker resolved target path ↔
      path = [] ∧ ∃ node, resolved.offer holds under key = .found node := by
  constructor
  · rintro ⟨_, _, _, node, reaches, found⟩
    cases reaches with
    | here =>
      obtain ⟨same, same'⟩ := pends
      cases same
      cases same'
      exact ⟨rfl, node, found⟩
    | inside leads => exact absurd leads pends.not_leads
  · rintro ⟨rfl, node, found⟩
    obtain ⟨rfl, rfl⟩ := pends
    exact ⟨holds, under, key, node, .here, found⟩

section Counting

open Set

def placesFrom (start : Nat) (entries : List (String × Content))
    (Has : String × Content → List Nat → Prop) : Set (List Nat) :=
  {path | ∃ i entry rest, path = (start + i) :: rest ∧ entries[i]? = some entry ∧ Has entry rest}

variable {Has : String × Content → List Nat → Prop} {entry : String × Content}
  {entries : List (String × Content)} {start : Nat}

theorem placesFrom_cons : placesFrom start (entry :: entries) Has =
    List.cons start '' {path | Has entry path} ∪ placesFrom (start + 1) entries Has := by
  ext path
  constructor
  · rintro ⟨i, found, rest, rfl, here, has⟩
    cases i with
    | zero =>
      obtain rfl := Option.some.inj here
      exact .inl ⟨rest, has, rfl⟩
    | succ i => exact .inr ⟨i, found, rest, by rw [Nat.add_assoc, Nat.add_comm 1], here, has⟩
  · rintro (⟨rest, has, rfl⟩ | ⟨i, found, rest, rfl, here, has⟩)
    · exact ⟨0, entry, rest, rfl, rfl, has⟩
    · exact ⟨i + 1, found, rest, by rw [Nat.add_assoc, Nat.add_comm 1], here, has⟩

theorem not_mem_placesFrom {rest : List Nat} : start :: rest ∉ placesFrom (start + 1) entries Has := by
  rintro ⟨i, _, _, same, _⟩
  have number := (List.cons.inj same).1
  omega

theorem encard_placesFrom {count : String × Content → Nat}
    (each : ∀ entry ∈ entries, {path | Has entry path}.encard = count entry) :
    (placesFrom start entries Has).encard = (entries.map count).sum := by
  induction entries generalizing start with
  | nil => simp [placesFrom]
  | cons entry others ih =>
    have later : (placesFrom (start + 1) others Has).encard = (others.map count).sum :=
      ih fun found among => each found (.tail _ among)
    rw [placesFrom_cons, encard_union_eq, List.cons_injective.encard_image, each entry (.head _), later,
      List.map_cons, List.sum_cons, Nat.cast_add]
    rw [disjoint_left]
    rintro _ ⟨rest, _, rfl⟩
    exact not_mem_placesFrom

end Counting

section Places

variable (once : ∀ schema ∈ walker.schemas, schema.DeclaresOnce)
  (still : ∀ before, revisit [] before = before)

include once still

omit still in
theorem Content.loads_iff_part {content : Content}
    (free : ¬ ∃ holds under key, content.Pends target holds under key) {path : List Nat} :
    content.Loads walker resolved target path ↔
      path ∈ placesFrom 0 content.inside.toList fun entry rest => ∃ next,
        content.onward walker target entry.1 = some next ∧ entry.2.Loads walker resolved next rest := by
  constructor
  · rintro ⟨holds, under, key, node, reaches, found⟩
    cases reaches with
    | here => exact absurd ⟨holds, under, key, rfl, rfl⟩ free
    | @inside _ _ _ _ _ _ i rest leads onward =>
      obtain ⟨label, here, visited⟩ := (leads_iff once).mp leads
      exact ⟨i, _, rest, by rw [Nat.zero_add], here, _, visited, holds, under, key, node, onward, found⟩
  · rintro ⟨i, entry, rest, rfl, here, next, visited, holds, under, key, node, onward, found⟩
    have leads := (leads_iff once).mpr ⟨_, here, visited⟩
    rw [Nat.zero_add]
    exact ⟨holds, under, key, node, .inside leads onward, found⟩

/-- As many references become loaded as there are places where a walk finds one that a node is offered to. -/
theorem Content.encard_loads (content : Content) :
    {path | content.Loads walker resolved target path}.encard =
      (content.inject walker resolved revisit target).2 := by
  induction content using Content.inside_induction generalizing target with
  | step content ih =>
    by_cases free : ∃ holds under key, content.Pends target holds under key
    · obtain ⟨holds, under, key, pends⟩ := free
      simp only [inject_of_pends pends, pends.loads_iff]
      cases resolved.offer holds under key with
      | found node => simp [Offer.count]
      | missing => simp [Offer.count]
      | nothing => simp [Offer.count]
    · obtain ⟨_, fills⟩ := inject_fillsParts once resolved still
        fun holds under key pends => free ⟨holds, under, key, pends⟩
      rw [fills.counted]
      have split : {path | content.Loads walker resolved target path} =
          placesFrom 0 content.inside.toList fun entry path => ∃ next,
            content.onward walker target entry.1 = some next ∧ entry.2.Loads walker resolved next path :=
        Set.ext fun path => loads_iff_part once free
      rw [split]
      apply encard_placesFrom
      intro entry among
      cases visited : content.onward walker target entry.1 with
      | none => simp [fillUnder]
      | some next =>
        simp only [Option.some.injEq, exists_eq_left', fillUnder]
        exact ih entry among

end Places

/-- What the answers to some calls make of a reference that waits for a key: it holds a value that it can
hold, or is dangling if none was brought. -/
inductive Errand.Fills (errands : List Errand) (holds : RefType) (target : String) (key : RelationKey) :
    Ref → Prop where
  | loaded {errand : Errand} {value : LoadedValue} {node : Node} (among : errand ∈ errands)
      (brings : errand.Brings target key value) (accepted : value.as? holds = some node) :
      Fills errands holds target key (.loaded key node)
  | dangling (missing : ∀ errand ∈ errands, ∀ value, errand.Brings target key value →
      value.as? holds = none) : Fills errands holds target key (.dangling key)

theorem Resolved.Holds.fills {errands : List Errand} (held : resolved.Holds errands) (type : RefType)
    {under : String} {key : RelationKey} (asked : resolved.wasRequested under key = true) :
    Errand.Fills errands type under key ((resolved.offer type under key).fill key) := by
  unfold offer
  cases found : resolved.get? under key with
  | none =>
    simp only [asked, if_true]
    refine .dangling fun errand among value brings => ?_
    cases found.symm.trans ((held.values under key value).mpr ⟨errand, among, brings⟩)
  | some value =>
    cases accepted : value.as? type with
    | none =>
      simp only [accepted]
      refine .dangling fun errand among other brings => ?_
      have same := found.symm.trans ((held.values under key other).mpr ⟨errand, among, brings⟩)
      exact Option.some.inj same ▸ accepted
    | some node =>
      obtain ⟨errand, among, brings⟩ := (held.values under key value).mp found
      simp only [accepted]
      exact .loaded among brings accepted

/-- The answers to some calls were put in where a walk finds a pending reference, and so many of these became
loaded. A place that a walk gets to without finding one is as it was, its parts apart. -/
structure Node.FilledBy (walker : Walker) (errands : List Errand) (before after : Node) (loaded : Nat) :
    Prop where
  filled : ∀ path holds target key, before.Waits walker path holds target key →
    ∃ ref, after.follow path = some (.reference holds ref) ∧ Errand.Fills errands holds target key ref
  kept : ∀ path, (∀ up, up <+: path → ∀ holds target key, ¬ before.Waits walker up holds target key) →
    (after.follow path).map Content.outline = (before.follow path).map Content.outline
  counted : {path | ∃ holds target key node, before.Waits walker path holds target key ∧
    after.follow path = some (.reference holds (.loaded key node))}.encard = loaded

namespace Walker

variable (once : ∀ schema ∈ walker.schemas, schema.DeclaresOnce)

include once

theorem inject_filledBy {errands : List Errand} (held : resolved.Holds errands) {root : Node}
    (asked : ∀ path holds under key, root.Waits walker path holds under key →
      resolved.wasRequested under key = true) :
    root.FilledBy walker errands (walker.inject resolved root).1 (walker.inject resolved root).2 := by
  have still : ∀ before, walker.revisits resolved (root.height + resolved.height) [] before = before :=
    revisits_nil _
  have place : ∀ {path holds under key}, root.Waits walker path holds under key →
      (walker.inject resolved root).1.follow path =
        some (.reference holds ((resolved.offer holds under key).fill key)) :=
    fun waits => Content.follow_inject_of_reaches once still waits
  refine ⟨fun path holds under key waits => ?_, fun path avoids => ?_, ?_⟩
  · exact ⟨_, place waits, held.fills holds (asked path holds under key waits)⟩
  · exact Content.outline_follow_inject once still avoids
  · have same : {path | ∃ holds under key node, root.Waits walker path holds under key ∧
        (walker.inject resolved root).1.follow path = some (.reference holds (.loaded key node))} =
          {path | (Content.node root).Loads walker resolved none path} := by
      ext path
      constructor
      · rintro ⟨holds, under, key, node, waits, loaded⟩
        have filled := (place waits).symm.trans loaded
        simp only [Option.some.injEq, Content.reference.injEq, true_and, Offer.fill_eq_loaded] at filled
        exact ⟨holds, under, key, node, waits, filled⟩
      · rintro ⟨holds, under, key, node, waits, found⟩
        refine ⟨holds, under, key, node, waits, ?_⟩
        rw [place waits, found]
        rfl
    rw [same]
    exact Content.encard_loads once still (.node root)

/-- A pass over a graph whose fields are declared once each. Looking at it leaves it as it is, and finds the
keys of the pending references that a walk comes to, whatever was found before. If these are resolved, the
answers are put in at exactly those places. -/
theorem pass_fills (loading : Loading) :
    (walker.look loading).root = loading.root ∧ (walker.look loading).registry.Dense ∧
      (∀ target key, (walker.look loading).registry.contains target key = true ↔
        ∃ path holds, loading.root.Waits walker path holds target key) ∧
      ∀ {loaders : Loaders} {before after : List Errand} {resolved : Resolved},
        ((walker.look loading).registry.resolve loaders).Runs Errand.Noted before (.ok resolved) after →
          ∃ errands, after = before ++ errands ∧ loading.root.FilledBy walker errands
            (walker.inject resolved loading.root).1 (walker.inject resolved loading.root).2 := by
  refine ⟨rfl, Registry.dense_ofPairs _, fun _ _ => look_iff, fun run => ?_⟩
  obtain ⟨errands, same, course⟩ := Registry.resolve_course run
  refine ⟨errands, same, ?_⟩
  cases course with
  | called _ splits ends =>
    cases ends with
    | answered asked held =>
      refine inject_filledBy once held fun path holds under key waits => ?_
      have within := look_iff.mpr ⟨path, holds, waits⟩
      obtain ⟨batch, among, rfl⟩ := splits.all under key within
      rw [← asked] at among splits
      obtain ⟨errand, made, rfl⟩ := List.mem_map.mp among
      exact (held.requested _ key).mpr ⟨errand, made, rfl, (splits.exact _ among key).mpr within⟩

omit once

section Desks

def desk : Loading where
  root := Blog.feed [Blog.post { id := some 12 } (.pending (.int 1)),
    Blog.post { id := some 13 } (.loaded (.int 2)
      (Blog.author { id := some 2 } [.pending (.int 10), .dangling (.int 9)] (.pending (.int 3))))]
  registry := .ofPairs [("tag", .int 7)]

def clerk : Walker := { schemas := Blog.schemas }

def drawer (batch : String × List RelationKey) : Except Error (SortedMap RelationKey LoadedValue) :=
  if batch.1 = "author" then
    .ok (.ofList [(.int 1, .node (Blog.author { id := some 1 } [] (.pending (.int 2))))])
  else .ok (.ofList [(.int 10, .foreign)])

def deskRun : Except Error Resolved × List Errand :=
  (((clerk.look desk).registry.resolve ⟨.ofList ["author", "post"]⟩).run (Errand.noting drawer)).run []

def deskResolved : Resolved := deskRun.1.toOption.getD {}

/-- What was in the registry is forgotten, and the new author's mentor is left for another pass. -/
theorem pass_fills_desk : (∀ schema ∈ clerk.schemas, schema.DeclaresOnce) ∧
    (clerk.look desk).registry.pairs = [("author", .int 1), ("author", .int 3), ("post", .int 10)] ∧
    (∃ errands, deskRun.2 = [] ++ errands ∧ desk.root.FilledBy clerk errands
      (clerk.inject deskResolved desk.root).1 (clerk.inject deskResolved desk.root).2) ∧
    clerk.inject deskResolved desk.root =
      (Blog.feed [Blog.post { id := some 12 } (.loaded (.int 1)
          (Blog.author { id := some 1 } [] (.pending (.int 2)))),
        Blog.post { id := some 13 } (.loaded (.int 2)
          (Blog.author { id := some 2 } [.dangling (.int 10), .dangling (.int 9)] (.dangling (.int 3))))],
        1) := by
  have once : ∀ schema ∈ clerk.schemas, schema.DeclaresOnce := by decide
  have run := Task.runs_of_run (Errand.noting_noted drawer)
    ((clerk.look desk).registry.resolve ⟨.ofList ["author", "post"]⟩) []
  have done : deskRun.1 = .ok deskResolved := by decide +kernel
  refine ⟨once, by decide +kernel, ?_, by decide +kernel⟩
  exact (pass_fills once desk).2.2.2 (done ▸ run)

end Desks

section Folders

def sheet : Node := .mk "page" {} (.ofList [("author", .reference .any (.pending (.int 2)))])

def folded : Node := .mk "page" {} (.ofList [("next", .reference .any (.loaded (.int 1) sheet))])

def folder : Walker :=
  { schemas := [(({ typeName := "page" } : Schema).nested "next").relation "author" "author" .single] }

/-- Both fields are selected, and the author's reference on the loaded page is pending and has a target; but
the walk does not go into a loaded reference that has none, as in a field of inline values. -/
theorem look_passes_over_inline : (∀ schema ∈ folder.schemas, schema.DeclaresOnce) ∧
    ((folder.schemaOf "page").fieldsFor folder.scenario).map (fun field => (field.name, field.kind.target?)) =
      [("next", none), ("author", some "author")] ∧
    folded.fields.toList = [("next", .reference .any (.loaded (.int 1) sheet))] ∧
    sheet.fields.toList = [("author", .reference .any (.pending (.int 2)))] ∧
    folded.follow [0, 0] = some (.reference .any (.pending (.int 2))) ∧
    (folder.look ⟨folded, {}⟩).registry.contains "author" (.int 2) = false := by
  refine ⟨by decide, by decide, rfl, rfl, rfl, by decide⟩

end Folders

end Walker

end OptimisticStore
