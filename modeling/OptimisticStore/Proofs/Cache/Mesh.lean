import OptimisticStore.Model.World
import OptimisticStore.Proofs.Cache.Node
import OptimisticStore.Proofs.Serving
import OptimisticStore.Proofs.Writing.Moves
/-!
One table behind the caches of several nodes, with every call to a single node a step of its own.

`Mesh.service` serves the members' calls and keeps account of removals that are still outstanding
(`Mesh.owes`): whoever commits a key owes its removal to every node until it has made it there.
-/
namespace OptimisticStore

variable {K E : Type} [Key K]

inductive MeshCall (K E : Type) [Key K] where
  | world (call : Call K E)
  | node (index : Nat) (call : CacheCall K E)

abbrev MeshCall.Answer {K E : Type} [Key K] : MeshCall K E → Type
  | .world call => call.Answer
  | .node _ call => call.Answer

abbrev meshCalls (K E : Type) [Key K] : Vocabulary where
  Call := MeshCall K E
  Answer := MeshCall.Answer

abbrev atNode (request : (nodeCalls K E).Call) :
    Task (meshCalls K E) ((nodeCalls K E).Answer request) :=
  Task.ask (V := meshCalls K E) (.node request.1 request.2)

def Placement.spread (placement : Placement) (call : Call K E) :
    Task (meshCalls K E) call.Answer :=
  match call with
  | .cache call => (placement.carry call).expand atNode
  | call => Task.ask (V := meshCalls K E) (.world call)

def Program.overMesh (placement : Placement) {α : Type} (program : Program K E α) :
    Task (meshCalls K E) α :=
  Task.expand placement.spread program

def Placement.Covers (placement : Placement) (n : Nat) : Prop :=
  placement.home < n ∧ ∀ index < n, index ∈ placement.home :: placement.peers

def Call.writtenKey? (family : Family K E) : (call : Call K E) → call.Answer → Option K
  | .store (.insert _), .ok row => family.key row
  | .store (.merge _), .ok merged => if merged.changed then family.key merged.entity else none
  | .store (.delete entity), .ok _ => family.key entity
  | _, _ => none

theorem Call.get?_of_effect [DecidableEq K] {family : Family K E} (lawful : family.Lawful)
    {table after : Table K E} {call : Call K E} {answer : call.Answer} {key : K}
    (effect : call.Effect family table answer after)
    (other : call.writtenKey? family answer ≠ some key) :
    after.rows.get? key = table.rows.get? key := by
  cases wrote : call.wrote answer with
  | false => rw [Table.rows_of_not_wrote effect wrote]
  | true =>
    cases call with
    | store call =>
      cases Table.Effect.writes effect wrote with
      | @insert _ held chosen _ own vacant unshared rows =>
        have named : family.key (Table.firstVersion family held) = some chosen :=
          (Table.key_firstVersion lawful.separate held).trans (Table.key_of_own lawful.separate own)
        have apart : key ≠ chosen := by
          rintro rfl
          exact other named
        rw [Table.get?_of_inserted rows, if_neg apart]
      | @merge entity current chosen _ own found same unshared rows =>
        have named : family.key (Table.nextVersion family current entity) = some chosen :=
          (Table.key_nextVersion lawful.separate current entity).trans own
        have apart : key ≠ chosen := by
          rintro rfl
          exact other named
        rw [Table.get?_of_inserted rows, if_neg apart]
      | @delete entity current chosen _ own found same rows =>
        have apart : key ≠ chosen := by
          rintro rfl
          exact other own
        rw [rows, SortedMap.get?_erase, if_neg apart]
    | _ => simp [Call.wrote] at wrote

/-- The table, the cache nodes, and for each member the keys whose removal from a node it owes. -/
structure Mesh (ι K E : Type) [Key K] where
  table : Table K E := {}
  nodes : Cluster K E := []
  owes : ι → K → Nat → Prop := fun _ _ _ => False

namespace Mesh

variable {ι : Type}

def node (mesh : Mesh ι K E) (index : Nat) : CacheNode K E := mesh.nodes[index]?.getD {}

/-- Any member's call that does not go to a single node: what it writes, it owes to every node. -/
def ofWorld (mesh : Mesh ι K E) (member : ι) (written? : Option K) (table : Table K E) :
    Mesh ι K E where
  table
  nodes := mesh.nodes
  owes other key index := mesh.owes other key index ∨
    other = member ∧ written? = some key ∧ index < mesh.nodes.length

/-- A member's call to one node: a key that it drops there it does not owe there any more. -/
def ofNode (mesh : Mesh ι K E) (member : ι) (index : Nat) (dropped : K → Prop)
    (nodes : Cluster K E) : Mesh ι K E where
  table := mesh.table
  nodes
  owes other key place := mesh.owes other key place ∧
    ¬ (other = member ∧ place = index ∧ dropped key)

/-- Each call to a node is served by that node, any other by the world, of which the members share the
table. -/
def service [DecidableEq E] (family : Family K E) (clients : ι → Client K E) :
    Service (meshCalls K E) (Mesh ι K E) ι := fun member request before answer after =>
  match request with
  | .world call => ∃ table,
      World.Shows family World.table (clients member) call before.table answer table ∧
      after = before.ofWorld member (call.writtenKey? family answer) table
  | .node index call => ∃ nodes,
      (Cluster.serveNode (index, call)).run before.nodes = (answer, nodes) ∧
      after = before.ofNode member index (call.Drops answer) nodes

variable [DecidableEq E] (family : Family K E) (clients : ι → Client K E)

def serve (client : Client K E) :
    (request : MeshCall K E) → StateM (World K E) request.Answer
  | .world call => fun world =>
    let (answer, last) := (World.serve family client call).run world
    (answer, { last with nodes := world.nodes })
  | .node index call => fun world =>
    let (answer, nodes) := (Cluster.serveNode (index, call)).run world.nodes
    (answer, { world with nodes })

theorem reachable_of_advance [DecidableEq ι] {α : ι → Type}
    (crew : Crew (meshCalls K E) (Mesh ι K E) α) (i : ι) (left : Nat) (world : World K E)
    (seen : world.table = crew.state.table ∧ world.nodes = crew.state.nodes) :
    ∃ after : Crew (meshCalls K E) (Mesh ι K E) α, Crew.Reachable (service family clients) crew after ∧
      after.tasks = Function.update crew.tasks i
        (((crew.tasks i).advance (serve family (clients i)) left).run world).1 ∧
      (((crew.tasks i).advance (serve family (clients i)) left).run world).2.table =
        after.state.table ∧
      (((crew.tasks i).advance (serve family (clients i)) left).run world).2.nodes =
        after.state.nodes := by
  have serves : ∀ (request : MeshCall K E) (world : World K E) answer last (mesh : Mesh ι K E),
      (serve family (clients i) request).run world = (answer, last) →
      world.table = mesh.table ∧ world.nodes = mesh.nodes →
      ∃ after, service family clients i request mesh answer after ∧
        last.table = after.table ∧ last.nodes = after.nodes := by
    rintro request world answer last mesh served ⟨table, nodes⟩
    cases request with
    | world call =>
      obtain ⟨answered, rfl⟩ := Prod.mk.inj served
      refine ⟨_, ⟨_, ⟨world, _, table, Prod.ext answered rfl, rfl⟩, rfl⟩, rfl, nodes⟩
    | node index call =>
      obtain ⟨answered, rfl⟩ := Prod.mk.inj served
      rw [nodes] at answered ⊢
      refine ⟨_, ⟨_, Prod.ext answered rfl, rfl⟩, table, rfl⟩
  exact Crew.reachable_of_advance (fun (world : World K E) (mesh : Mesh ι K E) =>
    world.table = mesh.table ∧ world.nodes = mesh.nodes) serves left seen

end Mesh

end OptimisticStore
