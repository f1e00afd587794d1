import OptimisticStore.Cache.Node
import OptimisticStore.Task
/-!
Caches of several nodes that drop keys together.

A member of the cluster reads and fills its own node. A removal meant for every node is a sequence of
local removals, its own node first and then its peers in turn, stopping at the first that fails;
between two of them other members may act.
-/
namespace OptimisticStore

variable {K E : Type} [Key K]

/-- Which node a cache user has as its own, and which it keeps informed. -/
structure Placement where
  home : Nat
  peers : List Nat := []
deriving DecidableEq, Inhabited

abbrev nodeCalls (K E : Type) [Key K] : Vocabulary where
  Call := Nat × CacheCall K E
  Answer call := call.2.Answer

namespace Placement

def inTurn (call : Nat → Task (nodeCalls K E) (Except StoreError Unit)) :
    List Nat → Task (nodeCalls K E) (Except StoreError Unit)
  | [] => .done (.ok ())
  | node :: rest => do
    match ← call node with
    | .error cause => return .error cause
    | .ok () => inTurn call rest

def carry (placement : Placement) (call : CacheCall K E) : Task (nodeCalls K E) call.Answer :=
  match call with
  | .remove key => inTurn (fun node => Task.ask (V := nodeCalls K E) (node, .removeLocal key))
      (placement.home :: placement.peers)
  | .removeAll keys => inTurn (fun node => Task.ask (V := nodeCalls K E) (node, .removeAllLocal keys))
      (placement.home :: placement.peers)
  | call => Task.ask (V := nodeCalls K E) (placement.home, call)

end Placement

abbrev Cluster (K E : Type) [Key K] := List (CacheNode K E)

namespace Cluster

/-- Serve a call at one node; a node that does not exist answers as an empty one. -/
def serveNode (call : (nodeCalls K E).Call) :
    StateM (Cluster K E) ((nodeCalls K E).Answer call) := fun nodes =>
  let (answer, node) := (nodes[call.1]?.getD {}).serve call.2
  (answer, nodes.set call.1 node)

def serve (placement : Placement) (call : CacheCall K E) : StateM (Cluster K E) call.Answer :=
  (placement.carry call).run serveNode

end Cluster

end OptimisticStore
