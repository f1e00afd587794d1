import OptimisticStore.Cache.Cluster
import OptimisticStore.Proofs.Cache.Node
import OptimisticStore.Sample.Account
/-!
How far a removal over a cluster gets.

A removal meant for every node goes from node to node, and a poisoned node refuses it. Main statement:
`removal_reaches`, by which the nodes before the first that refuses drop the keys, those from there on
stay as they were, and the answer tells whether there was one that refused. `removal_stops_short` shows
what this costs: a node behind the one that refused goes on holding what was to be removed.
-/
namespace OptimisticStore

variable {K E : Type} [Key K]

/-- From `before` to `after` the given keys have lost their slots, and no fill from before gets in. -/
structure CacheNode.Dropped (keys : List K) (before after : CacheNode K E) : Prop where
  slots : ∀ key ∈ keys, after.slots.get? key = none
  others : ∀ key ∉ keys, after.slots.get? key = before.slots.get? key
  generation : before.generation < after.generation

namespace Cluster

def node (nodes : Cluster K E) (index : Nat) : CacheNode K E := nodes[index]?.getD {}

def dropAt (nodes : Cluster K E) (keys : List K) (index : Nat) : Cluster K E :=
  nodes.set index ((nodes.node index).drop keys)

/-- The nodes that a removal passes on its way before one refuses it. -/
def passable (nodes : Cluster K E) (indices : List Nat) : List Nat :=
  indices.takeWhile fun index => !(nodes.node index).poisoned

/-- What a removal by way of `indices` comes to: it gets as far as the first node that refuses it. -/
structure Swept (keys : List K) (indices : List Nat) (before : Cluster K E)
    (answer : Except StoreError Unit) (after : Cluster K E) : Prop where
  dropped : ∀ index ∈ before.passable indices, (before.node index).Dropped keys (after.node index)
  untouched : ∀ index ∉ before.passable indices, after.node index = before.node index
  answered : answer = .ok () ↔ ∀ index ∈ indices, (before.node index).poisoned = false

/-- What one would have of a removal: whatever refuses it, every other node drops the keys. -/
structure Cleansed (keys : List K) (indices : List Nat) (before : Cluster K E)
    (answer : Except StoreError Unit) (after : Cluster K E) : Prop where
  dropped : ∀ index ∈ indices, (before.node index).poisoned = false →
    (before.node index).Dropped keys (after.node index)
  answered : answer = .ok () ↔ ∀ index ∈ indices, (before.node index).poisoned = false

end Cluster

def Placement.Removes (keys : List K) (removal : Task (nodeCalls K E) (Except StoreError Unit))
    (index : Nat) : Prop :=
  ∀ nodes : Cluster K E, (removal.run Cluster.serveNode).run nodes =
    let (answer, node) := (nodes.node index).onSlots fun node => ((), node.drop keys)
    (answer, nodes.set index node)

namespace Cluster

open Placement

variable {nodes : Cluster K E} {keys : List K} {index : Nat}

theorem node_dropAt (present : index < nodes.length) (other : Nat) :
    (nodes.dropAt keys index).node other =
      if other = index then (nodes.node index).drop keys else nodes.node other := by
  unfold dropAt
  by_cases same : other = index
  · subst same
    simp [node, present]
  · rw [node, List.getElem?_set_ne (Ne.symm same), if_neg same, node]

theorem poisoned_dropAt (present : index < nodes.length) (other : Nat) :
    ((nodes.dropAt keys index).node other).poisoned = (nodes.node other).poisoned := by
  rw [node_dropAt present]
  split
  next same => rw [(CacheNode.drop_rest keys).2, same]
  next => rfl

theorem set_node : nodes.set index (nodes.node index) = nodes := by
  unfold node
  by_cases present : index < nodes.length
  · simp [present]
  · exact List.set_eq_of_length_le (Nat.le_of_not_lt present)

theorem removes_local (key : K) (index : Nat) :
    Removes (E := E) [key] (Task.ask (V := nodeCalls K E) (index, .removeLocal key)) index := by
  intro nodes
  rw [Task.run_ask]
  rfl

theorem removes_allLocal (keys : SortedSet K) (index : Nat) :
    Removes (E := E) keys.toList (Task.ask (V := nodeCalls K E) (index, .removeAllLocal keys))
      index := by
  intro nodes
  rw [Task.run_ask]
  rfl

variable {call : Nat → Task (nodeCalls K E) (Except StoreError Unit)} {rest : List Nat}

theorem run_inTurn_of_refused (removes : ∀ index, Removes keys (call index) index)
    (refused : (nodes.node index).poisoned = true) :
    ((inTurn call (index :: rest)).run serveNode).run nodes = (.error .poisoned, nodes) := by
  have first := removes index nodes
  simp only [CacheNode.onSlots, refused, if_true, set_node] at first
  rw [inTurn, Task.run_bind, StateT.run_bind, first]
  rfl

theorem run_inTurn_of_reached (removes : ∀ index, Removes keys (call index) index)
    (reached : (nodes.node index).poisoned = false) :
    ((inTurn call (index :: rest)).run serveNode).run nodes =
      ((inTurn call rest).run serveNode).run (nodes.dropAt keys index) := by
  have first := removes index nodes
  rw [CacheNode.onSlots_of_reachable reached] at first
  rw [inTurn, Task.run_bind, StateT.run_bind, first]
  rfl

variable [DecidableEq K]

theorem dropped_drop (before : CacheNode K E) (keys : List K) :
    before.Dropped keys (before.drop keys) := by
  constructor
  · intro key within
    rw [CacheNode.drop_slots, if_pos within]
  · intro key outside
    rw [CacheNode.drop_slots, if_neg outside]
  · rw [(CacheNode.drop_rest keys).1]
    exact Nat.lt_succ_self _

omit [DecidableEq K] in
theorem dropped_of_later {before mid after : CacheNode K E} (first : before.Dropped keys mid)
    (later : mid.Dropped keys after) : before.Dropped keys after := by
  constructor
  · exact later.slots
  · intro key outside
    rw [later.others key outside, first.others key outside]
  · exact Nat.lt_trans first.generation later.generation

theorem swept_inTurn (removes : ∀ index, Removes keys (call index) index) {indices : List Nat}
    (present : ∀ index ∈ indices, index < nodes.length) {answer : Except StoreError Unit}
    {after : Cluster K E}
    (run : ((inTurn call indices).run serveNode).run nodes = (answer, after)) :
    Swept keys indices nodes answer after := by
  induction indices generalizing nodes with
  | nil =>
    obtain ⟨rfl, rfl⟩ := Prod.mk.inj run
    exact ⟨by simp [passable], fun _ _ => rfl, by simp⟩
  | cons index rest ih =>
    cases reached : (nodes.node index).poisoned with
    | true =>
      rw [run_inTurn_of_refused removes reached] at run
      obtain ⟨rfl, rfl⟩ := Prod.mk.inj run
      exact ⟨by simp [passable, reached], fun _ _ => rfl, by simp [reached]⟩
    | false =>
      rw [run_inTurn_of_reached removes reached] at run
      have here : index < nodes.length := present index List.mem_cons_self
      have later : ∀ other ∈ rest, other < (nodes.dropAt keys index).length := by
        intro other within
        rw [dropAt, List.length_set]
        exact present other (List.mem_cons_of_mem _ within)
      have mid := @node_dropAt _ _ _ nodes keys index here
      have poisoned := @poisoned_dropAt _ _ _ nodes keys index here
      have passes : nodes.passable (index :: rest) =
          index :: (nodes.dropAt keys index).passable rest := by
        simp [passable, reached, poisoned]
      obtain ⟨dropped, untouched, answered⟩ := ih later run
      constructor
      · intro other within
        rw [passes] at within
        by_cases again : other ∈ (nodes.dropAt keys index).passable rest
        · have onward := dropped other again
          rw [mid] at onward
          split at onward
          next same =>
            subst same
            exact dropped_of_later (dropped_drop _ keys) onward
          next => exact onward
        · have same : other = index := (List.mem_cons.mp within).resolve_right again
          subst same
          rw [untouched other again, mid, if_pos rfl]
          exact dropped_drop _ keys
      · intro other outside
        rw [passes] at outside
        obtain ⟨apart, outside⟩ := not_or.mp (mt List.mem_cons.mpr outside)
        rw [untouched other outside, mid, if_neg apart]
      · rw [answered]
        simp [poisoned, reached]

omit [DecidableEq K] in
theorem node_dropAt_cases (index other : Nat) :
    (nodes.dropAt keys other).node index = nodes.node index ∨
      (nodes.dropAt keys other).node index = (nodes.node index).drop keys := by
  by_cases same : index = other
  · subst same
    by_cases present : index < nodes.length
    · exact .inr ((node_dropAt present index).trans (if_pos rfl))
    · left
      unfold dropAt
      rw [List.set_eq_of_length_le (Nat.le_of_not_lt present)]
  · left
    unfold dropAt
    rw [node, List.getElem?_set_ne (Ne.symm same), node]

theorem inTurn_cases (removes : ∀ index, Removes keys (call index) index) {indices : List Nat}
    {answer : Except StoreError Unit} {after : Cluster K E}
    (run : ((inTurn call indices).run serveNode).run nodes = (answer, after)) (index : Nat) :
    after.length = nodes.length ∧ (after.node index).poisoned = (nodes.node index).poisoned ∧
      (after.node index = nodes.node index ∨ (nodes.node index).Dropped keys (after.node index)) := by
  induction indices generalizing nodes with
  | nil =>
    obtain ⟨rfl, rfl⟩ := Prod.mk.inj run
    exact ⟨rfl, rfl, .inl rfl⟩
  | cons other rest ih =>
    cases reached : (nodes.node other).poisoned with
    | true =>
      rw [run_inTurn_of_refused removes reached] at run
      obtain ⟨rfl, rfl⟩ := Prod.mk.inj run
      exact ⟨rfl, rfl, .inl rfl⟩
    | false =>
      rw [run_inTurn_of_reached removes reached] at run
      obtain ⟨length, poisoned, onward⟩ := ih run
      rw [dropAt, List.length_set] at length
      obtain here | here := @node_dropAt_cases _ _ _ nodes keys index other
      · rw [here] at poisoned onward
        exact ⟨length, poisoned, onward⟩
      · rw [here] at poisoned onward
        refine ⟨length, poisoned.trans (CacheNode.drop_rest keys).2, .inr ?_⟩
        rcases onward with same | dropped
        · rw [same]
          exact dropped_drop _ keys
        · exact dropped_of_later (dropped_drop _ keys) dropped

theorem first_inTurn (removes : ∀ index, Removes keys (call index) index) {rest : List Nat}
    (present : index < nodes.length) (reached : (nodes.node index).poisoned = false)
    {answer : Except StoreError Unit} {after : Cluster K E}
    (run : ((inTurn call (index :: rest)).run serveNode).run nodes = (answer, after)) :
    after.length = nodes.length ∧ (after.node index).poisoned = false ∧
      (nodes.node index).Dropped keys (after.node index) := by
  rw [run_inTurn_of_reached removes reached] at run
  have here := @node_dropAt _ _ _ nodes keys index present index
  obtain ⟨length, poisoned, onward⟩ := inTurn_cases removes run index
  rw [dropAt, List.length_set] at length
  rw [if_pos rfl] at here
  rw [here] at poisoned onward
  refine ⟨length, ?_, ?_⟩
  · rw [poisoned, (CacheNode.drop_rest keys).2, reached]
  · rcases onward with same | dropped
    · rw [same]
      exact dropped_drop _ keys
    · exact dropped_of_later (dropped_drop _ keys) dropped

variable {placement : Placement}

theorem get?_remove_of_ne {key other : K} {answer : Except StoreError Unit} {after : Cluster K E}
    (run : (serve placement (.remove key)).run nodes = (answer, after)) (apart : other ≠ key)
    (index : Nat) : (after.node index).slots.get? other = (nodes.node index).slots.get? other := by
  have turns : ((inTurn (fun index => Task.ask (V := nodeCalls K E) (index, .removeLocal key))
      (placement.home :: placement.peers)).run serveNode).run nodes = (answer, after) := run
  obtain ⟨_, _, same | dropped⟩ := inTurn_cases (removes_local key) turns index
  · rw [same]
  · exact dropped.others other (by simpa using apart)

/-- A removal over a cluster drops the keys on its own node and on its peers in turn as far as the first
node that refuses, and is answered with an error exactly if there is one. -/
theorem removal_reaches (present : ∀ index ∈ placement.home :: placement.peers, index < nodes.length) :
    (∀ key, Swept [key] (placement.home :: placement.peers) nodes
      ((serve placement (.remove key)).run nodes).1 ((serve placement (.remove key)).run nodes).2) ∧
    ∀ keys : SortedSet K, Swept keys.toList (placement.home :: placement.peers) nodes
      ((serve placement (.removeAll keys)).run nodes).1
      ((serve placement (.removeAll keys)).run nodes).2 :=
  ⟨fun key => swept_inTurn (removes_local key) present rfl,
    fun keys => swept_inTurn (removes_allLocal keys) present rfl⟩

section Branches

def ann : Account := { Account.fresh "ann" 10 with id := some 1, version := 1 }

def branch : CacheNode Int64 Account := { slots := .ofList [(1, .present ann)] }

def branches : Cluster Int64 Account := [branch, branch.poison, branch]

theorem removal_reaches_branches :
    let placement : Placement := { home := 0, peers := [1, 2] }
    let run := (serve placement (.remove 1)).run branches
    (∀ index ∈ placement.home :: placement.peers, index < branches.length) ∧
      Swept [1] (placement.home :: placement.peers) branches run.1 run.2 ∧
      branches.passable (placement.home :: placement.peers) = [0] ∧ run.1 ≠ .ok () := by
  intro placement run
  have present : ∀ index ∈ placement.home :: placement.peers, index < branches.length := by decide
  have swept := (@removal_reaches _ _ _ branches _ placement present).1 1
  refine ⟨present, swept, by decide +kernel, ?_⟩
  intro accepted
  have reached := swept.answered.mp accepted 1 (by decide)
  revert reached
  decide +kernel

/-- The third branch could be reached, and yet it goes on serving what was removed. -/
theorem removal_stops_short :
    let placement : Placement := { home := 0, peers := [1, 2] }
    let run := (serve placement (.remove 1)).run branches
    (branches.node 2).poisoned = false ∧ (run.2.node 2).slots.get? 1 = some (.present ann) ∧
      ¬ Cleansed [1] (placement.home :: placement.peers) branches run.1 run.2 := by
  intro placement run
  have reached : (branches.node 2).poisoned = false := rfl
  have kept : (run.2.node 2).slots.get? 1 = some (.present ann) := by decide +kernel
  refine ⟨reached, kept, ?_⟩
  intro cleansed
  have dropped := (cleansed.dropped 2 (by decide) reached).slots 1 (by decide)
  rw [kept] at dropped
  cases dropped

end Branches

end Cluster

end OptimisticStore
