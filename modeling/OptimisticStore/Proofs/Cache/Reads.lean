import OptimisticStore.Proofs.Cache.Node
import OptimisticStore.Proofs.Cache.Removal
import OptimisticStore.Proofs.Running
import OptimisticStore.Proofs.Serving
import OptimisticStore.Proofs.Store.Acceptance
import OptimisticStore.Model.ReadThrough
import OptimisticStore.Sample.Account
/-!
Reading many keys at once through a cache, and reading them one by one.

Both leave of the reader's node what `CacheNode.readAll` says, which does not depend on the order of the
keys. Main statement: `getAll_eq_gets`, by which a bulk read returns and remembers what single reads
do in any order, and asks the store at most once, for the keys without a slot.
-/
namespace OptimisticStore

variable {K E : Type} [Key K]

namespace CacheNode

def lacks (node : CacheNode K E) (key : K) : Bool := !node.slots.contains key

def counted (node : CacheNode K E) (keys : List K) : CacheNode K E :=
  { node with
    hits := node.hits + keys.countP fun key => !node.lacks key
    negativeHits := node.negativeHits +
      keys.countP fun key => (node.slots.get? key).any Slot.isAbsent
    misses := node.misses + keys.countP node.lacks }

def readAll (node : CacheNode K E) (rows : SortedMap K E) (keys : List K) : CacheNode K E :=
  { node.counted keys with
    slots := node.slots.insertAll
      ((keys.filter node.lacks).map fun key => (key, .ofOption (rows.get? key))) }

variable [DecidableEq K] {node : CacheNode K E} {rows : SortedMap K E} {keys : List K}

omit [DecidableEq K] in
theorem get_eq (key : K) : node.get key = (node.slots.get? key, node.counted [key]) := by
  cases held : node.slots.get? key with
  | none => simp [get, countLookup, counted, lacks, SortedMap.contains, held]
  | some slot =>
    cases slot <;> simp [get, countLookup, counted, lacks, SortedMap.contains, held, Slot.isAbsent]

omit [DecidableEq K] in
theorem counted_counted (keys others : List K) :
    (node.counted keys).counted others = node.counted (keys ++ others) := by
  unfold counted
  simp only [List.countP_append, ← Nat.add_assoc]
  rfl

omit [DecidableEq K] in
theorem getAll_counted : (node.getAll keys).2 = node.counted keys := by
  induction keys generalizing node with
  | nil => rfl
  | cons key rest ih =>
    change ((node.get key).2.getAll rest).2 = _
    rw [ih, get_eq, counted_counted, List.singleton_append]

theorem get?_getAll (key : K) :
    (node.getAll keys).1.get? key = if key ∈ keys then node.slots.get? key else none := by
  induction keys generalizing node with
  | nil => rfl
  | cons first rest ih =>
    have later : ((node.counted [first]).getAll rest).1.get? key =
        if key ∈ rest then node.slots.get? key else none := ih
    unfold getAll
    rw [get_eq]
    by_cases same : key = first
    · subst same
      cases held : node.slots.get? key with
      | none => simp [held, later]
      | some slot => simp
    · cases held : node.slots.get? first with
      | none => simp [later, same]
      | some slot => simp [SortedMap.get?_insert, later, same]

theorem get?_readAll (key : K) : (node.readAll rows keys).slots.get? key =
    if key ∈ keys ∧ node.lacks key = true then some (.ofOption (rows.get? key))
    else node.slots.get? key := by
  have filled := SortedMap.get?_insertAll_map node.slots (keys.filter node.lacks)
    (fun key => Slot.ofOption (rows.get? key)) key
  simp only [List.mem_filter] at filled
  exact filled

omit [DecidableEq K] in
theorem eq_of_get? {one other : CacheNode K E}
    (slots : ∀ key, one.slots.get? key = other.slots.get? key) (hits : one.hits = other.hits)
    (negativeHits : one.negativeHits = other.negativeHits) (misses : one.misses = other.misses)
    (removals : one.removals = other.removals) (generation : one.generation = other.generation)
    (poisoned : one.poisoned = other.poisoned) : one = other := by
  have same : one.slots = other.slots := SortedMap.ext_get? slots
  cases one
  cases other
  simp_all

theorem readAll_perm {others : List K} (perm : keys.Perm others) :
    node.readAll rows keys = node.readAll rows others := by
  apply eq_of_get?
  case slots =>
    intro key
    simp only [get?_readAll, perm.mem_iff]
  case hits | negativeHits | misses => exact congrArg (_ + ·) (perm.countP_eq _)
  case removals | generation | poisoned => rfl

theorem get?_beside {key other : K} (different : other ≠ key) :
    (node.readAll rows [key]).slots.get? other = node.slots.get? other := by
  simp [get?_readAll, different]

theorem lacks_beside {key other : K} (different : other ≠ key) :
    (node.readAll rows [key]).lacks other = node.lacks other := by
  simp only [lacks, SortedMap.contains, get?_beside different]

theorem readAll_cons {key : K} {rest : List K} (apart : key ∉ rest) :
    node.readAll rows (key :: rest) = (node.readAll rows [key]).readAll rows rest := by
  have different : ∀ other ∈ rest, other ≠ key := fun other within => ne_of_mem_of_not_mem within apart
  -- each count goes on from the one after the first key, over slots that the first key has left alone
  have onward (count : Nat) {here there : K → Bool} (same : ∀ other ∈ rest, here other = there other) :
      count + (key :: rest).countP there = count + [key].countP there + rest.countP here := by
    have rest : rest.countP here = rest.countP there :=
      List.countP_congr fun other within => by rw [same other within]
    rw [rest, ← List.singleton_append, List.countP_append]
    omega
  apply eq_of_get?
  case slots =>
    intro other
    by_cases within : other ∈ rest
    · have apart := different other within
      simp [get?_readAll, within, apart, lacks_beside apart]
    · simp [get?_readAll, within]
  case hits =>
    exact onward _ fun other within => by rw [lacks_beside (different other within)]
  case negativeHits =>
    exact onward _ fun other within => by rw [get?_beside (different other within)]
  case misses => exact onward _ fun other within => lacks_beside (different other within)
  case removals | generation | poisoned => rfl

end CacheNode

namespace ReadThrough

/-- The calls of a bulk read: the slots are looked up, and if any key is without one, all of those are
fetched at once, after the generation was noted, and each is offered to the cache. -/
def script (keys : SortedSet K) (slots : SortedMap K (Slot E)) (generation : Nat)
    (fetched : SortedMap K E) : List (Call K E) :=
  let missing := keys.filter fun key => !slots.contains key
  if keys.isEmpty then []
  else if missing.isEmpty then [.cache (.getAll keys)]
  else [.cache (.getAll keys), .cache .generation, .store (.fetchMany missing)] ++
    missing.toList.map fun key => .cache (.putIf key (.ofOption (fetched.get? key)) generation)

theorem get?_ofSlots [DecidableEq K] (slots : SortedMap K (Slot E)) (key : K) :
    (ofSlots slots).get? key = (slots.get? key).map Slot.toOption := by
  have bound : ∀ value, (key, value) ∈ slots.entries.map (fun entry => (entry.1, entry.2.toOption)) ↔
      (slots.get? key).map Slot.toOption = some value := by
    intro value
    simp only [List.mem_map, Prod.mk.injEq, Option.map_eq_some_iff]
    constructor
    · rintro ⟨⟨key, slot⟩, within, rfl, rfl⟩
      exact ⟨slot, SortedMap.mem_entries_iff.mp within, rfl⟩
    · rintro ⟨slot, held, rfl⟩
      exact ⟨(key, slot), SortedMap.mem_entries_iff.mpr held, rfl, rfl⟩
  cases shown : (slots.get? key).map Slot.toOption with
  | some value =>
    apply SortedMap.get?_insertAll_of_agree ((bound value).mpr shown)
    intro other among
    exact Option.some.inj (((bound other).mp among).symm.trans shown)
  | none =>
    apply SortedMap.get?_insertAll_eq_none_iff.mpr
    constructor
    · intro value among
      have there := (bound value).mp among
      rw [shown] at there
      cases there
    · rfl

end ReadThrough

namespace World

def home (client : Client K E) (world : World K E) : CacheNode K E :=
  world.nodes.node client.placement.home

def visited (client : Client K E) (world : World K E) (node : CacheNode K E)
    (asked : List (StoreCall K E)) : World K E :=
  { world with
    nodes := world.nodes.set client.placement.home node
    store := { world.store with inner := asked.foldl Store.record world.store.inner } }

/-- Nothing keeps a client from reading: its node is there, and slots and rows can be reached. -/
structure Readable (client : Client K E) (world : World K E) : Prop where
  present : client.placement.home < world.nodes.length
  slots : (world.home client).poisoned = false
  rows : world.store.inner.poisoned = false

/-- What a client gets to see of a key: what its node remembers, or else the row. -/
def seen (client : Client K E) (world : World K E) (key : K) : Option E :=
  match (world.home client).slots.get? key with
  | some slot => slot.toOption
  | none => world.table.rows.get? key

def unheld (client : Client K E) (world : World K E) (keys : SortedSet K) : SortedSet K :=
  keys.filter (world.home client).lacks

variable {client : Client K E} {world : World K E} {node : CacheNode K E} {asked : List (StoreCall K E)}

theorem inner_recorded (store : Store K E) :
    (asked.foldl Store.record store).table = store.table ∧
      (asked.foldl Store.record store).poisoned = store.poisoned := by
  induction asked generalizing store with
  | nil => exact ⟨rfl, rfl⟩
  | cons call rest ih =>
    obtain ⟨table, poisoned⟩ := ih (store.record call)
    exact ⟨table.trans (Store.record_table store call),
      poisoned.trans (Store.record_poisoned call)⟩

@[simp] theorem table_visited : (world.visited client node asked).table = world.table :=
  (inner_recorded world.store.inner).1

theorem home_visited (present : client.placement.home < world.nodes.length) :
    (world.visited client node asked).home client = node := by
  simp [home, visited, Cluster.node, present]

theorem visited_visited (later : CacheNode K E) (others : List (StoreCall K E)) :
    (world.visited client node asked).visited client later others =
      world.visited client later (asked ++ others) := by
  simp only [visited, List.set_set, List.foldl_append]

theorem visited_home : world.visited client (world.home client) [] = world := by
  unfold visited home
  rw [Cluster.set_node]
  rfl

theorem Readable.visited (readable : world.Readable client) (reachable : node.poisoned = false) :
    (world.visited client node asked).Readable client where
  present := by simpa [World.visited] using readable.present
  slots := by rw [home_visited readable.present]; exact reachable
  rows := (inner_recorded world.store.inner).2.trans readable.rows

theorem read_recorded {store : Store K E} {call : StoreCall K E} {α : Type} {read : Table K E → α}
    (reached : store.poisoned = false) :
    ((store.record call).onTable fun table => (.ok (read table), table)) =
      (.ok (read store.table), store.record call) := by
  have reached : ¬(store.record call).poisoned = true := by simp [reached, Store.record_poisoned]
  unfold Store.onTable
  rw [if_neg reached]
  change (Except.ok (read (store.record call).table), store.record call) = _
  rw [Store.record_table]

variable [DecidableEq E] {family : Family K E}

def traced (family : Family K E) (client : Client K E) {α : Type} (program : Program K E α) :
    StateM (World K E × List (Call K E)) α :=
  Task.run (V := calls K E) (Task.listing (serve family client)) program

theorem run_of_traced {α : Type} {program : Program K E α} {made : List (Call K E)} {value : α}
    {last : World K E × List (Call K E)}
    (traced : (World.traced family client program).run (world, made) = (value, last)) :
    (World.run family client program).run world = (value, last.1) := by
  have listed := @Task.run_listing (calls K E) _ _ (serve family client) program world made
  unfold World.traced at traced
  rw [traced] at listed
  exact listed

theorem traced_ask_bind {α : Type} (call : Call K E) (next : call.Answer → Program K E α)
    (made : List (Call K E)) :
    (traced family client (Program.ask call >>= next)).run (world, made) =
      (traced family client (next ((serve family client call).run world).1)).run
        (((serve family client call).run world).2, made ++ [call]) := rfl

theorem run_bind {α β : Type} (first : Program K E α) (next : α → Program K E β) :
    (World.run family client (first >>= next)).run world =
      (World.run family client (next ((World.run family client first).run world).1)).run
        ((World.run family client first).run world).2 := by
  unfold World.run
  rw [Task.run_bind]
  rfl

theorem serve_home {call : CacheCall K E}
    (own : client.placement.carry call = Task.ask (V := nodeCalls K E) (client.placement.home, call)) :
    (serve family client (.cache call)).run world =
      (((world.home client).serve call).1,
        world.visited client ((world.home client).serve call).2 []) := by
  have served : (Cluster.serve client.placement call).run world.nodes =
      (((world.home client).serve call).1,
        world.nodes.set client.placement.home ((world.home client).serve call).2) := by
    unfold Cluster.serve
    rw [own, Task.run_ask]
    rfl
  change (((Cluster.serve client.placement call).run world.nodes).1,
    { world with nodes := ((Cluster.serve client.placement call).run world.nodes).2 }) = _
  rw [served]
  rfl

section Calls

variable (readable : world.Readable client)

omit [DecidableEq E] in
include readable in
theorem onSlots_home {α : Type} (step : CacheNode K E → α × CacheNode K E) :
    (world.home client).onSlots step =
      (.ok (step (world.home client)).1, (step (world.home client)).2) :=
  CacheNode.onSlots_of_reachable readable.slots step

include readable

theorem serve_get (key : K) :
    (serve family client (.cache (.get key))).run world =
      (.ok ((world.home client).slots.get? key),
        world.visited client ((world.home client).counted [key]) []) := by
  rw [serve_home rfl, CacheNode.serve, onSlots_home readable, CacheNode.get_eq]

theorem serve_getAll (keys : SortedSet K) :
    (serve family client (.cache (.getAll keys))).run world =
      (.ok ((world.home client).getAll keys.toList).1,
        world.visited client ((world.home client).counted keys.toList) []) := by
  rw [serve_home rfl, CacheNode.serve, onSlots_home readable, CacheNode.getAll_counted]

omit readable in
theorem serve_generation :
    (serve family client (.cache .generation)).run world =
      (.ok (world.home client).generation, world) := by
  rw [serve_home rfl, CacheNode.serve, visited_home]

theorem serve_putIf {generation : Nat} (current : (world.home client).generation = generation)
    (key : K) (slot : Slot E) :
    (serve family client (.cache (.putIf key slot generation))).run world =
      (.ok true, world.visited client ((world.home client).put key slot) []) := by
  rw [serve_home rfl, CacheNode.serve, onSlots_home readable, CacheNode.putIf, if_pos current]

omit readable in
theorem serve_recorded {call : StoreCall K E} {answer : call.Answer}
    (recorded : world.store.serve family call =
      (answer, { world.store with inner := world.store.inner.record call })) :
    (serve family client (.store call)).run world =
      (answer, world.visited client (world.home client) [call]) := by
  have nodes : world.nodes.set client.placement.home (world.home client) = world.nodes :=
    Cluster.set_node
  unfold visited
  rw [nodes]
  change ((world.store.serve family call).1, { world with store := (world.store.serve family call).2 }) = _
  rw [recorded]
  rfl

theorem serve_fetchRow (key : K) :
    (serve family client (.store (.fetch key))).run world =
      (.ok (world.table.rows.get? key), world.visited client (world.home client) [.fetch key]) := by
  apply serve_recorded
  simp only [FaultyStore.serve, FaultyStore.pass, Store.serve]
  rw [read_recorded readable.rows]

theorem serve_fetchRows (keys : SortedSet K) :
    (serve family client (.store (.fetchMany keys))).run world =
      (.ok (world.table.select keys.toList),
        world.visited client (world.home client) [.fetchMany keys]) := by
  apply serve_recorded
  simp only [FaultyStore.serve, FaultyStore.pass, Store.serve]
  rw [read_recorded readable.rows]

end Calls

variable [DecidableEq K]

omit [DecidableEq K] in
theorem traced_get (readable : world.Readable client) (key : K) (made : List (Call K E)) :
    (World.traced family client (ReadThrough.get key)).run (world, made) =
      (.ok (world.seen client key),
        world.visited client ((world.home client).readAll world.table.rows [key])
          (([key].filter (world.home client).lacks).map .fetch),
        made ++ if (world.home client).lacks key then
          [.cache (.get key), .cache .generation, .store (.fetch key),
            .cache (.putIf key (.ofOption (world.table.rows.get? key)) (world.home client).generation)]
          else [.cache (.get key)]) := by
  have looked : (world.visited client ((world.home client).counted [key]) []).Readable client :=
    readable.visited readable.slots
  have fetched :
      (world.visited client ((world.home client).counted [key]) [.fetch key]).Readable client :=
    readable.visited readable.slots
  unfold ReadThrough.get Program.cached Program.fetch
  rw [traced_ask_bind, serve_get readable]
  cases held : (world.home client).slots.get? key with
  | some slot =>
    have had : (world.home client).lacks key = false := by
      simp [CacheNode.lacks, SortedMap.contains, held]
    simp only [World.traced, seen, held, CacheNode.readAll, List.filter_singleton, had]
    rfl
  | none =>
    have lacking : (world.home client).lacks key = true := by
      simp [CacheNode.lacks, SortedMap.contains, held]
    dsimp only
    rw [traced_ask_bind, serve_generation]
    dsimp only
    rw [traced_ask_bind, serve_fetchRow looked]
    dsimp only
    rw [home_visited readable.present, visited_visited, traced_ask_bind, List.nil_append,
      serve_putIf fetched (by rw [home_visited readable.present]), home_visited readable.present,
      visited_visited, table_visited, if_pos lacking]
    simp only [seen, held, CacheNode.readAll, List.filter_singleton, lacking, List.append_assoc]
    rfl

omit [DecidableEq K] in
theorem run_get (readable : world.Readable client) (key : K) :
    (World.run family client (ReadThrough.get key)).run world =
      (.ok (world.seen client key),
        world.visited client ((world.home client).readAll world.table.rows [key])
          (([key].filter (world.home client).lacks).map .fetch)) :=
  run_of_traced (traced_get readable key [])

omit [DecidableEq K] in
theorem traced_fill {generation : Nat} {fetched : SortedMap K E} {keys : List K}
    {found : SortedMap K (Option E)} {made : List (Call K E)} (readable : world.Readable client)
    (current : (world.home client).generation = generation) :
    (World.traced family client (ReadThrough.fill fetched generation keys found)).run (world, made) =
      (.ok (found.insertAll (keys.map fun key => (key, fetched.get? key))),
        world.visited client { world.home client with
          slots := (world.home client).slots.insertAll
            (keys.map fun key => (key, .ofOption (fetched.get? key))) } [],
        made ++ keys.map fun key =>
          .cache (.putIf key (.ofOption (fetched.get? key)) generation)) := by
  induction keys generalizing world found made with
  | nil => exact congrArg (Prod.mk _) (Prod.ext visited_home.symm (List.append_nil made).symm)
  | cons key rest ih =>
    have later : (world.visited client
        ((world.home client).put key (.ofOption (fetched.get? key))) []).Readable client :=
      readable.visited readable.slots
    unfold ReadThrough.fill Program.cached
    dsimp only
    rw [traced_ask_bind, serve_putIf readable current]
    dsimp only
    rw [ih later (by rw [home_visited readable.present]; exact current),
      home_visited readable.present, visited_visited, List.append_assoc]
    rfl

def gathered (client : Client K E) (world : World K E) (keys : SortedSet K) : SortedMap K (Option E) :=
  (ReadThrough.ofSlots ((world.home client).getAll keys.toList).1).insertAll
    ((world.unheld client keys).toList.map fun key =>
      (key, (world.table.select (world.unheld client keys).toList).get? key))

omit [DecidableEq E] in
theorem get?_gathered (keys : SortedSet K) (key : K) :
    (world.gathered client keys).get? key =
      if key ∈ keys.toList then some (world.seen client key) else none := by
  have among : key ∈ (world.unheld client keys).toList ↔
      key ∈ keys.toList ∧ (world.home client).lacks key = true := List.mem_filter
  unfold gathered
  rw [SortedMap.get?_insertAll_map, ReadThrough.get?_ofSlots, CacheNode.get?_getAll]
  by_cases within : key ∈ keys.toList
  · cases held : (world.home client).slots.get? key with
    | some slot =>
      have unmissed : key ∉ (world.unheld client keys).toList := by
        simp [among, CacheNode.lacks, SortedMap.contains, held]
      simp [unmissed, within, seen, held]
    | none =>
      have missed : key ∈ (world.unheld client keys).toList := by
        simp [among, within, CacheNode.lacks, SortedMap.contains, held]
      simp [missed, within, seen, held, Table.get?_select missed]
  · have unmissed : key ∉ (world.unheld client keys).toList := fun missed => within (among.mp missed).1
    simp [unmissed, within]

theorem traced_getAll (readable : world.Readable client) (keys : SortedSet K)
    (made : List (Call K E)) :
    (World.traced family client (ReadThrough.getAll keys)).run (world, made) =
      (.ok (world.gathered client keys),
        world.visited client ((world.home client).readAll world.table.rows keys.toList)
          (if (world.unheld client keys).isEmpty then [] else [.fetchMany (world.unheld client keys)]),
        made ++ ReadThrough.script keys ((world.home client).getAll keys.toList).1
          (world.home client).generation (world.table.select (world.unheld client keys).toList)) := by
  have missing : (keys.filter fun key => !((world.home client).getAll keys.toList).1.contains key) =
      world.unheld client keys := by
    apply SortedSet.ext
    apply List.filter_congr
    intro key within
    simp [CacheNode.lacks, SortedMap.contains, CacheNode.get?_getAll, within]
  have looked : (world.visited client ((world.home client).counted keys.toList) []).Readable client :=
    readable.visited readable.slots
  have fetched : (world.visited client ((world.home client).counted keys.toList)
      [.fetchMany (world.unheld client keys)]).Readable client :=
    readable.visited readable.slots
  have toList : (world.unheld client keys).toList = keys.toList.filter (world.home client).lacks := rfl
  rw [ReadThrough.getAll_eq]
  unfold Program.cached Program.fetchMany gathered CacheNode.readAll ReadThrough.script
  rw [missing]
  cases nothing : keys.isEmpty with
  | true =>
    have empty : keys.toList = [] := by simpa [SortedSet.isEmpty] using nothing
    simp only [SortedSet.isEmpty, toList, empty]
    exact congrArg (Prod.mk _) (Prod.ext visited_home.symm (List.append_nil made).symm)
  | false =>
    rw [if_neg (by simp), traced_ask_bind, serve_getAll readable]
    dsimp only
    rw [missing]
    cases held : (world.unheld client keys).isEmpty with
    | true =>
      have empty : (world.unheld client keys).toList = [] := by simpa [SortedSet.isEmpty] using held
      rw [empty, ← toList, empty]
      rfl
    | false =>
      have rows : ∀ key ∈ (world.unheld client keys).toList,
          (key, Slot.ofOption ((world.table.select (world.unheld client keys).toList).get? key)) =
            (key, Slot.ofOption (world.table.rows.get? key)) := by
        intro key within
        rw [Table.get?_select within]
      rw [if_neg (by simp), traced_ask_bind, serve_generation, home_visited readable.present]
      dsimp only
      rw [traced_ask_bind, serve_fetchRows looked, home_visited readable.present, visited_visited,
        List.nil_append, table_visited]
      dsimp only
      rw [traced_fill fetched (by rw [home_visited readable.present]), home_visited readable.present,
        visited_visited, ← toList, List.map_congr_left rows]
      simp only [List.append_assoc, List.cons_append, List.nil_append]
      rfl

theorem run_getAll (readable : world.Readable client) (keys : SortedSet K) :
    (World.run family client (ReadThrough.getAll keys)).run world =
      (.ok (world.gathered client keys),
        world.visited client ((world.home client).readAll world.table.rows keys.toList)
          (if (world.unheld client keys).isEmpty then []
            else [.fetchMany (world.unheld client keys)])) :=
  run_of_traced (traced_getAll readable keys [])

omit [DecidableEq E] in
theorem seen_beside (present : client.placement.home < world.nodes.length) {key other : K}
    (different : other ≠ key) :
    (world.visited client ((world.home client).readAll world.table.rows [key]) asked).seen client
      other = world.seen client other := by
  simp only [seen, home_visited present, CacheNode.get?_beside different, table_visited]

theorem run_gets {order : List K} (readable : world.Readable client) (apart : order.Nodup) :
    (World.run family client (order.mapM ReadThrough.get)).run world =
      (order.map fun key => .ok (world.seen client key),
        world.visited client ((world.home client).readAll world.table.rows order)
          ((order.filter (world.home client).lacks).map .fetch)) := by
  induction order generalizing world with
  | nil => exact congrArg (Prod.mk _) visited_home.symm
  | cons key rest ih =>
    obtain ⟨apart, others⟩ := List.nodup_cons.mp apart
    have later : (world.visited client ((world.home client).readAll world.table.rows [key])
        (([key].filter (world.home client).lacks).map .fetch)).Readable client :=
      readable.visited readable.slots
    have different : ∀ other ∈ rest, other ≠ key :=
      fun other within => ne_of_mem_of_not_mem within apart
    have values : (rest.map fun other => Except.ok ((world.visited client
          ((world.home client).readAll world.table.rows [key])
          (([key].filter (world.home client).lacks).map .fetch)).seen client other)) =
        rest.map fun other => (Except.ok (world.seen client other) : Except StoreError (Option E)) := by
      apply List.map_congr_left
      intro other within
      rw [seen_beside readable.present (different other within)]
    have lacking : rest.filter ((world.home client).readAll world.table.rows [key]).lacks =
        rest.filter (world.home client).lacks :=
      List.filter_congr fun other within => CacheNode.lacks_beside (different other within)
    have asked : [key].filter (world.home client).lacks ++ rest.filter (world.home client).lacks =
        (key :: rest).filter (world.home client).lacks := by
      rw [← List.filter_append, List.singleton_append]
    rw [List.mapM_cons, run_bind, run_get readable, run_bind, ih later others, values,
      home_visited readable.present, visited_visited, table_visited, lacking, ← List.map_append, asked,
      ← CacheNode.readAll_cons apart]
    rfl

end World

/-- Answer calls from a stock of answers, and note them in the order they are made. -/
def Task.note {V : Vocabulary} (answers : (request : V.Call) → V.Answer request) (request : V.Call) :
    StateM (List V.Call) (V.Answer request) := fun noted => (answers request, noted ++ [request])

namespace ReadThrough

/-- A cache and a store that answer a bulk read without failing: with these slots and this generation,
these rows for the keys without a slot, and to every slot they are offered yes or no. -/
structure Answers (answers : (call : Call K E) → call.Answer) (keys : SortedSet K)
    (slots : SortedMap K (Slot E)) (generation : Nat) (fetched : SortedMap K E) : Prop where
  looked : answers (.cache (.getAll keys)) = .ok slots
  numbered : answers (.cache .generation) = .ok generation
  brought : answers (.store (.fetchMany (keys.filter fun key => !slots.contains key))) = .ok fetched
  offered : ∀ key slot, ∃ taken, answers (.cache (.putIf key slot generation)) = .ok taken

section Script

variable {keys : SortedSet K} {slots : SortedMap K (Slot E)} {generation : Nat}
  {fetched : SortedMap K E} {answers : (call : Call K E) → call.Answer}

theorem run_note_bind {α : Type} (call : Call K E) (next : call.Answer → Program K E α)
    (noted : List (Call K E)) :
    (Task.run (Task.note (V := calls K E) answers) (Program.ask call >>= next)).run noted =
      (Task.run (Task.note (V := calls K E) answers) (next (answers call))).run (noted ++ [call]) := rfl

theorem noted_fill
    (offered : ∀ key slot, ∃ taken, answers (.cache (.putIf key slot generation)) = .ok taken)
    {waiting : List K} {found : SortedMap K (Option E)} {noted : List (Call K E)} :
    (Task.run (Task.note (V := calls K E) answers) (fill fetched generation waiting found)).run noted =
      (.ok (found.insertAll (waiting.map fun key => (key, fetched.get? key))),
        noted ++ waiting.map fun key =>
          .cache (.putIf key (.ofOption (fetched.get? key)) generation)) := by
  induction waiting generalizing found noted with
  | nil => exact congrArg (Prod.mk _) (List.append_nil noted).symm
  | cons key rest ih =>
    obtain ⟨taken, answered⟩ := offered key (.ofOption (fetched.get? key))
    unfold fill Program.cached
    dsimp only
    rw [run_note_bind, answered]
    dsimp only
    rw [ih, List.append_assoc]
    rfl

/-- Whatever the cache says to the slots it is offered, a bulk read makes these calls and ends. -/
theorem noted_getAll (answered : Answers answers keys slots generation fetched) :
    (Task.run (Task.note (V := calls K E) answers) (getAll keys)).run [] =
      (.ok (if keys.isEmpty then {} else
          (ofSlots slots).insertAll ((keys.filter fun key => !slots.contains key).toList.map fun key =>
            (key, fetched.get? key))),
        script keys slots generation fetched) := by
  rw [getAll_eq]
  unfold script Program.cached Program.fetchMany
  cases nothing : keys.isEmpty with
  | true => rfl
  | false =>
    rw [if_neg (by simp), run_note_bind, answered.looked]
    dsimp only
    cases served : (keys.filter fun key => !slots.contains key).isEmpty with
    | true =>
      have empty : (keys.filter fun key => !slots.contains key).toList = [] := by
        simpa [SortedSet.isEmpty] using served
      rw [empty]
      rfl
    | false =>
      rw [if_neg (by simp), run_note_bind, answered.numbered]
      dsimp only
      rw [run_note_bind, answered.brought]
      dsimp only
      rw [noted_fill answered.offered]
      rfl

end Script

variable [DecidableEq K] [DecidableEq E] {family : Family K E} {client : Client K E} {world : World K E}

/-- A bulk read returns and leaves behind what single reads in the given order do. The store has counted
one batch of the keys without a slot, if there are any, or else a call for each of them. -/
structure SameAsSingly (family : Family K E) (client : Client K E) (world : World K E)
    (keys : SortedSet K) (order : List K) (found : SortedMap K (Option E)) (node : CacheNode K E) :
    Prop where
  bound : found.keys = keys.toList
  values : ∀ key ∈ keys, found.get? key = some (world.seen client key) ∧
    ((World.run family client (get key)).run world).1 = .ok (world.seen client key)
  bulk : (World.run family client (getAll keys)).run world =
    (.ok found, world.visited client node
      (if (world.unheld client keys).isEmpty then [] else [.fetchMany (world.unheld client keys)]))
  singly : (World.run family client (order.mapM get)).run world =
    (order.map fun key => .ok (world.seen client key),
      world.visited client node ((order.filter (world.home client).lacks).map .fetch))

theorem getAll_eq_gets {keys : SortedSet K} {order : List K} (readable : world.Readable client)
    (perm : order.Perm keys.toList) :
    (∃ found node, SameAsSingly family client world keys order found node) ∧
      ∀ (slots : SortedMap K (Slot E)) (generation : Nat) (fetched : SortedMap K E), ∃ found,
        ∀ answers : (call : Call K E) → call.Answer,
          Answers answers keys slots generation fetched →
            (Task.run (Task.note (V := calls K E) answers) (getAll keys)).run [] =
              (.ok found, script keys slots generation fetched) := by
  have apart : keys.toList.Nodup := keys.ascending.nodup
  have same : SameAsSingly family client world keys order (world.gathered client keys)
      ((world.home client).readAll world.table.rows keys.toList) := by
    constructor
    case bound =>
      apply SortedMap.keys_eq_of_mem_iff
      intro key
      simp [World.get?_gathered, SortedSet.mem_def]
    case values =>
      intro key within
      constructor
      · exact (World.get?_gathered keys key).trans (if_pos within)
      · rw [World.run_get readable]
    case bulk => exact World.run_getAll readable keys
    case singly =>
      rw [World.run_gets readable (perm.nodup_iff.mpr apart), CacheNode.readAll_perm perm]
  constructor
  · exact ⟨_, _, same⟩
  · intro slots generation fetched
    exact ⟨_, fun answers answered => noted_getAll answered⟩

section Counter

def ann : Account := { Account.fresh "ann" 10 with id := some 1, version := 2 }

def bob : Account := { Account.fresh "bob" 20 with id := some 3, version := 1 }

def clerk : Client Int64 Account where
  reading stamp := stamp
  mutate account := (account, .unchanged)
  create _ := Account.fresh "new" 0

def counter : World Int64 Account where
  store := { inner := { table := { rows := .ofList [(1, ann), (3, bob)] } } }
  nodes := [{ slots := .ofList [(1, .present { ann with version := 1, balance := 5 }), (2, .absent)] }]

def moved : (call : Call Int64 Account) → call.Answer
  | .cache (.getAll _) => .ok (.ofList [(2, .absent)])
  | .cache .generation => .ok 7
  | .cache (.putIf _ _ _) => .ok false
  | .cache call => call.refuse .poisoned
  | .store (.fetchMany _) => .ok (.ofList [(3, bob)])
  | .store call => call.refuse .poisoned
  | .lock _ => .error .poisoned
  | .unlock _ => ()
  | .tick => 0
  | .stopped => false
  | .pause => true
  | .mutate account => (account, .unchanged)
  | .create _ => bob
  | .post _ => ()

theorem getAll_eq_gets_counter :
    (∃ found node,
      SameAsSingly Account.family clerk counter (.ofList [1, 2, 3, 4]) [4, 2, 1, 3] found node ∧
      found.get? 1 = some (some { ann with version := 1, balance := 5 }) ∧
      found.get? 2 = some none ∧ found.get? 3 = some (some bob) ∧ found.get? 4 = some none ∧
      node.hits = 2 ∧ node.negativeHits = 1 ∧ node.misses = 2) ∧
    ∃ found, (Task.run (Task.note (V := calls Int64 Account) moved)
        (getAll (.ofList [1, 2, 3, 4]))).run [] =
      (.ok found, script (.ofList [1, 2, 3, 4]) (.ofList [(2, .absent)]) 7 (.ofList [(3, bob)])) := by
  have readable : counter.Readable clerk := ⟨by decide, rfl, rfl⟩
  obtain ⟨⟨found, node, same⟩, once⟩ := @getAll_eq_gets Int64 Account _ _ _ Account.family clerk
    counter (.ofList [1, 2, 3, 4]) [4, 2, 1, 3] readable (by decide)
  have left : node = (((World.run Account.family clerk (getAll (.ofList [1, 2, 3, 4]))).run
      counter).2.home clerk) := by
    rw [same.bulk, World.home_visited readable.present]
  constructor
  · refine ⟨found, node, same, ?_, ?_, ?_, ?_, ?_, ?_, ?_⟩
    · exact (same.values 1 (by simp)).1
    · exact (same.values 2 (by simp)).1
    · exact (same.values 3 (by simp)).1
    · exact (same.values 4 (by simp)).1
    · rw [left]
      decide +kernel
    · rw [left]
      decide +kernel
    · rw [left]
      decide +kernel
  · obtain ⟨found, made⟩ := once (.ofList [(2, .absent)]) 7 (.ofList [(3, bob)])
    exact ⟨found, made moved ⟨rfl, rfl, rfl, fun _ _ => ⟨false, rfl⟩⟩⟩

end Counter

end ReadThrough

end OptimisticStore
