import OptimisticStore.Model.CacheLoader
import OptimisticStore.Proofs.Cache.Reads
import OptimisticStore.Relation.Load
import OptimisticStore.Sample.Site
/-!
When a key reaches the store again.

A read asks the store for the keys that its node has no slot for, and leaves a slot for each key it was
asked for. So from one fetch of a key to the next its slot must have gone, and slots go by removals of
their own keys. Main statement: `refetched_only_if_dropped`.
-/
namespace OptimisticStore

variable {K E : Type} [Key K]

section Calls

variable [DecidableEq K]

def Call.fetches (key : K) : Call K E → Bool
  | .store (.fetch other) => other = key
  | .store (.fetchMany keys) => keys.contains key
  | _ => false

def Call.drops (key : K) : Call K E → Bool
  | .cache (.remove other) | .cache (.removeLocal other) => other = key
  | .cache (.removeAll keys) | .cache (.removeAllLocal keys) => keys.contains key
  | _ => false

/-- Whether a key is remembered after a call, if a fetched row is. -/
def Call.leaves (key : K) (held : Bool) (call : Call K E) : Bool :=
  !call.drops key && (held || call.fetches key)

/-- No call fetches the key while it is remembered. -/
def Sparing (key : K) : Bool → List (Call K E) → Prop
  | _, [] => True
  | held, call :: rest =>
    (call.fetches key = true → held = false) ∧ Sparing key (call.leaves key held) rest

variable {key : K} {held : Bool} {made rest before between after : List (Call K E)} {call : Call K E}

theorem Call.drops_of_fetches (fetches : call.fetches key = true) : call.drops key = false := by
  unfold Call.fetches at fetches
  split at fetches
  · rfl
  · rfl
  · cases fetches

theorem sparing_append : Sparing key held (made ++ rest) ↔
    Sparing key held made ∧ Sparing key (made.foldl (Call.leaves key) held) rest := by
  induction made generalizing held with
  | nil => simp [Sparing]
  | cons call made ih => simp [Sparing, ih, and_assoc]

theorem foldl_leaves_of_kept (kept : ∀ call ∈ made, call.drops key = false) :
    made.foldl (Call.leaves key) held = (held || made.any (Call.fetches key)) := by
  induction made generalizing held with
  | nil => simp
  | cons call made ih =>
    have here := kept call List.mem_cons_self
    rw [List.foldl_cons, ih fun other later => kept other (List.mem_cons_of_mem _ later)]
    simp [Call.leaves, here, Bool.or_assoc]

theorem sparing_of_countP (kept : ∀ call ∈ made, call.drops key = false)
    (once : made.countP (Call.fetches key) + held.toNat ≤ 1) : Sparing key held made := by
  induction made generalizing held with
  | nil => trivial
  | cons call made ih =>
    have here := kept call List.mem_cons_self
    rw [List.countP_cons] at once
    constructor
    · intro fetches
      cases held with
      | false => rfl
      | true => simp [fetches] at once
    · apply ih fun other later => kept other (List.mem_cons_of_mem _ later)
      have onward : (call.leaves key held).toNat ≤
          held.toNat + if call.fetches key = true then 1 else 0 := by
        cases held <;> cases fetches : call.fetches key <;> simp [Call.leaves, here, fetches]
      omega

theorem drops_between {first second : Call K E}
    (sparing : Sparing key held (before ++ first :: between ++ second :: after))
    (fetches : first.fetches key = true) (again : second.fetches key = true) :
    ∃ call ∈ between, call.drops key = true := by
  by_contra none
  have kept : ∀ call ∈ between, call.drops key = false := by
    intro call within
    cases drops : call.drops key with
    | false => rfl
    | true => exact absurd ⟨call, within, drops⟩ none
  rw [List.append_assoc, sparing_append] at sparing
  have later := (sparing_append.mp sparing.2.2).2.1 again
  rw [foldl_leaves_of_kept kept] at later
  simp [Call.leaves, Call.drops_of_fetches fetches, fetches] at later

end Calls

namespace World

variable [DecidableEq E] {family : Family K E} {client : Client K E} {world after : World K E}

def remembers (client : Client K E) (world : World K E) (key : K) : Bool :=
  (world.home client).slots.contains key

structure Cleared (client : Client K E) (keys : List K) (before after : World K E) : Prop where
  readable : after.Readable client
  dropped : (before.home client).Dropped keys (after.home client)

variable [DecidableEq K]

omit [DecidableEq E] in
theorem cleared_of_nodes {removal : Nat → Task (nodeCalls K E) (Except StoreError Unit)} {keys : List K}
    (removes : ∀ index, Placement.Removes keys (removal index) index) (readable : world.Readable client) :
    world.Cleared client keys
      { world with
        nodes := (((Placement.inTurn removal (client.placement.home :: client.placement.peers)).run
          Cluster.serveNode).run world.nodes).2 } := by
  obtain ⟨length, poisoned, dropped⟩ :=
    Cluster.first_inTurn removes readable.present readable.slots rfl
  exact ⟨⟨Nat.lt_of_lt_of_eq readable.present length.symm, poisoned, readable.rows⟩, dropped⟩

theorem cleared_remove (family : Family K E) (readable : world.Readable client) (key : K) :
    world.Cleared client [key] ((serve family client (.cache (.remove key))).run world).2 :=
  cleared_of_nodes (Cluster.removes_local key) readable

theorem cleared_removeAll (family : Family K E) (readable : world.Readable client) (keys : SortedSet K) :
    world.Cleared client keys.toList ((serve family client (.cache (.removeAll keys))).run world).2 :=
  cleared_of_nodes (Cluster.removes_allLocal keys) readable

theorem cleared_removeLocal (family : Family K E) (readable : world.Readable client) (key : K) :
    world.Cleared client [key] ((serve family client (.cache (.removeLocal key))).run world).2 := by
  rw [serve_home rfl, CacheNode.serve, onSlots_home readable]
  constructor
  · exact readable.visited ((CacheNode.drop_rest [key]).2.trans readable.slots)
  · rw [home_visited readable.present]
    exact Cluster.dropped_drop _ [key]

end World

/-- What is done through one node's cache: the reads, those of loaders among them, and the removals. -/
inductive Visit (K : Type) [Key K] where
  | get (key : K)
  | getAll (keys : SortedSet K)
  | loadBatch (relations : List RelationKey)
  | invalidate (key : K)
  | invalidateLocal (key : K)
  | invalidateAll (keys : SortedSet K)

namespace Visit

abbrev Answer (E : Type) : Visit K → Type
  | .get _ => Except StoreError (Option E)
  | .getAll _ => Except StoreError (SortedMap K (Option E))
  | .loadBatch _ => Except Error (SortedMap RelationKey E)
  | .invalidate _ | .invalidateLocal _ | .invalidateAll _ => Except StoreError Unit

def program (family : Family K E) : (visit : Visit K) → Program K E (visit.Answer E)
  | .get key => ReadThrough.get key
  | .getAll keys => ReadThrough.getAll keys
  | .loadBatch relations => CacheLoader.loadBatch family relations
  | .invalidate key => ReadThrough.invalidate key
  | .invalidateLocal key => ReadThrough.invalidateLocal key
  | .invalidateAll keys => ReadThrough.invalidateAll keys

def asked : Visit K → SortedSet K
  | .get key => .ofList [key]
  | .getAll keys => keys
  | .loadBatch relations => CacheLoader.typedKeys relations
  | .invalidate _ | .invalidateLocal _ | .invalidateAll _ => {}

def dropped : Visit K → SortedSet K
  | .invalidate key | .invalidateLocal key => .ofList [key]
  | .invalidateAll keys => keys
  | .get _ | .getAll _ | .loadBatch _ => {}

/-- What a visit leaves, and which calls it makes: of the keys that it asks for those that are not
remembered are fetched, once each, and from then on they are; the keys that it drops are not. -/
structure Effect (client : Client K E) [DecidableEq K] (visit : Visit K) (before after : World K E)
    (made : List (Call K E)) : Prop where
  readable : after.Readable client
  remembered : ∀ key, after.remembers client key =
    (!visit.dropped.contains key && (before.remembers client key || visit.asked.contains key))
  fetched : ∀ key, made.countP (Call.fetches key) =
    (visit.asked.contains key && !before.remembers client key).toNat
  left : ∀ key, made.foldl (Call.leaves key) (before.remembers client key) = after.remembers client key
  sparing : ∀ key, Sparing key (before.remembers client key) made

variable [DecidableEq K] {client : Client K E} {world after : World K E} {keys : List K}
  {made : List (Call K E)}

theorem effect_of_read (visit : Visit K) {others : List (StoreCall K E)} (readable : world.Readable client)
    (asks : ∀ key, visit.asked.contains key = decide (key ∈ keys)) (keeps : visit.dropped = {})
    (kept : ∀ key, ∀ call ∈ made, call.drops key = false)
    (fetched : ∀ key, made.countP (Call.fetches key) =
      (decide (key ∈ keys) && !world.remembers client key).toNat) :
    visit.Effect client world
      (world.visited client ((world.home client).readAll world.table.rows keys) others) made := by
  have remembered : ∀ key, (world.visited client ((world.home client).readAll world.table.rows keys)
      others).remembers client key = (world.remembers client key || decide (key ∈ keys)) := by
    intro key
    unfold World.remembers SortedMap.contains
    rw [World.home_visited readable.present, CacheNode.get?_readAll]
    cases held : (world.home client).slots.get? key with
    | some slot => simp [CacheNode.lacks, SortedMap.contains, held]
    | none =>
      by_cases within : key ∈ keys
      · simp [CacheNode.lacks, SortedMap.contains, held, within]
      · simp [within]
  constructor
  case readable => exact readable.visited readable.slots
  case remembered =>
    intro key
    rw [remembered, asks, keeps]
    rfl
  case fetched =>
    intro key
    rw [fetched, asks]
  case left =>
    intro key
    have any : made.any (Call.fetches key) = decide (0 < made.countP (Call.fetches key)) := by
      rw [Bool.eq_iff_iff, List.any_eq_true, decide_eq_true_iff, List.countP_pos_iff]
    rw [foldl_leaves_of_kept (kept key), any, fetched, remembered]
    cases world.remembers client key with
    | true => rfl
    | false => cases decide (key ∈ keys) <;> rfl
  case sparing =>
    intro key
    apply sparing_of_countP (kept key)
    rw [fetched]
    cases world.remembers client key with
    | true => simp
    | false => cases decide (key ∈ keys) <;> decide

theorem effect_of_removal (visit : Visit K) {call : Call K E} (cleared : world.Cleared client keys after)
    (asks : visit.asked = {}) (drops : ∀ key, visit.dropped.contains key = decide (key ∈ keys))
    (dropping : ∀ key, call.drops key = decide (key ∈ keys))
    (quiet : ∀ key, call.fetches key = false) : visit.Effect client world after [call] := by
  have remembered : ∀ key, after.remembers client key =
      (!decide (key ∈ keys) && world.remembers client key) := by
    intro key
    unfold World.remembers SortedMap.contains
    by_cases within : key ∈ keys
    · simp [cleared.dropped.slots key within, within]
    · simp [cleared.dropped.others key within, within]
  have nothing : ∀ key, visit.asked.contains key = false := by
    intro key
    rw [asks]
    rfl
  constructor
  case readable => exact cleared.readable
  case remembered =>
    intro key
    rw [remembered, drops, nothing, Bool.or_false]
  case fetched => simp [quiet, nothing]
  case left => simp [Call.leaves, dropping, quiet, remembered]
  case sparing => simp [Sparing, quiet]

theorem effect_of_nothing (visit : Visit K) (readable : world.Readable client) (asks : visit.asked = {})
    (keeps : visit.dropped = {}) : visit.Effect client world world [] := by
  constructor
  case readable => exact readable
  case remembered =>
    intro key
    rw [asks, keeps]
    exact (Bool.or_false _).symm
  case fetched =>
    intro key
    rw [asks]
    rfl
  case left => exact fun _ => rfl
  case sparing => exact fun _ => trivial

theorem script_kept {asked : SortedSet K} {slots : SortedMap K (Slot E)} {generation : Nat}
    {fetched : SortedMap K E} (key : K) :
    ∀ call ∈ ReadThrough.script asked slots generation fetched, call.drops key = false := by
  intro call within
  unfold ReadThrough.script at within
  dsimp only at within
  split at within
  · cases within
  · split at within
    · rw [List.mem_singleton.mp within]
      rfl
    · simp only [List.mem_append, List.mem_cons, List.not_mem_nil, or_false, List.mem_map] at within
      rcases within with (rfl | rfl | rfl) | ⟨_, _, rfl⟩ <;> rfl

theorem script_fetches {asked : SortedSet K} {slots : SortedMap K (Slot E)} {generation : Nat}
    {fetched : SortedMap K E} (key : K) :
    (ReadThrough.script asked slots generation fetched).countP (Call.fetches key) =
      ((asked.filter fun key => !slots.contains key).contains key).toNat := by
  have offers : ∀ waiting : List K, (waiting.map fun key =>
      (.cache (.putIf key (.ofOption (fetched.get? key)) generation) : Call K E)).countP
        (Call.fetches key) = 0 := by
    intro waiting
    rw [List.countP_map, List.countP_eq_zero]
    simp [Call.fetches]
  have within : ∀ s : SortedSet K, s.isEmpty = true → s.contains key = false := by
    intro s empty
    have empty : s.toList = [] := by simpa [SortedSet.isEmpty] using empty
    simp [SortedSet.contains, empty]
  unfold ReadThrough.script
  dsimp only
  split
  next nothing =>
    have nothing : asked.toList = [] := by simpa [SortedSet.isEmpty] using nothing
    simp [SortedSet.contains, SortedSet.filter, nothing]
  next =>
    split
    next held =>
      rw [within _ held]
      rfl
    next =>
      rw [List.countP_append, offers]
      cases missing : (asked.filter fun key => !slots.contains key).contains key with
      | false => simp [Call.fetches, missing]
      | true => simp [Call.fetches, missing]

theorem contains_ofList_singleton (key other : K) :
    (SortedSet.ofList [key]).contains other = decide (other ∈ [key]) := by
  rw [Bool.eq_iff_iff, SortedSet.contains_iff, SortedSet.mem_ofList, decide_eq_true_iff]

theorem contains_toList (keys : SortedSet K) (key : K) :
    keys.contains key = decide (key ∈ keys.toList) := by
  rw [Bool.eq_iff_iff, SortedSet.contains_iff, decide_eq_true_iff]
  rfl

variable [DecidableEq E] {family : Family K E}

theorem effect_of_getAll (visit : Visit K) (readable : world.Readable client) {asked : SortedSet K}
    (asks : visit.asked = asked) (keeps : visit.dropped = {}) :
    visit.Effect client world
      ((World.traced family client (ReadThrough.getAll asked)).run (world, [])).2.1
      ((World.traced family client (ReadThrough.getAll asked)).run (world, [])).2.2 := by
  rw [World.traced_getAll readable, List.nil_append]
  apply effect_of_read visit readable _ keeps script_kept
  · intro key
    have missing : (asked.filter fun key =>
        !((world.home client).getAll asked.toList).1.contains key).contains key =
          (decide (key ∈ asked.toList) && !world.remembers client key) := by
      rw [Bool.eq_iff_iff, SortedSet.contains_iff, SortedSet.mem_filter, Bool.and_eq_true,
        decide_eq_true_iff]
      apply and_congr_right
      intro within
      unfold SortedMap.contains World.remembers SortedMap.contains
      rw [CacheNode.get?_getAll, if_pos (SortedSet.mem_def.mp within)]
    rw [script_fetches, missing]
  · intro key
    rw [asks, contains_toList]

omit [DecidableEq K] in
theorem traced_loadBatch (relations : List RelationKey) :
    ((World.traced family client (CacheLoader.loadBatch family relations)).run (world, [])).2 =
      ((World.traced family client (ReadThrough.getAll (CacheLoader.typedKeys relations))).run
        (world, [])).2 := by
  unfold CacheLoader.loadBatch World.traced
  rw [Task.run_bind, StateT.run_bind]
  generalize StateT.run _ (world, []) = read
  obtain ⟨answer, last⟩ := read
  cases answer with
  | error cause => rfl
  | ok found => rfl

theorem effect (family : Family K E) (readable : world.Readable client) (visit : Visit K) :
    visit.Effect client world
      ((World.traced family client (visit.program family)).run (world, [])).2.1
      ((World.traced family client (visit.program family)).run (world, [])).2.2 := by
  cases visit with
  | get key =>
    rw [program, World.traced_get readable, List.nil_append]
    refine effect_of_read (.get key) readable (contains_ofList_singleton key) rfl ?_ ?_
    · intro other call within
      split at within
      · simp only [List.mem_cons, List.not_mem_nil, or_false] at within
        rcases within with rfl | rfl | rfl | rfl <;> rfl
      · rw [List.mem_singleton.mp within]
        rfl
    · intro other
      by_cases same : other = key
      · subst same
        cases held : world.remembers client other <;>
          simp_all [World.remembers, CacheNode.lacks, Call.fetches]
      · split <;> simp [Call.fetches, same, Ne.symm same]
  | getAll keys => exact effect_of_getAll (.getAll keys) readable rfl rfl
  | loadBatch relations =>
    rw [program, traced_loadBatch]
    exact effect_of_getAll (.loadBatch relations) readable rfl rfl
  | invalidate key =>
    exact effect_of_removal _ (World.cleared_remove family readable key) rfl
      (contains_ofList_singleton key) (fun other => by simp [Call.drops, eq_comm]) fun _ => rfl
  | invalidateLocal key =>
    exact effect_of_removal _ (World.cleared_removeLocal family readable key) rfl
      (contains_ofList_singleton key) (fun other => by simp [Call.drops, eq_comm]) fun _ => rfl
  | invalidateAll keys =>
    cases nothing : keys.isEmpty with
    | true =>
      have empty : keys = {} := SortedSet.ext (List.isEmpty_iff.mp nothing)
      subst empty
      exact effect_of_nothing _ readable rfl rfl
    | false =>
      have removal : (invalidateAll keys).program family = Program.cached (.removeAll keys) :=
        if_neg (by simp [nothing])
      rw [removal]
      exact effect_of_removal _ (World.cleared_removeAll family readable keys) rfl (contains_toList keys)
        (contains_toList keys) fun _ => rfl

end Visit

abbrev visits (K E : Type) [Key K] : Vocabulary where
  Call := Visit K
  Answer := Visit.Answer E

/-- A world with what was done in it: each visit, and the calls that it made. -/
structure Diary (K E : Type) [Key K] where
  world : World K E
  entries : List (Visit K × List (Call K E)) := []

namespace Diary

def calls (diary : Diary K E) : List (Call K E) := diary.entries.flatMap Prod.snd

def asked (diary : Diary K E) (key : K) : Bool :=
  diary.entries.any fun entry => entry.1.asked.contains key

variable [DecidableEq E] (family : Family K E) (client : Client K E)

def serve (visit : Visit K) : StateM (Diary K E) (visit.Answer E) := fun diary =>
  let (answer, world, made) :=
    (World.traced family client (visit.program family)).run (diary.world, [])
  (answer, { world, entries := diary.entries ++ [(visit, made)] })

def shaped (shape : E → Node) (found : SortedMap RelationKey E) : SortedMap RelationKey LoadedValue :=
  .ofList (found.entries.map fun (key, row) => (key, .node (shape row)))

/-- Batches of the family's rows are read through its cache; others are answered elsewhere. -/
inductive Supplies (shape : E → Node) : Task.Serving batchCalls (Diary K E) where
  | here (keys : List RelationKey) (diary : Diary K E) :
      Supplies shape (family.kind, keys) diary
        (((serve family client (.loadBatch keys)).run diary).1.map (shaped shape))
        ((serve family client (.loadBatch keys)).run diary).2
  | elsewhere {batch : batchCalls.Call} (answer : batchCalls.Answer batch) (diary : Diary K E)
      (other : batch.1 ≠ family.kind) : Supplies shape batch diary answer diary

end Diary

def Walker.loadEach (graphs : List (Walker × Loaders × Nat × Node)) :
    Task batchCalls (List (Except Error LoadReport × Loading)) :=
  graphs.mapM fun (walker, loaders, cap, root) => walker.load loaders cap root

namespace Diary

variable [DecidableEq K]

structure Heeds (client : Client K E) (start : World K E) (diary : Diary K E) : Prop where
  readable : diary.world.Readable client
  left : ∀ key, diary.calls.foldl (Call.leaves key) (start.remembers client key) =
    diary.world.remembers client key
  sparing : ∀ key, Sparing key (start.remembers client key) diary.calls

/-- What batches keep: the node remembers also what was asked for since `start`, and each such key that
was not remembered then has been fetched once. -/
structure Supplied (client : Client K E) (start : World K E) (diary : Diary K E) : Prop where
  readable : diary.world.Readable client
  remembered : ∀ key,
    diary.world.remembers client key = (start.remembers client key || diary.asked key)
  fetched : ∀ key, diary.calls.countP (Call.fetches key) =
    (diary.asked key && !start.remembers client key).toNat

variable [DecidableEq E] {family : Family K E} {client : Client K E} {world : World K E}
  {diary : Diary K E}

omit [DecidableEq K] in
theorem calls_serve (visit : Visit K) : ((serve family client visit).run diary).2.calls =
    diary.calls ++ ((World.traced family client (visit.program family)).run (diary.world, [])).2.2 := by
  change (diary.entries ++ [(visit, _)]).flatMap Prod.snd = _
  rw [List.flatMap_append]
  exact congrArg _ (List.append_nil _)

omit [DecidableEq K] in
theorem asked_serve (visit : Visit K) (key : K) : ((serve family client visit).run diary).2.asked key =
    (diary.asked key || visit.asked.contains key) := by
  change (diary.entries ++ [(visit, _)]).any _ = _
  simp [asked]

theorem Heeds.serve (family : Family K E) (heeds : diary.Heeds client world) (visit : Visit K) :
    ((serve family client visit).run diary).2.Heeds client world := by
  have effect := Visit.effect family heeds.readable visit
  constructor
  case readable => exact effect.readable
  case left =>
    intro key
    rw [calls_serve, List.foldl_append, heeds.left]
    exact effect.left key
  case sparing =>
    intro key
    rw [calls_serve, sparing_append, heeds.left]
    exact ⟨heeds.sparing key, effect.sparing key⟩

theorem Heeds.run (family : Family K E) (heeds : diary.Heeds client world) {α : Type}
    (user : Task (visits K E) α) :
    ((user.run (Diary.serve family client)).run diary).2.Heeds client world := by
  induction user generalizing diary with
  | done value => exact heeds
  | call visit resume ih => exact ih _ (heeds.serve family visit)

theorem Supplied.serve (family : Family K E) (supplied : diary.Supplied client world)
    (relations : List RelationKey) :
    ((serve family client (.loadBatch relations)).run diary).2.Supplied client world := by
  have effect := Visit.effect family supplied.readable (.loadBatch relations)
  constructor
  case readable => exact effect.readable
  case remembered =>
    intro key
    rw [asked_serve, ← Bool.or_assoc, ← supplied.remembered]
    exact effect.remembered key
  case fetched =>
    intro key
    rw [calls_serve, List.countP_append, effect.fetched, supplied.fetched, asked_serve,
      supplied.remembered]
    -- what is asked for again has been remembered since, or was from the start
    cases diary.asked key with
    | true => simp
    | false => simp

/-- Whatever is read and removed through one node, a key reaches the store again only when its own slot
has been removed in between; so however many graphs are loaded through it, no key is fetched twice. -/
theorem refetched_only_if_dropped (readable : world.Readable client) :
    (∀ (α : Type) (user : Task (visits K E) α) (key : K) (before between after : List (Call K E))
      (first second : Call K E),
      ((user.run (serve family client)).run { world }).2.calls =
        before ++ first :: between ++ second :: after →
      first.fetches key = true → second.fetches key = true →
      ∃ call ∈ between, call.drops key = true) ∧
    ∀ (shape : E → Node) (graphs : List (Walker × Loaders × Nat × Node))
      (loaded : List (Except Error LoadReport × Loading)) (diary : Diary K E),
      (Walker.loadEach graphs).Runs (Supplies family client shape) { world } loaded diary →
      ∀ key, diary.calls.countP (Call.fetches key) =
        if diary.asked key ∧ ¬world.remembers client key then 1 else 0 := by
  constructor
  · intro α user key before between after first second made fetches again
    have start : ({ world } : Diary K E).Heeds client world := ⟨readable, fun _ => rfl, fun _ => trivial⟩
    have sparing := (start.run family user).sparing key
    rw [made] at sparing
    exact drops_between sparing fetches again
  · intro shape graphs loaded diary run key
    have start : ({ world } : Diary K E).Supplied client world :=
      ⟨readable, fun _ => (Bool.or_false _).symm, fun _ => rfl⟩
    have supplied := run.keeps (Supplied client world) start fun supplied served => by
      cases served with
      | here keys => exact supplied.serve family keys
      | elsewhere => exact supplied
    rw [supplied.fetched]
    cases diary.asked key <;> cases world.remembers client key <;> rfl

section School

open Blog

def school : World Int64 Node where
  store := { inner := { table := { rows := .ofList [
    (1, author { id := some 1 } [] (.pending (.int 2))),
    (2, author { id := some 2 } [] (.pending (.int 1)))] } } }

/-- The second author is removed before it has been asked for, the first one between two reads. -/
def visitor : Task (visits Int64 Node) Unit := do
  let _ ← Task.ask (V := visits Int64 Node) (.loadBatch [.int 1, .int 3])
  let _ ← Task.ask (V := visits Int64 Node) (.invalidateLocal 2)
  let _ ← Task.ask (V := visits Int64 Node) (.getAll (.ofList [1, 2, 3]))
  let _ ← Task.ask (V := visits Int64 Node) (.invalidateAll (.ofList [1]))
  let _ ← Task.ask (V := visits Int64 Node) (.get 1)
  return ()

def supply (batch : batchCalls.Call) : StateM (Diary Int64 Node) (batchCalls.Answer batch) :=
  fun diary =>
    if batch.1 = authorFamily.kind then
      let (found, last) := (serve authorFamily Site.reader (.loadBatch batch.2)).run diary
      (found.map (shaped id), last)
    else (.error (.load (.missingLoader batch.1)), diary)

theorem supplies_supply {batch : batchCalls.Call} {diary last : Diary Int64 Node}
    {answer : batchCalls.Answer batch} (served : (supply batch).run diary = (answer, last)) :
    Supplies authorFamily Site.reader id batch diary answer last := by
  obtain ⟨target, keys⟩ := batch
  unfold supply at served
  change ite _ _ _ = _ at served
  split at served
  next same =>
    obtain rfl : target = authorFamily.kind := same
    obtain ⟨rfl, rfl⟩ := Prod.mk.inj served
    exact .here keys diary
  next other =>
    obtain ⟨rfl, rfl⟩ := Prod.mk.inj served
    exact .elsewhere _ _ other

def circling : Walker × Loaders × Nat × Node :=
  ({ schemas }, { targets := .ofList ["author"] }, 4, author { id := some 7 } [] (.pending (.int 1)))

theorem refetched_only_if_dropped_school :
    let read := ((visitor.run (serve authorFamily Site.reader)).run { world := school }).2.calls
    let loaded := (((Walker.loadEach [circling, circling]).run supply).run { world := school }).2
    ([1, 2, 3].map fun key => read.countP (Call.fetches key)) = [2, 1, 1] ∧
    (∀ before between after first second, read = before ++ first :: between ++ second :: after →
      first.fetches (1 : Int64) = true → second.fetches (1 : Int64) = true →
      ∃ call ∈ between, call.drops (1 : Int64) = true) ∧
    loaded.entries.length = 8 ∧
    loaded.calls.countP (Call.fetches 1) = 1 ∧ loaded.calls.countP (Call.fetches 2) = 1 := by
  intro read loaded
  have readable : school.Readable Site.reader := ⟨by decide, rfl, rfl⟩
  obtain ⟨apart, once⟩ :=
    @refetched_only_if_dropped Int64 Node _ _ _ authorFamily Site.reader school readable
  have supplied : (Walker.loadEach [circling, circling]).Runs
      (Supplies authorFamily Site.reader id) { world := school } _ loaded :=
    Task.runs_of_run (fun _ _ _ _ served => supplies_supply served) _ _
  refine ⟨by decide +kernel, ?_, by decide +kernel, ?_, ?_⟩
  · exact fun before between after first second =>
      apart Unit visitor 1 before between after first second
  · rw [once _ _ _ _ supplied]
    exact if_pos (by decide +kernel)
  · rw [once _ _ _ _ supplied]
    exact if_pos (by decide +kernel)

end School

end Diary

end OptimisticStore
