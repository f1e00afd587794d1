import OptimisticStore.Proofs.Writing.Grounds
import OptimisticStore.Proofs.Writing.Locking
import OptimisticStore.Sample.Account
/-!
Two writers never clash in a unique value when they come to commit.

Writers that share a table and its locks lock and look up only the values that they claim, which they did
not find in the row they read. Main statement: `check_passes`, by which the store's own check of unique
values accepts every commit that comes as far as this check, so that it is made.
-/
namespace OptimisticStore

variable {K E : Type} [Key K]

namespace Table

/-- A write gets past the check of its key or of its version, to the check of the unique values of
`held` under `key`. -/
inductive Comes (family : Family K E) (table : Table K E) : StoreCall K E → K → E → Prop where
  | insert {entity : E} {key : K} (own : family.key entity = some key)
      (vacant : table.rows.contains key = false) : Comes family table (.insert entity) key entity
  | insertDrawn {entity : E} {key : K} {after : Table K E} (unkeyed : family.key entity = none)
      (drawn : freshKey family table = (.ok key, after)) :
      Comes family table (.insert entity) key (family.withKey key entity)
  | merge {entity current : E} {key : K} (own : family.key entity = some key)
      (found : table.rows.get? key = some current) (differs : current ≠ entity)
      (version : family.version current = family.version entity) :
      Comes family table (.merge entity) key entity

variable {family : Family K E} {table : Table K E} {entity held : E} {key : K} {cause : StoreError}

theorem Comes.insert_refused_iff (comes : table.Comes family (.insert entity) key held) :
    (table.insert family entity).1 = .error cause ↔
      checkUnique family table key held = .error cause := by
  cases comes with
  | insert own vacant =>
    unfold Table.insert insertAt
    rw [own]
    simp only [vacant, Bool.false_eq_true, if_false]
    cases checkUnique family table key entity with
    | error other => simp
    | ok => simp
  | @insertDrawn _ _ after unkeyed drawn =>
    obtain ⟨rows, vacant⟩ := freshKeyWithin_spec family drawn
    have free := contains_eq_false_iff.mpr (vacant key rfl)
    have same : ∀ record, checkUnique family after key record = checkUnique family table key record := by
      intro record
      unfold checkUnique
      rw [rows]
    unfold Table.insert insertAt
    rw [unkeyed]
    simp only [drawn, rows, free, Bool.false_eq_true, if_false, same]
    cases checkUnique family table key (family.withKey key entity) with
    | error other => simp
    | ok => simp

theorem Comes.merge_refused_iff [DecidableEq E] (comes : table.Comes family (.merge entity) key held) :
    (table.merge family entity).1 = .error cause ↔
      checkUnique family table key held = .error cause := by
  cases comes with
  | merge own found differs version =>
    unfold Table.merge
    rw [own]
    simp only [found, differs, if_false, version, ne_eq, not_true_eq_false]
    cases checkUnique family table key entity with
    | error other => simp
    | ok => simp

def Takes [DecidableEq E] (family : Family K E) (table : Table K E) : StoreCall K E → Prop
  | .insert entity => ∃ row, (table.insert family entity).1 = .ok row
  | .merge entity => ∃ merged, (table.merge family entity).1 = .ok merged
  | _ => True

theorem Comes.takes [DecidableEq E] {write : StoreCall K E} (comes : table.Comes family write key held)
    (passes : checkUnique family table key held = .ok ()) : table.Takes family write := by
  have unrefused (cause : StoreError) : checkUnique family table key held ≠ .error cause := by
    rw [passes]
    simp
  cases write with
  | insert entity =>
    cases answer : (table.insert family entity).1 with
    | ok row => exact ⟨row, answer⟩
    | error cause => exact absurd (comes.insert_refused_iff.mp answer) (unrefused cause)
  | merge entity =>
    cases answer : (table.merge family entity).1 with
    | ok merged => exact ⟨merged, answer⟩
    | error cause => exact absurd (comes.merge_refused_iff.mp answer) (unrefused cause)
  | _ => trivial

/-- A value that no row holds but one of the record's own key. -/
def HeldOnlyBy (family : Family K E) (table : Table K E) (entity : E) (field : UniqueField) : Prop :=
  ∀ key row, table.rows.get? key = some row → field ∈ family.uniqueFields row →
    family.key entity = some key

theorem heldOnlyBy_of_findUnique (distinct : table.Distinct family) {field : UniqueField}
    {owner : Option K} (found : table.findUnique family field = owner)
    (own : owner = none ∨ owner = family.key entity) : table.HeldOnlyBy family entity field := by
  intro key row there holds
  cases owner with
  | none => exact absurd holds (not_held_of_findUnique family found there)
  | some first =>
    obtain ⟨other, foundOther, holdsOther⟩ := holds_of_findUnique family found
    have same := distinct first other foundOther key row there field holdsOther holds
    rcases own with missing | own
    · simp at missing
    · rw [← own, same]

theorem HeldOnlyBy.of_rows {after : Table K E} {field : UniqueField}
    (only : table.HeldOnlyBy family entity field) (rows : after.rows = table.rows) :
    after.HeldOnlyBy family entity field := by
  intro key row found holds
  rw [rows] at found
  exact only key row found holds

theorem HeldOnlyBy.of_inserted [DecidableEq K] {after : Table K E} {field : UniqueField} {other : K}
    {row : E} (only : table.HeldOnlyBy family entity field)
    (rows : after.rows = table.rows.insert other row)
    (before : field ∈ family.uniqueFields row →
      ∃ former, table.rows.get? other = some former ∧ field ∈ family.uniqueFields former) :
    after.HeldOnlyBy family entity field := by
  intro key held found holds
  rw [get?_of_inserted rows] at found
  split at found
  next same =>
    obtain rfl := Option.some.inj found
    obtain ⟨former, foundFormer, heldFormer⟩ := before holds
    rw [same]
    exact only other former foundFormer heldFormer
  next => exact only key held found holds

end Table

namespace Write

variable {family : Family K E} {operation : Operation K E} {client : Client K E}
  {phase next : Phase E} {call : Call K E} {answer : call.Answer}

theorem Moves.insert_cleared {entity : E} {answer : Except StoreError E}
    (move : Moves family operation phase (.store (.insert entity)) answer next) :
    ∃ stamp guard, Cleared family phase stamp none entity guard := by
  cases move with
  | insertFails _ cleared | inserts _ cleared => exact ⟨_, _, cleared⟩

theorem Moves.merge_cleared {entity : E} {answer : Except StoreError (Merged E)}
    (move : Moves family operation phase (.store (.merge entity)) answer next) :
    ∃ stamp held guard, Cleared family phase stamp (some held) entity guard := by
  cases move with
  | mergeFails _ cleared | merges _ _ cleared | mergesNothing _ _ cleared => exact ⟨_, _, _, cleared⟩

/-- A writer that looks its claims up holds their locks, and those it has looked up are its own. -/
def Phase.Guarded (family : Family K E) (table : Table K E) : Phase E → Prop
  | .claiming _ before entity guard checked =>
    (∀ field ∈ Uniqueness.claimed family before entity,
      Uniqueness.lockName family field ∈ guard.holds) ∧
    ∀ field ∈ checked, field ∈ Uniqueness.claimed family before entity ∧
      table.HeldOnlyBy family entity field
  | _ => True

omit [Key K] in
theorem mem_claimed_some {held entity : E} {field : UniqueField} :
    field ∈ Uniqueness.claimed family (some held) entity ↔
      field ∈ family.uniqueFields entity ∧ field ∉ family.uniqueFields held := by
  simp [Uniqueness.claimed]

omit [Key K] in
theorem mem_lockNames {fields : List UniqueField} {field : UniqueField} (within : field ∈ fields) :
    Uniqueness.lockName family field ∈ Uniqueness.lockNames family fields := by
  exact SortedSet.mem_ofList.mpr (List.mem_map.mpr ⟨field, within, rfl⟩)

section Cleared

variable {table : Table K E} {stamp : Int} {before : Option E} {entity : E} {guard : LockGuard}

theorem Cleared.claims (cleared : Cleared family phase stamp before entity guard)
    (guarded : phase.Guarded family table) {field : UniqueField}
    (claimed : field ∈ Uniqueness.claimed family before entity) :
    Uniqueness.lockName family field ∈ phase.locked ∧ table.HeldOnlyBy family entity field := by
  cases cleared with
  | unclaimed none => simp [none] at claimed
  | checked =>
    obtain ⟨locked, looked⟩ := guarded
    exact ⟨locked field claimed, (looked field claimed).2⟩

theorem Cleared.unshared_insert (lawful : family.Lawful)
    (cleared : Cleared family phase stamp none entity guard) (guarded : phase.Guarded family table)
    {key : K} {held : E} (comes : table.Comes family (.insert entity) key held) :
    table.Unshared family key held := by
  have only : ∀ field ∈ family.uniqueFields entity, table.HeldOnlyBy family entity field :=
    fun field within => (cleared.claims guarded within).2
  intro other row found field within shared
  cases comes with
  | insert own vacant =>
    have holder := only field within other row found shared
    exact Option.some.inj (holder.symm.trans own)
  | insertDrawn unkeyed drawn =>
    rw [lawful.unique_withKey] at within
    have holder := only field within other row found shared
    simp [unkeyed] at holder

theorem Cleared.unshared_merge {operation : Operation K E} (lawful : family.Lawful)
    (keeps : client.KeepsIdentity family) (distinct : table.Distinct family) {former : E}
    (cleared : Cleared family phase stamp (some former) entity guard)
    (guarded : phase.Guarded family table)
    (prepared : Prepared family operation client table stamp (some former) entity)
    {key : K} {held : E} (comes : table.Comes family (.merge entity) key held) :
    table.Unshared family key held := by
  obtain ⟨_, _, passed, own, version⟩ := prepared.identity lawful keeps
  cases comes with
  | @merge _ current _ own' found differs same =>
    obtain rfl := Option.some.inj (own.symm.trans own')
    have seen := passed.eq_of_version found (same.trans version)
    intro other row there field within shared
    by_cases before : field ∈ family.uniqueFields former
    · rw [← seen] at before
      exact distinct _ current found other row there field before shared
    · have claimed := mem_claimed_some.mpr ⟨within, before⟩
      have holder := (cleared.claims guarded claimed).2 other row there shared
      exact Option.some.inj (holder.symm.trans own)

theorem Phase.Guarded.of_move [DecidableEq E] {world after : World K E}
    (distinct : world.table.Distinct family) (guarded : phase.Guarded family world.table)
    (move : Moves family operation phase call answer next)
    (served : (World.serve family client call).run world = (answer, after)) :
    next.Guarded family after.table := by
  have effect := World.serve_effect served
  cases move with
  | locks guard =>
    obtain ⟨granted, rfl⟩ := Prod.mk.inj served
    obtain ⟨_, _, taken⟩ := LockTable.lock_granted (Prod.ext granted rfl)
    refine ⟨fun field claimed => taken _ (mem_lockNames claimed), ?_⟩
    intro field within
    simp at within
  | @lookupClears stamp before entity guard checked rest field owner due own =>
    have found := World.serve_findUnique served
    have only := Table.heldOnlyBy_of_findUnique distinct found.symm own
    have rows := Table.rows_of_not_wrote effect rfl
    obtain ⟨locked, looked⟩ := guarded
    refine ⟨locked, ?_⟩
    intro other within
    rcases List.mem_append.mp within with earlier | last
    · obtain ⟨claimed, only⟩ := looked other earlier
      exact ⟨claimed, only.of_rows rows⟩
    · obtain rfl := List.mem_singleton.mp last
      exact ⟨by simp [due], only.of_rows rows⟩
  | _ => trivial

theorem Phase.Guarded.of_kept {after : Table K E} (guarded : phase.Guarded family table)
    (kept : ∀ {entity field}, Uniqueness.lockName family field ∈ phase.locked →
      table.HeldOnlyBy family entity field → after.HeldOnlyBy family entity field) :
    phase.Guarded family after := by
  cases phase with
  | claiming stamp before entity guard checked =>
    obtain ⟨locked, looked⟩ := guarded
    refine ⟨locked, ?_⟩
    intro field within
    obtain ⟨claimed, only⟩ := looked field within
    exact ⟨claimed, kept (locked field claimed) only⟩
  | _ => trivial

theorem heldOnlyBy_of_move [DecidableEq K] [DecidableEq E] {world after : World K E}
    {field : UniqueField} (lawful : family.Lawful) (keeps : client.KeepsIdentity family)
    (only : world.table.HeldOnlyBy family entity field)
    (grounded : phase.Grounded family operation client world.table)
    (guarded : phase.Guarded family world.table)
    (unlocked : Uniqueness.lockName family field ∉ phase.locked)
    (move : Moves family operation phase call answer next)
    (served : (World.serve family client call).run world = (answer, after)) :
    after.table.HeldOnlyBy family entity field := by
  have effect := World.serve_effect served
  cases wrote : call.wrote answer with
  | false => exact only.of_rows (Table.rows_of_not_wrote effect wrote)
  | true =>
    cases move with
    | inserts row cleared =>
      cases Table.Effect.writes effect wrote with
      | insert own vacant unshared rows =>
        apply only.of_inserted rows
        intro holds
        rw [Table.unique_firstVersion lawful.separate,
          Table.unique_of_own lawful.separate own] at holds
        exact (unlocked (cleared.claims guarded holds).1).elim
    | @merges _ _ held _ _ merged changed cleared =>
      obtain ⟨_, _, passed, own, version⟩ := (cleared.prepared grounded).identity lawful keeps
      cases Table.Effect.writes effect wrote with
      | @merge _ current key _ own' found same unshared rows =>
        obtain rfl := Option.some.inj (own.symm.trans own')
        have seen := passed.eq_of_version found (same.trans version)
        refine only.of_inserted rows fun holds => ⟨current, found, ?_⟩
        rw [Table.unique_nextVersion lawful.separate] at holds
        by_cases former : field ∈ family.uniqueFields held
        · rw [seen]
          exact former
        · have claimed := mem_claimed_some.mpr ⟨holds, former⟩
          exact (unlocked (cleared.claims guarded claimed).1).elim
    | mergesNothing _ unchanged => simp [Call.wrote, StoreCall.wrote, unchanged] at wrote
    | deletes => exact grounded.elim
    | _ => simp [Call.wrote, StoreCall.wrote] at wrote

end Cleared

section Runs

variable {ι : Type} [DecidableEq ι]

structure Apart (mine : ι → List String) (locks : LockTable) : Prop where
  held : ∀ i, ∀ name ∈ mine i, name ∈ locks.held
  single : ∀ i j name, name ∈ mine i → name ∈ mine j → i = j

theorem Apart.of_update {mine : ι → List String} {locks after : LockTable} {i : ι}
    {names : List String} (apart : Apart mine locks) (own : ∀ name ∈ names, name ∈ after.held)
    (others : ∀ j ≠ i, ∀ name ∈ mine j, name ∉ names ∧ name ∈ after.held) :
    Apart (Function.update mine i names) after := by
  constructor
  · intro j name within
    by_cases same : j = i
    · subst same
      rw [Function.update_self] at within
      exact own name within
    · rw [Function.update_of_ne same] at within
      exact (others j same name within).2
  · intro j k name first second
    by_cases sameJ : j = i <;> by_cases sameK : k = i
    · exact sameJ.trans sameK.symm
    · subst sameJ
      rw [Function.update_self] at first
      rw [Function.update_of_ne sameK] at second
      exact absurd first (others k sameK name second).1
    · subst sameK
      rw [Function.update_of_ne sameJ] at first
      rw [Function.update_self] at second
      exact absurd second (others j sameJ name first).1
    · rw [Function.update_of_ne sameJ] at first
      rw [Function.update_of_ne sameK] at second
      exact apart.single j k name first second

theorem Apart.of_locking {mine : ι → List String} {locks after : LockTable} {i : ι}
    {names : List String} (apart : Apart mine locks) (step : Locking (mine i) locks names after) :
    Apart (Function.update mine i names) after := by
  cases step with
  | keeps =>
    rw [Function.update_eq_self]
    exact apart
  | takes free taken =>
    apply apart.of_update
    · intro name among
      exact (taken name).mpr (.inl among)
    · intro j _ name within
      have held := apart.held j name within
      exact ⟨fun among => free name among held, (taken name).mpr (.inr held)⟩
  | gives given =>
    apply apart.of_update
    · intro name among
      cases among
    · intro j other name within
      have foreign : name ∉ mine i := fun own => other (apart.single j i name within own)
      exact ⟨List.not_mem_nil, (given name).mpr ⟨apart.held j name within, foreign⟩⟩

variable [DecidableEq K] [DecidableEq E] {clients : ι → Client K E}
  {operations : ι → Operation K E} {phases : ι → Phase E}

structure Protected (family : Family K E) (clients : ι → Client K E)
    (operations : ι → Operation K E) (scene : World.Scene K E) (phases : ι → Phase E) : Prop where
  keyed : scene.table.Keyed family
  distinct : scene.table.Distinct family
  grounded : ∀ i, (phases i).Grounded family (operations i) (clients i) scene.table
  guarded : ∀ i, (phases i).Guarded family scene.table
  apart : Apart (fun i => (phases i).locked) scene.locks

def sceneService (family : Family K E) (clients : ι → Client K E) :
    Service (calls K E) (World.Scene K E) ι := fun i call before answer after =>
  World.Shows family World.scene (clients i) call before answer after

theorem Protected.of_move (lawful : family.Lawful) (versioned : family.Versioned)
    (keeps : ∀ i, (clients i).KeepsIdentity family) (stays : ∀ i key, operations i ≠ .delete key)
    {i : ι} {scene after : World.Scene K E}
    (safe : Protected family clients operations scene phases)
    (served : sceneService family clients i call scene answer after)
    (move : Moves family (operations i) (phases i) call answer next) :
    Protected family clients operations after (Function.update phases i next) := by
  obtain ⟨world, last, rfl, served, rfl⟩ := served
  obtain ⟨keyed, distinct, grounded, guarded, apart⟩ := safe
  have effect := World.serve_effect served
  have calm := move.removes_eq_false (grounded i)
  refine ⟨keyed.of_call lawful effect, distinct.of_call lawful effect, ?_, ?_, ?_⟩
  · intro j
    by_cases same : j = i
    · subst same
      rw [Function.update_self]
      exact (grounded j).of_move lawful versioned (stays j) keyed move served
    · rw [Function.update_of_ne same]
      exact (grounded j).of_call lawful versioned effect calm
  · intro j
    by_cases same : j = i
    · subst same
      rw [Function.update_self]
      exact (guarded j).of_move distinct move served
    · rw [Function.update_of_ne same]
      refine (guarded j).of_kept fun {entity field} locked only => ?_
      have unlocked : Uniqueness.lockName family field ∉ (phases i).locked :=
        fun also => same (apart.single j i _ locked also)
      exact heldOnlyBy_of_move lawful (keeps i) only (grounded i) (guarded i) unlocked move served
  · have locked : (fun j => (Function.update phases i next j).locked) =
        Function.update (fun j => (phases j).locked) i next.locked :=
      funext fun j => Function.apply_update (fun _ => Phase.locked) phases i next j
    rw [locked]
    exact apart.of_locking (move.locking served)

omit [DecidableEq K] in
theorem scene_reachable_of_advance (family : Family K E) (clients : ι → Client K E)
    (crew : Crew (calls K E) (World.Scene K E) fun _ : ι => Except Error (Outcome E)) (i : ι)
    (left : Nat) (world : World K E) (seen : world.scene = crew.state) :
    ∃ after, Crew.Reachable (sceneService family clients) crew after ∧
      after.tasks = Function.update crew.tasks i
        ((World.advance family (clients i) left (crew.tasks i)).run world).1 ∧
      ((World.advance family (clients i) left (crew.tasks i)).run world).2.scene = after.state := by
  apply Crew.reachable_of_shown (fun scene => scene)
  · intro call before answer scene shows
    exact ⟨scene, shows, rfl⟩
  · exact seen

/-- However writers of one table with one set of locks are interleaved, none of whom removes rows: a commit
that gets past the check of its key or version is accepted by the check of unique values, and made. -/
theorem check_passes {policies : ι → RetryPolicy} (lawful : family.Lawful)
    (versioned : family.Versioned) (keeps : ∀ i, (clients i).KeepsIdentity family)
    (stays : ∀ i key, operations i ≠ .delete key)
    {start crew : Crew (calls K E) (World.Scene K E) fun _ : ι => Except Error (Outcome E)}
    (keyed : start.state.table.Keyed family) (distinct : start.state.table.Distinct family)
    (tasks : ∀ i, start.tasks i = (operations i).program family (policies i))
    (reached : Crew.Reachable (sceneService family clients) start crew) {i : ι}
    {write : StoreCall K E} {resume : write.Answer → Program K E (Except Error (Outcome E))}
    {key : K} {held : E} (waiting : crew.tasks i = .call (.store write) resume)
    (comes : crew.state.table.Comes family write key held) :
    Table.checkUnique family crew.state.table key held = .ok () ∧
      crew.state.table.Takes family write := by
  have safe : Protected family clients operations start.state fun _ => .outside := by
    refine ⟨keyed, distinct, fun _ => trivial, fun _ => trivial, ?_, ?_⟩
    · intro i name within
      simp [Phase.locked] at within
    · intro i j name within
      simp [Phase.locked] at within
  have follows : ∀ i, (start.tasks i).Follows (Moves family (operations i)) (Ends family) .outside := by
    intro i
    rw [tasks i]
    exact Operation.program_follows
  obtain ⟨phases, safe, follows⟩ := Crew.Reachable.phases
    (Protected family clients operations)
    (Protected.of_move lawful versioned keeps stays) safe follows reached
  have going := follows i
  rw [waiting] at going
  obtain ⟨_, move, _⟩ := going (StoreCall.refuse .poisoned write)
  have passes : Table.checkUnique family crew.state.table key held = .ok () := by
    rw [Table.checkUnique_eq_ok_iff]
    cases write with
    | insert entity =>
      obtain ⟨_, _, cleared⟩ := move.insert_cleared
      exact cleared.unshared_insert lawful (safe.guarded i) comes
    | merge entity =>
      obtain ⟨_, _, _, cleared⟩ := move.merge_cleared
      have prepared := cleared.prepared (safe.grounded i)
      exact cleared.unshared_merge lawful (keeps i) safe.distinct (safe.guarded i) prepared comes
    | _ => cases comes
  exact ⟨passes, comes.takes passes⟩

end Runs

section Openings

def openings : Bool → Account
  | false => .fresh "ann" 10
  | true => { Account.fresh "bob" 0 with id := some 8 }

def clerks (_ : Bool) : Client Int64 Account where
  reading _ := 0
  mutate account := (account, .unchanged)
  create _ := .fresh "nobody" 0

def desk : Crew (calls Int64 Account) (World.Scene Int64 Account)
    fun _ : Bool => Except Error (Outcome Account) :=
  ⟨{}, fun clerk => (Operation.insert (openings clerk)).program Account.family {}⟩

def offered {α : Type} : Program Int64 Account α → Option Account
  | .call (.store (.insert account)) _ => some account
  | _ => none

theorem call_of_offered {α : Type} {program : Program Int64 Account α} {account : Account}
    (about : offered program = some account) :
    ∃ resume, program = .call (.store (.insert account)) resume := by
  unfold offered at about
  split at about
  next resume =>
    obtain rfl := Option.some.inj about
    exact ⟨resume, rfl⟩
  next => simp at about

/-- A clerk about to commit, when the other has opened an account since it looked, passes the check. -/
theorem check_passes_openings :
    ∃ crew account resume, Crew.Reachable (sceneService Account.family clerks) desk crew ∧
      crew.tasks true = .call (.store (.insert account)) resume ∧
      crew.state.table.Comes Account.family (.insert account) 8 account ∧
      Table.checkUnique Account.family crew.state.table 8 account = .ok () ∧
      crew.state.table.Takes Account.family (.insert account) := by
  obtain ⟨looked, first, ready, seen⟩ :=
    scene_reachable_of_advance Account.family clerks desk true 6 {} rfl
  obtain ⟨opened, second, done, seen⟩ :=
    scene_reachable_of_advance Account.family clerks looked false 30 _ seen
  have other : looked.tasks false = desk.tasks false := by
    rw [ready, Function.update_of_ne (by decide)]
  have about : (offered (opened.tasks true)).map (fun account => (account.id, account.owner)) =
      some (some 8, "bob") := by
    rw [done, Function.update_of_ne (by decide), ready, Function.update_self]
    decide +kernel
  obtain ⟨account, offer, same⟩ := Option.map_eq_some_iff.mp about
  obtain ⟨resume, waiting⟩ := call_of_offered offer
  have comes : opened.state.table.Comes Account.family (.insert account) 8 account := by
    refine .insert (congrArg Prod.fst same) ?_
    rw [← seen, other]
    decide +kernel
  have tasks : ∀ clerk, desk.tasks clerk =
      (Operation.insert (openings clerk)).program Account.family {} := fun _ => rfl
  refine ⟨opened, account, resume, first.trans second, waiting, comes, ?_⟩
  refine check_passes Account.family_lawful (fun _ => rfl) (fun _ _ => ⟨rfl, rfl⟩) ?_ ?_ ?_
    tasks (first.trans second) waiting comes
  · intro clerk key same
    cases same
  · intro key row found
    cases found
  · intro key row found
    cases found

end Openings

end Write

end OptimisticStore
