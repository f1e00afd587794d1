import OptimisticStore.Proofs.Writing.Grounds
/-!
What an attempt does when nobody else acts.

Main statements: `attempt_inserts` and `attempt_merges`. A commit that succeeded among others succeeds
again with the same answer when the whole attempt is made in one go on the rows that the commit found.
-/
namespace OptimisticStore

open Write

variable {K E : Type} [Key K] [DecidableEq E] {family : Family K E} {client : Client K E}

omit [DecidableEq E] in
theorem Store.onTable_reached {α : Type} {store : Store K E} (call : StoreCall K E)
    {table : Table K E} {answer : Except StoreError α}
    {step : Table K E → Except StoreError α × Table K E} (reachable : store.poisoned = false)
    (done : step store.table = (answer, table)) :
    ∃ inner, (store.record call).onTable step = (answer, inner) ∧ inner.poisoned = false ∧
      inner.table = table := by
  have counted : (store.record call).poisoned = false := by
    unfold record
    split
    · exact reachable
    · exact reachable
  refine ⟨{ store.record call with table }, ?_, counted, rfl⟩
  simp [onTable, counted, done]

namespace World

structure Calm (world : World K E) : Prop where
  merges : world.store.mergeFaults = 0
  inserts : world.store.insertFaults = 0
  reachable : world.store.inner.poisoned = false

/-- In a calm world that shows `before`, the program run alone answers `value` and leaves `after`. -/
def Does (family : Family K E) (client : Client K E) {α : Type} (before : Scene K E)
    (program : Program K E α) (value : α) (after : Scene K E) : Prop :=
  ∀ world : World K E, world.Calm → world.scene = before →
    ∃ last, (run family client program).run world = (value, last) ∧ last.Calm ∧ last.scene = after

variable {α β : Type} {before mid after : Scene K E} {table : Table K E} {entity row : E}

theorem does_pure {value : α} :
    Does family client before (pure value) value before :=
  fun world calm seen => ⟨world, rfl, calm, seen⟩

theorem does_bind {program : Program K E α} {next : α → Program K E β} {value : α} {result : β}
    (first : Does family client before program value mid)
    (second : Does family client mid (next value) result after) :
    Does family client before (program >>= next) result after := by
  intro world calm seen
  obtain ⟨_, ran, calm, seen⟩ := first world calm seen
  obtain ⟨last, ran', calm, seen⟩ := second _ calm seen
  refine ⟨last, ?_, calm, seen⟩
  have whole := Task.run_bind (serve family client) program next
  change StateT.run (Task.run (serve family client) (program >>= next)) world = _
  rw [whole]
  change (run family client (next ((run family client program).run world).1)).run
    ((run family client program).run world).2 = _
  rw [ran]
  exact ran'

theorem does_ask {call : Call K E} {answer : call.Answer}
    (serves : ∀ world : World K E, world.Calm → world.scene = before →
      ∃ last, (serve family client call).run world = (answer, last) ∧ last.Calm ∧
        last.scene = after) :
    Does family client before (Program.ask call) answer after := by
  intro world calm seen
  obtain ⟨last, served, rest⟩ := serves world calm seen
  refine ⟨last, ?_, rest⟩
  have single := Task.run_ask (V := calls K E) (serve family client) call
  exact (congrFun single world).trans served

theorem does_mutate : Does family client before (Program.mutate entity) (client.mutate entity) before :=
  does_ask fun world calm seen => ⟨world, rfl, calm, seen⟩

theorem does_create {key : K} :
    Does family client before (Program.create key) (client.create key) before :=
  does_ask fun world calm seen => ⟨world, rfl, calm, seen⟩

theorem does_unlock {guard : LockGuard} :
    Does family client before (Program.unlock guard) ()
      { before with locks := before.locks.release guard } :=
  does_ask fun world calm seen => ⟨_, rfl, ⟨calm.1, calm.2, calm.3⟩, by subst seen; rfl⟩

theorem does_store {call : StoreCall K E} {answer : call.Answer} {last : Table K E}
    (serves : ∀ store : Store K E, store.poisoned = false → store.table = before.table →
      ∃ inner, store.serve family call = (answer, inner) ∧ inner.poisoned = false ∧
        inner.table = last) :
    Does family client before (Program.ask (.store call)) answer { before with table := last } := by
  apply does_ask
  intro world calm seen
  obtain ⟨inner, served, reachable, rows⟩ :=
    serves world.store.inner calm.reachable (by subst seen; rfl)
  have passed : world.store.serve family call = (answer, { world.store with inner }) := by
    have direct : world.store.pass family call = (answer, { world.store with inner }) := by
      simp [FaultyStore.pass, served]
    cases call with
    | insert entity => simpa [FaultyStore.serve, calm.inserts] using direct
    | merge entity => simpa [FaultyStore.serve, calm.merges] using direct
    | _ => exact direct
  refine ⟨{ world with store := { world.store with inner } }, ?_, ?_, ?_⟩
  · change ((world.store.serve family call).1,
      { world with store := (world.store.serve family call).2 }) = _
    rw [passed]
  · exact ⟨calm.merges, calm.inserts, reachable⟩
  · subst seen rows
    rfl

theorem does_fetch {key : K} :
    Does family client before (Program.fetch key) (.ok (before.table.rows.get? key)) before := by
  apply does_store
  intro store reachable seen
  simp only [Store.serve]
  exact Store.onTable_reached _ reachable (by rw [seen])

theorem does_findUnique {field : UniqueField} :
    Does family client before (Program.findUnique field)
      (.ok (before.table.findUnique family field)) before := by
  apply does_store
  intro store reachable seen
  simp only [Store.serve]
  exact Store.onTable_reached _ reachable (by rw [seen])

theorem does_insertRow {answer : Except StoreError E} {last : Table K E}
    (done : before.table.insert family entity = (answer, last)) :
    Does family client before (Program.insertRow entity) answer { before with table := last } := by
  apply does_store
  intro store reachable seen
  simp only [Store.serve]
  exact Store.onTable_reached _ reachable (by rw [seen, done])

theorem does_mergeRow {answer : Except StoreError (Merged E)} {last : Table K E}
{key : K}
    (own : family.key entity = some key) (done : before.table.merge family entity = (answer, last)) :
    Does family client before (Program.mergeRow entity) answer { before with table := last } := by
  apply does_store
  intro store reachable seen
  simp only [Store.serve, Store.onKeyed, own, Option.isNone_some, Bool.false_eq_true, if_false]
  exact Store.onTable_reached _ reachable (by rw [seen, done])

theorem does_lock (names : List String) (free : before.locks = {}) :
    ∃ guard locks, Does family client before (Program.lock names) (.ok guard) { before with locks } := by
  have granted : ∃ guard locks, before.locks.lock names = (.ok guard, locks) := by
    have uncontended : before.locks.contended (.ofList names) = false := by
      rw [free]
      exact List.any_eq_false.mpr fun name _ => by
        change ¬ ([].any _ = true)
        simp
    unfold LockTable.lock LockTable.tryLock
    simp only [uncontended, Bool.false_eq_true, if_false]
    split
    next guard locks _ => exact ⟨guard, locks, rfl⟩
    next refused => 
      split at refused <;> simp at refused
  obtain ⟨guard, locks, granted⟩ := granted
  refine ⟨guard, locks, does_ask fun world calm seen => ?_⟩
  refine ⟨{ world with locks }, ?_, ⟨calm.1, calm.2, calm.3⟩, by subst seen; rfl⟩
  subst seen
  change ((world.locks.lock names).1, { world with locks := (world.locks.lock names).2 }) = _
  change world.locks.lock names = _ at granted
  rw [granted]

theorem run_after_tick {world : World K E} {stamp : Int} {next : Int → Program K E α} {value : α}
    (calm : world.Calm) (drawn : Clock.next world.clock.latest (client.reading world.clock.drawn) = stamp)
    (does : Does family client world.scene (next stamp) value after) :
    ∃ last, (run family client (Program.tick >>= next)).run world = (value, last) ∧
      last.scene = after := by
  subst drawn
  obtain ⟨last, ran, _, seen⟩ := does
    { world with clock := (world.clock.tick (client.reading world.clock.drawn)).2 }
    ⟨calm.1, calm.2, calm.3⟩ rfl
  exact ⟨last, ran, seen⟩

end World

namespace Write

open World

variable {before after : Scene K E} {table : Table K E} {prior : Option E} {entity row : E}
  {stamp : Int} {operation : Operation K E}

section Claims

variable [DecidableEq K]

theorem does_check {own : Option K} {fields : List UniqueField}
    (clear : ∀ field ∈ fields, ∀ owner,
      before.table.findUnique family field = some owner → own = some owner) :
    Does family client before (Uniqueness.check family own fields) (.ok ()) before := by
  induction fields with
  | nil => exact does_pure
  | cons field rest ih =>
    have clearRest := ih fun other within => clear other (List.mem_cons_of_mem _ within)
    refine does_bind does_findUnique ?_
    cases found : before.table.findUnique family field with
    | none => exact clearRest
    | some owner =>
      have same := clear field List.mem_cons_self owner found
      simpa [same] using clearRest

def Clear (family : Family K E) (table : Table K E) (entity : E) : Prop :=
  ∀ field ∈ family.uniqueFields entity, ∀ owner,
    table.findUnique family field = some owner → family.key entity = some owner

omit [DecidableEq E] [DecidableEq K] in
theorem clear_of_writes_insert {last : Table K E}
    (lawful : family.Lawful) (writes : table.Writes family (.insert entity) (.ok row) last) :
    Clear family table entity := by
  cases writes with
  | insert own vacant unshared rows =>
    intro field within owner found
    obtain ⟨held, foundHeld, holds⟩ := Table.holds_of_findUnique family found
    have same := unshared owner held foundHeld field
      (Table.unique_of_own lawful.separate own ▸ within) holds
    subst same
    simp [vacant] at foundHeld

omit [DecidableEq E] [DecidableEq K] in
theorem clear_of_writes_merge {last : Table K E} {merged : Merged E}
    (writes : table.Writes family (.merge entity) (.ok merged) last) :
    Clear family table entity := by
  cases writes with
  | merge own found version unshared rows =>
    intro field within owner foundOwner
    obtain ⟨held, foundHeld, holds⟩ := Table.holds_of_findUnique family foundOwner
    rw [own, unshared owner held foundHeld field within holds]

theorem does_acquire (free : before.locks = {}) (clear : Clear family before.table entity) :
    ∃ guard locks, Does family client before (Uniqueness.acquire family prior entity) (.ok guard)
      { before with locks } := by
  unfold Uniqueness.acquire
  cases none : (Uniqueness.claimed family prior entity).isEmpty with
  | true =>
    refine ⟨.empty, before.locks, ?_⟩
    simp only [none, if_true]
    exact does_pure
  | false =>
    obtain ⟨guard, locks, locked⟩ := @does_lock _ _ _ _ family client before
      (Uniqueness.lockNames family (Uniqueness.claimed family prior entity)) free
    refine ⟨guard, locks, ?_⟩
    simp only [none, Bool.false_eq_true, if_false]
    refine does_bind locked (does_bind (does_check ?_) does_pure)
    intro field within owner found
    refine clear field ?_ owner found
    unfold Uniqueness.claimed at within
    split at within
    next => exact within
    next => exact (List.mem_filter.mp within).1

theorem does_guardedCommit {result : Except Error (Outcome E)} {last : Table K E}
    (free : before.locks = {}) (clear : Clear family before.table entity)
    (commits : ∀ locks, Does family client { before with locks } (commit family prior entity stamp)
      result ⟨last, locks⟩) :
    ∃ locks, Does family client before (guardedCommit family prior entity stamp) result
      ⟨last, locks⟩ := by
  have acquired : ∃ guard locks, Does family client before
      (Uniqueness.acquire family prior entity) (.ok guard) { before with locks } :=
    does_acquire free clear
  obtain ⟨guard, locks, acquired⟩ := acquired
  exact ⟨_, does_bind acquired (does_bind (commits locks) (does_bind does_unlock does_pure))⟩

end Claims

theorem does_commit_insert {last : Table K E}
    (done : before.table.insert family entity = (.ok row, last)) :
    Does family client before (commit family none entity stamp)
      (.ok (.ofInsert family.kind row stamp)) { before with table := last } :=
  does_bind (does_insertRow done) does_pure

theorem does_commit_merge {last : Table K E} {key : K} {held : E} {merged : Merged E}
    (own : family.key entity = some key) (changed : merged.changed = true)
    (done : before.table.merge family entity = (.ok merged, last)) :
    Does family client before (commit family (some held) entity stamp)
      (.ok (.ofUpdate family.kind held merged.entity stamp)) { before with table := last } := by
  refine does_bind (does_mergeRow own done) ?_
  simp only [changed, if_true]
  exact does_pure

section Attempts

variable [DecidableEq K] {result : Except Error (Outcome E)} {last : Scene K E} {world : World K E}

/-- An attempt that finds what its record was made from comes to the commit of this record. -/
theorem attempt_of_prepared
    (prepared : Prepared family operation client table stamp prior entity)
    (held : ∀ key, operation.key? family = some key → table.rows.get? key = prior)
    (commits : Does family client ⟨table, {}⟩ (guardedCommit family prior entity stamp) result last)
    (calm : world.Calm) (seen : world.scene = ⟨table, {}⟩)
    (drawn : Clock.next world.clock.latest (client.reading world.clock.drawn) = stamp) :
    ∃ final, (run family client (operation.attempt family)).run world = (result, final) ∧
      final.scene = last := by
  have mutates : ∀ {original mutated : E}, client.mutate original = (mutated, .changed) →
      entity = family.markUpdated (.ofMicros stamp) mutated →
      Does family client ⟨table, {}⟩ (mutateAndCommit family prior original stamp) result last := by
    intro original mutated changed same
    subst same
    refine does_bind does_mutate ?_
    simpa only [changed] using commits
  have fetches : ∀ key, operation.key? family = some key →
      Does family client ⟨table, {}⟩ (Program.fetch key) (.ok prior) ⟨table, {}⟩ := by
    intro key own
    rw [← held key own]
    exact does_fetch
  cases prepared with
  | edited origin changed =>
    cases origin with
    | read edits =>
      rcases edits with rfl | rfl
      · apply run_after_tick calm drawn
        rw [seen]
        exact does_bind (fetches _ rfl) (mutates changed rfl)
      · apply run_after_tick calm drawn
        rw [seen]
        exact does_bind (fetches _ rfl) (mutates changed rfl)
    | made creates =>
      subst creates
      apply run_after_tick calm drawn
      rw [seen]
      exact does_bind (fetches _ rfl) (does_bind does_create (mutates changed rfl))
  | @fresh inserted insert =>
    subst insert
    apply run_after_tick calm drawn
    rw [seen]
    cases own : family.key inserted with
    | none => exact commits
    | some key => exact does_bind (fetches key own) commits

theorem attempt_inserts {after : Table K E} (lawful : family.Lawful)
    (keeps : client.KeepsIdentity family)
    (prepared : Prepared family operation client table stamp none entity)
    (done : table.insert family entity = (.ok row, after))
    (writes : table.Writes family (.insert entity) (.ok row) after) (calm : world.Calm)
    (seen : world.scene = ⟨table, {}⟩)
    (drawn : Clock.next world.clock.latest (client.reading world.clock.drawn) = stamp) :
    ∃ final, (run family client (operation.attempt family)).run world =
      (.ok (.ofInsert family.kind row stamp), final) ∧ final.table = after := by
  have vacant : ∀ key, operation.key? family = some key → table.rows.get? key = none := by
    intro key named
    have own := prepared.key_of_none lawful keeps named
    cases writes with
    | insert chosen vacant =>
      rcases chosen with ⟨chosen, _⟩ | ⟨unkeyed, _⟩
      · obtain rfl := Option.some.inj (own.symm.trans chosen)
        exact vacant
      · simp [unkeyed] at own
  have committed : ∃ locks, Does family client ⟨table, {}⟩ (guardedCommit family none entity stamp)
      (.ok (.ofInsert family.kind row stamp)) ⟨after, locks⟩ :=
    does_guardedCommit rfl (clear_of_writes_insert lawful writes) fun _ => does_commit_insert done
  obtain ⟨locks, committed⟩ := committed
  obtain ⟨final, ran, ended⟩ := attempt_of_prepared prepared vacant committed calm seen drawn
  exact ⟨final, ran, congrArg Scene.table ended⟩

/-- A merge that succeeded among others succeeds alone on the row that it replaced, which is the row
that the writer saw. -/
theorem attempt_merges {after : Table K E} {held : E} {merged : Merged E} (lawful : family.Lawful)
    (keeps : client.KeepsIdentity family)
    (prepared : Prepared family operation client table stamp (some held) entity)
    (done : table.merge family entity = (.ok merged, after)) (changed : merged.changed = true)
    (writes : table.Writes family (.merge entity) (.ok merged) after) (calm : world.Calm)
    (seen : world.scene = ⟨table, {}⟩)
    (drawn : Clock.next world.clock.latest (client.reading world.clock.drawn) = stamp) :
    ∃ final, (run family client (operation.attempt family)).run world =
      (.ok (.ofUpdate family.kind held merged.entity stamp), final) ∧ final.table = after := by
  obtain ⟨key, named, passed, own, version⟩ := prepared.identity lawful keeps
  have there : ∀ other, operation.key? family = some other → table.rows.get? other = some held := by
    intro other named'
    obtain rfl := Option.some.inj (named.symm.trans named')
    cases writes with
    | merge chosen found same =>
      obtain rfl := Option.some.inj (own.symm.trans chosen)
      rw [found, passed.eq_of_version found (same.trans version)]
  have committed : ∃ locks, Does family client ⟨table, {}⟩
      (guardedCommit family (some held) entity stamp)
      (.ok (.ofUpdate family.kind held merged.entity stamp)) ⟨after, locks⟩ :=
    does_guardedCommit rfl (clear_of_writes_merge writes) fun _ =>
      does_commit_merge own changed done
  obtain ⟨locks, committed⟩ := committed
  obtain ⟨final, ran, ended⟩ := attempt_of_prepared prepared there committed calm seen drawn
  exact ⟨final, ran, congrArg Scene.table ended⟩

end Attempts

end Write

end OptimisticStore
