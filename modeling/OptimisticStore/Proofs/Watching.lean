import OptimisticStore.Proofs.Running
import OptimisticStore.Proofs.Serving
import OptimisticStore.Proofs.Store.Acceptance
/-!
Programs run by one client in a world, with a tally of what it asked for.

Main statements: `watch_run`, by which the tally is kept without changing anything, and
`World.Alike.serve`, by which worlds that differ in counts and in failures to come answer a call alike if
it gets through to the store in both.
-/
namespace OptimisticStore

variable {K E : Type} [Key K]

/-- How often the client's functions were run, and how many writes got through to the store itself. -/
structure Tally where
  mutations : Nat := 0
  creations : Nat := 0
  writes : Nat := 0
deriving DecidableEq

def Tally.count (tally : Tally) (store : FaultyStore K E) : Call K E → Tally
  | .mutate _ => { tally with mutations := tally.mutations + 1 }
  | .create _ => { tally with creations := tally.creations + 1 }
  | .store call =>
    if call.writing && store.admits call then { tally with writes := tally.writes + 1 } else tally
  | _ => tally

structure Watched (K E : Type) [Key K] where
  world : World K E
  tally : Tally := {}

namespace Watched

variable [DecidableEq E] (family : Family K E) (client : Client K E)

def serve (call : Call K E) : StateM (Watched K E) call.Answer := fun now =>
  let (answer, world) := (World.serve family client call).run now.world
  (answer, ⟨world, now.tally.count now.world.store call⟩)

def serves : Task.Serving (calls K E) (Watched K E) := fun call before answer after =>
  (serve family client call).run before = (answer, after)

end Watched

def watch [DecidableEq E] (family : Family K E) (client : Client K E) {α : Type}
    (program : Program K E α) (world : World K E) : α × Watched K E :=
  (Task.run (V := calls K E) (Watched.serve family client) program).run ⟨world, {}⟩

section Watch

variable [DecidableEq E] {family : Family K E} {client : Client K E} {α : Type}

theorem runs_watch (program : Program K E α) (world : World K E) :
    program.Runs (Watched.serves family client) ⟨world, {}⟩ (watch family client program world).1
      (watch family client program world).2 := by
  have shown : ∀ (call : Call K E) (now : Watched K E) answer last,
      (Watched.serve family client call).run now = (answer, last) →
      Watched.serves family client call (id now) answer (id last) := by
    intro call now answer last served
    exact served
  exact Task.runs_run shown program ⟨world, {}⟩

theorem watch_run (program : Program K E α) (world : World K E) :
    (World.run family client program).run world =
      ((watch family client program world).1, (watch family client program world).2.world) := by
  unfold watch World.run
  generalize ({} : Tally) = tally
  induction program generalizing world tally with
  | done value => rfl
  | call request resume ih => exact ih _ _ _

end Watch

structure Store.Alike (one other : Store K E) : Prop where
  table : one.table = other.table
  poisoned : one.poisoned = other.poisoned
  transactions : one.transactions = other.transactions

namespace Store

variable {one other : Store K E}

theorem Alike.record (alike : one.Alike other) (call : StoreCall K E) :
    (one.record call).Alike (other.record call) := by
  constructor
  · rw [record_table, record_table, alike.table]
  · rw [record_poisoned, record_poisoned, alike.poisoned]
  · unfold Store.record
    split <;> split <;> exact alike.transactions

theorem Alike.onTable {α : Type} (alike : one.Alike other)
    (step : Table K E → Except StoreError α × Table K E) :
    (one.onTable step).1 = (other.onTable step).1 ∧
      (one.onTable step).2.Alike (other.onTable step).2 := by
  unfold Store.onTable
  rw [alike.poisoned, alike.table]
  split
  next => exact ⟨rfl, alike⟩
  next => exact ⟨rfl, rfl, rfl, alike.transactions⟩

theorem Alike.onKeyed {α : Type} {family : Family K E} (alike : one.Alike other) (entity : E)
    (operation : String) (step : Table K E → Except StoreError α × Table K E) :
    (one.onKeyed family entity operation step).1 = (other.onKeyed family entity operation step).1 ∧
      (one.onKeyed family entity operation step).2.Alike
        (other.onKeyed family entity operation step).2 := by
  unfold Store.onKeyed
  split
  next => exact ⟨rfl, alike⟩
  next => exact alike.onTable step

theorem Alike.serve [DecidableEq E] {family : Family K E} (alike : one.Alike other)
    (call : StoreCall K E) :
    (one.serve family call).1 = (other.serve family call).1 ∧
      (one.serve family call).2.Alike (other.serve family call).2 := by
  have counted := alike.record call
  cases call with
  | merge entity => exact counted.onKeyed entity _ _
  | delete entity => exact counted.onKeyed entity _ _
  | inTransaction =>
    refine ⟨?_, alike⟩
    change decide (0 < one.transactions) = decide (0 < other.transactions)
    rw [alike.transactions]
  | _ => exact counted.onTable _

end Store

def Call.admitted (store : FaultyStore K E) : Call K E → Bool
  | .store call => store.admits call
  | _ => true

namespace World

/-- The same in all but the counts of calls and the failures, past and to come. -/
structure Alike (one other : World K E) : Prop where
  inner : one.store.inner.Alike other.store.inner
  nodes : one.nodes = other.nodes
  clock : one.clock = other.clock
  locks : one.locks = other.locks
  journal : one.journal = other.journal
  posted : one.posted = other.posted
  stopping : one.stopping = other.stopping

theorem Alike.refl (world : World K E) : world.Alike world :=
  ⟨⟨rfl, rfl, rfl⟩, rfl, rfl, rfl, rfl, rfl, rfl⟩

theorem Alike.trans {first second third : World K E} (one : first.Alike second)
    (other : second.Alike third) : first.Alike third where
  inner := ⟨one.inner.table.trans other.inner.table, one.inner.poisoned.trans other.inner.poisoned,
    one.inner.transactions.trans other.inner.transactions⟩
  nodes := one.nodes.trans other.nodes
  clock := one.clock.trans other.clock
  locks := one.locks.trans other.locks
  journal := one.journal.trans other.journal
  posted := one.posted.trans other.posted
  stopping := one.stopping.trans other.stopping

def recounted (world : World K E) (counts : CallCounts K) : World K E :=
  { world with store := { world.store with inner := { world.store.inner with counts } } }

/-- The same rows and locks, and the rows in reach or not. -/
structure Level (one other : World K E) : Prop where
  rows : one.table.rows = other.table.rows
  locks : one.locks = other.locks
  poisoned : one.store.inner.poisoned = other.store.inner.poisoned

theorem Level.trans {first second third : World K E} (one : first.Level second)
    (other : second.Level third) : first.Level third :=
  ⟨one.rows.trans other.rows, one.locks.trans other.locks, one.poisoned.trans other.poisoned⟩

theorem Level.symm {one other : World K E} (level : one.Level other) : other.Level one :=
  ⟨level.rows.symm, level.locks.symm, level.poisoned.symm⟩

theorem Alike.level {one other : World K E} (alike : one.Alike other) : one.Level other :=
  ⟨congrArg Table.rows alike.inner.table, alike.locks, alike.inner.poisoned⟩

variable [DecidableEq E] {family : Family K E} {client : Client K E} {one other : World K E}

theorem Alike.serve (alike : one.Alike other) {call : Call K E}
    (admitted : call.admitted one.store = true) (admitted' : call.admitted other.store = true) :
    ((World.serve family client call).run one).1 = ((World.serve family client call).run other).1 ∧
      ((World.serve family client call).run one).2.Alike
        ((World.serve family client call).run other).2 := by
  obtain ⟨inner, nodes, clock, locks, journal, posted, stopping⟩ := alike
  obtain ⟨store, _, _, _, _, _, _⟩ := one
  obtain ⟨store', _, _, _, _, _, _⟩ := other
  dsimp only at inner nodes clock locks journal posted stopping
  subst nodes clock locks journal posted stopping
  cases call with
  | store call =>
    have first : store.serve family call = store.pass family call :=
      FaultyStore.serve_of_admits admitted
    have second : store'.serve family call = store'.pass family call :=
      FaultyStore.serve_of_admits admitted'
    obtain ⟨same, onward⟩ := @Store.Alike.serve _ _ _ _ _ _ family inner call
    constructor
    · change (store.serve family call).1 = (store'.serve family call).1
      rw [first, second]
      exact same
    · refine ⟨?_, rfl, rfl, rfl, rfl, rfl, rfl⟩
      change (store.serve family call).2.inner.Alike (store'.serve family call).2.inner
      rw [first, second]
      exact onward
  | post change =>
    refine ⟨rfl, ?_⟩
    change World.Alike (if client.posting then _ else _) (if client.posting then _ else _)
    split
    · exact ⟨inner, rfl, rfl, rfl, rfl, rfl, rfl⟩
    · exact ⟨inner, rfl, rfl, rfl, rfl, rfl, rfl⟩
  | _ => exact ⟨rfl, inner, rfl, rfl, rfl, rfl, rfl, rfl⟩

variable {world after : World K E}

theorem serve_read {call : StoreCall K E} {answer : call.Answer}
    (served : (serve family client (.store call)).run world = (answer, after))
    (quiet : call.writing = false) : ∃ counts, after = world.recounted counts := by
  have admitted : world.store.admits call = true := by
    cases call with
    | insert | merge => cases quiet
    | _ => rfl
  have passed : world.store.serve family call = world.store.pass family call :=
    FaultyStore.serve_of_admits admitted
  obtain ⟨counts, read⟩ := @Store.serve_read _ _ _ family _ world.store.inner call quiet
  obtain ⟨_, rfl⟩ := Prod.mk.inj served
  refine ⟨counts, ?_⟩
  change { world with store := (world.store.serve family call).2 } = _
  rw [passed]
  change { world with store := { world.store with inner := (world.store.inner.serve family call).2 } } = _
  rw [read]
  rfl

theorem calm_of_serve {replacing : Bool} {call : Call K E} {answer : call.Answer}
    (calm : world.store.pending replacing = 0)
    (served : (serve family client call).run world = (answer, after)) :
    after.store.pending replacing = 0 := by
  cases call with
  | store call =>
    obtain ⟨_, rfl⟩ := Prod.mk.inj served
    exact Nat.eq_zero_of_le_zero (calm ▸ FaultyStore.pending_serve_le)
  | post change =>
    obtain ⟨_, rfl⟩ := Prod.mk.inj served
    split
    · exact calm
    · exact calm
  | _ =>
    obtain ⟨_, rfl⟩ := Prod.mk.inj served
    exact calm

theorem poisoned_of_serve {call : Call K E} {answer : call.Answer}
    (served : (serve family client call).run world = (answer, after)) :
    after.store.inner.poisoned = world.store.inner.poisoned := by
  cases call with
  | store call =>
    obtain ⟨_, rfl⟩ := Prod.mk.inj served
    exact FaultyStore.serve_poisoned
  | post change =>
    obtain ⟨_, rfl⟩ := Prod.mk.inj served
    split
    · rfl
    · rfl
  | _ =>
    obtain ⟨_, rfl⟩ := Prod.mk.inj served
    rfl

end World

namespace Watched

variable [DecidableEq E] {family : Family K E} {client : Client K E} {now next : Watched K E}

theorem world_of_serves {call : Call K E} {answer : call.Answer}
    (served : serves family client call now answer next) :
    (World.serve family client call).run now.world = (answer, next.world) := by
  obtain ⟨same, rfl⟩ := Prod.mk.inj served
  exact Prod.ext same rfl

theorem tally_of_serves {call : Call K E} {answer : call.Answer}
    (served : serves family client call now answer next) :
    next.tally = now.tally.count now.world.store call := by
  obtain ⟨_, rfl⟩ := Prod.mk.inj served
  rfl

theorem tally_of_write {call : StoreCall K E} {answer : call.Answer}
    (served : serves family client (.store call) now answer next) (writing : call.writing = true)
    (admitted : now.world.store.admits call = true) :
    next.tally = { now.tally with writes := now.tally.writes + 1 } := by
  rw [tally_of_serves served, Tally.count, writing, admitted]
  rfl

theorem alike_of_serves {other last : Watched K E} {call : Call K E} {answer answer' : call.Answer}
    (alike : now.world.Alike other.world) (admitted : call.admitted now.world.store = true)
    (admitted' : call.admitted other.world.store = true)
    (served : serves family client call now answer next)
    (served' : serves family client call other answer' last) :
    answer = answer' ∧ next.world.Alike last.world := by
  obtain ⟨same, rfl⟩ := Prod.mk.inj served
  obtain ⟨same', rfl⟩ := Prod.mk.inj served'
  obtain ⟨answers, onward⟩ := @World.Alike.serve _ _ _ _ family client _ _ alike call admitted admitted'
  exact ⟨same.symm.trans (answers.trans same'), onward⟩

theorem served_store {call : StoreCall K E} {answer : call.Answer}
    (served : serves family client (.store call) now answer next) :
    answer = (now.world.store.serve family call).1 ∧
      next = ⟨{ now.world with store := (now.world.store.serve family call).2 },
        now.tally.count now.world.store (.store call)⟩ := by
  obtain ⟨rfl, rfl⟩ := Prod.mk.inj served
  exact ⟨rfl, rfl⟩

theorem served_refused {call : StoreCall K E} {answer : call.Answer}
    (served : serves family client (.store call) now answer next)
    (refused : now.world.store.admits call = false) :
    answer = (now.world.store.serve family call).1 ∧
      next = ⟨{ now.world with store := (now.world.store.serve family call).2 }, now.tally⟩ := by
  obtain ⟨answered, rfl⟩ := served_store served
  refine ⟨answered, ?_⟩
  rw [Tally.count, refused, Bool.and_false]
  rfl

theorem answer_insert {entity : E} {answer : Except StoreError E}
    (reached : now.world.store.inner.poisoned = false) (calm : now.world.store.pending false = 0)
    (served : serves family client (.store (.insert entity)) now answer next) :
    answer = (now.world.table.insert family entity).1 := by
  obtain ⟨rfl, _⟩ := served_store served
  have admitted : now.world.store.admits (.insert entity) = true := by simp [calm]
  rw [FaultyStore.serve_of_admits admitted]
  change (now.world.store.inner.serve family (.insert entity)).1 = _
  simp only [Store.serve, Store.onTable, Store.record_poisoned, Store.record_table, reached]
  rfl

theorem answer_merge {entity : E} {answer : Except StoreError (Merged E)}
    (reached : now.world.store.inner.poisoned = false) (calm : now.world.store.pending true = 0)
    (served : serves family client (.store (.merge entity)) now answer next) :
    answer = (now.world.table.merge family entity).1 := by
  obtain ⟨rfl, _⟩ := served_store served
  have admitted : now.world.store.admits (.merge entity) = true := by simp [calm]
  rw [FaultyStore.serve_of_admits admitted]
  change (now.world.store.inner.serve family (.merge entity)).1 = _
  simp only [Store.serve, Store.onKeyed, Store.onTable, Store.record_poisoned, Store.record_table,
    reached]
  cases own : family.key entity with
  | none => simp [Table.merge, own]
  | some key => rfl

end Watched

end OptimisticStore
