import OptimisticStore.Proofs.Running
import OptimisticStore.Proofs.Writing.Journal
import OptimisticStore.Proofs.Writing.Locking
/-!
A write that does not report a change has not made any.

Calls may be refused at any moment, for whatever cause, and whoever makes them may be told to stop at any
moment. Main statement: `untouched_unless_updated`, by which a write gives back all its locks however it
ends, and leaves rows, caches and events as they were unless its result says that it changed something.
-/
namespace OptimisticStore

variable {K E : Type} [Key K]

/-- Whether others hear of a call: through their caches, or as an event. -/
def Call.spreads : Call K E → Bool
  | .cache _ | .post _ => true
  | _ => false

namespace World

/-- The same rows, caches and events; the locks are another matter. -/
structure Untouched (now start : World K E) : Prop where
  rows : now.table.rows = start.table.rows
  nodes : now.nodes = start.nodes
  journal : now.journal = start.journal
  posted : now.posted = start.posted

theorem Untouched.trans {first second third : World K E} (one : second.Untouched first)
    (other : third.Untouched second) : third.Untouched first :=
  ⟨other.rows.trans one.rows, other.nodes.trans one.nodes, other.journal.trans one.journal,
    other.posted.trans one.posted⟩

/-- A call is served for some client, who may have been told to stop since the last one, or it is refused:
by the store, by the cache, or by whoever gives out the locks. -/
inductive Meets [DecidableEq E] (family : Family K E) : Task.Serving (calls K E) (World K E) where
  | serves {call : Call K E} {world after : World K E} {answer : call.Answer} (client : Client K E)
      (told : Bool)
      (served : (serve family client call).run { world with stopping := told } = (answer, after)) :
      Meets family call world answer after
  | storeRefuses (call : StoreCall K E) (cause : StoreError) (world : World K E) :
      Meets family (.store call) world (call.refuse cause) world
  | cacheRefuses (call : CacheCall K E) (cause : StoreError) (world : World K E) :
      Meets family (.cache call) world (call.refuse cause) world
  | lockRefuses (names : List String) (cause : LockError) (world : World K E) :
      Meets family (.lock names) world (.error cause) world

section Served

variable [DecidableEq E] {family : Family K E} {world after : World K E} {call : Call K E}
  {answer : call.Answer} {mine names : List String}

theorem meets_serve {client : Client K E}
    (served : (serve family client call).run world = (answer, after)) :
    Meets family call world answer after :=
  .serves client world.stopping served

theorem untouched_of_serve {client : Client K E}
    (served : (serve family client call).run world = (answer, after))
    (quiet : call.wrote answer = false) (unheard : call.spreads = false) : after.Untouched world := by
  have rows := Table.rows_of_not_wrote (serve_effect served) quiet
  cases call with
  | cache | post => cases unheard
  | _ =>
    obtain ⟨_, rfl⟩ := Prod.mk.inj served
    exact ⟨rows, rfl, rfl, rfl⟩

theorem Meets.untouched (met : Meets family call world answer after)
    (quiet : call.wrote answer = false) (unheard : call.spreads = false) : after.Untouched world := by
  cases met with
  | serves client told served =>
    obtain ⟨rows, nodes, journal, posted⟩ := untouched_of_serve served quiet unheard
    exact ⟨rows, nodes, journal, posted⟩
  | storeRefuses | cacheRefuses | lockRefuses => exact ⟨rfl, rfl, rfl, rfl⟩

theorem Meets.locking (met : Meets family call world answer after)
    (handles : Handles mine call answer names) : Locking mine world.locks names after.locks := by
  cases met with
  | serves client told served =>
    have step := handles.locking served
    exact step
  | storeRefuses | cacheRefuses =>
    cases handles with
    | other => exact .keeps
  | lockRefuses =>
    cases handles with
    | denied => exact .keeps
    | other foreign => cases foreign

end Served

section Alone

variable [DecidableEq E] {family : Family K E} {client : Client K E} {world last : World K E}

abbrev answers (family : Family K E) (client : Client K E) : Task.Serving (calls K E) (World K E) :=
  fun call before answer after => (serve family client call).run before = (answer, after)

theorem runs_of_run {α : Type} {program : Program K E α} {value : α}
    (run : (World.run family client program).run world = (value, last)) :
    program.Runs (answers family client) world value last := by
  have all := @Task.runs_of_run (calls K E) (World K E) α (answers family client)
    (World.serve family client) (fun _ _ _ _ served => served) program world
  unfold World.run at run
  rw [run] at all
  exact all

end Alone

end World

namespace Write

section Moves

variable {family : Family K E} {operation : Operation K E} {phase next : Phase E} {call : Call K E}
  {answer : call.Answer}

def Phase.updated : Phase E → Bool
  | .written _ outcome | .settled outcome | .announced outcome => outcome.updated
  | _ => false

omit [Key K] in
theorem Cleared.updated_eq {stamp : Int} {before : Option E} {entity : E} {guard : LockGuard}
    (cleared : Cleared family phase stamp before entity guard) : phase.updated = false := by
  cases cleared with
  | unclaimed => rfl
  | checked => rfl

omit [Key K] in
theorem Ends.updated_eq {result : Except Error (Outcome E)} (ended : Ends family phase result) :
    phase.updated = updated result := by
  cases result with
  | error cause =>
    obtain rfl := ended
    rfl
  | ok outcome =>
    obtain rfl | ⟨rfl, _⟩ := ended
    · rfl
    · rfl

theorem Moves.quiet (move : Moves family operation phase call answer next)
    (unreported : next.updated = false) :
    phase.updated = false ∧ call.wrote answer = false ∧ call.spreads = false := by
  cases move with
  | insertFails _ cleared | mergeFails _ cleared => exact ⟨cleared.updated_eq, rfl, rfl⟩
  | mergesNothing _ unchanged cleared => exact ⟨cleared.updated_eq, unchanged, rfl⟩
  | inserts | merges | deletes => cases unreported
  | unlocks => exact ⟨unreported, rfl, rfl⟩
  | @forgets outcome _ _ changed =>
    have reported : outcome.updated = true := outcome.isSome_change?.symm.trans changed
    exact absurd (reported.symm.trans unreported) (by simp)
  | @posts outcome _ changed =>
    have reported : outcome.updated = true := outcome.isSome_change?.symm.trans (by simp [changed])
    exact absurd (reported.symm.trans unreported) (by simp)
  | _ => exact ⟨rfl, rfl, rfl⟩

/-- Beside the locks held at the start there are those of the phase, and as long as there is nothing to
report, nothing else is different. -/
structure Phase.Withheld (start now : World K E) (phase : Phase E) : Prop where
  held : ∀ name, name ∈ now.locks.held ↔ name ∈ phase.locked ∨ name ∈ start.locks.held
  apart : ∀ name ∈ phase.locked, name ∉ start.locks.held
  untouched : phase.updated = false → now.Untouched start

theorem Phase.Withheld.outside (world : World K E) :
    (Phase.outside : Phase E).Withheld world world := by
  refine ⟨?_, ?_, fun _ => ⟨rfl, rfl, rfl, rfl⟩⟩
  · simp [Phase.locked]
  · simp [Phase.locked]

theorem Phase.Withheld.locks_eq {start now : World K E} (withheld : phase.Withheld start now)
    (none : phase.locked = []) : now.locks = start.locks := by
  apply LockTable.ext_held
  intro name
  rw [withheld.held, none]
  simp

theorem Phase.Withheld.of_move [DecidableEq E] {start now after : World K E}
    (withheld : phase.Withheld start now) (met : World.Meets family call now answer after)
    (move : Moves family operation phase call answer next) : next.Withheld start after := by
  obtain ⟨held, apart⟩ := (met.locking move.handles).beside withheld.held withheld.apart
  refine ⟨held, apart, fun unreported => ?_⟩
  obtain ⟨before, quiet, unheard⟩ := move.quiet unreported
  exact (withheld.untouched before).trans (met.untouched quiet unheard)

end Moves

section Runs

variable [DecidableEq K] [DecidableEq E] {family : Family K E} {operation : Operation K E}
  {policy : RetryPolicy} {world after : World K E} {result : Except Error (Outcome E)}

theorem untouched_of_attempt_failed {cause : Error}
    (run : (operation.attempt family).Runs (World.Meets family) world (.error cause) after) :
    after.locks = world.locks ∧ after.Untouched world := by
  obtain ⟨phase, withheld, ended⟩ := run.follows (Phase.Withheld world) (.outside world)
    Operation.attempt_follows fun withheld met move => withheld.of_move met move
  subst ended
  exact ⟨withheld.locks_eq rfl, withheld.untouched rfl⟩

/-- Whatever a write meets with, it holds no locks in the end that were not held before, and gives up
none that were. Rows, caches and events are as before, unless the result says that it made a change. -/
theorem untouched_unless_updated
    (run : (operation.program family policy).Runs (World.Meets family) world result after) :
    after.locks = world.locks ∧ (updated result = false → after.Untouched world) := by
  obtain ⟨phase, withheld, ended⟩ := run.follows (Phase.Withheld world) (.outside world)
    Operation.program_follows fun withheld met move => withheld.of_move met move
  constructor
  · exact withheld.locks_eq ended.locked_eq
  · intro unreported
    exact withheld.untouched (ended.updated_eq.trans unreported)

end Runs

section Interruptions

def interrupted (client : Client Int64 Account) (call : Call Int64 Account) :
    StateM (World Int64 Account) call.Answer := fun world =>
  let told := match call with
    | .pause => true
    | _ => world.stopping
  (World.serve Account.family client call).run { world with stopping := told }

def mover : Client Int64 Account where
  stoppable := true
  reading drawn := drawn
  mutate account := ({ account with email := "ann@example.org" }, .changed)
  create _ := .fresh "nobody" 0

def crowded : World Int64 Account where
  store := {
    inner := { table := { rows := .ofList [(1, { Account.fresh "ann" 10 with id := some 1, version := 1 })] } }
    mergeFaults := 5 }
  locks := ⟨.ofList ["account:email:cy@example.com"]⟩

/-- A write that locked the new email, failed to commit and was stopped while it waited. -/
theorem untouched_unless_updated_interrupted :
    ∃ result after, ((Operation.update 1).program Account.family {}).Runs
        (World.Meets Account.family) crowded result after ∧
      result = .error (.update (.interrupted "account" "1")) ∧ updated result = false ∧
      after.store.injected = 1 ∧ after.locks = crowded.locks ∧ after.Untouched crowded := by
  have shown : ∀ (call : Call Int64 Account) (world : World Int64 Account) answer last,
      (interrupted mover call).run world = (answer, last) →
      World.Meets Account.family call world answer last :=
    fun call world answer last served => .serves mover _ served
  have run := @Task.runs_run (calls Int64 Account) _ _ _ _ id (interrupted mover) shown
    ((Operation.update 1).program Account.family {}) crowded
  obtain ⟨locks, untouched⟩ := untouched_unless_updated run
  refine ⟨_, _, run, by decide +kernel, by decide +kernel, by decide +kernel, locks, ?_⟩
  exact untouched (by decide +kernel)

end Interruptions

end Write

end OptimisticStore
