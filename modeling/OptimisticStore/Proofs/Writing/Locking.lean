import OptimisticStore.Proofs.Lock.Table
import OptimisticStore.Proofs.Serving
import OptimisticStore.Proofs.Writing.Moves
/-!
What a write does with its locks.

`Handles` says how someone deals with locks who asks for them only while it has none and gives back what
it was granted. Main statements: `Moves.handles`, by which every move of a write is of this kind, and
`Operation.program_handles`, by which a whole write is and ends without locks.
-/
namespace OptimisticStore

variable {K E : Type} [Key K]

def Call.locking : Call K E → Bool
  | .lock _ | .unlock _ => true
  | _ => false

inductive Handles : Moves (calls K E) (List String) where
  | takes {names : List String} (guard : LockGuard) : Handles [] (.lock names) (.ok guard) guard.holds
  | denied {names : List String} (cause : LockError) : Handles [] (.lock names) (.error cause) []
  | gives (guard : LockGuard) : Handles guard.holds (.unlock guard) () []
  | other {mine : List String} {call : Call K E} {answer : call.Answer}
      (foreign : call.locking = false) : Handles mine call answer mine

/-- What becomes of the names that one holds and of the table that the names are taken from. -/
inductive Locking (mine : List String) (locks : LockTable) : List String → LockTable → Prop where
  | keeps : Locking mine locks mine locks
  | takes {names : List String} {after : LockTable} (free : ∀ name ∈ names, name ∉ locks.held)
      (held : ∀ name, name ∈ after.held ↔ name ∈ names ∨ name ∈ locks.held) (none : mine = []) :
      Locking mine locks names after
  | gives {after : LockTable}
      (held : ∀ name, name ∈ after.held ↔ name ∈ locks.held ∧ name ∉ mine) :
      Locking mine locks [] after

theorem Locking.of_eq {mine : List String} {locks after : LockTable} (same : after = locks) :
    Locking mine locks mine after := by
  subst same
  exact .keeps

variable {family : Family K E} {call : Call K E} {answer : call.Answer} {mine names : List String}

theorem World.locks_of_serve [DecidableEq E] {client : Client K E} {world after : World K E}
    (served : (serve family client call).run world = (answer, after))
    (foreign : call.locking = false) : after.locks = world.locks := by
  cases call with
  | lock | unlock => cases foreign
  | post change =>
    obtain ⟨_, rfl⟩ := Prod.mk.inj served
    split <;> rfl
  | _ =>
    obtain ⟨_, rfl⟩ := Prod.mk.inj served
    rfl

theorem Handles.locking [DecidableEq E] {client : Client K E} {world after : World K E}
    (handles : Handles mine call answer names)
    (served : (World.serve family client call).run world = (answer, after)) :
    Locking mine world.locks names after.locks := by
  cases handles with
  | takes guard =>
    obtain ⟨granted, rfl⟩ := Prod.mk.inj served
    obtain ⟨free, held, _⟩ := LockTable.lock_granted (Prod.ext granted rfl)
    exact .takes free held rfl
  | denied cause =>
    obtain ⟨refused, rfl⟩ := Prod.mk.inj served
    exact .of_eq (LockTable.lock_refused (Prod.ext refused rfl))
  | gives guard =>
    obtain ⟨_, rfl⟩ := Prod.mk.inj served
    exact .gives fun name => LockTable.mem_release
  | other foreign => exact .of_eq (World.locks_of_serve served foreign)

theorem Locking.beside {others locks after : LockTable} (step : Locking mine locks names after)
    (held : ∀ name, name ∈ locks.held ↔ name ∈ mine ∨ name ∈ others.held)
    (apart : ∀ name ∈ mine, name ∉ others.held) :
    (∀ name, name ∈ after.held ↔ name ∈ names ∨ name ∈ others.held) ∧
      ∀ name ∈ names, name ∉ others.held := by
  cases step with
  | keeps => exact ⟨held, apart⟩
  | takes free taken none =>
    subst none
    constructor
    · intro name
      rw [taken, held]
      simp
    · intro name within foreign
      exact free name within ((held name).mpr (.inr foreign))
  | gives given =>
    constructor
    · intro name
      have alone := apart name
      rw [given, held]
      grind
    · intro name within
      cases within

namespace Write

variable {operation : Operation K E} {phase next : Phase E}

def Phase.locked : Phase E → List String
  | .claiming _ _ _ guard _ | .refused guard | .written guard _ => guard.holds
  | _ => []

omit [Key K] in
theorem Cleared.locked_eq {stamp : Int} {before : Option E} {entity : E} {guard : LockGuard}
    (cleared : Cleared family phase stamp before entity guard) :
    phase.locked = guard.holds := by
  cases cleared with
  | unclaimed => rfl
  | checked => rfl

/-- A write asks for locks only while it has none, and gives back those it was granted. -/
theorem Moves.handles (move : Moves family operation phase call answer next) :
    Handles phase.locked call answer next.locked := by
  have stays : ∀ {guard : LockGuard} {request : Call K E} {reply : request.Answer},
      phase.locked = guard.holds → request.locking = false →
      Handles phase.locked request reply guard.holds := by
    intro guard request reply same foreign
    rw [← same]
    exact .other foreign
  cases move with
  | locks guard => exact .takes guard
  | lockFails cause => exact .denied cause
  | unlocksRefused => exact .gives _
  | unlocks => exact .gives _
  | insertFails _ cleared | inserts _ cleared | mergeFails _ cleared | merges _ _ cleared
  | mergesNothing _ _ cleared => exact stays cleared.locked_eq rfl
  | _ => exact .other rfl

theorem Moves.locking [DecidableEq E] {client : Client K E} {world after : World K E}
    (move : Moves family operation phase call answer next)
    (served : (World.serve family client call).run world = (answer, after)) :
    Locking phase.locked world.locks next.locked after.locks :=
  move.handles.locking served

omit [Key K] in
theorem Ends.locked_eq {result : Except Error (Outcome E)} (ended : Ends family phase result) :
    phase.locked = [] := by
  cases result with
  | error cause =>
    obtain rfl := ended
    rfl
  | ok outcome =>
    obtain rfl | ⟨rfl, _⟩ := ended
    · rfl
    · rfl

theorem Operation.program_handles [DecidableEq K] {policy : RetryPolicy} :
    (operation.program family policy).Follows Handles (fun mine _ => mine = []) [] :=
  Operation.program_follows.image Phase.locked (fun move => move.handles) fun ended => ended.locked_eq

end Write

end OptimisticStore
