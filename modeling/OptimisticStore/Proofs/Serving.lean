import OptimisticStore.Model.World
import OptimisticStore.Proofs.Interleaving
import OptimisticStore.Proofs.Store.History
/-!
One call served by the world, as those see it who share a part of the world.

Main statements: `World.serve_effect`, by which a call leaves the rows alone or is one of the store's
writes, and `Crew.reachable_of_advance`, by which serving some calls of one member in a row is one of the
interleavings.
-/
namespace OptimisticStore

variable {K E : Type} [Key K] {family : Family K E}

def Call.wrote : (call : Call K E) → call.Answer → Bool
  | .store call, answer => call.wrote answer
  | _, _ => false

def Call.Effect (family : Family K E) (table : Table K E) :
    (call : Call K E) → call.Answer → Table K E → Prop
  | .store call, answer, after => table.Effect family call answer after
  | _, _, after => after = table

def Call.removes : Call K E → Bool
  | .store call => call.removes
  | _ => false

def Call.drew? : (call : Call K E) → call.Answer → Option Int
  | .tick, stamp => some stamp
  | _, _ => none

theorem Call.not_wrote_of_drew {call : Call K E} {answer : call.Answer} {stamp : Int}
    (drew : call.drew? answer = some stamp) : call.wrote answer = false := by
  cases call with
  | tick => rfl
  | _ => cases drew

namespace World

abbrev table (world : World K E) : Table K E := world.store.inner.table

/-- The rows and the locks, all that writers may come to see of each other. -/
structure Scene (K E : Type) [Key K] where
  table : Table K E := {}
  locks : LockTable := {}

def scene (world : World K E) : Scene K E := ⟨world.table, world.locks⟩

variable [DecidableEq E] {client : Client K E} {world after : World K E}

theorem serve_effect {call : Call K E} {answer : call.Answer}
    (served : (serve family client call).run world = (answer, after)) :
    call.Effect family world.table answer after.table := by
  cases call with
  | store call =>
    obtain ⟨same, rfl⟩ := Prod.mk.inj served
    exact FaultyStore.serve_effect family (Prod.ext same rfl)
  | post change =>
    obtain ⟨_, rfl⟩ := Prod.mk.inj served
    change (if client.posting then world.post change else world).table = world.table
    split <;> rfl
  | _ =>
    obtain ⟨_, rfl⟩ := Prod.mk.inj served
    rfl

theorem serve_fetch {key : K} {found : Option E}
    (served : (serve family client (.store (.fetch key))).run world = (.ok found, after)) :
    found = world.table.rows.get? key := by
  obtain ⟨same, rfl⟩ := Prod.mk.inj served
  exact FaultyStore.serve_fetch family (Prod.ext same rfl)

theorem serve_fetchMany {keys : SortedSet K} {found : SortedMap K E}
    (served : (serve family client (.store (.fetchMany keys))).run world = (.ok found, after)) :
    found = world.table.select keys.toList := by
  obtain ⟨same, rfl⟩ := Prod.mk.inj served
  exact FaultyStore.serve_fetchMany family (Prod.ext same rfl)

theorem serve_findUnique {field : UniqueField} {owner : Option K}
    (served : (serve family client (.store (.findUnique field))).run world = (.ok owner, after)) :
    owner = world.table.findUnique family field := by
  obtain ⟨same, rfl⟩ := Prod.mk.inj served
  exact FaultyStore.serve_findUnique family (Prod.ext same rfl)

theorem serve_insert {entity row : E}
    (served : (serve family client (.store (.insert entity))).run world = (.ok row, after)) :
    world.table.insert family entity = (.ok row, after.table) := by
  obtain ⟨same, rfl⟩ := Prod.mk.inj served
  exact FaultyStore.serve_insert family (Prod.ext same rfl)

theorem serve_merge {entity : E} {merged : Merged E}
    (served : (serve family client (.store (.merge entity))).run world = (.ok merged, after)) :
    world.table.merge family entity = (.ok merged, after.table) := by
  obtain ⟨same, rfl⟩ := Prod.mk.inj served
  exact FaultyStore.serve_merge family (Prod.ext same rfl)

theorem serve_clock {call : Call K E} {answer : call.Answer}
    (served : (serve family client call).run world = (answer, after)) :
    (∃ stamp, call.drew? answer = some stamp ∧ after.clock.latest = stamp ∧
        world.clock.latest < stamp) ∨
      call.drew? answer = none ∧ after.clock = world.clock := by
  cases call with
  | tick =>
    obtain ⟨rfl, rfl⟩ := Prod.mk.inj served
    exact .inl ⟨_, rfl, rfl, Clock.latest_lt_next _ _⟩
  | post change =>
    obtain ⟨_, rfl⟩ := Prod.mk.inj served
    change _ ∨ none = none ∧ (if client.posting then world.post change else world).clock = world.clock
    split
    · exact .inr ⟨rfl, rfl⟩
    · exact .inr ⟨rfl, rfl⟩
  | _ =>
    obtain ⟨_, rfl⟩ := Prod.mk.inj served
    exact .inr ⟨rfl, rfl⟩

/-- A served call as it shows in `view`, which is all that the members share. Whatever else there is to
the world, such as private clocks, caches and faults, may be anything at each call. -/
def Shows {S : Type} (family : Family K E) (view : World K E → S) (client : Client K E)
    (call : Call K E) (before : S) (answer : call.Answer) (after : S) : Prop :=
  ∃ world last, view world = before ∧ (serve family client call).run world = (answer, last) ∧
    view last = after

end World

namespace Table

variable [DecidableEq K] {table after : Table K E} {call : Call K E} {answer : call.Answer}

theorem Keyed.of_call (lawful : family.Lawful) (keyed : table.Keyed family)
    (effect : call.Effect family table answer after) : after.Keyed family := by
  cases call with
  | store call => exact keyed.of_effect lawful.separate effect
  | _ =>
    obtain rfl := effect
    exact keyed

theorem Distinct.of_call (lawful : family.Lawful) (distinct : table.Distinct family)
    (effect : call.Effect family table answer after) : after.Distinct family := by
  cases call with
  | store call => exact distinct.of_effect lawful.separate effect
  | _ =>
    obtain rfl := effect
    exact distinct

theorem Passed.of_call (lawful : family.Lawful) (versioned : family.Versioned) {key : K} {row : E}
    (passed : table.Passed family key row) (effect : call.Effect family table answer after)
    (keeps : call.removes = false) : after.Passed family key row := by
  cases call with
  | store call => exact passed.of_effect lawful versioned effect keeps
  | _ =>
    obtain rfl := effect
    exact passed

omit [DecidableEq K] in
theorem rows_of_not_wrote (effect : call.Effect family table answer after)
    (quiet : call.wrote answer = false) : after.rows = table.rows := by
  cases call with
  | store call =>
    rcases effect with ⟨wrote, _⟩ | ⟨_, rows⟩
    · exact absurd (quiet.symm.trans wrote) (by simp)
    · exact rows
  | _ =>
    obtain rfl := effect
    rfl

end Table

def Task.advance {V : Vocabulary} {α : Type} {m : Type → Type} [Monad m]
    (serve : (request : V.Call) → m (V.Answer request)) : Nat → Task V α → m (Task V α)
  | 0, task => pure task
  | _ + 1, .done value => pure (.done value)
  | left + 1, .call request resume => do
    let answer ← serve request
    (resume answer).advance serve left

def World.advance [DecidableEq E] (family : Family K E) (client : Client K E) {α : Type} (left : Nat)
    (program : Program K E α) : StateM (World K E) (Program K E α) :=
  Task.advance (V := calls K E) (World.serve family client) left program

namespace Crew

variable {ι S : Type} [DecidableEq ι] {α : ι → Type}

/-- Serving some calls of one member in a row is one of the interleavings, if what the calls do to a
world is among what the service lets them do to the shared state that stands for it. -/
theorem reachable_of_advance {W : Type} {V : Vocabulary} {service : Service V S ι}
    (shown : W → S → Prop) {serve : (request : V.Call) → StateM W (V.Answer request)} {i : ι}
    (serves : ∀ request world answer last state, (serve request).run world = (answer, last) →
      shown world state → ∃ after, service i request state answer after ∧ shown last after)
    (left : Nat) {crew : Crew V S α} {world : W} (seen : shown world crew.state) :
    ∃ after : Crew V S α, Reachable service crew after ∧
      after.tasks = Function.update crew.tasks i
        (((crew.tasks i).advance serve left).run world).1 ∧
      shown (((crew.tasks i).advance serve left).run world).2 after.state := by
  induction left generalizing crew world with
  | zero => exact ⟨crew, .refl, Function.update_eq_self i crew.tasks |>.symm, seen⟩
  | succ left ih =>
    cases going : crew.tasks i with
    | done value =>
      refine ⟨crew, .refl, ?_, seen⟩
      change crew.tasks = Function.update crew.tasks i (.done value)
      rw [← going, Function.update_eq_self]
    | call request resume =>
      cases step : (serve request).run world with
      | mk answer last =>
        obtain ⟨mid, served, seen⟩ := serves request world answer last crew.state step seen
        have first := Step.serve i going served
        obtain ⟨after, rest, tasks, seen⟩ :=
          @ih ⟨mid, Function.update crew.tasks i (resume answer)⟩ last seen
        have whole : ((Task.call request resume).advance serve (left + 1)).run world =
            ((resume answer).advance serve left).run last := by
          change ((resume ((serve request).run world).1).advance serve left).run
            ((serve request).run world).2 = _
          rw [step]
        rw [whole]
        refine ⟨after, Relation.ReflTransGen.head first rest, ?_, by simpa using seen⟩
        simpa using tasks

theorem reachable_of_shown {T : Type} [DecidableEq E] {service : Service (calls K E) S ι}
    {view : World K E → T} (image : S → T) {client : Client K E} {i : ι}
    (serves : ∀ {call : Call K E} {before : S} {answer : call.Answer} {seen : T},
      World.Shows family view client call (image before) answer seen →
        ∃ after, service i call before answer after ∧ seen = image after)
    (left : Nat) {crew : Crew (calls K E) S α} {world : World K E}
    (seen : view world = image crew.state) :
    ∃ after : Crew (calls K E) S α, Reachable service crew after ∧
      after.tasks = Function.update crew.tasks i
        ((World.advance family client left (crew.tasks i)).run world).1 ∧
      view ((World.advance family client left (crew.tasks i)).run world).2 = image after.state := by
  apply reachable_of_advance (fun world state => view world = image state)
  · intro request world answer last state served seen
    exact serves ⟨world, last, seen, served, rfl⟩
  · exact seen

end Crew

end OptimisticStore
