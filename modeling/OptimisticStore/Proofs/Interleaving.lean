import Mathlib.Logic.Function.Basic
import Mathlib.Logic.Relation
import OptimisticStore.Task
/-!
Programs side by side over one shared state, their calls served in any order.

What one program does is said once, by the moves between phases that its calls and their answers make
(`Task.Follows`). Main statement: `Crew.Reachable.phases`, by which an invariant of the shared state
and everyone's phases that every single move keeps holds after every interleaving.
-/
namespace OptimisticStore

abbrev Moves (V : Vocabulary) (σ : Type) :=
  σ → (request : V.Call) → V.Answer request → σ → Prop

namespace Task

variable {V : Vocabulary} {σ α β : Type} {moves : Moves V σ}

/-- Every call of the task makes a move, whatever it is answered, and the task ends as `ends` says. -/
def Follows (moves : Moves V σ) (ends : σ → α → Prop) : Task V α → σ → Prop
  | .done value, phase => ends phase value
  | .call request resume, phase => ∀ answer, ∃ after,
      moves phase request answer after ∧ (resume answer).Follows moves ends after

@[simp] theorem follows_pure {ends : σ → α → Prop} {value : α} {phase : σ} :
    (pure value : Task V α).Follows moves ends phase ↔ ends phase value := Iff.rfl

theorem follows_bind {ends : σ → β → Prop} {task : Task V α} {next : α → Task V β} {phase : σ} :
    (task >>= next).Follows moves ends phase ↔
      task.Follows moves (fun after value => (next value).Follows moves ends after) phase := by
  induction task generalizing phase with
  | done value => rfl
  | call request resume ih =>
    constructor
    · intro follows answer
      obtain ⟨after, move, rest⟩ := follows answer
      exact ⟨after, move, ih answer |>.mp rest⟩
    · intro follows answer
      obtain ⟨after, move, rest⟩ := follows answer
      exact ⟨after, move, ih answer |>.mpr rest⟩

theorem follows_ask_bind {ends : σ → β → Prop} {request : V.Call}
    {next : V.Answer request → Task V β} {phase : σ} :
    (ask request >>= next).Follows moves ends phase ↔
      ∀ answer, ∃ after, moves phase request answer after ∧
        (next answer).Follows moves ends after := Iff.rfl

theorem Follows.mono {ends ends' : σ → α → Prop} {task : Task V α} {phase : σ}
    (follows : task.Follows moves ends phase)
    (weaker : ∀ after value, ends after value → ends' after value) :
    task.Follows moves ends' phase := by
  induction task generalizing phase with
  | done value => exact weaker phase value follows
  | call request resume ih =>
    intro answer
    obtain ⟨after, move, rest⟩ := follows answer
    exact ⟨after, move, ih answer rest⟩

theorem Follows.image {τ : Type} {seen : Moves V τ} {ends : σ → α → Prop} {ends' : τ → α → Prop}
    {task : Task V α} {phase : σ} (follows : task.Follows moves ends phase) (view : σ → τ)
    (shown : ∀ {phase request answer after}, moves phase request answer after →
      seen (view phase) request answer (view after))
    (ended : ∀ {phase value}, ends phase value → ends' (view phase) value) :
    task.Follows seen ends' (view phase) := by
  induction task generalizing phase with
  | done value => exact ended follows
  | call request resume ih =>
    intro answer
    obtain ⟨after, move, rest⟩ := follows answer
    exact ⟨view after, shown move, ih answer rest⟩

theorem Follows.both {τ : Type} {other : Moves V τ} {ends : σ → α → Prop} {ends' : τ → α → Prop}
    {task : Task V α} {phase : σ} {phase' : τ} (one : task.Follows moves ends phase)
    (two : task.Follows other ends' phase') :
    task.Follows (fun phases request answer after =>
        moves phases.1 request answer after.1 ∧ other phases.2 request answer after.2)
      (fun phases value => ends phases.1 value ∧ ends' phases.2 value) (phase, phase') := by
  induction task generalizing phase phase' with
  | done value => exact ⟨one, two⟩
  | call request resume ih =>
    intro answer
    obtain ⟨after, move, rest⟩ := one answer
    obtain ⟨after', move', rest'⟩ := two answer
    exact ⟨(after, after'), ⟨move, move'⟩, ih answer rest rest'⟩

end Task

abbrev Service (V : Vocabulary) (S ι : Type) :=
  ι → (request : V.Call) → S → V.Answer request → S → Prop

structure Crew (V : Vocabulary) (S : Type) {ι : Type} (α : ι → Type) where
  state : S
  tasks : (i : ι) → Task V (α i)

namespace Crew

variable {V : Vocabulary} {S ι σ : Type} {α : ι → Type} [DecidableEq ι]

inductive Step (service : Service V S ι) : Crew V S α → Crew V S α → Prop where
  | serve {crew : Crew V S α} (i : ι) {request : V.Call} {resume : V.Answer request → Task V (α i)}
      {answer : V.Answer request} {after : S} (waiting : crew.tasks i = .call request resume)
      (served : service i request crew.state answer after) :
      Step service crew ⟨after, Function.update crew.tasks i (resume answer)⟩

abbrev Reachable (service : Service V S ι) : Crew V S α → Crew V S α → Prop :=
  Relation.ReflTransGen (Step service)

/-- An invariant that every move keeps holds in every reachable state, of phases from which everyone
goes on as its moves say. -/
theorem Reachable.phases {service : Service V S ι} {moves : ι → Moves V σ}
    {ends : (i : ι) → σ → α i → Prop} (Inv : S → (ι → σ) → Prop)
    (keeps : ∀ {i request state answer after phases phase}, Inv state phases →
      service i request state answer after → moves i (phases i) request answer phase →
      Inv after (Function.update phases i phase))
    {start crew : Crew V S α} {phases : ι → σ} (inv : Inv start.state phases)
    (follows : ∀ i, (start.tasks i).Follows (moves i) (ends i) (phases i))
    (reached : Reachable service start crew) :
    ∃ phases, Inv crew.state phases ∧ ∀ i, (crew.tasks i).Follows (moves i) (ends i) (phases i) := by
  induction reached with
  | refl => exact ⟨phases, inv, follows⟩
  | tail _ step ih =>
    obtain ⟨phases, inv, follows⟩ := ih
    cases step with
    | serve i waiting served =>
      have going := follows i
      rw [waiting] at going
      obtain ⟨phase, move, rest⟩ := going _
      refine ⟨Function.update phases i phase, keeps inv served move, fun j => ?_⟩
      by_cases same : j = i
      · subst same
        simpa using rest
      · simpa [same] using follows j

end Crew

end OptimisticStore
