import OptimisticStore.Proofs.Cache.Reads
import OptimisticStore.Proofs.Writing.Attempts
import OptimisticStore.Proofs.Writing.Unreported
/-!
What comes back from a mutator that says it changed nothing.

Nothing is written then, and the record that is returned is the mutator's own copy. Main statement:
`unchanged_iff`, by which that is the stored row exactly if the mutator has left its copy alone;
`unchanged_returns_edit` shows one that has not.
-/
namespace OptimisticStore

variable {K E : Type} [Key K] [DecidableEq E] {family : Family K E} {client : Client K E}
  {world last : World K E}

namespace Program

variable {α : Type} {kind label : String} {policy : RetryPolicy} {ambient : Bool} {budget left : Nat}
  {attempt : Program K E (Except Error α)} {result : Except Error α}

theorem attempts_of_ok {Good : α → World K E → Prop}
    (some : 0 < left) (untold : (client.stoppable && world.stopping) = false)
    (succeeds : ∀ first mid, attempt.Runs (World.answers family client) world first mid →
      ∃ value, first = .ok value ∧ Good value mid)
    (run : (attempts kind label ambient budget attempt left).Runs (World.answers family client) world
      result last) : ∃ value, result = .ok value ∧ Good value last := by
  obtain ⟨left, rfl⟩ := Nat.exists_eq_succ_of_ne_zero some.ne'
  obtain ⟨told, asked, served, run⟩ := Task.runs_ask_bind.mp run
  obtain ⟨rfl, rfl⟩ := Prod.mk.inj served
  rw [untold] at run
  obtain ⟨first, mid, attempted, run⟩ := Task.runs_bind.mp run
  obtain ⟨value, rfl, good⟩ := succeeds first mid attempted
  obtain ⟨rfl, rfl⟩ := Task.runs_pure.mp run
  exact ⟨value, rfl, good⟩

theorem retrying_of_ok {Good : α → World K E → Prop}
    (permitted : world.store.inner.transactions = 0 ∨ policy.allowAmbientTransaction = true)
    (some : 0 < policy.maxIterations) (untold : (client.stoppable && world.stopping) = false)
    (succeeds : ∀ first mid, attempt.Runs (World.answers family client) world first mid →
      ∃ value, first = .ok value ∧ Good value mid)
    (run : (retrying kind policy label attempt).Runs (World.answers family client) world result last) :
    ∃ value, result = .ok value ∧ Good value last := by
  obtain ⟨ambient, asked, served, run⟩ := Task.runs_ask_bind.mp run
  obtain ⟨rfl, rfl⟩ := Prod.mk.inj served
  have allowed : (decide (0 < world.store.inner.transactions) && !policy.allowAmbientTransaction) =
      false := by
    rcases permitted with none | allows
    · simp [none]
    · simp [allows]
  rw [if_neg (by rw [allowed]; simp)] at run
  refine attempts_of_ok ?_ untold succeeds run
  split
  · exact Nat.one_pos
  · exact some

end Program

theorem World.fetch_of_reached {key : K} {answer : Except StoreError (Option E)}
    (reached : world.store.inner.poisoned = false)
    (served : answers family client (.store (.fetch key)) world answer last) :
    answer = .ok (world.table.rows.get? key) := by
  have read : (world.store.inner.serve family (.fetch key)).1 = .ok (world.table.rows.get? key) :=
    congrArg Prod.fst (read_recorded reached)
  exact (Prod.mk.inj served).1.symm.trans read

/-- What one would have of a mutator that decides to change nothing: the stored row is what comes back. -/
def World.ReturnsRow (key : K) (world : World K E) (result : Except Error (Outcome E)) : Prop :=
  ∃ outcome, result = .ok outcome ∧ outcome.updated = false ∧
    outcome.before = world.table.rows.get? key ∧ outcome.after = world.table.rows.get? key

namespace Write

variable [DecidableEq K] {operation : Operation K E} {policy : RetryPolicy} {key : K}
  {current mutated : E} {result : Except Error (Outcome E)}

theorem attemptUpdate_unchanged {creating : Bool}
    (reached : world.store.inner.poisoned = false) (found : world.table.rows.get? key = some current)
    (decided : client.mutate current = (mutated, .unchanged))
    (run : (attemptUpdate family creating key).Runs (World.answers family client) world result last) :
    result = .ok (.ofUnchanged family.kind mutated (world.nextStamp client)) ∧
      last.Untouched world := by
  obtain ⟨stamp, ticked, drawn, run⟩ := Task.runs_ask_bind.mp run
  obtain ⟨answer, fetched, read, run⟩ := Task.runs_ask_bind.mp run
  have stamped : ticked.Untouched world := by
    apply World.untouched_of_serve drawn
    · rfl
    · rfl
  have untouched := stamped.trans (World.untouched_of_serve read rfl rfl)
  obtain ⟨rfl, rfl⟩ := Prod.mk.inj drawn
  have row := World.fetch_of_reached (by exact reached) read
  change answer = .ok (world.table.rows.get? key) at row
  rw [found] at row
  subst row
  obtain ⟨⟨edited, decision⟩, _, asked, run⟩ := Task.runs_ask_bind.mp run
  obtain ⟨same, rfl⟩ := Prod.mk.inj asked
  obtain ⟨rfl, rfl⟩ := Prod.mk.inj (same.symm.trans decided)
  obtain ⟨rfl, rfl⟩ := Task.runs_pure.mp run
  exact ⟨rfl, untouched⟩

theorem program_unchanged (edits : operation = .update key ∨ operation = .updateOrCreate key)
    (found : world.table.rows.get? key = some current)
    (decided : client.mutate current = (mutated, .unchanged))
    (reached : world.store.inner.poisoned = false)
    (permitted : world.store.inner.transactions = 0 ∨ policy.allowAmbientTransaction = true)
    (some : 0 < policy.maxIterations) (untold : (client.stoppable && world.stopping) = false)
    (run : (operation.program family policy).Runs (World.answers family client) world result last) :
    result = .ok (.ofUnchanged family.kind mutated (world.nextStamp client)) ∧
      last.Untouched world := by
  obtain ⟨creating, same⟩ : ∃ creating, operation.attempt family = attemptUpdate family creating key := by
    rcases edits with rfl | rfl
    · exact ⟨false, rfl⟩
    · exact ⟨true, rfl⟩
  have succeeds : ∀ first mid, (operation.attempt family).Runs (World.answers family client) world
      first mid → ∃ outcome, first = .ok outcome ∧
        (outcome = .ofUnchanged family.kind mutated (world.nextStamp client) ∧
          mid.Untouched world) := by
    intro first mid attempted
    rw [same] at attempted
    obtain ⟨ended, untouched⟩ := attemptUpdate_unchanged reached found decided attempted
    exact ⟨_, ended, rfl, untouched⟩
  rw [Operation.program_eq] at run
  obtain ⟨first, mid, retried, run⟩ := Task.runs_bind.mp run
  obtain ⟨_, rfl, rfl, untouched⟩ := Program.retrying_of_ok permitted some untold succeeds retried
  obtain ⟨_, _, announced, run⟩ := Task.runs_bind.mp run
  obtain ⟨rfl, rfl⟩ := Task.runs_pure.mp run
  obtain ⟨_, rfl⟩ := Task.runs_pure.mp announced
  exact ⟨rfl, untouched⟩

/-- A mutator that decides to change nothing is believed: the operation succeeds without an update and
without a trace. What it returns is the copy that the mutator was handed, as the mutator left it, and so
it is the stored row exactly if the mutator did not touch it. -/
theorem unchanged_iff (edits : operation = .update key ∨ operation = .updateOrCreate key)
    (found : world.table.rows.get? key = some current)
    (decided : client.mutate current = (mutated, .unchanged))
    (reached : world.store.inner.poisoned = false)
    (permitted : world.store.inner.transactions = 0 ∨ policy.allowAmbientTransaction = true)
    (some : 0 < policy.maxIterations) (untold : (client.stoppable && world.stopping) = false)
    (run : (World.run family client (operation.program family policy)).run world = (result, last)) :
    result = .ok (.ofUnchanged family.kind mutated (world.nextStamp client)) ∧
      last.Untouched world ∧ (world.ReturnsRow key result ↔ mutated = current) := by
  obtain ⟨rfl, untouched⟩ :=
    program_unchanged edits found decided reached permitted some untold (World.runs_of_run run)
  refine ⟨rfl, untouched, ?_⟩
  constructor
  · rintro ⟨outcome, same, _, before, _⟩
    obtain rfl := Except.ok.inj same
    rw [found] at before
    exact Option.some.inj before
  · rintro rfl
    exact ⟨_, rfl, rfl, found.symm, found.symm⟩

section Ledger

def ann : Account := { Account.fresh "ann" 10 with id := some 1, version := 2 }

def ledger : World Int64 Account where
  store := { inner := { table := { rows := .ofList [(1, ann)] } } }

def hesitant : Client Int64 Account where
  reading drawn := drawn
  mutate account := ({ account with balance := account.balance + 5 }, .unchanged)
  create _ := .fresh "nobody" 0

theorem unchanged_iff_ledger :
    let run := (World.run Account.family hesitant ((Operation.update 1).program Account.family {})).run
      ledger
    run.1 = .ok (.ofUnchanged "account" { ann with balance := 15 } 1) ∧ run.2.Untouched ledger ∧
      (ledger.ReturnsRow 1 run.1 ↔ { ann with balance := 15 } = ann) := by
  intro run
  exact @unchanged_iff Int64 Account _ _ Account.family hesitant ledger run.2 _ (.update 1) {} 1 ann
    { ann with balance := 15 } run.1 (.inl rfl) (by decide +kernel) (by decide +kernel) rfl (.inl rfl)
    (by decide) rfl rfl

/-- A balance of fifteen is returned, as it was before and as it is after, where ten is stored. -/
theorem unchanged_returns_edit :
    ledger.table.rows.get? 1 = some ann ∧ (hesitant.mutate ann).2 = .unchanged ∧
    ∀ operation : Operation Int64 Account, operation = .update 1 ∨ operation = .updateOrCreate 1 →
      ((World.run Account.family hesitant (operation.program Account.family {})).run ledger).1 =
        .ok (.ofUnchanged "account" { ann with balance := 15 } 1) ∧
      ¬ ledger.ReturnsRow 1
        ((World.run Account.family hesitant (operation.program Account.family {})).run ledger).1 := by
  have stored : ledger.table.rows.get? 1 = some ann := by decide +kernel
  refine ⟨stored, rfl, ?_⟩
  intro operation edits
  have returned : ((World.run Account.family hesitant (operation.program Account.family {})).run
      ledger).1 = .ok (.ofUnchanged "account" { ann with balance := 15 } 1) := by
    rcases edits with rfl | rfl
    · decide +kernel
    · decide +kernel
  refine ⟨returned, ?_⟩
  rintro ⟨outcome, same, _, before, _⟩
  rw [returned] at same
  obtain rfl := Except.ok.inj same
  rw [stored] at before
  exact absurd before (by decide)

end Ledger

end Write

end OptimisticStore
