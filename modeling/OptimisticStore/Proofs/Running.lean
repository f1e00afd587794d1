import OptimisticStore.Proofs.Interleaving
/-!
One program run to its end by itself, each call answered in one of the ways that a relation allows.

Main statements: a run of `task >>= next` is a run of the task and one of what follows (`runs_bind`),
an invariant that every move keeps holds where a run ends (`Runs.follows`), and running a task in a
state monad is such a run (`runs_run`).
-/
namespace OptimisticStore.Task

variable {V : Vocabulary} {S W σ α β : Type}

abbrev Serving (V : Vocabulary) (S : Type) := (request : V.Call) → S → V.Answer request → S → Prop

inductive Runs (serves : Serving V S) : Task V α → S → α → S → Prop where
  | done (value : α) (state : S) : Runs serves (.done value) state value state
  | call {request : V.Call} {resume : V.Answer request → Task V α} {answer : V.Answer request}
      {before mid after : S} {value : α} (served : serves request before answer mid)
      (rest : Runs serves (resume answer) mid value after) :
      Runs serves (.call request resume) before value after

abbrev Makes (allowed : V.Call → Prop) (task : Task V α) : Prop :=
  task.Follows (fun _ request _ _ => allowed request) (fun _ _ => True) ()

section Makes

variable {allowed : V.Call → Prop}

theorem makes_pure (value : α) : (pure value : Task V α).Makes allowed := trivial

theorem makes_bind {task : Task V α} {next : α → Task V β} (first : task.Makes allowed)
    (rest : ∀ value, (next value).Makes allowed) : (task >>= next).Makes allowed :=
  follows_bind.mpr (first.mono fun _ value _ => rest value)

theorem makes_ask_bind {request : V.Call} {next : V.Answer request → Task V β}
    (asked : allowed request) (rest : ∀ answer, (next answer).Makes allowed) :
    (ask request >>= next).Makes allowed :=
  fun answer => ⟨(), asked, rest answer⟩

theorem Makes.mono {weaker : V.Call → Prop} {task : Task V α} (makes : task.Makes allowed)
    (allows : ∀ request, allowed request → weaker request) : task.Makes weaker :=
  Follows.image makes id (fun asked => allows _ asked) id

end Makes

variable {serves : Serving V S} {before after : S}

@[simp] theorem runs_pure {given value : α} :
    (pure given : Task V α).Runs serves before value after ↔ value = given ∧ after = before := by
  constructor
  · intro run
    cases run with
    | done => exact ⟨rfl, rfl⟩
  · rintro ⟨rfl, rfl⟩
    exact .done _ _

theorem runs_ask_bind {request : V.Call} {next : V.Answer request → Task V α} {value : α} :
    (ask request >>= next).Runs serves before value after ↔
      ∃ answer mid, serves request before answer mid ∧ (next answer).Runs serves mid value after := by
  constructor
  · intro run
    cases run with
    | call served rest => exact ⟨_, _, served, rest⟩
  · rintro ⟨answer, mid, served, rest⟩
    exact .call served rest

theorem runs_bind {task : Task V α} {next : α → Task V β} {value : β} :
    (task >>= next).Runs serves before value after ↔
      ∃ first mid, task.Runs serves before first mid ∧ (next first).Runs serves mid value after := by
  induction task generalizing before with
  | done given =>
    constructor
    · intro run
      exact ⟨given, before, .done _ _, run⟩
    · rintro ⟨first, mid, run, rest⟩
      cases run with
      | done => exact rest
  | call request resume ih =>
    constructor
    · intro run
      cases run with
      | call served rest =>
        obtain ⟨first, mid, run, rest⟩ := (ih _).mp rest
        exact ⟨first, mid, .call served run, rest⟩
    · rintro ⟨first, mid, run, rest⟩
      cases run with
      | call served run => exact .call served ((ih _).mpr ⟨first, mid, run, rest⟩)

theorem Runs.keeps {task : Task V α} {value : α} (run : task.Runs serves before value after)
    (Holds : S → Prop) (holds : Holds before)
    (kept : ∀ {request state answer next}, Holds state → serves request state answer next →
      Holds next) : Holds after := by
  induction run with
  | done => exact holds
  | call served _ ih => exact ih (kept holds served)

theorem Runs.follows {moves : Moves V σ} {ends : σ → α → Prop} {task : Task V α} {value : α}
    (run : task.Runs serves before value after) (Inv : S → σ → Prop) {phase : σ}
    (inv : Inv before phase) (follows : task.Follows moves ends phase)
    (keeps : ∀ {request state answer next phase onward}, Inv state phase →
      serves request state answer next → moves phase request answer onward → Inv next onward) :
    ∃ last, Inv after last ∧ ends last value := by
  induction run generalizing phase with
  | done => exact ⟨phase, inv, follows⟩
  | call served _ ih =>
    obtain ⟨onward, move, rest⟩ := follows _
    exact ih (keeps inv served move) rest

theorem Runs.image {seen : Serving V W} {view : S → W} {task : Task V α} {value : α}
    (run : task.Runs serves before value after)
    (shown : ∀ {request state answer next}, serves request state answer next →
      seen request (view state) answer (view next)) :
    task.Runs seen (view before) value (view after) := by
  induction run with
  | done => exact .done _ _
  | call served _ ih => exact .call (shown served) ih

/-- Two runs of one task keep in step if all its calls do: they end with the same value, in states that
stand in the same relation. -/
theorem Runs.agree {serves' : Serving V W} {task : Task V α} {value value' : α} {other last : W}
    (run : task.Runs serves before value after) (run' : task.Runs serves' other value' last)
    (allowed : V.Call → Prop) (makes : task.Follows (fun _ request _ _ => allowed request)
      (fun _ _ => True) ())
    (Like : S → W → Prop) (like : Like before other)
    (keeps : ∀ {request state answer next state' answer' next'}, allowed request → Like state state' →
      serves request state answer next → serves' request state' answer' next' →
      answer = answer' ∧ Like next next') :
    value = value' ∧ Like after last := by
  induction run generalizing other with
  | done =>
    cases run' with
    | done => exact ⟨rfl, like⟩
  | call served _ ih =>
    cases run' with
    | call served' rest' =>
      obtain ⟨_, asked, onward⟩ := makes _
      obtain ⟨rfl, like⟩ := keeps asked like served served'
      exact ih rest' onward like

theorem runs_run {view : W → S} {serve : (request : V.Call) → StateM W (V.Answer request)}
    (shown : ∀ request world answer last, (serve request).run world = (answer, last) →
      serves request (view world) answer (view last)) (task : Task V α) (world : W) :
    task.Runs serves (view world) ((task.run serve).run world).1
      (view ((task.run serve).run world).2) := by
  induction task generalizing world with
  | done value => exact .done _ _
  | call request resume ih =>
    cases step : (serve request).run world with
    | mk answer last =>
      have onward := ih answer last
      have whole : ((Task.call request resume).run serve).run world =
          ((resume answer).run serve).run last := by
        change ((resume ((serve request).run world).1).run serve).run ((serve request).run world).2 = _
        rw [step]
      rw [whole]
      exact .call (shown request world answer last step) onward

theorem runs_of_run {serve : (request : V.Call) → StateM S (V.Answer request)}
    (served : ∀ request state answer last, (serve request).run state = (answer, last) →
      serves request state answer last) (task : Task V α) (state : S) :
    task.Runs serves state ((task.run serve).run state).1 ((task.run serve).run state).2 := by
  have seen : task.Runs serves (id state) ((task.run serve).run state).1
      (id ((task.run serve).run state).2) := runs_run served task state
  exact seen

def listing (serve : (request : V.Call) → StateM S (V.Answer request)) (request : V.Call) :
    StateM (S × List V.Call) (V.Answer request) := fun now =>
  let (answer, state) := (serve request).run now.1
  (answer, state, now.2 ++ [request])

theorem run_listing {serve : (request : V.Call) → StateM S (V.Answer request)} (task : Task V α)
    (state : S) (made : List V.Call) :
    (task.run serve).run state = (((task.run (listing serve)).run (state, made)).1,
      ((task.run (listing serve)).run (state, made)).2.1) := by
  induction task generalizing state made with
  | done value => rfl
  | call request resume ih => exact ih _ _ _

end OptimisticStore.Task
