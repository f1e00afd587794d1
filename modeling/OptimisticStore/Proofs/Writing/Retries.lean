import OptimisticStore.Proofs.Writing.Restamped
/-!
Attempts that fail for no fault of the writer leave no trace.

A writer is alone with a store that is going to fail some of its commits. Main statement:
`retries_transparent`, by which a write that would succeed otherwise succeeds if its budget is larger than
the number of failures, and is given up with nothing changed if not. It comes to what a run without failures
comes to at the same stamp, and at the first stamp if that makes no difference; `retries_show` has the cases
in which it does.
-/
namespace OptimisticStore.Write

open Watched

variable {K E : Type} [Key K] [DecidableEq K] [DecidableEq E] {family : Family K E}
  {client : Client K E} {operation : Operation K E} {now last : Watched K E}
  {result : Except Error (Outcome E)} {kind label : String} {budget left : Nat}

section Loop

inductive Onward (family : Family K E) (client : Client K E) (kind label : String) (budget left : Nat)
    (attempt : Program K E (Except Error (Outcome E))) :
    Except Error (Outcome E) → Watched K E → Except Error (Outcome E) → Watched K E → Prop where
  | done (outcome : Outcome E) (mid : Watched K E) :
      Onward family client kind label budget left attempt (.ok outcome) mid (.ok outcome) mid
  | final {cause : Error} (final : cause.isRetryable = false) (mid : Watched K E) :
      Onward family client kind label budget left attempt (.error cause) mid (.error cause) mid
  | exhausted {cause : Error} (retryable : cause.isRetryable = true) (none : left = 0)
      (mid : Watched K E) :
      Onward family client kind label budget left attempt (.error cause) mid
        (.error (.update (.exhausted kind label budget))) mid
  | interrupted {cause : Error} (retryable : cause.isRetryable = true) (mid : Watched K E)
      (told : (client.stoppable && mid.world.stopping) = true) :
      Onward family client kind label budget left attempt (.error cause) mid
        (.error (.update (.interrupted kind label))) mid
  | again {cause : Error} {mid last : Watched K E} {result : Except Error (Outcome E)}
      (retryable : cause.isRetryable = true) (some : 0 < left)
      (rest : (Program.attempts kind label false budget attempt left).Runs (serves family client) mid
        result last) :
      Onward family client kind label budget left attempt (.error cause) mid result last

omit [DecidableEq K] in
theorem attempts_cases {attempt : Program K E (Except Error (Outcome E))}
    (run : (Program.attempts kind label false budget attempt (left + 1)).Runs (serves family client) now
      result last) :
    ((client.stoppable && now.world.stopping) = true ∧
      result = .error (.update (.interrupted kind label))) ∨
    ∃ first mid, attempt.Runs (serves family client) now first mid ∧
      Onward family client kind label budget left attempt first mid result last := by
  obtain ⟨told, mid, served, run⟩ := Task.runs_ask_bind.mp run
  obtain ⟨rfl, rfl⟩ := Prod.mk.inj served
  split at run
  next told =>
    obtain ⟨same, _⟩ := Task.runs_pure.mp run
    exact .inl ⟨told, same⟩
  next =>
    obtain ⟨first, mid, attempted, run⟩ := Task.runs_bind.mp run
    refine .inr ⟨first, mid, attempted, ?_⟩
    cases first with
    | ok outcome =>
      obtain ⟨rfl, rfl⟩ := Task.runs_pure.mp run
      exact .done outcome _
    | error cause =>
      dsimp only at run
      cases retryable : cause.isRetryable with
      | false =>
        simp only [retryable] at run
        obtain ⟨rfl, rfl⟩ := Task.runs_pure.mp run
        exact .final retryable _
      | true =>
        simp only [retryable, Bool.not_true, Bool.or_false, Bool.false_eq_true, if_false] at run
        split at run
        next none =>
          obtain ⟨rfl, rfl⟩ := Task.runs_pure.mp run
          exact .exhausted retryable none _
        next some =>
          obtain ⟨_, _, served, run⟩ := Task.runs_ask_bind.mp run
          obtain ⟨rfl, rfl⟩ := Prod.mk.inj served
          cases told : client.stoppable && mid.world.stopping with
          | true =>
            simp only [told, Bool.not_true, Bool.false_eq_true, if_false] at run
            obtain ⟨rfl, rfl⟩ := Task.runs_pure.mp run
            exact .interrupted retryable _ told
          | false =>
            simp only [told, Bool.not_false, if_true] at run
            exact .again retryable (Nat.pos_of_ne_zero some) run

end Loop

section Failures

variable {start : World K E} {before : Option E} {failures : Nat}

/-- So many attempts have been failed since the start, which has cost stamps and nothing else. -/
structure Failed (client : Client K E) (operation : Operation K E) (start : World K E) (replacing : Bool)
    (failures : Nat) (now : Watched K E) : Prop where
  alike : now.world.Alike (start.passed client failures)
  pending : now.world.store.pending replacing + failures = start.store.pending replacing
  tally : now.tally = operation.spent start.table.rows failures

omit [DecidableEq K] [DecidableEq E] in
theorem failed_none (start : World K E) (replacing : Bool) :
    Failed client operation start replacing 0 ⟨start, {}⟩ where
  alike := .refl start
  pending := rfl
  tally := by simp [Operation.spent]

omit [DecidableEq K] [DecidableEq E] in
theorem Failed.stopping {replacing : Bool}
    (failed : Failed client operation start replacing failures now) :
    now.world.stopping = start.stopping := by
  obtain ⟨clock, passed⟩ := start.passed_eq client failures
  rw [failed.alike.stopping, passed]

theorem Failed.succ {cause : Error} {mid : Watched K E} (changes : client.Changes)
    (writable : operation.Writable family client start before)
    (failed : Failed client operation start before.isSome failures now)
    (failing : 0 < now.world.store.pending before.isSome)
    (run : (operation.attempt family).Runs (serves family client) now (.error cause) mid) :
    Failed client operation start before.isSome (failures + 1) mid := by
  obtain ⟨_, alike, pending, tally⟩ := attempt_failed changes writable failed.alike failing run
  have total := failed.pending
  refine ⟨alike, by omega, ?_⟩
  rw [tally, failed.tally, operation.spend_spent]

theorem attempts_failing (lawful : family.Lawful) (changes : client.Changes)
    (writable : operation.Writable family client start before)
    (untold : (client.stoppable && start.stopping) = false)
    (failed : Failed client operation start before.isSome failures now)
    (run : (Program.attempts kind label false budget (operation.attempt family) left).Runs
      (serves family client) now result last)
    (total : failures + left = budget) (some : 0 < left) :
    (start.store.pending before.isSome < budget ∧ ∃ mid outcome,
      Failed client operation start before.isSome (start.store.pending before.isSome) mid ∧
      (operation.attempt family).Runs (serves family client) mid (.ok outcome) last ∧
      result = .ok outcome) ∨
    budget ≤ start.store.pending before.isSome ∧
      Failed client operation start before.isSome budget last ∧
      result = .error (.update (.exhausted kind label budget)) := by
  induction left generalizing failures now with
  | zero => cases some
  | succ left ih =>
    have pending := failed.pending
    rcases attempts_cases run with ⟨told, _⟩ | ⟨first, mid, attempted, onward⟩
    · rw [failed.stopping, untold] at told
      cases told
    cases coming : now.world.store.pending before.isSome with
    | zero =>
      obtain ⟨⟨outcome, rfl⟩, _⟩ :=
        attempt_made lawful changes writable failed.alike coming attempted
      cases onward
      have all : failures = start.store.pending before.isSome := by omega
      subst all
      exact .inl ⟨by omega, now, outcome, failed, attempted, rfl⟩
    | succ others =>
      have failing : 0 < now.world.store.pending before.isSome := by omega
      obtain ⟨⟨cause, rfl, retryable⟩, _⟩ :=
        attempt_failed changes writable failed.alike failing attempted
      have onto := failed.succ changes writable failing attempted
      cases onward with
      | final kept =>
        rw [retryable] at kept
        cases kept
      | exhausted _ none =>
        have all : failures + 1 = budget := by omega
        subst all
        exact .inr ⟨by omega, onto, rfl⟩
      | interrupted _ _ told =>
        rw [onto.stopping, untold] at told
        cases told
      | again _ some rest => exact ih onto rest (by omega) some

end Failures

section Successes

variable {start : World K E} {before : Option E} {entity : E} {stamp : Int} {outcome : Outcome E}

/-- If an attempt of many succeeds then the draft of every attempt could be committed, since attempts that
fail leave the rows and the locks as they were. -/
theorem accepts_of_attempts (lawful : family.Lawful) (changes : client.Changes)
    (timeless : operation.Timeless family client start.table.rows)
    (distinct : start.table.Distinct family)
    (drafts : operation.Drafts family client start.table.rows stamp before entity)
    (level : now.world.Level start)
    (run : (Program.attempts kind label false budget (operation.attempt family) left).Runs
      (serves family client) now (.ok outcome) last) :
    Accepts family client start before entity := by
  induction left generalizing now with
  | zero => cases (Task.runs_pure.mp run).1
  | succ left ih =>
    rcases attempts_cases run with ⟨_, told⟩ | ⟨first, mid, attempted, onward⟩
    · cases told
    cases onward with
    | done =>
      obtain ⟨twin, drafts, key, unique, version⟩ :=
        drafts.restamp lawful timeless (now.world.nextStamp client)
      have apart : now.world.table.Distinct family := by
        unfold Table.Distinct Table.Unshared
        rw [level.rows]
        exact distinct
      rw [← level.rows] at drafts
      obtain ⟨accepts, _⟩ := accepts_of_attempt lawful changes apart drafts attempted
      exact (accepts.of_level level.symm).congr key.symm unique.symm fun some => (version some).symm
    | again _ _ rest => exact ih ((level_of_attempt_failed attempted).trans level) rest

theorem writable_of_attempts (lawful : family.Lawful) (changes : client.Changes)
    (timeless : operation.Timeless family client now.world.table.rows)
    (distinct : now.world.table.Distinct family)
    (commits : operation.CommitsOn family now.world.table.rows)
    (calm : ∀ replacing, now.world.store.pending replacing = 0)
    (run : (Program.attempts kind label false budget (operation.attempt family) left).Runs
      (serves family client) now (.ok outcome) last) :
    ∃ before, operation.Writable family client now.world before := by
  obtain ⟨before, entity, drafts⟩ := Operation.exists_drafts commits (now.world.nextStamp client)
  have accepts := accepts_of_attempts lawful changes timeless distinct drafts ⟨rfl, rfl, rfl⟩ run
  have keyed : now.world.table.HasKeyFor family entity := by
    cases left with
    | zero => cases (Task.runs_pure.mp run).1
    | succ left =>
      rcases attempts_cases run with ⟨_, told⟩ | ⟨first, mid, attempted, onward⟩
      · cases told
      rcases attempt_cases changes drafts attempted with ⟨poisoned, _⟩ | ⟨counts, committed⟩
      · rw [accepts.reached] at poisoned
        cases poisoned
      obtain ⟨_, ⟨done, rfl⟩ | ⟨_, cause, rfl, final⟩⟩ :=
        guardedCommit_made lawful committed (accepts.of_level ⟨rfl, rfl, rfl⟩) (calm _)
      · exact (accepts_of_guardedCommit lawful committed distinct).2
      · -- for want of a key there would have been no second attempt
        cases onward with
        | again retryable =>
          rw [final] at retryable
          cases retryable
  refine ⟨before, fun other => ?_⟩
  obtain ⟨twin, drafts, key, unique, version⟩ := drafts.restamp lawful timeless other
  refine ⟨twin, drafts, accepts.congr key unique version, fun unkeyed => ?_⟩
  rw [key] at unkeyed
  exact keyed unkeyed

end Successes

section Programs

variable {policy : RetryPolicy} {other next : Watched K E} {outcome : Outcome E}

theorem program_cases (outside : now.world.store.inner.transactions = 0)
    (run : (operation.program family policy).Runs (serves family client) now result last) :
    ∃ first mid, (Program.attempts family.kind (operation.label family) false policy.maxIterations
        (operation.attempt family) policy.maxIterations).Runs (serves family client) now first mid ∧
      ((∃ cause, first = .error cause ∧ result = .error cause ∧ last = mid) ∨
        ∃ outcome, first = .ok outcome ∧ result = .ok outcome ∧
          (announce family outcome).Runs (serves family client) mid () last) := by
  rw [Operation.program_eq] at run
  obtain ⟨first, mid, retried, run⟩ := Task.runs_bind.mp run
  obtain ⟨ambient, begun, served, attempted⟩ := Task.runs_ask_bind.mp retried
  have alone : ambient = false := by
    obtain ⟨rfl, _⟩ := Prod.mk.inj served
    change decide (0 < now.world.store.inner.transactions) = false
    simp [outside]
  have same : begun = now := by
    obtain ⟨_, rfl⟩ := Prod.mk.inj served
    rfl
  subst alone same
  refine ⟨first, mid, attempted, ?_⟩
  match first with
  | .error cause =>
    obtain ⟨rfl, rfl⟩ := Task.runs_pure.mp run
    exact .inl ⟨cause, rfl, rfl, rfl⟩
  | .ok outcome =>
    obtain ⟨_, told, announced, run⟩ := Task.runs_bind.mp run
    obtain ⟨rfl, rfl⟩ := Task.runs_pure.mp run
    exact .inr ⟨outcome, rfl, rfl, announced⟩

theorem first_attempt (outside : now.world.store.inner.transactions = 0)
    (untold : (client.stoppable && now.world.stopping) = false) (some : 0 < policy.maxIterations)
    (run : (operation.program family policy).Runs (serves family client) now result last) :
    ∃ first mid, (operation.attempt family).Runs (serves family client) now first mid ∧
      ∀ outcome, first = .ok outcome →
        result = .ok outcome ∧ (announce family outcome).Runs (serves family client) mid () last := by
  obtain ⟨final, late, attempted, rest⟩ := program_cases outside run
  obtain ⟨left, others⟩ := Nat.exists_eq_succ_of_ne_zero some.ne'
  rw [others] at attempted
  rcases attempts_cases attempted with ⟨told, _⟩ | ⟨first, mid, attempted, onward⟩
  · rw [untold] at told
    cases told
  refine ⟨first, mid, attempted, ?_⟩
  rintro outcome rfl
  cases onward with
  | done =>
    obtain ⟨_, failed, _⟩ | ⟨_, same, succeeded, announced⟩ := rest
    · cases failed
    · obtain rfl := Except.ok.inj same
      exact ⟨succeeded, announced⟩

omit [DecidableEq K] [DecidableEq E] in
theorem announce_spreads :
    (announce family outcome).Follows (fun _ (request : Call K E) _ _ => request.spreads = true)
      (fun _ _ => True) () := by
  unfold announce
  split
  · exact fun _ => ⟨(), rfl, fun _ => ⟨(), rfl, trivial⟩⟩
  · trivial

omit [DecidableEq K] in
theorem announce_alike (alike : now.world.Alike other.world)
    (run : (announce family outcome).Runs (serves family client) now () next)
    (run' : (announce family outcome).Runs (serves family client) other () last) :
    next.world.Alike last.world := by
  have admitted : ∀ {request : Call K E} {store : FaultyStore K E}, request.spreads = true →
      request.admitted store = true := by
    intro request store spreads
    cases request with
    | cache | post => rfl
    | _ => cases spreads
  have agree := run.agree run' (fun request => request.spreads = true) announce_spreads
    (fun one other => one.world.Alike other.world) alike ?_
  · exact agree.2
  · intro request state answer after state' answer' after' spreads alike served served'
    exact alike_of_serves alike (admitted spreads) (admitted spreads) served served'

omit [DecidableEq K] in
theorem announce_table (run : (announce family outcome).Runs (serves family client) now () next) :
    next.world.table = now.world.table := by
  have kept : ∀ {request : Call K E} {mid after : Watched K E} {answer : request.Answer},
      mid.world.table = now.world.table → serves family client request mid answer after →
      request.spreads = true → after.world.table = now.world.table := by
    intro request mid after answer same served spreads
    have effect := World.serve_effect (world_of_serves served)
    cases request with
    | cache | post => exact effect.trans same
    | _ => cases spreads
  obtain ⟨_, same, _⟩ := run.follows (fun mid _ => mid.world.table = now.world.table) rfl
    announce_spreads kept
  exact same

omit [DecidableEq K] in
theorem announce_tally (run : (announce family outcome).Runs (serves family client) now () next) :
    next.tally = now.tally := by
  have uncounted : ∀ {request : Call K E} {store : FaultyStore K E} {tally : Tally},
      request.spreads = true → tally.count store request = tally := by
    intro request store tally spreads
    cases request with
    | cache | post => rfl
    | _ => cases spreads
  obtain ⟨_, same, _⟩ := run.follows (fun mid _ => mid.tally = now.tally) rfl announce_spreads
    fun same served spreads => (tally_of_serves served).trans ((uncounted spreads).trans same)
  exact same

end Programs

section Transparency

variable {policy : RetryPolicy} {world : World K E} {failures : Nat}

/-- A write outside transactions, by someone who is not told to stop, that comes to a commit and would
succeed if the store failed none. -/
structure Operation.Promising (family : Family K E) (client : Client K E) (policy : RetryPolicy)
    (world : World K E) (operation : Operation K E) : Prop where
  outside : world.store.inner.transactions = 0
  untold : (client.stoppable && world.stopping) = false
  commits : operation.CommitsOn family world.table.rows
  succeeds : ∃ outcome,
    ((World.run family client (operation.program family policy)).run world.faultless).1 = .ok outcome

/-- Two runs at two stamps that succeed and come to the same but for the stamps. -/
structure Restamped (family : Family K E) (stamp other : Int) (ended ended' : Except Error (Outcome E))
    (world world' : World K E) : Prop where
  results : ∃ outcome outcome', ended = .ok outcome ∧ ended' = .ok outcome' ∧
    outcome.Restamped family stamp other outcome'
  rows : world.table.Remarked family (.ofMicros stamp) (.ofMicros other) world'.table

/-- A run comes to what a run without failures comes to when as many stamps have been drawn, with one more
attempt than there are failures and one write. If it makes no difference which of the stamps is drawn, it
comes to what a run without failures comes to at once, but for the stamp. -/
structure Unnoticed (family : Family K E) (client : Client K E) (policy : RetryPolicy)
    (operation : Operation K E) (world : World K E) (failures : Nat) (ended : Except Error (Outcome E))
    (last : Watched K E) : Prop where
  succeeded : ∃ outcome, ended = .ok outcome
  result : ended = ((World.run family client (operation.program family policy)).run
    (world.passed client failures).faultless).1
  alike : last.world.Alike ((World.run family client (operation.program family policy)).run
    (world.passed client failures).faultless).2
  mutations : last.tally.mutations = (failures + 1) * operation.mutations
  creations : last.tally.creations = (failures + 1) * operation.creations world.table.rows
  writes : last.tally.writes = 1
  restamped : operation.Indifferent family client world.table (world.nextStamp client)
      ((world.passed client failures).nextStamp client) →
    let straight := (World.run family client (operation.program family policy)).run world.faultless
    Restamped family (world.nextStamp client) ((world.passed client failures).nextStamp client)
      straight.1 ended straight.2 last.world

/-- A run is given up when its budget is used up, having drawn stamps and changed nothing. -/
structure GivenUp (family : Family K E) (client : Client K E) (policy : RetryPolicy)
    (operation : Operation K E) (world : World K E) (failures : Nat) (ended : Except Error (Outcome E))
    (last : Watched K E) : Prop where
  result : ended = .error (.update (.exhausted family.kind (operation.label family)
    policy.maxIterations))
  alike : last.world.Alike (world.passed client policy.maxIterations)
  pending : last.world.store.pending (operation.replaces world.table.rows) =
    failures - policy.maxIterations
  mutations : last.tally.mutations = policy.maxIterations * operation.mutations
  creations : last.tally.creations = policy.maxIterations * operation.creations world.table.rows
  writes : last.tally.writes = 0

omit [DecidableEq K] [DecidableEq E] in
theorem calm_faultless (world : World K E) (replacing : Bool) :
    world.faultless.store.pending replacing = 0 := by
  cases replacing <;> rfl

theorem Operation.Promising.writable (lawful : family.Lawful) (changes : client.Changes)
    (timeless : operation.Timeless family client world.table.rows)
    (distinct : world.table.Distinct family)
    (promising : operation.Promising family client policy world) :
    ∃ before, operation.replaces world.table.rows = before.isSome ∧ 0 < policy.maxIterations ∧
      operation.Writable family client world before := by
  obtain ⟨outside, _, commits, outcome, succeeded⟩ := promising
  have run := @runs_watch _ _ _ _ family client _ (operation.program family policy) world.faultless
  rw [watch_run] at succeeded
  rw [succeeded] at run
  obtain ⟨first, mid, attempted, ⟨cause, _, failed, _⟩ | ⟨_, rfl, _⟩⟩ :=
    program_cases outside run
  · cases failed
  obtain ⟨before, writable⟩ := writable_of_attempts lawful changes timeless distinct commits
    (calm_faultless world) attempted
  refine ⟨before, ?_, ?_, fun stamp => ?_⟩
  · obtain ⟨entity, drafts, _⟩ := writable 0
    exact drafts.replaces_eq
  · apply Nat.pos_of_ne_zero
    intro none
    rw [none] at attempted
    cases (Task.runs_pure.mp attempted).1
  · obtain ⟨entity, drafts, accepts, keyed⟩ := writable stamp
    exact ⟨entity, drafts, accepts.of_level ⟨rfl, rfl, rfl⟩, keyed⟩

/-- Where none is failed the first attempt is the last, however many stamps have been drawn. -/
theorem Operation.Promising.straight {before : Option E}
    (promising : operation.Promising family client policy world) (lawful : family.Lawful)
    (changes : client.Changes) (some : 0 < policy.maxIterations)
    (writable : operation.Writable family client world before) (stamps : Nat) :
    let ended := watch family client (operation.program family policy)
      (world.passed client stamps).faultless
    ∃ outcome mid, (operation.attempt family).Runs (serves family client)
        ⟨(world.passed client stamps).faultless, {}⟩ (.ok outcome) mid ∧
      ended.1 = .ok outcome ∧ (announce family outcome).Runs (serves family client) mid () ended.2 := by
  obtain ⟨clock, passed⟩ := world.passed_eq client stamps
  have outside : (world.passed client stamps).faultless.store.inner.transactions = 0 := by
    rw [passed]
    exact promising.outside
  have untold : (client.stoppable && (world.passed client stamps).faultless.stopping) = false := by
    rw [passed]
    exact promising.untold
  have run := @runs_watch _ _ _ _ family client _ (operation.program family policy)
    (world.passed client stamps).faultless
  obtain ⟨first, mid, attempted, onward⟩ := first_attempt outside untold some run
  have begun : (world.passed client stamps).faultless.Alike (world.passed client stamps) :=
    ⟨⟨rfl, rfl, rfl⟩, rfl, rfl, rfl, rfl, rfl, rfl⟩
  obtain ⟨⟨outcome, rfl⟩, _⟩ :=
    attempt_made lawful changes writable begun (calm_faultless _ _) attempted
  exact ⟨outcome, mid, attempted, onward outcome rfl⟩

theorem restamped_of_made {before : Option E} {late mid : Watched K E} {outcome : Outcome E}
    (lawful : family.Lawful) (changes : client.Changes)
    (promising : operation.Promising family client policy world)
    (some : 0 < policy.maxIterations) (writable : operation.Writable family client world before)
    (failed : Failed client operation world before.isSome failures late)
    (indifferent : operation.Indifferent family client world.table (world.nextStamp client)
      ((world.passed client failures).nextStamp client))
    (made : (operation.attempt family).Runs (serves family client) late (.ok outcome) mid)
    (announced : (announce family outcome).Runs (serves family client) mid () last) :
    let straight := (World.run family client (operation.program family policy)).run world.faultless
    Restamped family (world.nextStamp client) ((world.passed client failures).nextStamp client)
      straight.1 (.ok outcome) straight.2 last.world := by
  obtain ⟨straight, next, attempted, succeeded, announced'⟩ :=
    promising.straight lawful changes some writable 0
  have stamp : (world.passed client failures).nextStamp client = late.world.nextStamp client := by
    unfold World.nextStamp
    rw [failed.alike.clock]
  have tables : late.world.table = world.faultless.table := by
    obtain ⟨clock, passed⟩ := world.passed_eq client failures
    have alike := failed.alike
    rw [passed] at alike
    exact alike.inner.table
  rw [stamp] at indifferent ⊢
  obtain ⟨results, rows⟩ :=
    attempt_restamped lawful changes promising.commits attempted made tables indifferent
  rw [← announce_table announced, ← announce_table announced'] at rows
  rw [watch_run]
  exact ⟨⟨straight, outcome, succeeded, rfl, results⟩, rows⟩

theorem unnoticed_of_made {before : Option E} {late mid : Watched K E} {outcome : Outcome E}
    (lawful : family.Lawful) (changes : client.Changes)
    (promising : operation.Promising family client policy world)
    (some : 0 < policy.maxIterations) (writable : operation.Writable family client world before)
    (failed : Failed client operation world before.isSome (world.store.pending before.isSome) late)
    (made : (operation.attempt family).Runs (serves family client) late (.ok outcome) mid)
    (announced : (announce family outcome).Runs (serves family client) mid () last) :
    Unnoticed family client policy operation world (world.store.pending before.isSome) (.ok outcome)
      last := by
  have calm : late.world.store.pending before.isSome = 0 := by
    have total := failed.pending
    omega
  have level := failed.alike.level.trans (world.level_passed client _)
  obtain ⟨entity, drafts, accepts, _⟩ := writable (late.world.nextStamp client)
  rw [← level.rows] at drafts
  obtain ⟨straight, mid', attempted, succeeded, announced'⟩ :=
    promising.straight lawful changes some writable (world.store.pending before.isSome)
  obtain ⟨same, alike⟩ := attempt_alike changes drafts (level.poisoned.trans accepts.reached)
    (failed.alike.trans (World.alike_faultless _)) calm (calm_faultless _ _) made attempted
  obtain rfl := Except.ok.inj same
  obtain ⟨_, counted⟩ := attempt_made lawful changes writable failed.alike calm made
  have tally : last.tally = { operation.spent world.table.rows
      (world.store.pending before.isSome + 1) with writes := 1 } := by
    rw [announce_tally announced, counted, failed.tally, operation.spend_spent]
    rfl
  constructor
  case succeeded => exact ⟨outcome, rfl⟩
  case result =>
    rw [watch_run]
    exact succeeded.symm
  case alike =>
    rw [watch_run]
    exact announce_alike alike announced announced'
  case mutations => rw [tally]; rfl
  case creations => rw [tally]; rfl
  case writes => rw [tally]
  case restamped =>
    intro indifferent
    exact restamped_of_made lawful changes promising some writable failed indifferent made announced

omit [DecidableEq K] [DecidableEq E] in
theorem givenUp_of_failed (family : Family K E) {before : Option E}
    (replaces : operation.replaces world.table.rows = before.isSome)
    (failed : Failed client operation world before.isSome policy.maxIterations last) :
    GivenUp family client policy operation world (world.store.pending before.isSome)
      (.error (.update (.exhausted family.kind (operation.label family) policy.maxIterations))) last where
  result := rfl
  alike := failed.alike
  pending := by
    have total := failed.pending
    rw [replaces]
    omega
  mutations := by rw [failed.tally]; rfl
  creations := by rw [failed.tally]; rfl
  writes := by rw [failed.tally]; rfl

/-- Failures that a budget covers go unnoticed, and a write that meets with more of them is given up
without a trace. -/
theorem retries_transparent (lawful : family.Lawful) (changes : client.Changes)
    (timeless : operation.Timeless family client world.table.rows)
    (distinct : world.table.Distinct family)
    (promising : operation.Promising family client policy world) :
    let failures := world.store.pending (operation.replaces world.table.rows)
    let ended := watch family client (operation.program family policy) world
    (failures < policy.maxIterations →
      Unnoticed family client policy operation world failures ended.1 ended.2) ∧
    (policy.maxIterations ≤ failures →
      GivenUp family client policy operation world failures ended.1 ended.2) := by
  intro failures ended
  obtain ⟨before, replaces, some, writable⟩ := promising.writable lawful changes timeless distinct
  have run := @runs_watch _ _ _ _ family client _ (operation.program family policy) world
  obtain ⟨first, mid, attempted, rest⟩ := program_cases promising.outside run
  rcases attempts_failing lawful changes writable promising.untold (failed_none world before.isSome)
    attempted (Nat.zero_add _) some with
    ⟨within, late, outcome, failed, made, rfl⟩ | ⟨beyond, failed, rfl⟩
  · obtain ⟨_, same, _⟩ | ⟨_, same, succeeded, announced⟩ := rest
    · cases same
    obtain rfl := Except.ok.inj same
    have unnoticed := unnoticed_of_made lawful changes promising some writable failed made announced
    rw [← replaces, ← succeeded] at unnoticed
    refine ⟨fun _ => unnoticed, fun beyond => ?_⟩
    rw [← replaces] at within
    exact absurd beyond (Nat.not_le.mpr within)
  · obtain ⟨_, same, gaveUp, ended⟩ | ⟨_, same, _⟩ := rest
    · obtain rfl := Except.error.inj same
      rw [← ended] at failed
      have givenUp := givenUp_of_failed family replaces failed
      rw [← replaces, ← gaveUp] at givenUp
      refine ⟨fun within => ?_, fun _ => givenUp⟩
      rw [← replaces] at beyond
      exact absurd within (Nat.not_lt.mpr beyond)
    · cases same

end Transparency

section Deposits

def depositor : Client Int64 Account where
  reading drawn := drawn
  mutate account := ({ account with balance := account.balance + 5 }, .changed)
  create _ := .fresh "cy" 0

def payee : Account := { Account.fresh "ann" 10 with id := some 1, version := 1 }

/-- Ann has an account, and others come first twice to change accounts and once to open one. -/
def unlucky : World Int64 Account where
  store := {
    inner := { table := { rows := SortedMap.empty.insert 1 payee } }
    mergeFaults := 2
    insertFaults := 1 }

theorem unlucky_rows {key : Int64} {row : Account} (found : unlucky.table.rows.get? key = some row) :
    key = 1 ∧ row = payee := by
  change (SortedMap.empty.insert 1 payee).get? key = some row at found
  rw [SortedMap.get?_insert] at found
  split at found
  next same => exact ⟨same, (Option.some.inj found).symm⟩
  next => cases found

theorem distinct_unlucky : unlucky.table.Distinct Account.family := by
  intro key row found other held foundToo _ _ _
  rw [(unlucky_rows found).1, (unlucky_rows foundToo).1]

theorem depositor_timeless (operation : Operation Int64 Account) :
    operation.Timeless Account.family depositor unlucky.table.rows where
  key _ _ _ _ _ := rfl
  unique _ _ _ _ _ := rfl

theorem depositor_indifferent (operation : Operation Int64 Account) {stamp other : Int} :
    operation.Indifferent Account.family depositor unlucky.table stamp other where
  kept key current _ found := by
    have raised : ∀ moment,
        ¬ unlucky.table.Stores Account.family
          (Account.family.markUpdated moment (depositor.mutate current).1) := by
      rintro moment ⟨_, _, there⟩
      have balances := congrArg Account.balance (unlucky_rows there).2
      rw [(unlucky_rows found).2] at balances
      cases balances
    exact iff_of_false (raised _) (raised _)
  made key _ _ := .created (.same { Account.fresh "cy" 5 with id := some key })

def tried (client : Client Int64 Account) (budget : Nat) (operation : Operation Int64 Account)
    (world : World Int64 Account) : Except Error (Outcome Account) × Watched Int64 Account :=
  watch Account.family client (operation.program Account.family { maxIterations := budget }) world

/-- A deposit on Ann's account succeeds at the third attempt, or not at all if it may try but twice; a new
account has its first deposit at the second attempt, and is the one that the first would have made but for
its marks. -/
theorem retries_transparent_deposits :
    Unnoticed Account.family depositor { maxIterations := 3 } (.update 1) unlucky 2
        (tried depositor 3 (.update 1) unlucky).1 (tried depositor 3 (.update 1) unlucky).2 ∧
      GivenUp Account.family depositor { maxIterations := 2 } (.update 1) unlucky 2
        (tried depositor 2 (.update 1) unlucky).1 (tried depositor 2 (.update 1) unlucky).2 ∧
      Unnoticed Account.family depositor { maxIterations := 2 } (.updateOrCreate 2) unlucky 1
        (tried depositor 2 (.updateOrCreate 2) unlucky).1
        (tried depositor 2 (.updateOrCreate 2) unlucky).2 ∧
      ∀ key account twin,
        (tried depositor 2 (.updateOrCreate 2) unlucky.faultless).2.world.table.rows.get? key =
          some account →
        (tried depositor 2 (.updateOrCreate 2) unlucky).2.world.table.rows.get? key = some twin →
        twin = { account with createdAt := twin.createdAt, updatedAt := twin.updatedAt } := by
  have raised : ∀ budget ∈ [2, 3], ((World.run Account.family depositor
      ((Operation.update 1).program Account.family { maxIterations := budget })).run
      unlucky.faultless).1 = .ok (.ofUpdate "account" payee
        { payee with balance := 15, version := 2, updatedAt := some (.ofMicros 1) } 1) := by
    decide +kernel
  have opened : ((World.run Account.family depositor
      ((Operation.updateOrCreate 2).program Account.family { maxIterations := 2 })).run
      unlucky.faultless).1 = .ok (.ofInsert "account" { Account.fresh "cy" 5 with
        id := some 2, version := 1, createdAt := some (.ofMicros 1), updatedAt := some (.ofMicros 1) }
        1) := by
    decide +kernel
  have promising : (Operation.updateOrCreate 2).Promising Account.family depositor
      { maxIterations := 2 } unlucky := ⟨rfl, rfl, trivial, _, opened⟩
  have made := (retries_transparent Account.family_lawful (fun _ => rfl) (depositor_timeless _)
    distinct_unlucky promising).1 (by decide +kernel)
  refine ⟨?_, ?_, made, fun key account twin found found' => ?_⟩
  · refine (retries_transparent Account.family_lawful (fun _ => rfl) (depositor_timeless _)
      distinct_unlucky ?_).1 ?_
    · exact ⟨rfl, rfl, rfl, _, raised 3 (by simp)⟩
    · decide +kernel
  · refine (retries_transparent Account.family_lawful (fun _ => rfl) (depositor_timeless _)
      distinct_unlucky ?_).2 ?_
    · exact ⟨rfl, rfl, rfl, _, raised 2 (by simp)⟩
    · decide +kernel
  · have rows := (made.restamped (depositor_indifferent _)).rows key
    unfold tried at found found'
    rw [watch_run] at rows
    dsimp only at rows
    rw [found, found'] at rows
    cases rows with
    | some alike => exact Account.eq_of_remarked alike

/-- Edits nothing, but would have everything written. -/
def toucher : Client Int64 Account where
  reading drawn := drawn
  mutate account := (account, .changed)
  create _ := .fresh "cy" 0

def dater : Client Int64 Account :=
  { toucher with
    mutate := fun account =>
      ({ account with email := (account.createdAt.map Timestamp.text).getD account.email }, .changed) }

/-- Ann's account bears the stamp that is going to be drawn second. -/
def premature : Account :=
  { payee with email := (Timestamp.ofMicros 2).text, updatedAt := some (.ofMicros 2) }

def beset : World Int64 Account where
  store := {
    inner := { table := { rows := SortedMap.empty.insert 1 premature } }
    mergeFaults := 1
    insertFaults := 1 }

/-- That a first attempt was failed may show: a row is left alone that bears the second stamp already, and a
record that is made after its stamp is another one, or cannot be inserted. What is inserted in the place of a
row comes to no commit, and is not given up though there are as many failures to come as attempts. -/
theorem retries_show :
    (toucher.Changes ∧ dater.Changes) ∧
    ((tried toucher 2 (.update 1) beset.faultless).1 = .ok (.ofUpdate "account" premature
        { premature with version := 2, updatedAt := some (.ofMicros 1) } 1) ∧
      (tried toucher 2 (.update 1) beset).1 = .ok (.ofUnchanged "account" premature 2)) ∧
    ((tried dater 2 (.updateOrCreate 2) unlucky.faultless).1.toOption.bind (·.after.map Account.email) =
        some (Timestamp.ofMicros 1).text ∧
      (tried dater 2 (.updateOrCreate 2) unlucky).1.toOption.bind (·.after.map Account.email) =
        some (Timestamp.ofMicros 2).text) ∧
    ((tried dater 2 (.updateOrCreate 2) beset.faultless).1.isOk = true ∧
      (tried dater 2 (.updateOrCreate 2) beset).1 =
        .error (.store (.uniqueViolation "account" "email" false))) ∧
    ((tried toucher 1 (.insert premature) beset.faultless).1 = .ok (.ofUnchanged "account" premature 1) ∧
      (tried toucher 1 (.insert premature) beset).1 = .ok (.ofUnchanged "account" premature 1) ∧
      (tried toucher 1 (.insert premature) beset).2.world.store.pending false = 1) := by
  refine ⟨⟨fun _ => rfl, fun _ => rfl⟩, ⟨?_, ?_⟩, ⟨?_, ?_⟩, ⟨?_, ?_⟩, ?_, ?_, ?_⟩ <;> decide +kernel

end Deposits

end OptimisticStore.Write
