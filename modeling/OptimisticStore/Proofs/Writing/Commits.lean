import OptimisticStore.Proofs.Watching
import OptimisticStore.Proofs.Writing.Unreported
/-!
Commits by a client alone, whether the store fails them or not.

Whether a draft of a record can be committed goes by its key, its version and its unique values. Main
statements: `guardedCommit_made` and `guardedCommit_failed`, by which a draft that can be committed is,
unless the store fails the commit, which is worth another attempt, and `accepts_of_guardedCommit`.
-/
namespace OptimisticStore

variable {K E : Type} [Key K]

def Call.claiming : Call K E → Bool
  | .lock _ | .unlock _ | .store (.findUnique _) => true
  | _ => false

def Call.commitsOnly (replacing : Bool) : Call K E → Bool
  | .store (.insert _) => !replacing
  | .store (.merge _) => replacing
  | _ => true

theorem Call.admitted_of_calm {store : FaultyStore K E} {replacing : Bool} {call : Call K E}
    (commits : call.commitsOnly replacing = true) (calm : store.pending replacing = 0) :
    call.admitted store = true := by
  cases call with
  | store call =>
    cases call with
    | insert entity =>
      obtain rfl : replacing = false := by simpa [commitsOnly] using commits
      simp [admitted, calm]
    | merge entity =>
      obtain rfl : replacing = true := commits
      simp [admitted, calm]
    | _ => rfl
  | _ => rfl

namespace Watched

def Stays (start now : Watched K E) : Prop :=
  ∃ locks counts, now = ⟨{ start.world.recounted counts with locks }, start.tally⟩

section Claiming

variable [DecidableEq E] {family : Family K E} {client : Client K E}
  {start now next other last : Watched K E} {call : Call K E} {answer answer' : call.Answer}

theorem Stays.of_serves (stays : start.Stays now) (claims : call.claiming = true)
    (served : serves family client call now answer next) : start.Stays next := by
  obtain ⟨locks, counts, rfl⟩ := stays
  cases call with
  | lock names =>
    obtain ⟨_, rfl⟩ := Prod.mk.inj served
    exact ⟨_, counts, rfl⟩
  | unlock guard =>
    obtain ⟨_, rfl⟩ := Prod.mk.inj served
    exact ⟨_, counts, rfl⟩
  | store call =>
    cases call with
    | findUnique field =>
      obtain ⟨later, read⟩ := World.serve_read (world_of_serves served) rfl
      have same : next.tally = start.tally := tally_of_serves served
      obtain ⟨world, tally⟩ := next
      obtain rfl := read
      obtain rfl := same
      exact ⟨locks, later, rfl⟩
    | _ => cases claims
  | _ => cases claims

theorem level_of_serves (level : now.world.Level other.world) (claims : call.claiming = true)
    (served : serves family client call now answer next)
    (served' : serves family client call other answer' last) :
    answer = answer' ∧ next.world.Level last.world := by
  obtain ⟨rows, locked, poisoned⟩ := level
  cases call with
  | lock names =>
    obtain ⟨rfl, rfl⟩ := Prod.mk.inj served
    obtain ⟨rfl, rfl⟩ := Prod.mk.inj served'
    exact ⟨by rw [locked], rows, by rw [locked], poisoned⟩
  | unlock guard =>
    obtain ⟨_, rfl⟩ := Prod.mk.inj served
    obtain ⟨_, rfl⟩ := Prod.mk.inj served'
    exact ⟨rfl, rows, by rw [locked], poisoned⟩
  | store call =>
    cases call with
    | findUnique field =>
      obtain ⟨_, read⟩ := World.serve_read (world_of_serves served) rfl
      obtain ⟨_, read'⟩ := World.serve_read (world_of_serves served') rfl
      rw [read, read']
      refine ⟨?_, rows, locked, poisoned⟩
      have same : now.world.table.findUnique family field =
          other.world.table.findUnique family field := by
        unfold Table.findUnique
        rw [rows]
      have first : answer = _ := (Prod.mk.inj served).1.symm.trans
        (now.world.store.inner.answer_findUnique field)
      have second : answer' = _ := (Prod.mk.inj served').1.symm.trans
        (other.world.store.inner.answer_findUnique field)
      rw [first, second, poisoned, same]
    | _ => cases claims
  | _ => cases claims

end Claiming

end Watched

namespace Write

open Watched

variable [DecidableEq K] [DecidableEq E] {family : Family K E} {client : Client K E}
  {now next other last : Watched K E} {before : Option E} {entity : E} {stamp : Int}

section Claims

omit [DecidableEq E] in
theorem check_claims {own : Option K} {fields : List UniqueField} :
    (Uniqueness.check family own fields).Follows
      (fun _ (request : Call K E) _ _ => request.claiming = true) (fun _ _ => True) () := by
  induction fields with
  | nil => trivial
  | cons field rest ih =>
    refine Task.follows_ask_bind.mpr fun answer => ⟨(), rfl, ?_⟩
    match answer with
    | .error cause => trivial
    | .ok none => exact ih
    | .ok (some owner) =>
      dsimp only
      split
      · exact ih
      · trivial

omit [DecidableEq E] in
theorem acquire_claims :
    (Uniqueness.acquire family before entity).Follows
      (fun _ (request : Call K E) _ _ => request.claiming = true) (fun _ _ => True) () := by
  unfold Uniqueness.acquire
  dsimp only
  split
  · trivial
  · refine Task.follows_ask_bind.mpr fun answer => ⟨(), rfl, ?_⟩
    match answer with
    | .error cause => trivial
    | .ok guard =>
      refine Task.follows_bind.mpr (check_claims.mono ?_)
      intro _ verdict _
      match verdict with
      | .ok () => trivial
      | .error cause => exact Task.follows_ask_bind.mpr fun answer => ⟨(), rfl, trivial⟩

theorem stays_of_acquire {verdict : Except Error LockGuard}
    (run : (Uniqueness.acquire family before entity).Runs (serves family client) now verdict next) :
    now.Stays next := by
  obtain ⟨_, stays, _⟩ := run.follows (fun mid _ => now.Stays mid) ⟨_, _, rfl⟩ acquire_claims
    fun stays served claims => stays.of_serves claims served
  exact stays

/-- Whether values can be claimed goes by the rows and the locks. -/
theorem verdict_of_level {verdict verdict' : Except Error LockGuard}
    (level : now.world.Level other.world)
    (run : (Uniqueness.acquire family before entity).Runs (serves family client) now verdict next)
    (run' : (Uniqueness.acquire family before entity).Runs (serves family client) other verdict' last) :
    verdict = verdict' := by
  have agree := run.agree run' (fun request => request.claiming = true) acquire_claims
    (fun one other => one.world.Level other.world) level
    fun claims level served served' => level_of_serves level claims served served'
  exact agree.1

end Claims

section Commits

/-- A draft can be committed here: its values can be claimed, the rows are in reach, and it fits them. -/
structure Accepts (family : Family K E) (client : Client K E) (world : World K E) (before : Option E)
    (entity : E) : Prop where
  -- in which of the worlds that are level does not matter, by `verdict_of_level`
  claimed : ∃ now guard next, now.world.Level world ∧
    (Uniqueness.acquire family before entity).Runs (serves family client) now (.ok guard) next
  reached : world.store.inner.poisoned = false
  fits : world.table.Fits family before entity

theorem Accepts.of_level {world level : World K E} (accepts : Accepts family client world before entity)
    (same : level.Level world) : Accepts family client level before entity := by
  obtain ⟨⟨now, guard, next, near, run⟩, reached, fits⟩ := accepts
  refine ⟨⟨now, guard, next, near.trans same.symm, run⟩, same.poisoned.trans reached, ?_⟩
  exact fits.congr same.rows rfl rfl fun _ => rfl

omit [DecidableEq E] in
theorem acquire_congr {twin : E} (key : family.key twin = family.key entity)
    (unique : family.uniqueFields twin = family.uniqueFields entity) :
    Uniqueness.acquire family before twin = Uniqueness.acquire family before entity := by
  have claims : Uniqueness.claimed family before twin = Uniqueness.claimed family before entity := by
    unfold Uniqueness.claimed
    rw [unique]
  unfold Uniqueness.acquire
  rw [claims, key]

theorem Accepts.congr {world : World K E} {twin : E}
    (accepts : Accepts family client world before entity) (key : family.key twin = family.key entity)
    (unique : family.uniqueFields twin = family.uniqueFields entity)
    (version : before.isSome → family.version twin = family.version entity) :
    Accepts family client world before twin := by
  obtain ⟨claimed, reached, fits⟩ := accepts
  rw [← acquire_congr key unique] at claimed
  exact ⟨claimed, reached, fits.congr rfl key unique version⟩

theorem guardedCommit_cases {result : Except Error (Outcome E)}
    (run : (guardedCommit family before entity stamp).Runs (serves family client) now result last) :
    (∃ cause, (Uniqueness.acquire family before entity).Runs (serves family client) now (.error cause)
      last ∧ result = .error cause) ∨
    ∃ guard mid late, (Uniqueness.acquire family before entity).Runs (serves family client) now
        (.ok guard) mid ∧
      (commit family before entity stamp).Runs (serves family client) mid result late ∧
      last = ⟨{ late.world with locks := late.world.locks.release guard }, late.tally⟩ := by
  unfold guardedCommit at run
  obtain ⟨verdict, mid, claimed, run⟩ := Task.runs_bind.mp run
  match verdict with
  | .error cause =>
    obtain ⟨rfl, rfl⟩ := Task.runs_pure.mp run
    exact .inl ⟨cause, claimed, rfl⟩
  | .ok guard =>
    obtain ⟨first, late, committed, run⟩ := Task.runs_bind.mp run
    obtain ⟨_, freed, served, run⟩ := Task.runs_ask_bind.mp run
    obtain ⟨rfl, rfl⟩ := Task.runs_pure.mp run
    obtain ⟨_, rfl⟩ := Prod.mk.inj served
    exact .inr ⟨guard, mid, late, claimed, committed, rfl⟩

omit [DecidableEq K] in
theorem commit_failed {result : Except Error (Outcome E)}
    (run : (commit family before entity stamp).Runs (serves family client) now result last)
    (failing : 0 < now.world.store.pending before.isSome) :
    ∃ cause, result = .error (.store cause) ∧ cause.isRetryable = true ∧
      last = ⟨{ now.world with store := now.world.store.failOnce before.isSome }, now.tally⟩ := by
  cases before with
  | none =>
    obtain ⟨answer, written, served, rest⟩ := Task.runs_ask_bind.mp run
    have refused : now.world.store.admits (.insert entity) = false := by
      simpa [Nat.pos_iff_ne_zero] using failing
    obtain ⟨answered, rfl⟩ := served_refused served refused
    rw [FaultyStore.serve_insert_failing failing] at answered rest
    subst answered
    obtain ⟨rfl, rfl⟩ := Task.runs_pure.mp rest
    exact ⟨_, rfl, rfl, rfl⟩
  | some held =>
    obtain ⟨answer, written, served, rest⟩ := Task.runs_ask_bind.mp run
    have refused : now.world.store.admits (.merge entity) = false := by
      simpa [Nat.pos_iff_ne_zero] using failing
    obtain ⟨answered, rfl⟩ := served_refused served refused
    rw [FaultyStore.serve_merge_failing failing] at answered rest
    subst answered
    obtain ⟨rfl, rfl⟩ := Task.runs_pure.mp rest
    exact ⟨_, rfl, rfl, rfl⟩

omit [DecidableEq K] in
theorem commit_made (lawful : family.Lawful) {result : Except Error (Outcome E)}
    (run : (commit family before entity stamp).Runs (serves family client) now result last)
    (fits : now.world.table.Fits family before entity)
    (reached : now.world.store.inner.poisoned = false)
    (calm : now.world.store.pending before.isSome = 0) :
    last.tally = { now.tally with writes := now.tally.writes + 1 } ∧
      ((∃ outcome, result = .ok outcome) ∨
        ¬ now.world.table.HasKeyFor family entity ∧
          ∃ cause, result = .error (.store cause) ∧ cause.isRetryable = false) := by
  cases before with
  | none =>
    obtain ⟨answer, written, served, rest⟩ := Task.runs_ask_bind.mp run
    have inserts := Watched.answer_insert reached calm served
    have counted := tally_of_write served rfl (by simpa using calm)
    cases answer with
    | ok row =>
      obtain ⟨rfl, rfl⟩ := Task.runs_pure.mp rest
      exact ⟨counted, .inl ⟨_, rfl⟩⟩
    | error cause =>
      obtain ⟨rfl, rfl⟩ := Task.runs_pure.mp rest
      refine ⟨counted, .inr ?_⟩
      rcases Table.insert_of_fits lawful fits with
        ⟨row, after, done⟩ | ⟨keyless, reason, after, final, failed⟩
      · rw [done] at inserts
        cases inserts
      · rw [failed] at inserts
        obtain rfl := Except.error.inj inserts
        exact ⟨keyless, _, rfl, final⟩
  | some held =>
    obtain ⟨answer, written, served, rest⟩ := Task.runs_ask_bind.mp run
    have merges := answer_merge reached calm served
    have counted := tally_of_write served rfl (by simpa using calm)
    obtain ⟨merged, after, done⟩ := Table.merge_of_fits fits
    rw [done] at merges
    subst merges
    dsimp only at rest
    split at rest
    next =>
      obtain ⟨rfl, rfl⟩ := Task.runs_pure.mp rest
      exact ⟨counted, .inl ⟨_, rfl⟩⟩
    next =>
      obtain ⟨rfl, rfl⟩ := Task.runs_pure.mp rest
      exact ⟨counted, .inl ⟨_, rfl⟩⟩

omit [DecidableEq K] in
theorem fits_of_commit (lawful : family.Lawful) {outcome : Outcome E}
    (run : (commit family before entity stamp).Runs (serves family client) now (.ok outcome) last)
    (distinct : now.world.table.Distinct family) :
    now.world.store.inner.poisoned = false ∧ now.world.table.Fits family before entity ∧
      now.world.table.HasKeyFor family entity := by
  cases before with
  | none =>
    obtain ⟨answer, written, served, rest⟩ := Task.runs_ask_bind.mp run
    match answer with
    | .ok row =>
      exact ⟨FaultyStore.reached_of_insert (served_store served).1.symm,
        Table.fits_of_insert lawful (World.serve_insert (world_of_serves served))⟩
    | .error cause => cases (Task.runs_pure.mp rest).1
  | some held =>
    obtain ⟨answer, written, served, rest⟩ := Task.runs_ask_bind.mp run
    match answer with
    | .ok merged =>
      have fits : now.world.table.Fits family (some held) entity :=
        Table.fits_of_merge distinct (World.serve_merge (world_of_serves served))
      exact ⟨FaultyStore.reached_of_merge (served_store served).1.symm, fits, fits.hasKeyFor⟩
    | .error cause => cases (Task.runs_pure.mp rest).1

/-- A draft that cannot be committed because the store fails the commit is worth another attempt; nothing
changes but the locks and the failures to come. -/
theorem guardedCommit_failed {result : Except Error (Outcome E)}
    (run : (guardedCommit family before entity stamp).Runs (serves family client) now result last)
    (accepts : Accepts family client now.world before entity)
    (failing : 0 < now.world.store.pending before.isSome) :
    (∃ cause, result = .error cause ∧ cause.isRetryable = true) ∧ ∃ locks counts,
      last = ⟨{ now.world with
        store := (now.world.recounted counts).store.failOnce before.isSome, locks }, now.tally⟩ := by
  obtain ⟨one, guard, next, level, granted⟩ := accepts.claimed
  rcases guardedCommit_cases run with
    ⟨cause, refused, _⟩ | ⟨given, mid, late, claimed, committed, rfl⟩
  · cases verdict_of_level level granted refused
  · obtain ⟨locks, counts, rfl⟩ := stays_of_acquire claimed
    obtain ⟨cause, rfl, retryable, rfl⟩ := commit_failed committed failing
    exact ⟨⟨.store cause, rfl, retryable⟩, _, counts, rfl⟩

/-- A draft that can be committed is, if the store fails no commit; for want of a key it is not, and then
there is no point in another attempt. -/
theorem guardedCommit_made (lawful : family.Lawful) {result : Except Error (Outcome E)}
    (run : (guardedCommit family before entity stamp).Runs (serves family client) now result last)
    (accepts : Accepts family client now.world before entity)
    (calm : now.world.store.pending before.isSome = 0) :
    last.tally = { now.tally with writes := now.tally.writes + 1 } ∧
      ((∃ outcome, result = .ok outcome) ∨ ¬ now.world.table.HasKeyFor family entity ∧
        ∃ cause, result = .error cause ∧ cause.isRetryable = false) := by
  obtain ⟨one, guard, next, level, granted⟩ := accepts.claimed
  rcases guardedCommit_cases run with
    ⟨cause, refused, _⟩ | ⟨given, mid, late, claimed, committed, rfl⟩
  · cases verdict_of_level level granted refused
  · obtain ⟨locks, counts, rfl⟩ := stays_of_acquire claimed
    obtain ⟨counted, done | ⟨keyless, cause, rfl, final⟩⟩ :=
      commit_made lawful committed accepts.fits accepts.reached calm
    · exact ⟨counted, .inl done⟩
    · exact ⟨counted, .inr ⟨keyless, .store cause, rfl, final⟩⟩

theorem accepts_of_guardedCommit (lawful : family.Lawful) {outcome : Outcome E}
    (run : (guardedCommit family before entity stamp).Runs (serves family client) now (.ok outcome)
      last)
    (distinct : now.world.table.Distinct family) :
    Accepts family client now.world before entity ∧ now.world.table.HasKeyFor family entity := by
  rcases guardedCommit_cases run with
    ⟨cause, _, failed⟩ | ⟨given, mid, late, claimed, committed, rfl⟩
  · cases failed
  · obtain ⟨locks, counts, rfl⟩ := stays_of_acquire claimed
    obtain ⟨reached, fits, keyed⟩ := fits_of_commit lawful committed distinct
    exact ⟨⟨⟨now, given, _, ⟨rfl, rfl, rfl⟩, claimed⟩, reached, fits⟩, keyed⟩

omit [DecidableEq K] [DecidableEq E] in
theorem commit_commits :
    (commit family before entity stamp).Follows
      (fun _ (request : Call K E) _ _ => request.commitsOnly before.isSome = true) (fun _ _ => True)
      () := by
  cases before with
  | none =>
    refine Task.follows_ask_bind.mpr fun answer => ⟨(), rfl, ?_⟩
    match answer with
    | .error cause => trivial
    | .ok row => trivial
  | some held =>
    refine Task.follows_ask_bind.mpr fun answer => ⟨(), rfl, ?_⟩
    match answer with
    | .error cause => trivial
    | .ok merged =>
      dsimp only
      split
      · trivial
      · trivial

omit [DecidableEq E] in
theorem guardedCommit_commits :
    (guardedCommit family before entity stamp).Follows
      (fun _ (request : Call K E) _ _ => request.commitsOnly before.isSome = true) (fun _ _ => True)
      () := by
  have claims : ∀ {request : Call K E}, request.claiming = true →
      request.commitsOnly before.isSome = true := by
    intro request claiming
    cases request with
    | store call =>
      cases call with
      | findUnique field => rfl
      | _ => cases claiming
    | _ => rfl
  have acquires : (Uniqueness.acquire family before entity).Follows
      (fun _ (request : Call K E) _ _ => request.commitsOnly before.isSome = true) (fun _ _ => True)
      () :=
    acquire_claims.image id claims id
  refine Task.follows_bind.mpr (acquires.mono ?_)
  intro _ verdict _
  match verdict with
  | .error cause => trivial
  | .ok guard =>
    refine Task.follows_bind.mpr (commit_commits.mono ?_)
    exact fun _ _ _ => fun _ => ⟨(), rfl, trivial⟩

theorem guardedCommit_alike {result result' : Except Error (Outcome E)}
    (run : (guardedCommit family before entity stamp).Runs (serves family client) now result next)
    (run' : (guardedCommit family before entity stamp).Runs (serves family client) other result' last)
    (alike : now.world.Alike other.world) (calm : now.world.store.pending before.isSome = 0)
    (calm' : other.world.store.pending before.isSome = 0) :
    result = result' ∧ next.world.Alike last.world := by
  have agree := run.agree run' (fun request => request.commitsOnly before.isSome = true)
    guardedCommit_commits
    (fun one other => one.world.Alike other.world ∧ one.world.store.pending before.isSome = 0 ∧
      other.world.store.pending before.isSome = 0)
    ⟨alike, calm, calm'⟩ ?_
  · exact ⟨agree.1, agree.2.1⟩
  · rintro request state answer after state' answer' after' commits ⟨alike, calm, calm'⟩
      served served'
    obtain ⟨same, onward⟩ := alike_of_serves alike (Call.admitted_of_calm commits calm)
      (Call.admitted_of_calm commits calm') served served'
    exact ⟨same, onward, World.calm_of_serve calm (world_of_serves served),
      World.calm_of_serve calm' (world_of_serves served')⟩

end Commits

end Write

end OptimisticStore
