import OptimisticStore.Proofs.Writing.Commits
/-!
Attempts at a write by a client alone, one after another.

Between two attempts nothing changes but the clock, so all of them come to the same commit, at different
stamps (`Operation.Drafts`). Main statements: `attempt_cases`, by which an attempt is the commit of its
draft, and `attempt_failed` and `attempt_made`, which say what becomes of it.
-/
namespace OptimisticStore

variable {K E : Type} [Key K]

def Client.Changes (client : Client K E) : Prop := ∀ entity, (client.mutate entity).2 = .changed

namespace World

variable {client : Client K E} {one other : World K E}

def nextStamp (client : Client K E) (world : World K E) : Int :=
  Clock.next world.clock.latest (client.reading world.clock.drawn)

def ticked (client : Client K E) (world : World K E) : World K E :=
  { world with clock := (world.clock.tick (client.reading world.clock.drawn)).2 }

/-- The world after a client has drawn some stamps and done nothing else. -/
def passed (client : Client K E) (world : World K E) : Nat → World K E
  | 0 => world
  | stamps + 1 => (world.passed client stamps).ticked client

def faultless (world : World K E) : World K E :=
  { world with store := { world.store with mergeFaults := 0, insertFaults := 0 } }

theorem passed_eq (client : Client K E) (world : World K E) (stamps : Nat) :
    ∃ clock, world.passed client stamps = { world with clock } := by
  induction stamps with
  | zero => exact ⟨world.clock, rfl⟩
  | succ stamps ih =>
    obtain ⟨clock, passed⟩ := ih
    exact ⟨_, by rw [World.passed, passed]; rfl⟩

theorem Alike.ticked (alike : one.Alike other) (client : Client K E) :
    (one.ticked client).Alike (other.ticked client) := by
  obtain ⟨inner, nodes, clock, locks, journal, posted, stopping⟩ := alike
  refine ⟨inner, nodes, ?_, locks, journal, posted, stopping⟩
  unfold World.ticked
  rw [clock]

theorem alike_faultless (world : World K E) : world.Alike world.faultless :=
  ⟨⟨rfl, rfl, rfl⟩, rfl, rfl, rfl, rfl, rfl, rfl⟩

theorem level_passed (client : Client K E) (world : World K E) (stamps : Nat) :
    (world.passed client stamps).Level world := by
  obtain ⟨clock, passed⟩ := world.passed_eq client stamps
  rw [passed]
  exact ⟨rfl, rfl, rfl⟩

end World

namespace Write

open Watched

section Drafts

variable (family : Family K E) (client : Client K E) (rows : SortedMap K E)

/-- What the mutator makes of the record that the caller makes for a key at some moment. -/
def madeAt (key : K) (moment : Timestamp) : E :=
  (client.mutate (family.markCreated moment (family.withKey key (client.create key)))).1

namespace Operation

/-- What an attempt is going to commit at a stamp, and the row in place of which. -/
inductive Drafts (operation : Operation K E) (stamp : Int) : Option E → E → Prop where
  | edited {key : K} {current : E} (edits : operation = .update key ∨ operation = .updateOrCreate key)
      (found : rows.get? key = some current) :
      Drafts operation stamp (some current)
        (family.markUpdated (.ofMicros stamp) (client.mutate current).1)
  | made {key : K} (creates : operation = .updateOrCreate key) (vacant : rows.get? key = none) :
      Drafts operation stamp none
        (family.markUpdated (.ofMicros stamp) (madeAt family client key (.ofMicros stamp)))
  | fresh {entity : E} (inserts : operation = .insert entity)
      (vacant : ∀ key, family.key entity = some key → rows.get? key = none) :
      Drafts operation stamp none (freshly family stamp entity)

/-- Whether an attempt comes to a commit: a row to update is there, and there is none in the place of a
record to insert. -/
def CommitsOn : Operation K E → Prop
  | .update key => (rows.get? key).isSome
  | .updateOrCreate _ => True
  | .insert entity => ∀ key, family.key entity = some key → rows.get? key = none
  | .delete _ => False

def replaces : Operation K E → Bool
  | .update key | .updateOrCreate key => (rows.get? key).isSome
  | .insert _ | .delete _ => false

def mutations : Operation K E → Nat
  | .update _ | .updateOrCreate _ => 1
  | .insert _ | .delete _ => 0

def creations : Operation K E → Nat
  | .updateOrCreate key => if (rows.get? key).isSome then 0 else 1
  | .update _ | .insert _ | .delete _ => 0

def spend (operation : Operation K E) (tally : Tally) : Tally :=
  { tally with
    mutations := tally.mutations + operation.mutations
    creations := tally.creations + operation.creations rows }

def spent (operation : Operation K E) (attempts : Nat) : Tally where
  mutations := attempts * operation.mutations
  creations := attempts * operation.creations rows

theorem spend_spent (operation : Operation K E) {attempts : Nat} :
    operation.spend rows (operation.spent rows attempts) = operation.spent rows (attempts + 1) := by
  simp [spend, spent, Nat.add_mul]

/-- Neither the key nor the unique values of a record that has to be made depend on when it is made. -/
structure Timeless (operation : Operation K E) : Prop where
  key : ∀ key, operation = .updateOrCreate key → rows.get? key = none → ∀ moment moment',
    family.key (madeAt family client key moment) = family.key (madeAt family client key moment')
  unique : ∀ key, operation = .updateOrCreate key → rows.get? key = none → ∀ moment moment',
    family.uniqueFields (madeAt family client key moment) =
      family.uniqueFields (madeAt family client key moment')

end Operation

end Drafts

section Attempts

variable [DecidableEq K] [DecidableEq E] {family : Family K E} {client : Client K E}
  {rows : SortedMap K E} {operation : Operation K E} {stamp : Int} {before : Option E} {entity : E}
  {now last : Watched K E} {result : Except Error (Outcome E)}

omit [DecidableEq K] [DecidableEq E] in
theorem Operation.exists_drafts (commits : operation.CommitsOn family rows) (stamp : Int) :
    ∃ before entity, operation.Drafts family client rows stamp before entity := by
  cases operation with
  | update key =>
    obtain ⟨current, found⟩ := Option.isSome_iff_exists.mp commits
    exact ⟨_, _, .edited (.inl rfl) found⟩
  | updateOrCreate key =>
    cases found : rows.get? key with
    | none => exact ⟨_, _, .made rfl found⟩
    | some current => exact ⟨_, _, .edited (.inr rfl) found⟩
  | insert entity => exact ⟨_, _, .fresh rfl commits⟩
  | delete key => exact commits.elim

omit [DecidableEq K] [DecidableEq E] in
theorem Operation.Drafts.replaces_eq
    (drafts : operation.Drafts family client rows stamp before entity) :
    operation.replaces rows = before.isSome := by
  cases drafts with
  | edited edits found =>
    rcases edits with rfl | rfl
    · simp [Operation.replaces, found]
    · simp [Operation.replaces, found]
  | made creates vacant =>
    subst creates
    simp [Operation.replaces, vacant]
  | fresh inserts =>
    subst inserts
    rfl

omit [DecidableEq K] [DecidableEq E] in
theorem Operation.Drafts.restamp (lawful : family.Lawful)
    (timeless : operation.Timeless family client rows)
    (drafts : operation.Drafts family client rows stamp before entity) (other : Int) :
    ∃ twin, operation.Drafts family client rows other before twin ∧
      family.key twin = family.key entity ∧
      family.uniqueFields twin = family.uniqueFields entity ∧
      (before.isSome → family.version twin = family.version entity) := by
  cases drafts with
  | edited edits found =>
    refine ⟨_, .edited edits found, ?_, ?_, fun _ => ?_⟩
    · rw [lawful.key_markUpdated, lawful.key_markUpdated]
    · rw [lawful.unique_markUpdated, lawful.unique_markUpdated]
    · rw [lawful.version_markUpdated, lawful.version_markUpdated]
  | made creates vacant =>
    refine ⟨_, .made creates vacant, ?_, ?_, fun some => by cases some⟩
    · rw [lawful.key_markUpdated, lawful.key_markUpdated]
      exact timeless.key _ creates vacant _ _
    · rw [lawful.unique_markUpdated, lawful.unique_markUpdated]
      exact timeless.unique _ creates vacant _ _
  | fresh inserts vacant =>
    refine ⟨_, .fresh inserts vacant, ?_, ?_, fun some => by cases some⟩
    · simp only [freshly, lawful.key_markUpdated, lawful.key_markCreated]
    · simp only [freshly, lawful.unique_markUpdated, lawful.unique_markCreated]

omit [DecidableEq K] in
theorem runs_of_fetch {α : Type} {key : K} {row : Option E} {value : α}
    {next : Except StoreError (Option E) → Program K E α}
    (run : (Program.fetch key >>= next).Runs (serves family client) now value last)
    (found : now.world.table.rows.get? key = row) :
    ∃ counts, now.world.store.inner.poisoned = true ∧
        (next (.error .poisoned)).Runs (serves family client) ⟨now.world.recounted counts, now.tally⟩
          value last ∨
      (next (.ok row)).Runs (serves family client) ⟨now.world.recounted counts, now.tally⟩ value
        last := by
  obtain ⟨answer, mid, served, run⟩ := Task.runs_ask_bind.mp run
  obtain ⟨counts, read⟩ := World.serve_read (world_of_serves served) rfl
  have same : mid.tally = now.tally := tally_of_serves served
  have answered : answer = _ := (served_store served).1.trans
    (@Store.answer_fetch _ _ _ family _ now.world.store.inner key)
  obtain ⟨world, tally⟩ := mid
  obtain rfl := read
  obtain rfl := same
  refine ⟨counts, ?_⟩
  change now.world.store.inner.table.rows.get? key = row at found
  rw [found] at answered
  split at answered
  next poisoned =>
    subst answered
    exact .inl ⟨poisoned, run⟩
  next =>
    subst answered
    exact .inr run

theorem runs_of_mutate {original : E} (changes : client.Changes)
    (run : (mutateAndCommit family before original stamp).Runs (serves family client) now result last) :
    (guardedCommit family before (family.markUpdated (.ofMicros stamp) (client.mutate original).1)
      stamp).Runs (serves family client)
        ⟨now.world, { now.tally with mutations := now.tally.mutations + 1 }⟩ result last := by
  obtain ⟨⟨mutated, decision⟩, mid, served, run⟩ := Task.runs_ask_bind.mp run
  obtain ⟨edited, rfl⟩ := Prod.mk.inj served
  obtain rfl : decision = .changed := (congrArg Prod.snd edited).symm.trans (changes original)
  have work : (client.mutate original).1 = mutated := congrArg Prod.fst edited
  rw [work]
  exact run

theorem attemptUpdate_cases {creating : Bool} {key : K} {current : E}
    (changes : client.Changes)
    (found : now.world.table.rows.get? key = some current)
    (run : (attemptUpdate family creating key).Runs (serves family client) now result last) :
    (now.world.store.inner.poisoned = true ∧ ∃ cause, result = .error cause) ∨ ∃ counts,
      (guardedCommit family (some current)
        (family.markUpdated (.ofMicros (now.world.nextStamp client)) (client.mutate current).1)
        (now.world.nextStamp client)).Runs (serves family client)
          ⟨(now.world.ticked client).recounted counts,
            { now.tally with mutations := now.tally.mutations + 1 }⟩ result last := by
  obtain ⟨stamp, mid, served, run⟩ := Task.runs_ask_bind.mp run
  obtain ⟨rfl, rfl⟩ := Prod.mk.inj served
  obtain ⟨counts, ⟨poisoned, run⟩ | run⟩ := runs_of_fetch run found
  · exact .inl ⟨poisoned, _, (Task.runs_pure.mp run).1⟩
  · exact .inr ⟨counts, runs_of_mutate changes run⟩

/-- An attempt is the commit of its draft, unless the rows are out of reach. -/
theorem attempt_cases (changes : client.Changes)
    (drafts : operation.Drafts family client now.world.table.rows (now.world.nextStamp client) before
      entity)
    (run : (operation.attempt family).Runs (serves family client) now result last) :
    (now.world.store.inner.poisoned = true ∧ ∃ cause, result = .error cause) ∨ ∃ counts,
      (guardedCommit family before entity (now.world.nextStamp client)).Runs (serves family client)
        ⟨(now.world.ticked client).recounted counts,
          operation.spend now.world.table.rows now.tally⟩ result last := by
  cases drafts with
  | @edited key current edits found =>
    rcases edits with rfl | rfl
    · exact attemptUpdate_cases changes found run
    · have spent : (Operation.updateOrCreate key : Operation K E).spend now.world.table.rows now.tally =
          { now.tally with mutations := now.tally.mutations + 1 } := by
        simp [Operation.spend, Operation.mutations, Operation.creations, found]
      rw [spent]
      exact attemptUpdate_cases changes found run
  | @made key creates vacant =>
    subst creates
    obtain ⟨stamp, mid, served, run⟩ := Task.runs_ask_bind.mp run
    obtain ⟨rfl, rfl⟩ := Prod.mk.inj served
    obtain ⟨counts, ⟨poisoned, run⟩ | run⟩ := runs_of_fetch run vacant
    · exact .inl ⟨poisoned, _, (Task.runs_pure.mp run).1⟩
    · obtain ⟨made, mid, served, run⟩ := Task.runs_ask_bind.mp run
      obtain ⟨rfl, rfl⟩ := Prod.mk.inj served
      have spent : (Operation.updateOrCreate key : Operation K E).spend now.world.table.rows now.tally =
          ⟨now.tally.mutations + 1, now.tally.creations + 1, now.tally.writes⟩ := by
        simp [Operation.spend, Operation.mutations, Operation.creations, vacant]
      rw [spent]
      exact .inr ⟨counts, runs_of_mutate changes run⟩
  | @fresh entity inserts vacant =>
    subst inserts
    obtain ⟨stamp, mid, served, run⟩ := Task.runs_ask_bind.mp run
    obtain ⟨rfl, rfl⟩ := Prod.mk.inj served
    cases own : family.key entity with
    | none =>
      simp only [own] at run
      exact .inr ⟨now.world.store.inner.counts, run⟩
    | some key =>
      simp only [own] at run
      obtain ⟨counts, ⟨poisoned, run⟩ | run⟩ := runs_of_fetch run (vacant key own)
      · exact .inl ⟨poisoned, _, (Task.runs_pure.mp run).1⟩
      · exact .inr ⟨counts, run⟩

theorem accepts_of_attempt (lawful : family.Lawful) (changes : client.Changes)
    {outcome : Outcome E}
    (distinct : now.world.table.Distinct family)
    (drafts : operation.Drafts family client now.world.table.rows (now.world.nextStamp client) before
      entity)
    (run : (operation.attempt family).Runs (serves family client) now (.ok outcome) last) :
    Accepts family client now.world before entity ∧ now.world.table.HasKeyFor family entity := by
  rcases attempt_cases changes drafts run with ⟨_, _, failed⟩ | ⟨counts, committed⟩
  · cases failed
  · obtain ⟨accepts, keyed⟩ := accepts_of_guardedCommit lawful committed distinct
    exact ⟨accepts.of_level ⟨rfl, rfl, rfl⟩, keyed⟩

theorem level_of_attempt_failed {cause : Error}
    (run : (operation.attempt family).Runs (serves family client) now (.error cause) last) :
    last.world.Level now.world := by
  have met : (operation.attempt family).Runs (World.Meets family) now.world (.error cause) last.world :=
    run.image fun served => World.meets_serve (world_of_serves served)
  obtain ⟨locked, untouched⟩ := untouched_of_attempt_failed met
  have reached := run.keeps
    (fun mid => mid.world.store.inner.poisoned = now.world.store.inner.poisoned) rfl
    fun same served => (World.poisoned_of_serve (world_of_serves served)).trans same
  exact ⟨untouched.rows, locked, reached⟩

/-- Whenever the operation is tried it comes to a commit that can be made, there being a key for a record
that needs one. -/
def Operation.Writable (family : Family K E) (client : Client K E) (world : World K E)
    (before : Option E) (operation : Operation K E) : Prop :=
  ∀ stamp, ∃ entity, operation.Drafts family client world.table.rows stamp before entity ∧
    Accepts family client world before entity ∧ world.table.HasKeyFor family entity

variable {start : World K E} {stamps : Nat}

theorem Operation.Writable.commits (changes : client.Changes)
    (writable : operation.Writable family client start before)
    (alike : now.world.Alike (start.passed client stamps))
    (run : (operation.attempt family).Runs (serves family client) now result last) :
    ∃ entity counts, Accepts family client start before entity ∧
      start.table.HasKeyFor family entity ∧
      (guardedCommit family before entity (now.world.nextStamp client)).Runs (serves family client)
        ⟨(now.world.ticked client).recounted counts, operation.spend start.table.rows now.tally⟩ result
        last := by
  have rows : now.world.table.rows = start.table.rows :=
    (alike.level.trans (start.level_passed client stamps)).rows
  obtain ⟨entity, drafts, accepts, keyed⟩ := writable (now.world.nextStamp client)
  rw [← rows] at drafts ⊢
  have reached : now.world.store.inner.poisoned = false :=
    (alike.level.trans (start.level_passed client stamps)).poisoned.trans accepts.reached
  rcases attempt_cases changes drafts run with ⟨poisoned, _⟩ | ⟨counts, run⟩
  · rw [reached] at poisoned
    cases poisoned
  · exact ⟨entity, counts, accepts, keyed, run⟩

/-- An attempt whose commit the store fails is worth another one, and leaves nothing behind but a stamp
that was drawn. -/
theorem attempt_failed (changes : client.Changes)
    (writable : operation.Writable family client start before)
    (alike : now.world.Alike (start.passed client stamps))
    (failing : 0 < now.world.store.pending before.isSome)
    (run : (operation.attempt family).Runs (serves family client) now result last) :
    (∃ cause, result = .error cause ∧ cause.isRetryable = true) ∧
      last.world.Alike (start.passed client (stamps + 1)) ∧
      last.world.store.pending before.isSome = now.world.store.pending before.isSome - 1 ∧
      last.tally = operation.spend start.table.rows now.tally := by
  obtain ⟨entity, counts, accepts, _, committed⟩ := writable.commits changes alike run
  have near : now.world.Level start := alike.level.trans (start.level_passed client stamps)
  have here : Accepts family client ((now.world.ticked client).recounted counts) before entity :=
    accepts.of_level ⟨near.rows, near.locks, near.poisoned⟩
  have same := alike.ticked client
  obtain ⟨⟨cause, rfl, retryable⟩, locks, later, rfl⟩ :=
    guardedCommit_failed committed here failing
  have met : (operation.attempt family).Runs (World.Meets family) now.world (.error cause) _ :=
    run.image fun served => World.meets_serve (world_of_serves served)
  obtain ⟨locked, _⟩ := untouched_of_attempt_failed met
  refine ⟨⟨cause, rfl, retryable⟩, ?_, FaultyStore.pending_failOnce _ _, rfl⟩
  obtain ⟨inner, nodes, clock, locks, journal, posted, stopping⟩ := same
  refine ⟨?_, nodes, clock, locked.trans locks, journal, posted, stopping⟩
  dsimp only
  rw [FaultyStore.inner_failOnce]
  exact ⟨inner.table, inner.poisoned, inner.transactions⟩

theorem attempt_made (lawful : family.Lawful) (changes : client.Changes)
    (writable : operation.Writable family client start before)
    (alike : now.world.Alike (start.passed client stamps))
    (calm : now.world.store.pending before.isSome = 0)
    (run : (operation.attempt family).Runs (serves family client) now result last) :
    (∃ outcome, result = .ok outcome) ∧
      last.tally = { operation.spend start.table.rows now.tally with
        writes := now.tally.writes + 1 } := by
  obtain ⟨entity, counts, accepts, keyed, committed⟩ := writable.commits changes alike run
  have near : now.world.Level start := alike.level.trans (start.level_passed client stamps)
  have here : Accepts family client ((now.world.ticked client).recounted counts) before entity :=
    accepts.of_level ⟨near.rows, near.locks, near.poisoned⟩
  obtain ⟨counted, done | ⟨keyless, _⟩⟩ :=
    guardedCommit_made lawful committed here calm
  · exact ⟨done, counted⟩
  · have same : now.world.table = start.table := by
      obtain ⟨clock, passed⟩ := start.passed_eq client stamps
      rw [passed] at alike
      exact alike.inner.table
    exact absurd keyed (same ▸ keyless)

theorem attempt_alike {other next : Watched K E} {result' : Except Error (Outcome E)}
    (changes : client.Changes)
    (drafts : operation.Drafts family client now.world.table.rows (now.world.nextStamp client) before
      entity)
    (reached : now.world.store.inner.poisoned = false)
    (alike : now.world.Alike other.world) (calm : now.world.store.pending before.isSome = 0)
    (calm' : other.world.store.pending before.isSome = 0)
    (run : (operation.attempt family).Runs (serves family client) now result next)
    (run' : (operation.attempt family).Runs (serves family client) other result' last) :
    result = result' ∧ next.world.Alike last.world := by
  have rows : now.world.table.rows = other.world.table.rows := alike.level.rows
  have stamp : now.world.nextStamp client = other.world.nextStamp client := by
    unfold World.nextStamp
    rw [alike.clock]
  have drafts' := drafts
  rw [rows, stamp] at drafts'
  rcases attempt_cases changes drafts run with ⟨poisoned, _⟩ | ⟨counts, committed⟩
  · rw [reached] at poisoned
    cases poisoned
  rcases attempt_cases changes drafts' run' with ⟨poisoned, _⟩ | ⟨counts', committed'⟩
  · rw [← alike.inner.poisoned, reached] at poisoned
    cases poisoned
  rw [← stamp] at committed'
  refine guardedCommit_alike committed committed' ?_ calm calm'
  obtain ⟨inner, nodes, clock, locks, journal, posted, stopping⟩ := alike.ticked client
  exact ⟨⟨inner.table, inner.poisoned, inner.transactions⟩, nodes, clock, locks, journal, posted,
    stopping⟩

end Attempts

end Write

end OptimisticStore
