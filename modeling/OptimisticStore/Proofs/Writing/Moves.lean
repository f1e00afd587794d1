import OptimisticStore.Model.Write
import OptimisticStore.Proofs.Interleaving
/-!
The phases of a write and the calls that lead from one to the next.

`Write.Moves` says once what a writer can do, call by call and answer by answer. Main statement:
`Operation.program_follows`, by which every write keeps to these moves under every policy.
-/
namespace OptimisticStore.Write

variable {K E : Type} [Key K] [DecidableEq K] (family : Family K E)

open Program

inductive Operation (K E : Type) where
  | update (key : K)
  | updateOrCreate (key : K)
  | insert (entity : E)
  | delete (key : K)

namespace Operation

def key? (operation : Operation K E) : Option K :=
  match operation with
  | .update key | .updateOrCreate key | .delete key => some key
  | .insert entity => family.key entity

def label (operation : Operation K E) : String :=
  ((operation.key? family).map Key.display).getD unassigned

def attempt (operation : Operation K E) : Program K E (Except Error (Outcome E)) :=
  match operation with
  | .update key => attemptUpdate family false key
  | .updateOrCreate key => attemptUpdate family true key
  | .insert entity => attemptInsert family entity
  | .delete key => attemptDelete family key

def program (policy : RetryPolicy) (operation : Operation K E) :
    Program K E (Except Error (Outcome E)) :=
  match operation with
  | .update key => Write.update family policy key
  | .updateOrCreate key => Write.updateOrCreate family policy key
  | .insert entity => Write.insert family policy entity
  | .delete key => Write.delete family policy key

theorem program_eq (policy : RetryPolicy) (operation : Operation K E) :
    operation.program family policy =
      committing family policy (operation.label family) (operation.attempt family) := by
  cases operation <;> rfl

end Operation

def freshly (stamp : Int) (entity : E) : E :=
  family.markUpdated (.ofMicros stamp) (family.markCreated (.ofMicros stamp) entity)

/-- Where a writer stands, with what it has in hand. -/
inductive Phase (E : Type) where
  | outside
  | stamped (stamp : Int)
  | creating (stamp : Int)
  | editing (stamp : Int) (before : Option E) (entity : E)
  | ready (stamp : Int) (before : Option E) (entity : E)
  /-- Holding the locks on the claimed values, of which some have been looked up. -/
  | claiming (stamp : Int) (before : Option E) (entity : E) (guard : LockGuard)
      (checked : List UniqueField)
  | removing (stamp : Int) (current : E)
  /-- The attempt has failed and its locks are to be given back. -/
  | refused (guard : LockGuard)
  | written (guard : LockGuard) (outcome : Outcome E)
  | settled (outcome : Outcome E)
  | announced (outcome : Outcome E)

/-- All claimed values are looked up under their locks, or there are none. -/
inductive Cleared : Phase E → Int → Option E → E → LockGuard → Prop where
  | unclaimed {stamp : Int} {before : Option E} {entity : E}
      (none : Uniqueness.claimed family before entity = []) :
      Cleared (.ready stamp before entity) stamp before entity .empty
  | checked {stamp : Int} {before : Option E} {entity : E} {guard : LockGuard} :
      Cleared (.claiming stamp before entity guard (Uniqueness.claimed family before entity))
        stamp before entity guard

inductive Moves (operation : Operation K E) :
    Phase E → (request : Call K E) → request.Answer → Phase E → Prop where
  | asksTransaction (answer : Bool) : Moves operation .outside (.store .inTransaction) answer .outside
  | asksStopped (answer : Bool) : Moves operation .outside .stopped answer .outside
  | pauses (answer : Bool) : Moves operation .outside .pause answer .outside
  | ticks (stamp : Int) (keyed : (operation.key? family).isSome) :
      Moves operation .outside .tick stamp (.stamped stamp)
  | ticksUnkeyed {entity : E} (stamp : Int) (insert : operation = .insert entity)
      (unkeyed : family.key entity = none) :
      Moves operation .outside .tick stamp (.ready stamp none (freshly family stamp entity))
  | fetchFails {stamp : Int} {key : K} (cause : StoreError)
      (own : operation.key? family = some key) :
      Moves operation (.stamped stamp) (.store (.fetch key)) (.error cause) .outside
  | finds {stamp : Int} {key : K} (current : E)
      (edits : operation = .update key ∨ operation = .updateOrCreate key) :
      Moves operation (.stamped stamp) (.store (.fetch key)) (.ok (some current))
        (.editing stamp (some current) current)
  | misses {stamp : Int} {key : K} (needs : operation = .update key ∨ operation = .delete key) :
      Moves operation (.stamped stamp) (.store (.fetch key)) (.ok none) .outside
  | missesCreating {stamp : Int} {key : K} (creates : operation = .updateOrCreate key) :
      Moves operation (.stamped stamp) (.store (.fetch key)) (.ok none) (.creating stamp)
  | creates {stamp : Int} {key : K} (made : E) (creates : operation = .updateOrCreate key) :
      Moves operation (.creating stamp) (.create key) made
        (.editing stamp none (family.markCreated (.ofMicros stamp) (family.withKey key made)))
  | findsTaken {stamp : Int} {entity : E} {key : K} (existing : E)
      (insert : operation = .insert entity) (own : family.key entity = some key) :
      Moves operation (.stamped stamp) (.store (.fetch key)) (.ok (some existing))
        (.settled (.ofUnchanged family.kind existing stamp))
  | findsVacant {stamp : Int} {entity : E} {key : K} (insert : operation = .insert entity)
      (own : family.key entity = some key) :
      Moves operation (.stamped stamp) (.store (.fetch key)) (.ok none)
        (.ready stamp none (freshly family stamp entity))
  | findsDoomed {stamp : Int} {key : K} (current : E) (removes : operation = .delete key) :
      Moves operation (.stamped stamp) (.store (.fetch key)) (.ok (some current))
        (.removing stamp current)
  | cancels {stamp : Int} {before : Option E} {entity : E} (mutated : E) :
      Moves operation (.editing stamp before entity) (.mutate entity) (mutated, .cancel)
        (.settled (.ofCancel family.kind))
  | leaves {stamp : Int} {before : Option E} {entity : E} (mutated : E) :
      Moves operation (.editing stamp before entity) (.mutate entity) (mutated, .unchanged)
        (.settled (.ofUnchanged family.kind mutated stamp))
  | edits {stamp : Int} {before : Option E} {entity : E} (mutated : E) :
      Moves operation (.editing stamp before entity) (.mutate entity) (mutated, .changed)
        (.ready stamp before (family.markUpdated (.ofMicros stamp) mutated))
  | lockFails {stamp : Int} {before : Option E} {entity : E} {names : List String}
      (cause : LockError) :
      Moves operation (.ready stamp before entity) (.lock names) (.error cause) .outside
  | locks {stamp : Int} {before : Option E} {entity : E} (guard : LockGuard) :
      Moves operation (.ready stamp before entity)
        (.lock (Uniqueness.lockNames family (Uniqueness.claimed family before entity))) (.ok guard)
        (.claiming stamp before entity guard [])
  | lookupFails {stamp : Int} {before : Option E} {entity : E} {guard : LockGuard}
      {checked : List UniqueField} {field : UniqueField} (cause : StoreError) :
      Moves operation (.claiming stamp before entity guard checked) (.store (.findUnique field))
        (.error cause) (.refused guard)
  | lookupClears {stamp : Int} {before : Option E} {entity : E} {guard : LockGuard}
      {checked rest : List UniqueField} {field : UniqueField} (owner : Option K)
      (due : Uniqueness.claimed family before entity = checked ++ field :: rest)
      (own : owner = none ∨ owner = family.key entity) :
      Moves operation (.claiming stamp before entity guard checked) (.store (.findUnique field))
        (.ok owner) (.claiming stamp before entity guard (checked ++ [field]))
  | lookupClashes {stamp : Int} {before : Option E} {entity : E} {guard : LockGuard}
      {checked : List UniqueField} {field : UniqueField} (owner : K)
      (foreign : family.key entity ≠ some owner) :
      Moves operation (.claiming stamp before entity guard checked) (.store (.findUnique field))
        (.ok (some owner)) (.refused guard)
  | insertFails {phase : Phase E} {stamp : Int} {entity : E} {guard : LockGuard} (cause : StoreError)
      (cleared : Cleared family phase stamp none entity guard) :
      Moves operation phase (.store (.insert entity)) (.error cause) (.refused guard)
  | inserts {phase : Phase E} {stamp : Int} {entity : E} {guard : LockGuard} (row : E)
      (cleared : Cleared family phase stamp none entity guard) :
      Moves operation phase (.store (.insert entity)) (.ok row)
        (.written guard (.ofInsert family.kind row stamp))
  | mergeFails {phase : Phase E} {stamp : Int} {held entity : E} {guard : LockGuard}
      (cause : StoreError) (cleared : Cleared family phase stamp (some held) entity guard) :
      Moves operation phase (.store (.merge entity)) (.error cause) (.refused guard)
  | merges {phase : Phase E} {stamp : Int} {held entity : E} {guard : LockGuard} (merged : Merged E)
      (changed : merged.changed = true)
      (cleared : Cleared family phase stamp (some held) entity guard) :
      Moves operation phase (.store (.merge entity)) (.ok merged)
        (.written guard (.ofUpdate family.kind held merged.entity stamp))
  | mergesNothing {phase : Phase E} {stamp : Int} {held entity : E} {guard : LockGuard}
      (merged : Merged E) (unchanged : merged.changed = false)
      (cleared : Cleared family phase stamp (some held) entity guard) :
      Moves operation phase (.store (.merge entity)) (.ok merged)
        (.written guard (.ofUnchanged family.kind merged.entity stamp))
  | deleteFails {stamp : Int} {current : E} (cause : StoreError) :
      Moves operation (.removing stamp current) (.store (.delete current)) (.error cause) .outside
  | deletes {stamp : Int} {current : E} :
      Moves operation (.removing stamp current) (.store (.delete current)) (.ok ())
        (.settled (.ofDelete family.kind current stamp))
  | unlocksRefused {guard : LockGuard} :
      Moves operation (.refused guard) (.unlock guard) () .outside
  | unlocks {guard : LockGuard} {outcome : Outcome E} :
      Moves operation (.written guard outcome) (.unlock guard) () (.settled outcome)
  | forgets {outcome : Outcome E} {key : K} (answer : Except StoreError Unit)
      (changed : outcome.change?.isSome) (own : outcome.key family = some key) :
      Moves operation (.settled outcome) (.cache (.remove key)) answer (.announced outcome)
  | posts {outcome : Outcome E} {change : ChangeKind} (changed : outcome.change? = some change) :
      Moves operation (.announced outcome) (.post (changeOf family outcome change)) ()
        (.announced outcome)

def Phase.after : Except Error (Outcome E) → Phase E
  | .ok outcome => .settled outcome
  | .error _ => .outside

/-- The phases in which a write may end with the given result: after a commit its key was dropped
from the caches. -/
def Ends (phase : Phase E) (result : Except Error (Outcome E)) : Prop :=
  match result with
  | .error _ => phase = .outside
  | .ok outcome => phase = .announced outcome ∨
      phase = .settled outcome ∧ (outcome.change? = none ∨ outcome.key family = none)

section Programs

variable {family} {operation : Operation K E}

theorem check_follows {stamp : Int} {before : Option E} {entity : E} {guard : LockGuard}
    {fields checked : List UniqueField}
    (split : Uniqueness.claimed family before entity = checked ++ fields) :
    (Uniqueness.check family (family.key entity) fields).Follows (Moves family operation)
      (fun phase verdict => match verdict with
        | .ok () => phase = .claiming stamp before entity guard
            (Uniqueness.claimed family before entity)
        | .error _ => phase = .refused guard)
      (.claiming stamp before entity guard checked) := by
  induction fields generalizing checked with
  | nil =>
    rw [Uniqueness.check, Task.follows_pure]
    simp [split]
  | cons field rest ih =>
    have onward := @ih (checked ++ [field]) (by simpa using split)
    apply Task.follows_ask_bind.mpr
    intro answer
    match answer with
    | .error cause => exact ⟨_, .lookupFails cause, rfl⟩
    | .ok none => exact ⟨_, .lookupClears none split (.inl rfl), onward⟩
    | .ok (some owner) =>
      by_cases own : family.key entity = some owner
      · refine ⟨_, .lookupClears (some owner) split (.inr own.symm), ?_⟩
        simpa [own] using onward
      · refine ⟨_, .lookupClashes owner own, ?_⟩
        simp [own]

theorem acquire_follows {stamp : Int} {before : Option E} {entity : E} :
    (Uniqueness.acquire family before entity).Follows (Moves family operation)
      (fun phase verdict => match verdict with
        | .ok guard => Cleared family phase stamp before entity guard
        | .error _ => phase = .outside)
      (.ready stamp before entity) := by
  unfold Uniqueness.acquire
  by_cases none : Uniqueness.claimed family before entity = []
  · simpa [none] using Cleared.unclaimed none
  · simp only [List.isEmpty_iff, none, if_false]
    apply Task.follows_ask_bind.mpr
    intro answer
    match answer with
    | .error cause => exact ⟨_, .lockFails cause, rfl⟩
    | .ok guard =>
      refine ⟨_, .locks guard, Task.follows_bind.mpr ?_⟩
      apply (check_follows (by simp)).mono
      intro phase verdict ended
      match verdict with
      | .ok () =>
        obtain rfl := ended
        exact Cleared.checked
      | .error cause =>
        obtain rfl := ended
        exact fun _ => ⟨_, .unlocksRefused, rfl⟩

omit [DecidableEq K] in
theorem commit_follows {phase : Phase E} {stamp : Int} {before : Option E} {entity : E}
    {guard : LockGuard} (cleared : Cleared family phase stamp before entity guard) :
    (commit family before entity stamp).Follows (Moves family operation)
      (fun phase result => match result with
        | .ok outcome => phase = .written guard outcome
        | .error _ => phase = .refused guard)
      phase := by
  cases before with
  | none =>
    apply Task.follows_ask_bind.mpr
    intro answer
    match answer with
    | .error cause => exact ⟨_, .insertFails cause cleared, rfl⟩
    | .ok row => exact ⟨_, .inserts row cleared, rfl⟩
  | some held =>
    apply Task.follows_ask_bind.mpr
    intro answer
    match answer with
    | .error cause => exact ⟨_, .mergeFails cause cleared, rfl⟩
    | .ok merged =>
      cases changed : merged.changed with
      | true =>
        refine ⟨_, .merges merged changed cleared, ?_⟩
        simp [changed]
      | false =>
        refine ⟨_, .mergesNothing merged changed cleared, ?_⟩
        simp [changed]

theorem guardedCommit_follows {stamp : Int} {before : Option E} {entity : E} :
    (guardedCommit family before entity stamp).Follows (Moves family operation)
      (fun phase result => phase = .after result) (.ready stamp before entity) := by
  rw [guardedCommit, Task.follows_bind]
  apply acquire_follows.mono
  intro phase verdict ended
  match verdict with
  | .error cause => exact ended
  | .ok guard =>
    apply Task.follows_bind.mpr
    apply (commit_follows ended).mono
    intro phase result written
    match result with
    | .ok outcome =>
      obtain rfl := written
      exact fun _ => ⟨_, .unlocks, rfl⟩
    | .error cause =>
      obtain rfl := written
      exact fun _ => ⟨_, .unlocksRefused, rfl⟩

theorem mutateAndCommit_follows {stamp : Int} {before : Option E} {entity : E} :
    (mutateAndCommit family before entity stamp).Follows (Moves family operation)
      (fun phase result => phase = .after result) (.editing stamp before entity) := by
  apply Task.follows_ask_bind.mpr
  intro answer
  match answer with
  | (mutated, .cancel) => exact ⟨_, .cancels mutated, rfl⟩
  | (mutated, .unchanged) => exact ⟨_, .leaves mutated, rfl⟩
  | (mutated, .changed) => exact ⟨_, .edits mutated, guardedCommit_follows⟩

theorem attemptUpdate_follows {creating : Bool} {key : K}
    (own : operation = if creating then .updateOrCreate key else .update key) :
    (attemptUpdate family creating key).Follows (Moves family operation)
      (fun phase result => phase = .after result) .outside := by
  have keyed : operation.key? family = some key := by cases creating <;> simp_all [Operation.key?]
  refine Task.follows_ask_bind.mpr fun stamp => ⟨_, .ticks stamp (by simp [keyed]), ?_⟩
  apply Task.follows_ask_bind.mpr
  intro answer
  match answer with
  | .error cause => exact ⟨_, .fetchFails cause keyed, rfl⟩
  | .ok (some current) =>
    exact ⟨_, .finds current (by cases creating <;> simp_all), mutateAndCommit_follows⟩
  | .ok none =>
    cases creating with
    | false => exact ⟨_, .misses (.inl own), rfl⟩
    | true =>
      refine ⟨_, .missesCreating own, ?_⟩
      apply Task.follows_ask_bind.mpr
      intro made
      exact ⟨_, .creates made own, mutateAndCommit_follows⟩

theorem attemptInsert_follows {entity : E} (own : operation = .insert entity) :
    (attemptInsert family entity).Follows (Moves family operation)
      (fun phase result => phase = .after result) .outside := by
  apply Task.follows_ask_bind.mpr
  intro stamp
  cases keyed : family.key entity with
  | none => exact ⟨_, .ticksUnkeyed stamp own keyed, guardedCommit_follows⟩
  | some key =>
    refine ⟨_, .ticks stamp (by simp [own, Operation.key?, keyed]), ?_⟩
    apply Task.follows_ask_bind.mpr
    intro answer
    match answer with
    | .error cause =>
      exact ⟨_, .fetchFails cause (by simp [own, Operation.key?, keyed]), rfl⟩
    | .ok (some existing) => exact ⟨_, .findsTaken existing own keyed, rfl⟩
    | .ok none => exact ⟨_, .findsVacant own keyed, guardedCommit_follows⟩

omit [DecidableEq K] in
theorem attemptDelete_follows {key : K} (own : operation = .delete key) :
    (attemptDelete family key).Follows (Moves family operation)
      (fun phase result => phase = .after result) .outside := by
  have keyed : operation.key? family = some key := by simp [own, Operation.key?]
  refine Task.follows_ask_bind.mpr fun stamp => ⟨_, .ticks stamp (by simp [keyed]), ?_⟩
  apply Task.follows_ask_bind.mpr
  intro answer
  match answer with
  | .error cause => exact ⟨_, .fetchFails cause keyed, rfl⟩
  | .ok none => exact ⟨_, .misses (.inr own), rfl⟩
  | .ok (some current) =>
    refine ⟨_, .findsDoomed current own, ?_⟩
    apply Task.follows_ask_bind.mpr
    intro answer
    match answer with
    | .error cause => exact ⟨_, .deleteFails cause, rfl⟩
    | .ok () => exact ⟨_, .deletes, rfl⟩

theorem Operation.attempt_follows :
    (operation.attempt family).Follows (Moves family operation)
      (fun phase result => phase = .after result) .outside := by
  cases operation with
  | update key => exact attemptUpdate_follows rfl
  | updateOrCreate key => exact attemptUpdate_follows rfl
  | insert entity => exact attemptInsert_follows rfl
  | delete key => exact attemptDelete_follows rfl

omit [DecidableEq K] in
theorem attempts_follows {label : String} {ambient : Bool} {budget left : Nat}
    {attempt : Program K E (Except Error (Outcome E))}
    (follows : attempt.Follows (Moves family operation) (fun phase result => phase = .after result)
      .outside) :
    (attempts family.kind label ambient budget attempt left).Follows (Moves family operation)
      (fun phase result => phase = .after result) .outside := by
  induction left with
  | zero => exact rfl
  | succ left ih =>
    refine Task.follows_ask_bind.mpr fun answer => ⟨_, .asksStopped answer, ?_⟩
    cases answer with
    | true => exact rfl
    | false =>
      apply Task.follows_bind.mpr
      apply follows.mono
      intro phase result ended
      match result with
      | .ok outcome => exact ended
      | .error cause =>
        obtain rfl := ended
        dsimp only
        split
        next => exact rfl
        next =>
          split
          next => exact rfl
          next =>
            refine Task.follows_ask_bind.mpr fun answer => ⟨_, .pauses answer, ?_⟩
            cases answer with
            | true => exact ih
            | false => exact rfl

omit [DecidableEq K] in
theorem retrying_follows {policy : RetryPolicy} {label : String}
    {attempt : Program K E (Except Error (Outcome E))}
    (follows : attempt.Follows (Moves family operation) (fun phase result => phase = .after result)
      .outside) :
    (retrying family.kind policy label attempt).Follows (Moves family operation)
      (fun phase result => phase = .after result) .outside := by
  refine Task.follows_ask_bind.mpr fun ambient => ⟨_, .asksTransaction ambient, ?_⟩
  split
  · exact rfl
  · exact attempts_follows follows

omit [DecidableEq K] in
theorem announce_follows {outcome : Outcome E} :
    (announce family outcome).Follows (Moves family operation)
      (fun phase _ => Ends family phase (.ok outcome)) (.settled outcome) := by
  unfold announce
  split
  next change key changed own =>
    refine Task.follows_ask_bind.mpr fun answer => ⟨_, .forgets answer (by simp [changed]) own, ?_⟩
    exact fun _ => ⟨_, .posts changed, .inl rfl⟩
  next none =>
    refine .inr ⟨rfl, ?_⟩
    cases changed : outcome.change? with
    | none => exact .inl rfl
    | some change =>
      cases own : outcome.key family with
      | none => exact .inr rfl
      | some key => exact absurd own (none change key changed)

theorem Operation.program_follows {policy : RetryPolicy} :
    (operation.program family policy).Follows (Moves family operation) (Ends family) .outside := by
  rw [Operation.program_eq, committing, Task.follows_bind]
  apply (retrying_follows Operation.attempt_follows).mono
  intro phase result ended
  obtain rfl := ended
  match result with
  | .error cause => exact rfl
  | .ok outcome =>
    apply Task.follows_bind.mpr
    exact announce_follows.mono fun phase _ ended => ended

end Programs

end OptimisticStore.Write
