import OptimisticStore.Proofs.Cache.Mesh
import OptimisticStore.Proofs.Cache.Removal
import OptimisticStore.Proofs.Writing.Unreported
/-!
Which key a write has to do with.

The store takes the row to write from the record, and the record is what the mutator made of it. Main
statement: `write_confined`, by which a write touches rows, caches and events of one key at most, which is
the one that its result names, and that is the key of the operation if the mutator keeps it.
`write_elsewhere` shows a mutator that does not.
-/
namespace OptimisticStore

variable {K E : Type} [Key K]

namespace Table

variable {family : Family K E} {table after : Table K E} {entity row : E} (separate : family.Separate)
include separate

theorem Effect.key_of_insert (effect : table.Effect family (.insert entity) (.ok row) after) :
    ∃ key, family.key row = some key ∧ ∀ own, family.key entity = some own → own = key := by
  cases effect.writes rfl with
  | @insert _ held key _ own =>
    refine ⟨key, (key_firstVersion separate held).trans (key_of_own separate own), ?_⟩
    intro named same
    rcases own with ⟨own, _⟩ | ⟨none, _⟩
    · exact Option.some.inj (same.symm.trans own)
    · exact absurd (same.symm.trans none) (by simp)

theorem Effect.key_of_merge {merged : Merged E} (changed : merged.changed = true)
    (effect : table.Effect family (.merge entity) (.ok merged) after) :
    ∃ key, family.key entity = some key ∧ family.key merged.entity = some key := by
  cases effect.writes changed with
  | @merge _ current key _ own => exact ⟨key, own, (key_nextVersion separate current entity).trans own⟩

end Table

namespace World

/-- From `start` to `now` at most what belongs to one key has changed: its row, its slots in the caches,
and what the journal tells of it and others are told. -/
structure Confined (family : Family K E) (key? : Option K) (start now : World K E) : Prop where
  rows : ∀ other, key? ≠ some other → now.table.rows.get? other = start.table.rows.get? other
  slots : ∀ index other, key? ≠ some other →
    (now.nodes.node index).slots.get? other = (start.nodes.node index).slots.get? other
  events : ∃ changes : List (Change E), (∀ change ∈ changes, ∃ key, key? = some key ∧
      change.key family = some key) ∧
    now.journal = changes.foldl Journal.post start.journal ∧
    now.posted = start.posted ++ changes

section Steps

variable {family : Family K E} {key? : Option K} {key : K} {start now after : World K E}

theorem Untouched.confined (untouched : now.Untouched start) : start.Confined family key? now := by
  obtain ⟨rows, nodes, journal, posted⟩ := untouched
  refine ⟨?_, ?_, [], by simp, journal, by simp [posted]⟩
  · intro other _
    rw [rows]
  · intro index other _
    rw [nodes]

theorem Confined.untouched (confined : start.Confined family key? now) (same : after.Untouched now) :
    start.Confined family key? after := by
  obtain ⟨rows, nodes, journal, posted⟩ := same
  obtain ⟨kept, held, changes, concern, told, heard⟩ := confined
  refine ⟨?_, ?_, changes, concern, journal.trans told, posted.trans heard⟩
  · intro other apart
    rw [rows, kept other apart]
  · intro index other apart
    rw [nodes, held index other apart]

theorem Confined.of_none (confined : start.Confined family none now) :
    start.Confined family key? now := by
  obtain ⟨rows, slots, changes, concern, events⟩ := confined
  refine ⟨fun other _ => rows other (by simp), fun index other _ => slots index other (by simp), changes,
    ?_, events⟩
  intro change within
  obtain ⟨_, some, _⟩ := concern change within
  cases some

variable [DecidableEq E] {call : Call K E} {answer : call.Answer}

theorem Meets.effect (met : Meets family call now answer after) :
    call.Effect family now.table answer after.table := by
  cases met with
  | serves client told served =>
    have effect := serve_effect served
    exact effect
  | storeRefuses call =>
    cases call <;> exact .inr ⟨rfl, rfl⟩
  | cacheRefuses | lockRefuses => rfl

theorem Meets.fetched {found : Option E}
    (met : Meets family (.store (.fetch key)) now (.ok found) after) :
    found = now.table.rows.get? key := by
  cases met with
  | serves client told served =>
    have found := serve_fetch served
    exact found

theorem Meets.unheard {call : StoreCall K E} {answer : call.Answer}
    (met : Meets family (.store call) now answer after) :
    after.nodes = now.nodes ∧ after.journal = now.journal ∧ after.posted = now.posted := by
  cases met with
  | serves client told served =>
    obtain ⟨_, rfl⟩ := Prod.mk.inj served
    exact ⟨rfl, rfl, rfl⟩
  | storeRefuses => exact ⟨rfl, rfl, rfl⟩

theorem Confined.of_write [DecidableEq K] (lawful : family.Lawful) {call : StoreCall K E}
    {answer : call.Answer} (untouched : now.Untouched start)
    (met : Meets family (.store call) now answer after)
    (named : (Call.store call).writtenKey? family answer = some key) :
    start.Confined family (some key) after := by
  obtain ⟨nodes, journal, posted⟩ := met.unheard
  refine ⟨?_, ?_, [], by simp, journal.trans untouched.journal, ?_⟩
  · intro other apart
    rw [Call.get?_of_effect lawful met.effect (by rwa [named]), untouched.rows]
  · intro index other _
    rw [nodes, untouched.nodes]
  · simpa using posted.trans untouched.posted

theorem Confined.of_post (confined : start.Confined family (some key) now) {change : Change E}
    {answer : Unit} (own : change.key family = some key)
    (met : Meets family (.post change) now answer after) : start.Confined family (some key) after := by
  cases met with
  | serves client told served =>
    obtain ⟨_, rfl⟩ := Prod.mk.inj served
    obtain ⟨rows, slots, changes, concern, journal, posted⟩ := confined
    split
    · refine ⟨rows, slots, changes ++ [change], ?_, ?_, ?_⟩
      · intro other within
        rcases List.mem_append.mp within with within | same
        · exact concern other within
        · rw [List.mem_singleton.mp same]
          exact ⟨key, rfl, own⟩
      · rw [List.foldl_append, ← journal]
        rfl
      · change now.posted ++ [change] = _
        rw [posted, List.append_assoc]
    · exact ⟨rows, slots, changes, concern, journal, posted⟩

theorem Confined.of_remove [DecidableEq K] (confined : start.Confined family (some key) now)
    {answer : Except StoreError Unit}
    (met : Meets family (.cache (.remove key)) now answer after) :
    start.Confined family (some key) after := by
  cases met with
  | serves client told served =>
    obtain ⟨answered, rfl⟩ := Prod.mk.inj served
    refine ⟨confined.rows, ?_, confined.events⟩
    intro index other apart
    rw [← confined.slots index other apart]
    exact Cluster.get?_remove_of_ne (Prod.ext answered rfl) (by simpa [eq_comm] using apart) index
  | cacheRefuses => exact confined

end Steps

end World

namespace Write

/-- The key of the row that a write says it has changed, if it says so. -/
def changed? (family : Family K E) : Except Error (Outcome E) → Option K
  | .ok outcome => if outcome.updated then outcome.key family else none
  | .error _ => none

def KeepsKey (family : Family K E) (key : K) (serves : Task.Serving (calls K E) (World K E)) : Prop :=
  ∀ entity before answer after, serves (.mutate entity) before answer after →
    family.key entity = some key → family.key answer.1 = some key

/-- What one would have of a write to `key`: whatever it changes belongs to that, and it says so. -/
structure Addressed (family : Family K E) (key : K) (start now : World K E)
    (result : Except Error (Outcome E)) : Prop where
  confined : start.Confined family (some key) now
  named : updated result = true → changed? family result = some key

/-- Whatever a write has changed belongs to the key that its result names, which is `key` unless the
mutator is free to make it another. -/
structure Accounted (family : Family K E) (key : K) (keeping : Prop) (start now : World K E)
    (result : Except Error (Outcome E)) : Prop where
  confined : start.Confined family (changed? family result) now
  named : updated result = true → ∃ own, changed? family result = some own ∧ (keeping → own = key)

def Phase.Bound (family : Family K E) (key : K) (keeping : Prop) (start now : World K E) : Phase E → Prop
  | .outside | .stamped _ | .creating _ | .refused _ => now.Untouched start
  | .editing _ _ entity | .removing _ entity => now.Untouched start ∧ family.key entity = some key
  | .ready _ _ entity | .claiming _ _ entity _ _ =>
    now.Untouched start ∧ (keeping → family.key entity = some key)
  | .written _ outcome | .settled outcome | .announced outcome =>
    Accounted family key keeping start now (.ok outcome)

section Moves

variable {family : Family K E} {key own : K} {keeping : Prop} {start now after : World K E}
  {operation : Operation K E} {phase next : Phase E} {call : Call K E} {answer : call.Answer}
  {result : Except Error (Outcome E)} {outcome : Outcome E}

omit [Key K] in
theorem changed?_of_key (reported : outcome.change?.isSome) (named : outcome.key family = some own) :
    changed? family (.ok outcome) = some own := by
  rw [outcome.isSome_change?] at reported
  rw [changed?, if_pos reported, named]

omit [Key K] in
theorem changed?_of_not_updated (unreported : updated result = false) : changed? family result = none := by
  cases result with
  | error => rfl
  | ok outcome => rw [changed?, if_neg (by simpa [updated] using unreported)]

theorem Accounted.of_untouched (unreported : updated result = false) (untouched : now.Untouched start) :
    Accounted family key keeping start now result :=
  ⟨untouched.confined, by simp [unreported]⟩

theorem Accounted.of_own (named : changed? family result = some own) (same : keeping → own = key)
    (confined : start.Confined family (some own) now) :
    Accounted family key keeping start now result :=
  ⟨named ▸ confined, fun _ => ⟨own, named, same⟩⟩

theorem Accounted.untouched (accounted : Accounted family key keeping start now result)
    (same : after.Untouched now) : Accounted family key keeping start after result :=
  ⟨accounted.confined.untouched same, accounted.named⟩

theorem Accounted.confined_of (accounted : Accounted family key keeping start now result)
    (named : changed? family result = some own) : start.Confined family (some own) now :=
  named ▸ accounted.confined

theorem Accounted.of_confined (accounted : Accounted family key keeping start now result)
    (named : changed? family result = some own) (confined : start.Confined family (some own) after) :
    Accounted family key keeping start after result :=
  ⟨named ▸ confined, accounted.named⟩

theorem Accounted.addressed (accounted : Accounted family key keeping start now result)
    (keeps : keeping) : Addressed family key start now result := by
  cases changed : updated result with
  | true =>
    obtain ⟨own, named, same⟩ := accounted.named changed
    obtain rfl := same keeps
    exact ⟨accounted.confined_of named, fun _ => named⟩
  | false =>
    have none : changed? family result = none := changed?_of_not_updated changed
    exact ⟨(none ▸ accounted.confined).of_none, by simp [changed]⟩

theorem Phase.Bound.of_cleared {stamp : Int} {before : Option E} {entity : E} {guard : LockGuard}
    (bound : phase.Bound family key keeping start now)
    (cleared : Cleared family phase stamp before entity guard) :
    now.Untouched start ∧ (keeping → family.key entity = some key) := by
  cases cleared with
  | unclaimed => exact bound
  | checked => exact bound

omit [Key K] in
theorem key_changeOf {outcome : Outcome E} {own : K} (named : outcome.key family = some own)
    (change : ChangeKind) : (changeOf family outcome change).key family = some own := by
  obtain ⟨entity, within, own⟩ := Option.bind_eq_some_iff.mp named
  unfold changeOf Change.key
  cases result : outcome.after with
  | some row =>
    rw [result] at within
    obtain rfl := Option.some.inj within
    simp [own]
  | none =>
    rw [result] at within
    change outcome.before = some entity at within
    simp [within, own]

omit [Key K] in
theorem key_of_edits {named : K}
    (edits : operation = .update named ∨ operation = .updateOrCreate named)
    (own : operation.key? family = some key) : named = key := by
  rcases edits with rfl | rfl
  · exact Option.some.inj own
  · exact Option.some.inj own

variable [DecidableEq K] [DecidableEq E] {serves : Task.Serving (calls K E) (World K E)}

omit [DecidableEq K] in
theorem key_of_fetched {row : E} (keyed : start.table.Keyed family) (untouched : now.Untouched start)
    (met : World.Meets family (.store (.fetch key)) now (.ok (some row)) after) :
    family.key row = some key := by
  have found := met.fetched
  rw [untouched.rows] at found
  exact keyed key row found.symm

theorem Phase.Bound.of_move (lawful : family.Lawful) (keyed : start.table.Keyed family)
    (own : operation.key? family = some key)
    (bound : phase.Bound family key (KeepsKey family key serves) start now)
    (served : serves call now answer after) (met : World.Meets family call now answer after)
    (move : Moves family operation phase call answer next) :
    next.Bound family key (KeepsKey family key serves) start after := by
  cases move with
  | asksTransaction | asksStopped | pauses | ticks | fetchFails | misses | missesCreating
  | unlocksRefused =>
    exact World.Untouched.trans bound (met.untouched rfl rfl)
  | ticksUnkeyed stamp insert unkeyed =>
    subst insert
    exact absurd (own.symm.trans unkeyed) (by simp)
  | finds current edits =>
    obtain rfl := key_of_edits edits own
    exact ⟨World.Untouched.trans bound (met.untouched rfl rfl), key_of_fetched keyed bound met⟩
  | findsDoomed current removes =>
    subst removes
    obtain rfl := Option.some.inj own
    exact ⟨World.Untouched.trans bound (met.untouched rfl rfl), key_of_fetched keyed bound met⟩
  | creates made creates =>
    obtain rfl := key_of_edits (.inr creates) own
    refine ⟨World.Untouched.trans bound (met.untouched rfl rfl), ?_⟩
    rw [lawful.key_markCreated, lawful.key_withKey]
  | findsVacant insert =>
    subst insert
    refine ⟨World.Untouched.trans bound (met.untouched rfl rfl), fun _ => ?_⟩
    rw [freshly, lawful.key_markUpdated, lawful.key_markCreated]
    exact own
  | findsTaken existing =>
    exact .of_untouched rfl (World.Untouched.trans bound (met.untouched rfl rfl))
  | cancels | leaves =>
    exact .of_untouched rfl (World.Untouched.trans bound.1 (met.untouched rfl rfl))
  | edits mutated =>
    refine ⟨World.Untouched.trans bound.1 (met.untouched rfl rfl), fun keeping => ?_⟩
    rw [lawful.key_markUpdated]
    exact keeping _ _ _ _ served bound.2
  | lockFails | lookupFails | lookupClashes | deleteFails =>
    exact World.Untouched.trans bound.1 (met.untouched rfl rfl)
  | locks | lookupClears =>
    exact ⟨World.Untouched.trans bound.1 (met.untouched rfl rfl), bound.2⟩
  | insertFails cause cleared | mergeFails cause cleared =>
    exact (bound.of_cleared cleared).1.trans (met.untouched rfl rfl)
  | mergesNothing merged unchanged cleared =>
    exact .of_untouched rfl ((bound.of_cleared cleared).1.trans (met.untouched unchanged rfl))
  | inserts row cleared =>
    obtain ⟨untouched, keeps⟩ := bound.of_cleared cleared
    obtain ⟨named, own, given⟩ := Table.Effect.key_of_insert lawful.separate met.effect
    exact .of_own own (fun keeping => (given _ (keeps keeping)).symm) (.of_write lawful untouched met own)
  | merges merged changed cleared =>
    obtain ⟨untouched, keeps⟩ := bound.of_cleared cleared
    obtain ⟨named, given, own⟩ := Table.Effect.key_of_merge lawful.separate changed met.effect
    exact .of_own own (fun keeping => Option.some.inj (given.symm.trans (keeps keeping)))
      (.of_write lawful untouched met ((if_pos changed).trans own))
  | deletes =>
    obtain ⟨untouched, own⟩ := bound
    exact .of_own own (fun _ => rfl) (.of_write lawful untouched met own)
  | unlocks => exact Accounted.untouched bound (met.untouched rfl rfl)
  | forgets _ reported own =>
    have named := changed?_of_key reported own
    exact Accounted.of_confined bound named ((Accounted.confined_of bound named).of_remove met)
  | @posts outcome change reported =>
    have updated : outcome.updated = true := outcome.isSome_change?.symm.trans (by simp [reported])
    obtain ⟨own, named, _⟩ := bound.named updated
    have key : outcome.key family = some own := by simpa [changed?, updated] using named
    exact Accounted.of_confined bound named
      ((Accounted.confined_of bound named).of_post (key_changeOf key change) met)

end Moves

section Runs

variable [DecidableEq K] [DecidableEq E] {family : Family K E} {key : K} {operation : Operation K E}
  {policy : RetryPolicy} {serves : Task.Serving (calls K E) (World K E)} {world after : World K E}
  {result : Except Error (Outcome E)}

/-- A write that changes anything names the key that it has to do with, and to that belongs all that is
different afterwards. This is the key that the write was made for, if the mutator leaves the key of the
record alone. -/
theorem write_confined (lawful : family.Lawful) (keyed : world.table.Keyed family)
    (own : operation.key? family = some key)
    (met : ∀ {call before answer after}, serves call before answer after →
      World.Meets family call before answer after)
    (run : (operation.program family policy).Runs serves world result after) :
    world.Confined family (changed? family result) after ∧
      (updated result = true → (changed? family result).isSome) ∧
      (KeepsKey family key serves → Addressed family key world after result) := by
  obtain ⟨phase, bound, ended⟩ := run.follows
    (fun now phase => phase.Bound family key (KeepsKey family key serves) world now)
    (⟨rfl, rfl, rfl, rfl⟩ : world.Untouched world) Operation.program_follows
    fun bound served move => bound.of_move lawful keyed own served (met served) move
  have accounted : Accounted family key (KeepsKey family key serves) world after result := by
    match result with
    | .error cause =>
      obtain rfl := ended
      exact .of_untouched rfl bound
    | .ok outcome =>
      obtain rfl | ⟨rfl, _⟩ := ended
      · exact bound
      · exact bound
  refine ⟨accounted.confined, ?_, accounted.addressed⟩
  intro changed
  obtain ⟨_, named, _⟩ := accounted.named changed
  simp [named]

end Runs

section Vault

def bob : Account := { Account.fresh "bob" 70 with id := some 2, version := 1 }

def vault : World Int64 Account where
  store := { inner := { table := { rows := .ofList [
    (1, { Account.fresh "ann" 10 with id := some 1, version := 1 }), (2, bob)] } } }

theorem keyed_vault : vault.table.Keyed Account.family := by
  have each : ∀ entry ∈ vault.table.rows.entries, Account.family.key entry.2 = some entry.1 := by
    decide +kernel
  intro key row found
  exact each (key, row) (SortedMap.mem_entries_iff.mpr found)

def payer : Client Int64 Account where
  reading drawn := drawn
  mutate account := ({ account with balance := account.balance + 5 }, .changed)
  create _ := .fresh "nobody" 0

/-- Someone who turns every account into another one with a number and an email of its own choice. -/
def impostor : Client Int64 Account where
  reading drawn := drawn
  mutate account := ({ account with id := some 2, email := "ann@example.org" }, .changed)
  create _ := .fresh "nobody" 0

theorem write_confined_vault :
    let run := (World.run Account.family payer ((Operation.update 1).program Account.family {})).run vault
    vault.table.Keyed Account.family ∧ updated run.1 = true ∧
      Addressed Account.family 1 vault run.2 run.1 := by
  intro run
  have whole : ((Operation.update 1).program Account.family {}).Runs
      (World.answers Account.family payer) vault run.1 run.2 := World.runs_of_run Prod.mk.eta.symm
  obtain ⟨_, _, addressed⟩ :=
    write_confined Account.family_lawful keyed_vault rfl (fun served => World.meets_serve served) whole
  refine ⟨keyed_vault, by decide +kernel, addressed ?_⟩
  rintro account before answer after served own
  obtain ⟨rfl, _⟩ := Prod.mk.inj served
  exact own

/-- Bob's account is overwritten in the course of an update of Ann's, and it is his that the result tells
of. Ann's account is as it was. -/
theorem write_elsewhere :
    vault.table.rows.get? 2 = some bob ∧
    ∀ operation : Operation Int64 Account, operation = .update 1 ∨ operation = .updateOrCreate 1 →
      let run := (World.run Account.family impostor (operation.program Account.family {})).run vault
      updated run.1 = true ∧ changed? Account.family run.1 = some 2 ∧
        run.2.table.rows.get? 2 ≠ some bob ∧
        run.2.table.rows.get? 1 = vault.table.rows.get? 1 ∧
        ¬ Addressed Account.family 1 vault run.2 run.1 := by
  have stored : vault.table.rows.get? 2 = some bob := by decide +kernel
  refine ⟨stored, ?_⟩
  intro operation edits run
  have ran : updated run.1 = true ∧ changed? Account.family run.1 = some 2 ∧
      run.2.table.rows.get? 2 ≠ some bob ∧ run.2.table.rows.get? 1 = vault.table.rows.get? 1 := by
    rcases edits with rfl | rfl
    · decide +kernel
    · decide +kernel
  obtain ⟨changed, named, overwritten, kept⟩ := ran
  refine ⟨changed, named, overwritten, kept, ?_⟩
  intro addressed
  apply overwritten
  rw [addressed.confined.rows 2 (by decide), stored]

end Vault

end Write

end OptimisticStore
