import OptimisticStore.Proofs.Writing.Attempts
/-!
What a commit leaves at one stamp, and what it leaves at another.

Records that come about in the same way at two moments differ in their marks and nowhere else (`Remarked`),
and a table goes by no marks, but for one thing: a row that is merged into itself is left as it is. Main
statement: `attempt_restamped`, by which attempts at one operation at two stamps come to the same but for the
stamps if these make no difference to what is drafted (`Operation.Indifferent`).
-/
namespace OptimisticStore

variable {K E : Type} [Key K]

/-- Two records that come about in the same way, the one with marks of one moment where the other has marks
of another. -/
inductive Family.Remarked (family : Family K E) (moment other : Timestamp) : E → E → Prop where
  | same (entity : E) : Remarked family moment other entity entity
  | created {entity twin : E} (alike : Remarked family moment other entity twin) :
      Remarked family moment other (family.markCreated moment entity) (family.markCreated other twin)
  | updated {entity twin : E} (alike : Remarked family moment other entity twin) :
      Remarked family moment other (family.markUpdated moment entity) (family.markUpdated other twin)
  | keyed {entity twin : E} (key : K) (alike : Remarked family moment other entity twin) :
      Remarked family moment other (family.withKey key entity) (family.withKey key twin)
  | versioned {entity twin : E} (version : Int) (alike : Remarked family moment other entity twin) :
      Remarked family moment other (family.withVersion version entity) (family.withVersion version twin)

namespace Family.Remarked

variable {family : Family K E} {moment other : Timestamp} {entity twin current : E}

omit [Key K] in
theorem key (lawful : family.Lawful) (alike : family.Remarked moment other entity twin) :
    family.key twin = family.key entity := by
  induction alike with
  | same entity => rfl
  | created _ ih => rw [lawful.key_markCreated, lawful.key_markCreated, ih]
  | updated _ ih => rw [lawful.key_markUpdated, lawful.key_markUpdated, ih]
  | keyed key => rw [lawful.key_withKey, lawful.key_withKey]
  | versioned version _ ih => rw [lawful.key_withVersion, lawful.key_withVersion, ih]

omit [Key K] in
theorem version (lawful : family.Lawful) (alike : family.Remarked moment other entity twin) :
    family.version twin = family.version entity := by
  induction alike with
  | same entity => rfl
  | created _ ih => rw [lawful.version_markCreated, lawful.version_markCreated, ih]
  | updated _ ih => rw [lawful.version_markUpdated, lawful.version_markUpdated, ih]
  | keyed key _ ih => rw [lawful.version_withKey, lawful.version_withKey, ih]
  | versioned version _ ih => rw [lawful.version_withVersion, lawful.version_withVersion, ih]

omit [Key K] in
theorem firstVersion (lawful : family.Lawful) (alike : family.Remarked moment other entity twin) :
    family.Remarked moment other (Table.firstVersion family entity) (Table.firstVersion family twin) := by
  unfold Table.firstVersion
  rw [alike.version lawful]
  split
  · exact alike.versioned 1
  · exact alike

omit [Key K] in
theorem nextVersion (alike : family.Remarked moment other entity twin) :
    family.Remarked moment other (Table.nextVersion family current entity)
      (Table.nextVersion family current twin) := by
  unfold Table.nextVersion
  cases family.version current with
  | some version => exact alike.versioned (version + 1)
  | none => exact alike

end Family.Remarked

theorem Account.eq_of_remarked {moment other : Timestamp} {account twin : Account}
    (alike : Account.family.Remarked moment other account twin) :
    twin = { account with createdAt := twin.createdAt, updatedAt := twin.updatedAt } := by
  induction alike with
  | same account => rfl
  | created _ ih | updated _ ih | keyed _ _ ih | versioned _ _ ih =>
    rw [ih]
    rfl

namespace Table

variable {family : Family K E} {moment other : Timestamp} {table after last : Table K E}
  {entity twin row row' : E} {key : K}

def Remarked (family : Family K E) (moment other : Timestamp) (table twin : Table K E) : Prop :=
  ∀ key, Option.Rel (family.Remarked moment other) (table.rows.get? key) (twin.rows.get? key)

def Stores (family : Family K E) (table : Table K E) (entity : E) : Prop :=
  ∃ key, family.key entity = some key ∧ table.rows.get? key = some entity

theorem Remarked.refl (table : Table K E) : table.Remarked family moment other table := by
  intro key
  cases table.rows.get? key with
  | none => exact .none
  | some row => exact .some (.same row)

theorem Remarked.of_inserted [DecidableEq K] (alike : family.Remarked moment other row row')
    (rows : after.rows = table.rows.insert key row) (rows' : last.rows = table.rows.insert key row') :
    after.Remarked family moment other last := by
  intro other
  rw [rows, rows', SortedMap.get?_insert, SortedMap.get?_insert]
  split
  next => exact .some alike
  next => exact Remarked.refl table other

variable [DecidableEq K]

theorem insertAt_remarked (lawful : family.Lawful) (alike : family.Remarked moment other entity twin)
    (done : insertAt family table key entity = (.ok row, after))
    (done' : insertAt family table key twin = (.ok row', last)) :
    family.Remarked moment other row row' ∧ after.Remarked family moment other last := by
  unfold insertAt at done done'
  split at done
  next => cases (Prod.mk.inj done).1
  next vacant =>
    rw [if_neg vacant] at done'
    split at done
    next => cases (Prod.mk.inj done).1
    next =>
      split at done'
      next => cases (Prod.mk.inj done').1
      next =>
        obtain ⟨stored, rfl⟩ := Prod.mk.inj done
        obtain ⟨stored', rfl⟩ := Prod.mk.inj done'
        obtain rfl := Except.ok.inj stored
        obtain rfl := Except.ok.inj stored'
        exact ⟨alike.firstVersion lawful, .of_inserted (alike.firstVersion lawful) rfl rfl⟩

/-- The key that a record is given depends on the table alone. -/
theorem insert_remarked (lawful : family.Lawful) (alike : family.Remarked moment other entity twin)
    (done : table.insert family entity = (.ok row, after))
    (done' : table.insert family twin = (.ok row', last)) :
    family.Remarked moment other row row' ∧ after.Remarked family moment other last := by
  unfold Table.insert at done done'
  rw [alike.key lawful] at done'
  cases own : family.key entity with
  | some key =>
    simp only [own] at done done'
    exact insertAt_remarked lawful alike done done'
  | none =>
    simp only [own] at done done'
    split at done
    next => cases (Prod.mk.inj done).1
    next key drawn found =>
      rw [found] at done'
      exact insertAt_remarked lawful (alike.keyed key) done done'

omit [DecidableEq K] in
theorem merge_cases [DecidableEq E] {merged : Merged E}
    (done : table.merge family entity = (.ok merged, after)) :
    (table.Stores family entity ∧ merged = ⟨entity, false⟩ ∧ after = table) ∨
    ¬ table.Stores family entity ∧ ∃ key current, family.key entity = some key ∧
      table.rows.get? key = some current ∧ merged = ⟨nextVersion family current entity, true⟩ ∧
      after.rows = table.rows.insert key (nextVersion family current entity) := by
  unfold Table.merge at done
  split at done
  next => cases (Prod.mk.inj done).1
  next key own =>
    split at done
    next => cases (Prod.mk.inj done).1
    next current found =>
      split at done
      next same =>
        subst same
        obtain ⟨left, rfl⟩ := Prod.mk.inj done
        exact .inl ⟨⟨key, own, found⟩, (Except.ok.inj left).symm, rfl⟩
      next changed =>
        split at done
        next => cases (Prod.mk.inj done).1
        next =>
          split at done
          next => cases (Prod.mk.inj done).1
          next =>
            obtain ⟨stored, rfl⟩ := Prod.mk.inj done
            refine .inr ⟨?_, key, current, own, found, (Except.ok.inj stored).symm, rfl⟩
            rintro ⟨_, mine, there⟩
            obtain rfl := Option.some.inj (own.symm.trans mine)
            exact changed (Option.some.inj (found.symm.trans there))

theorem merge_remarked [DecidableEq E] (lawful : family.Lawful)
    (alike : family.Remarked moment other entity twin)
    (kept : table.Stores family entity ↔ table.Stores family twin) {merged merged' : Merged E}
    (done : table.merge family entity = (.ok merged, after))
    (done' : table.merge family twin = (.ok merged', last)) :
    (merged.changed = true ∧ merged'.changed = true ∨ merged.changed = false ∧ merged' = merged) ∧
      family.Remarked moment other merged.entity merged'.entity ∧
      after.Remarked family moment other last := by
  rcases merge_cases done with ⟨stored, rfl, rfl⟩ | ⟨unstored, key, current, own, found, rfl, rows⟩
  · rcases merge_cases done' with ⟨stored', rfl, rfl⟩ | ⟨unstored', _⟩
    · obtain ⟨key, own, found⟩ := stored
      obtain ⟨key', own', found'⟩ := stored'
      rw [alike.key lawful, own] at own'
      obtain rfl := Option.some.inj own'
      obtain rfl := Option.some.inj (found.symm.trans found')
      exact ⟨.inr ⟨rfl, rfl⟩, .same _, .refl _⟩
    · exact absurd (kept.mp stored) unstored'
  · rcases merge_cases done' with ⟨stored', _⟩ | ⟨_, key', current', own', found', rfl, rows'⟩
    · exact absurd (kept.mpr stored') unstored
    · rw [alike.key lawful, own] at own'
      obtain rfl := Option.some.inj own'
      obtain rfl := Option.some.inj (found.symm.trans found')
      exact ⟨.inl ⟨rfl, rfl⟩, alike.nextVersion, .of_inserted alike.nextVersion rows rows'⟩

end Table

/-- Two outcomes that differ in their stamps and in the marks of the record, and in nothing else. -/
structure Outcome.Restamped (family : Family K E) (stamp other : Int) (outcome twin : Outcome E) :
    Prop where
  eq : twin = { outcome with after := twin.after, timestamp := twin.timestamp }
  after : Option.Rel (family.Remarked (.ofMicros stamp) (.ofMicros other)) outcome.after twin.after
  stamped : outcome.timestamp = stamp
  restamped : twin.timestamp = other

namespace Write

open Watched

variable [DecidableEq K] [DecidableEq E] {family : Family K E} {client : Client K E}
  {operation : Operation K E} {before : Option E} {entity twin : E} {stamp other : Int}
  {now next late last : Watched K E} {outcome outcome' : Outcome E}

section Commits

omit [DecidableEq K] in
theorem runs_commit_insert
    (run : (commit family none entity stamp).Runs (serves family client) now (.ok outcome) next) :
    ∃ row, now.world.table.insert family entity = (.ok row, next.world.table) ∧
      outcome = .ofInsert family.kind row stamp := by
  obtain ⟨answer, written, served, rest⟩ := Task.runs_ask_bind.mp run
  match answer with
  | .error cause => cases (Task.runs_pure.mp rest).1
  | .ok row =>
    obtain ⟨same, rfl⟩ := Task.runs_pure.mp rest
    exact ⟨row, World.serve_insert (world_of_serves served), Except.ok.inj same⟩

omit [DecidableEq K] in
theorem runs_commit_merge {held : E}
    (run : (commit family (some held) entity stamp).Runs (serves family client) now (.ok outcome)
      next) :
    ∃ merged, now.world.table.merge family entity = (.ok merged, next.world.table) ∧
      outcome = if merged.changed then .ofUpdate family.kind held merged.entity stamp
        else .ofUnchanged family.kind merged.entity stamp := by
  obtain ⟨answer, written, served, rest⟩ := Task.runs_ask_bind.mp run
  match answer with
  | .error cause => cases (Task.runs_pure.mp rest).1
  | .ok merged =>
    have merges := World.serve_merge (world_of_serves served)
    dsimp only at rest
    split at rest
    next changed =>
      obtain ⟨same, rfl⟩ := Task.runs_pure.mp rest
      exact ⟨merged, merges, by rw [if_pos changed, Except.ok.inj same]⟩
    next unchanged =>
      obtain ⟨same, rfl⟩ := Task.runs_pure.mp rest
      exact ⟨merged, merges, by rw [if_neg unchanged, Except.ok.inj same]⟩

theorem commit_restamped (lawful : family.Lawful)
    (alike : family.Remarked (.ofMicros stamp) (.ofMicros other) entity twin)
    (run : (commit family before entity stamp).Runs (serves family client) now (.ok outcome) next)
    (run' : (commit family before twin other).Runs (serves family client) late (.ok outcome') last)
    (kept : before.isSome →
      (now.world.table.Stores family entity ↔ now.world.table.Stores family twin))
    (tables : late.world.table = now.world.table) :
    outcome.Restamped family stamp other outcome' ∧
      next.world.table.Remarked family (.ofMicros stamp) (.ofMicros other) last.world.table := by
  cases before with
  | none =>
    obtain ⟨row, done, rfl⟩ := runs_commit_insert run
    obtain ⟨row', done', rfl⟩ := runs_commit_insert run'
    rw [tables] at done'
    obtain ⟨rows, tables⟩ := Table.insert_remarked lawful alike done done'
    exact ⟨⟨rfl, .some rows, rfl, rfl⟩, tables⟩
  | some held =>
    obtain ⟨merged, done, rfl⟩ := runs_commit_merge run
    obtain ⟨merged', done', rfl⟩ := runs_commit_merge run'
    rw [tables] at done'
    obtain ⟨⟨changed, changed'⟩ | ⟨unchanged, rfl⟩, rows, tables⟩ :=
      Table.merge_remarked lawful alike (kept rfl) done done'
    · rw [if_pos changed, if_pos changed']
      exact ⟨⟨rfl, .some rows, rfl, rfl⟩, tables⟩
    · simp only [unchanged, Bool.false_eq_true, if_false]
      exact ⟨⟨rfl, .some rows, rfl, rfl⟩, tables⟩

theorem guardedCommit_restamped (lawful : family.Lawful)
    (alike : family.Remarked (.ofMicros stamp) (.ofMicros other) entity twin)
    (run : (guardedCommit family before entity stamp).Runs (serves family client) now (.ok outcome)
      next)
    (run' : (guardedCommit family before twin other).Runs (serves family client) late (.ok outcome')
      last)
    (kept : before.isSome →
      (now.world.table.Stores family entity ↔ now.world.table.Stores family twin))
    (tables : late.world.table = now.world.table) :
    outcome.Restamped family stamp other outcome' ∧
      next.world.table.Remarked family (.ofMicros stamp) (.ofMicros other) last.world.table := by
  rcases guardedCommit_cases run with ⟨_, _, failed⟩ | ⟨_, _, _, claimed, committed, rfl⟩
  · cases failed
  rcases guardedCommit_cases run' with ⟨_, _, failed⟩ | ⟨_, _, _, claimed', committed', rfl⟩
  · cases failed
  obtain ⟨_, _, rfl⟩ := stays_of_acquire claimed
  obtain ⟨_, _, rfl⟩ := stays_of_acquire claimed'
  have restamped := commit_restamped lawful alike committed committed' kept tables
  exact restamped

end Commits

section Drafts

/-- Whether a record is drafted at the one stamp or the other makes no difference: the draft of an update
is a row already at both or at neither, and what the mutator makes of a record that has to be made differs
in the marks only. -/
structure Operation.Indifferent (family : Family K E) (client : Client K E) (table : Table K E)
    (stamp other : Int) (operation : Operation K E) : Prop where
  kept : ∀ key current, operation = .update key ∨ operation = .updateOrCreate key →
    table.rows.get? key = some current →
      (table.Stores family (family.markUpdated (.ofMicros stamp) (client.mutate current).1) ↔
        table.Stores family (family.markUpdated (.ofMicros other) (client.mutate current).1))
  made : ∀ key, operation = .updateOrCreate key → table.rows.get? key = none →
    family.Remarked (.ofMicros stamp) (.ofMicros other)
      (madeAt family client key (.ofMicros stamp)) (madeAt family client key (.ofMicros other))

omit [DecidableEq K] [DecidableEq E] in
theorem Operation.Drafts.restamped {table : Table K E}
    (indifferent : operation.Indifferent family client table stamp other)
    (drafts : operation.Drafts family client table.rows stamp before entity) :
    ∃ twin, operation.Drafts family client table.rows other before twin ∧
      family.Remarked (.ofMicros stamp) (.ofMicros other) entity twin ∧
      (before.isSome → (table.Stores family entity ↔ table.Stores family twin)) := by
  cases drafts with
  | @edited key current edits found =>
    exact ⟨_, .edited edits found, .updated (.same _), fun _ => indifferent.kept key current edits found⟩
  | @made key creates vacant =>
    exact ⟨_, .made creates vacant, .updated (indifferent.made key creates vacant), fun some => by cases some⟩
  | @fresh entity inserts vacant =>
    exact ⟨_, .fresh inserts vacant, .updated (.created (.same _)), fun some => by cases some⟩

/-- Attempts that succeed on the same rows at two stamps come to the same but for the stamps, if these make
no difference to what is drafted. -/
theorem attempt_restamped (lawful : family.Lawful) (changes : client.Changes)
    (commits : operation.CommitsOn family now.world.table.rows)
    (run : (operation.attempt family).Runs (serves family client) now (.ok outcome) next)
    (run' : (operation.attempt family).Runs (serves family client) late (.ok outcome') last)
    (tables : late.world.table = now.world.table)
    (indifferent : operation.Indifferent family client now.world.table (now.world.nextStamp client)
      (late.world.nextStamp client)) :
    outcome.Restamped family (now.world.nextStamp client) (late.world.nextStamp client) outcome' ∧
      next.world.table.Remarked family (.ofMicros (now.world.nextStamp client))
        (.ofMicros (late.world.nextStamp client)) last.world.table := by
  obtain ⟨before, entity, drafts⟩ := Operation.exists_drafts commits (now.world.nextStamp client)
  obtain ⟨twin, drafts', alike, kept⟩ := drafts.restamped indifferent
  rw [← tables] at drafts'
  rcases attempt_cases changes drafts run with ⟨_, _, failed⟩ | ⟨_, committed⟩
  · cases failed
  rcases attempt_cases changes drafts' run' with ⟨_, _, failed⟩ | ⟨_, committed'⟩
  · cases failed
  exact guardedCommit_restamped lawful alike committed committed' kept tables

end Drafts

end Write

end OptimisticStore
