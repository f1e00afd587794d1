import OptimisticStore.Proofs.Serving
import OptimisticStore.Proofs.Writing.Moves
/-!
What a writer has in hand, and how it came by it.

A writer that changes a row carries a row once seen, and while nobody removes rows such a row is still there
or was replaced by a later version. Main statements: `Phase.Grounded.of_call`, by which nothing that others do
takes this from a writer, and `Phase.Grounded.of_move`, by which its own calls keep it.
-/
namespace OptimisticStore

variable {K E : Type} [Key K] [DecidableEq K]

def Client.KeepsIdentity (family : Family K E) (client : Client K E) : Prop :=
  ∀ entity, family.key (client.mutate entity).1 = family.key entity ∧
    family.version (client.mutate entity).1 = family.version entity

namespace Write

variable (family : Family K E) (operation : Operation K E) (client : Client K E) (table : Table K E)

/-- The record that the mutator is handed: a row once seen, or a record made where there was none. -/
inductive Origin : Int → Option E → E → Prop where
  | read {stamp : Int} {key : K} {current : E}
      (edits : operation = .update key ∨ operation = .updateOrCreate key)
      (own : family.key current = some key) (passed : table.Passed family key current) :
      Origin stamp (some current) current
  | made {stamp : Int} {key : K} (creates : operation = .updateOrCreate key) :
      Origin stamp none
        (family.markCreated (.ofMicros stamp) (family.withKey key (client.create key)))

/-- The record to be written: the mutator's work on its origin, or the record to insert. -/
inductive Prepared : Int → Option E → E → Prop where
  | edited {stamp : Int} {before : Option E} {original mutated : E}
      (origin : Origin family operation client table stamp before original)
      (changed : client.mutate original = (mutated, .changed)) :
      Prepared stamp before (family.markUpdated (.ofMicros stamp) mutated)
  | fresh {stamp : Int} {entity : E} (insert : operation = .insert entity) :
      Prepared stamp none (freshly family stamp entity)

def Phase.Grounded : Phase E → Prop
  | .editing stamp before entity => Origin family operation client table stamp before entity
  | .ready stamp before entity | .claiming stamp before entity _ _ =>
    Prepared family operation client table stamp before entity
  | .removing _ _ => False
  | _ => True

variable {family operation client table}

section Stability

variable {after : Table K E} {call : Call K E} {answer : call.Answer}

theorem Origin.of_call (lawful : family.Lawful) (versioned : family.Versioned) {stamp : Int}
    {before : Option E} {entity : E} (origin : Origin family operation client table stamp before entity)
    (effect : call.Effect family table answer after) (keeps : call.removes = false) :
    Origin family operation client after stamp before entity := by
  cases origin with
  | read edits own passed => exact .read edits own (passed.of_call lawful versioned effect keeps)
  | made creates => exact .made creates

theorem Prepared.of_call (lawful : family.Lawful) (versioned : family.Versioned) {stamp : Int}
    {before : Option E} {entity : E}
    (prepared : Prepared family operation client table stamp before entity)
    (effect : call.Effect family table answer after) (keeps : call.removes = false) :
    Prepared family operation client after stamp before entity := by
  cases prepared with
  | edited origin changed => exact .edited (origin.of_call lawful versioned effect keeps) changed
  | fresh insert => exact .fresh insert

theorem Phase.Grounded.of_call (lawful : family.Lawful) (versioned : family.Versioned)
    {phase : Phase E} (grounded : phase.Grounded family operation client table)
    (effect : call.Effect family table answer after) (keeps : call.removes = false) :
    phase.Grounded family operation client after := by
  cases phase with
  | editing stamp before entity => exact Origin.of_call lawful versioned grounded effect keeps
  | ready stamp before entity => exact Prepared.of_call lawful versioned grounded effect keeps
  | claiming stamp before entity guard checked =>
    exact Prepared.of_call lawful versioned grounded effect keeps
  | removing stamp current => exact grounded
  | _ => trivial

end Stability

omit [DecidableEq K] in
theorem Cleared.prepared {phase : Phase E} {stamp : Int} {before : Option E} {entity : E}
    {guard : LockGuard} (cleared : Cleared family phase stamp before entity guard)
    (grounded : phase.Grounded family operation client table) :
    Prepared family operation client table stamp before entity := by
  cases cleared with
  | unclaimed => exact grounded
  | checked => exact grounded

omit [DecidableEq K] in
theorem Moves.removes_eq_false {phase next : Phase E} {call : Call K E} {answer : call.Answer}
    (move : Moves family operation phase call answer next)
    (grounded : phase.Grounded family operation client table) : call.removes = false := by
  cases move with
  | deleteFails => exact grounded.elim
  | deletes => exact grounded.elim
  | _ => rfl

theorem Phase.Grounded.of_move [DecidableEq E] (lawful : family.Lawful) (versioned : family.Versioned)
    (stays : ∀ key, operation ≠ .delete key) {phase next : Phase E} {call : Call K E}
    {answer : call.Answer} {world after : World K E} (keyed : world.table.Keyed family)
    (grounded : phase.Grounded family operation client world.table)
    (move : Moves family operation phase call answer next)
    (served : (World.serve family client call).run world = (answer, after)) :
    next.Grounded family operation client after.table := by
  have effect := World.serve_effect served
  have keeps := move.removes_eq_false grounded
  cases move with
  | finds current edits =>
    have found := World.serve_fetch served
    have own := keyed _ current found.symm
    exact (Origin.read edits own (Table.passed_of_found found.symm)).of_call lawful versioned
      effect keeps
  | creates made creates =>
    obtain ⟨rfl, _⟩ := Prod.mk.inj served
    exact .made creates
  | edits mutated =>
    obtain ⟨changed, _⟩ := Prod.mk.inj served
    exact (Prepared.edited grounded changed).of_call lawful versioned effect keeps
  | ticksUnkeyed stamp insert => exact .fresh insert
  | findsVacant insert => exact .fresh insert
  | findsDoomed current removes => exact (stays _ removes).elim
  | locks guard => exact Prepared.of_call lawful versioned grounded effect keeps
  | lookupClears owner due own => exact Prepared.of_call lawful versioned grounded effect keeps
  | _ => trivial

omit [DecidableEq K] in
theorem Prepared.identity (lawful : family.Lawful) (keeps : client.KeepsIdentity family)
    {stamp : Int} {held entity : E}
    (prepared : Prepared family operation client table stamp (some held) entity) :
    ∃ key, operation.key? family = some key ∧ table.Passed family key held ∧
      family.key entity = some key ∧ family.version entity = family.version held := by
  cases prepared with
  | edited origin changed =>
    cases origin with
    | @read key _ edits own passed =>
      have named : operation.key? family = some key := by
        rcases edits with rfl | rfl
        · rfl
        · rfl
      obtain ⟨sameKey, sameVersion⟩ := keeps held
      rw [changed] at sameKey sameVersion
      refine ⟨key, named, passed, ?_, ?_⟩
      · rw [lawful.key_markUpdated, sameKey, own]
      · rw [lawful.version_markUpdated, sameVersion]

omit [DecidableEq K] in
theorem Prepared.key_of_none (lawful : family.Lawful) (keeps : client.KeepsIdentity family)
    {stamp : Int} {entity : E} {key : K}
    (prepared : Prepared family operation client table stamp none entity)
    (named : operation.key? family = some key) : family.key entity = some key := by
  cases prepared with
  | edited origin changed =>
    cases origin with
    | @made chosen creates =>
      subst creates
      have sameKey : chosen = key := Option.some.inj named
      subst sameKey
      have same := (keeps (family.markCreated (.ofMicros stamp)
        (family.withKey chosen (client.create chosen)))).1
      rw [changed] at same
      rw [lawful.key_markUpdated, same, lawful.key_markCreated, lawful.key_withKey]
  | fresh insert =>
    subst insert
    rw [freshly, lawful.key_markUpdated, lawful.key_markCreated]
    exact named

end Write

end OptimisticStore
