import OptimisticStore.Proofs.Writing.Serial
/-!
The moments with which a write marks its record.

A record that is made is marked on the way to its draft, one that is changed after the mutator had its
way, and one that is inserted in both respects. Main statement: `Phase.Marking.of_move`, by which every
draft carries the stamp of its attempt, and so does what is written (`Marked`).
-/
namespace OptimisticStore

section Marks

variable {K E : Type}

/-- The moments at which a record says it was created and updated: marking sets them, setting the key or
the version does not. -/
structure Family.Dated (family : Family K E) (created updated : E → Option Timestamp) : Prop where
  created_withKey : ∀ key entity, created (family.withKey key entity) = created entity
  created_withVersion : ∀ version entity, created (family.withVersion version entity) = created entity
  created_markCreated : ∀ moment entity, created (family.markCreated moment entity) = some moment
  created_markUpdated : ∀ moment entity, created (family.markUpdated moment entity) = created entity
  updated_withKey : ∀ key entity, updated (family.withKey key entity) = updated entity
  updated_withVersion : ∀ version entity, updated (family.withVersion version entity) = updated entity
  updated_markUpdated : ∀ moment entity, updated (family.markUpdated moment entity) = some moment

theorem Account.family_dated : Account.family.Dated Account.createdAt Account.updatedAt := by
  constructor <;> intros <;> rfl

def Client.KeepsCreated (created : E → Option Timestamp) (client : Client K E) : Prop :=
  ∀ entity, created (client.mutate entity).1 = created entity

namespace Family.Dated

variable {family : Family K E} {created updated : E → Option Timestamp}

theorem firstVersion (dated : family.Dated created updated) (entity : E) :
    created (Table.firstVersion family entity) = created entity ∧
      updated (Table.firstVersion family entity) = updated entity := by
  unfold Table.firstVersion
  split
  · exact ⟨dated.created_withVersion _ _, dated.updated_withVersion _ _⟩
  · exact ⟨rfl, rfl⟩

theorem nextVersion (dated : family.Dated created updated) (current entity : E) :
    created (Table.nextVersion family current entity) = created entity ∧
      updated (Table.nextVersion family current entity) = updated entity := by
  unfold Table.nextVersion
  split
  · exact ⟨dated.created_withVersion _ _, dated.updated_withVersion _ _⟩
  · exact ⟨rfl, rfl⟩

end Family.Dated

end Marks

namespace Write

variable {K E : Type} [Key K]

section Phases

variable (family : Family K E) (created updated : E → Option Timestamp)

def createdAt (stamp : Int) : Option E → Option Timestamp
  | none => some (.ofMicros stamp)
  | some held => created held

/-- The record written is marked with the stamp of the outcome, whatever the mutator marked it with. -/
structure Marked (outcome : Outcome E) (row : E) : Prop where
  after : outcome.after = some row
  inserted : outcome.inserted = outcome.before.isNone
  deleted : outcome.deleted = false
  updated : updated row = some (.ofMicros outcome.timestamp)
  created : created row = createdAt created outcome.timestamp outcome.before
  keyed : (family.key row).isSome

/-- From its draft on a record is marked with the stamp of the attempt, unless it is to be removed. -/
def Phase.Marking (operation : Operation K E) : Phase E → Prop
  | .editing stamp before entity => created entity = createdAt created stamp before
  | .ready stamp before entity | .claiming stamp before entity _ _ =>
    created entity = createdAt created stamp before ∧ updated entity = some (.ofMicros stamp)
  | .removing _ _ => ∃ key, operation = .delete key
  | .written _ outcome | .settled outcome | .announced outcome =>
    outcome.updated = true →
      (∃ row, Marked family created updated outcome row) ∨ ∃ key, operation = .delete key
  | _ => True

end Phases

section Moves

variable {family : Family K E} {created updated : E → Option Timestamp} {operation : Operation K E}
  {phase next : Phase E} {stamp : Int} {before : Option E} {entity : E} {guard : LockGuard}
  {client : Client K E} {table after : Table K E}

omit [Key K] in
theorem Cleared.marking (cleared : Cleared family phase stamp before entity guard)
    (marking : phase.Marking family created updated operation) :
    created entity = createdAt created stamp before ∧ updated entity = some (.ofMicros stamp) := by
  cases cleared with
  | unclaimed => exact marking
  | checked => exact marking

omit [Key K] in
theorem Phase.Marking.of_outcome {outcome : Outcome E}
    (marking : phase.Marking family created updated operation) (told : phase.outcome? = some outcome)
    (written : outcome.updated = true) (edits : ∀ key, operation ≠ .delete key) :
    ∃ row, Marked family created updated outcome row := by
  have marked : outcome.updated = true →
      (∃ row, Marked family created updated outcome row) ∨ ∃ key, operation = .delete key := by
    cases phase with
    | written | settled | announced =>
      obtain rfl := Option.some.inj told
      exact marking
    | _ => cases told
  exact (marked written).resolve_right fun ⟨key, same⟩ => edits key same

omit [Key K] in
theorem marking_freshly (dated : family.Dated created updated) (entity : E) :
    created (freshly family stamp entity) = some (.ofMicros stamp) ∧
      updated (freshly family stamp entity) = some (.ofMicros stamp) := by
  refine ⟨?_, dated.updated_markUpdated _ _⟩
  rw [freshly, dated.created_markUpdated, dated.created_markCreated]

theorem marked_of_insert {row : E} (lawful : family.Lawful) (dated : family.Dated created updated)
    (marked : created entity = some (.ofMicros stamp) ∧ updated entity = some (.ofMicros stamp))
    (effect : table.Effect family (.insert entity) (.ok row) after) :
    Marked family created updated (.ofInsert family.kind row stamp) row := by
  cases effect.writes rfl with
  | @insert _ held key _ own =>
    have same : created held = created entity ∧ updated held = updated entity := by
      rcases own with ⟨_, rfl⟩ | ⟨_, rfl⟩
      · exact ⟨rfl, rfl⟩
      · exact ⟨dated.created_withKey _ _, dated.updated_withKey _ _⟩
    obtain ⟨sameCreated, sameUpdated⟩ := dated.firstVersion held
    have keyed := (Table.key_firstVersion lawful.separate held).trans
      (Table.key_of_own lawful.separate own)
    constructor
    · rfl
    · rfl
    · rfl
    · exact sameUpdated.trans (same.2.trans marked.2)
    · exact sameCreated.trans (same.1.trans marked.1)
    · exact Option.isSome_of_eq_some keyed

theorem marked_of_merge {held : E} {merged : Merged E} (lawful : family.Lawful)
    (dated : family.Dated created updated)
    (marked : created entity = created held ∧ updated entity = some (.ofMicros stamp))
    (changed : merged.changed = true)
    (effect : table.Effect family (.merge entity) (.ok merged) after) :
    Marked family created updated (.ofUpdate family.kind held merged.entity stamp) merged.entity := by
  cases effect.writes changed with
  | @merge _ current key _ own =>
    obtain ⟨sameCreated, sameUpdated⟩ := dated.nextVersion current entity
    have keyed := (Table.key_nextVersion lawful.separate current entity).trans own
    constructor
    · rfl
    · rfl
    · rfl
    · exact sameUpdated.trans marked.2
    · exact sameCreated.trans marked.1
    · exact Option.isSome_of_eq_some keyed

variable [DecidableEq E] {world last : World K E} {call : Call K E} {answer : call.Answer}

theorem Phase.Marking.of_move (lawful : family.Lawful) (dated : family.Dated created updated)
    (keeps : client.KeepsCreated created) (marking : phase.Marking family created updated operation)
    (served : (World.serve family client call).run world = (answer, last))
    (move : Moves family operation phase call answer next) :
    next.Marking family created updated operation := by
  have effect := World.serve_effect served
  cases move with
  | ticksUnkeyed => exact marking_freshly dated _
  | finds current => exact rfl
  | creates made => exact dated.created_markCreated _ _
  | findsVacant => exact marking_freshly dated _
  | findsDoomed current removes => exact ⟨_, removes⟩
  | @edits stamp before entity mutated =>
    refine ⟨?_, dated.updated_markUpdated _ _⟩
    obtain ⟨same, _⟩ := Prod.mk.inj served
    have kept := keeps entity
    rw [same] at kept
    rw [dated.created_markUpdated]
    exact kept.trans marking
  | locks => exact marking
  | lookupClears => exact marking
  | inserts row cleared =>
    exact fun _ => .inl ⟨row, marked_of_insert lawful dated (cleared.marking marking) effect⟩
  | merges merged changed cleared =>
    exact fun _ =>
      .inl ⟨merged.entity, marked_of_merge lawful dated (cleared.marking marking) changed effect⟩
  | deletes => exact fun _ => .inr marking
  | unlocks => exact marking
  | forgets => exact marking
  | posts => exact marking
  | findsTaken => simp [Phase.Marking, Outcome.ofUnchanged]
  | cancels => simp [Phase.Marking, Outcome.ofCancel]
  | leaves => simp [Phase.Marking, Outcome.ofUnchanged]
  | mergesNothing => simp [Phase.Marking, Outcome.ofUnchanged]
  | _ => trivial

end Moves

end Write

end OptimisticStore
