import OptimisticStore.Proofs.Watching
import OptimisticStore.Proofs.Writing.UniqueValues
import OptimisticStore.Proofs.Writing.Unreported
import OptimisticStore.Sample.Record
/-!
Two ways to find out whether a record may be written: a writer looks up the values that it is about to
claim, and the store compares all values of the record with all rows.

Main statement: `acquire_agrees`, by which they come to the same verdict where unique values are apart, and
by which a writer that is turned away keeps no lock and is told of a value that another row does hold.
-/
namespace OptimisticStore

variable {K E : Type} [Key K] {family : Family K E}

theorem LockTable.granted_of_free {table : LockTable} {names : List String}
    (free : ∀ name ∈ names, name ∉ table.held) :
    ∃ guard taken, table.lock names = (.ok guard, taken) ∧ taken.release guard = table := by
  cases granted : table.lock names with
  | mk answer taken =>
    cases answer with
    | error cause =>
      obtain ⟨refused, _⟩ := lock_eq_error granted
      obtain ⟨name, within, held⟩ := tryLock_eq_none_iff.mp refused
      exact absurd held (free name within)
    | ok guard =>
      refine ⟨guard, taken, rfl, ext_held fun name => ?_⟩
      obtain ⟨apart, held, _⟩ := lock_granted granted
      rw [mem_release, held]
      have other := apart name
      tauto

namespace Table

/-- What the store compares with its rows when `after` is written in place of `before`, and under which
key: a record in place of the row of its own key, a record whose key has no row, or a record under a key
without a row that it is given (as is every key drawn from the sequence, by `freshKeyWithin_spec`). -/
inductive Checks (family : Family K E) (table : Table K E) : Option E → E → K → E → Prop where
  | update {held after : E} {key : K} (own : family.key after = some key)
      (current : table.rows.get? key = some held) : Checks family table (some held) after key after
  | insert {after : E} {key : K} (own : family.key after = some key)
      (vacant : table.rows.get? key = none) : Checks family table none after key after
  | insertGiven {after : E} {key : K} (unkeyed : family.key after = none)
      (vacant : table.rows.get? key = none) :
      Checks family table none after key (family.withKey key after)

variable {table : Table K E} {before : Option E} {after entity : E} {key : K}

/-- Whoever holds a value that is claimed holds it under the record's own key. -/
def ClaimsFree (family : Family K E) (table : Table K E) (before : Option E) (after : E) : Prop :=
  ∀ field ∈ Uniqueness.claimed family before after, ∀ owner,
    table.findUnique family field = some owner → family.key after = some owner

omit [Key K] in
theorem uniqueFields_of_claimed {field : UniqueField}
    (claimed : field ∈ Uniqueness.claimed family before after) : field ∈ family.uniqueFields after := by
  cases before with
  | none => exact claimed
  | some held => exact (Write.mem_claimed_some.mp claimed).1

theorem Checks.ne_of_owner (checks : table.Checks family before after key entity) {owner : K} {row : E}
    (found : table.rows.get? owner = some row) (other : family.key after ≠ some owner) :
    owner ≠ key := by
  rintro rfl
  cases checks with
  | update own => exact other own
  | insert own => exact other own
  | insertGiven _ vacant =>
    rw [vacant] at found
    cases found

theorem Checks.uniqueFields_eq (separate : family.Separate)
    (checks : table.Checks family before after key entity) :
    family.uniqueFields entity = family.uniqueFields after := by
  cases checks with
  | update | insert => rfl
  | insertGiven => exact separate.unique_withKey key after

theorem ClaimsFree.holder (free : table.ClaimsFree family before after)
    (distinct : table.Distinct family) {field : UniqueField} {other : K} {row : E}
    (claimed : field ∈ Uniqueness.claimed family before after)
    (found : table.rows.get? other = some row) (holds : field ∈ family.uniqueFields row) :
    family.key after = some other :=
  free field claimed other ((findUnique_eq_some_iff distinct).mpr ⟨row, found, holds⟩)

/-- Looking up what is claimed comes to the same as comparing everything with everything. Of the values
that are not claimed the row that is replaced is the only holder. -/
theorem claimsFree_iff (separate : family.Separate) (distinct : table.Distinct family)
    (checks : table.Checks family before after key entity) :
    table.ClaimsFree family before after ↔ checkUnique family table key entity = .ok () := by
  rw [checkUnique_eq_ok_iff]
  have same := checks.uniqueFields_eq separate
  constructor
  · intro free other row found field within holds
    rw [same] at within
    cases checks with
    | @update held _ _ own current =>
      by_cases kept : field ∈ family.uniqueFields held
      · exact distinct key held current other row found field kept holds
      · have holder := free.holder distinct (Write.mem_claimed_some.mpr ⟨within, kept⟩) found holds
        exact Option.some.inj (holder.symm.trans own)
    | insert own =>
      have holder := free.holder distinct within found holds
      exact Option.some.inj (holder.symm.trans own)
    | insertGiven unkeyed =>
      have holder := free.holder distinct within found holds
      rw [unkeyed] at holder
      cases holder
  · intro unshared field claimed owner looked
    obtain ⟨row, found, holds⟩ := holds_of_findUnique family looked
    have within := uniqueFields_of_claimed claimed
    rw [← same] at within
    have holder := unshared owner row found field within holds
    by_contra other
    exact checks.ne_of_owner found other holder

end Table

namespace Uniqueness

inductive Verdict (family : Family K E) (table : Table K E) (own : Option K)
    (fields : List UniqueField) : Except StoreError Unit → Prop where
  | passes (free : ∀ field ∈ fields, ∀ owner, table.findUnique family field = some owner →
      own = some owner) : Verdict family table own fields (.ok ())
  | refuses {field : UniqueField} {owner : K} (within : field ∈ fields)
      (found : table.findUnique family field = some owner) (foreign : own ≠ some owner) :
      Verdict family table own fields (.error (taken family field))

theorem Verdict.cons {table : Table K E} {own : Option K} {field : UniqueField}
    {rest : List UniqueField} {verdict : Except StoreError Unit}
    (free : ∀ owner, table.findUnique family field = some owner → own = some owner)
    (later : Verdict family table own rest verdict) :
    Verdict family table own (field :: rest) verdict := by
  cases later with
  | passes others => exact .passes (List.forall_mem_cons.mpr ⟨free, others⟩)
  | refuses within found foreign => exact .refuses (List.mem_cons_of_mem _ within) found foreign

variable [DecidableEq K] [DecidableEq E] {client : Client K E} {world last : World K E}
  {before : Option E} {after entity : E} {key : K}

theorem check_verdict {own : Option K} {fields : List UniqueField} {verdict : Except StoreError Unit}
    (reached : world.store.inner.poisoned = false)
    (run : (check family own fields).Runs (World.answers family client) world verdict last) :
    Verdict family world.table own fields verdict ∧ last.locks = world.locks := by
  induction fields generalizing world with
  | nil =>
    obtain ⟨rfl, rfl⟩ := Task.runs_pure.mp run
    exact ⟨.passes fun field within => absurd within List.not_mem_nil, rfl⟩
  | cons field rest ih =>
    obtain ⟨answer, mid, served, run⟩ := Task.runs_ask_bind.mp run
    obtain ⟨counts, rfl⟩ := World.serve_read served rfl
    have looked : answer = .ok (world.table.findUnique family field) := by
      have answered := (Prod.mk.inj served).1.symm.trans (world.store.inner.answer_findUnique field)
      rw [answered, reached]
      rfl
    subst looked
    have later := fun run => @ih (world.recounted counts) (by exact reached) run
    cases found : world.table.findUnique family field with
    | none =>
      rw [found] at run
      obtain ⟨verdict, locks⟩ := later run
      exact ⟨verdict.cons (by simp [found]), locks⟩
    | some owner =>
      rw [found] at run
      dsimp only at run
      split at run
      next same =>
        obtain ⟨verdict, locks⟩ := later run
        exact ⟨verdict.cons (by simp [found, same]), locks⟩
      next foreign =>
        obtain ⟨rfl, rfl⟩ := Task.runs_pure.mp run
        exact ⟨.refuses List.mem_cons_self found foreign, rfl⟩

theorem acquire_verdict {result : Except Error LockGuard}
    (reached : world.store.inner.poisoned = false)
    (free : ∀ name ∈ lockNames family (claimed family before after), name ∉ world.locks.held)
    (run : (acquire family before after).Runs (World.answers family client) world result last) :
    (∃ guard, result = .ok guard ∧ world.table.ClaimsFree family before after) ∨
      ∃ field owner, field ∈ claimed family before after ∧
        world.table.findUnique family field = some owner ∧ family.key after ≠ some owner ∧
        result = .error (.store (taken family field)) ∧ last.locks = world.locks := by
  unfold acquire at run
  dsimp only at run
  split at run
  next none =>
    obtain ⟨rfl, rfl⟩ := Task.runs_pure.mp run
    refine .inl ⟨.empty, rfl, ?_⟩
    intro field within
    rw [List.isEmpty_iff.mp none] at within
    cases within
  next =>
    obtain ⟨answer, held, served, run⟩ := Task.runs_ask_bind.mp run
    obtain ⟨guard, locks, granted, released⟩ := LockTable.granted_of_free free
    have answered : answer = .ok guard ∧ held = { world with locks } := by
      obtain ⟨rfl, rfl⟩ := Prod.mk.inj served
      change (world.locks.lock _).1 = _ ∧ { world with locks := (world.locks.lock _).2 } = _
      rw [granted]
      exact ⟨rfl, rfl⟩
    obtain ⟨rfl, rfl⟩ := answered
    obtain ⟨verdict, mid, checked, run⟩ := Task.runs_bind.mp run
    obtain ⟨verdict, kept⟩ := check_verdict (by exact reached) checked
    cases verdict with
    | passes clear =>
      obtain ⟨rfl, rfl⟩ := Task.runs_pure.mp run
      exact .inl ⟨guard, rfl, clear⟩
    | @refuses field owner within found foreign =>
      obtain ⟨_, _, served, run⟩ := Task.runs_ask_bind.mp run
      obtain ⟨_, rfl⟩ := Prod.mk.inj served
      obtain ⟨rfl, rfl⟩ := Task.runs_pure.mp run
      refine .inr ⟨field, owner, within, found, foreign, rfl, ?_⟩
      change mid.locks.release guard = world.locks
      rw [kept]
      exact released

/-- A writer whose locks are free may go on exactly if the store's own check accepts what it is about to
write. If it may not then another row holds a value of the record, the writer is told the column, and
it has none of its locks left. -/
theorem acquire_agrees {result : Except Error LockGuard} (separate : family.Separate)
    (reached : world.store.inner.poisoned = false) (distinct : world.table.Distinct family)
    (checks : world.table.Checks family before after key entity)
    (free : ∀ name ∈ lockNames family (claimed family before after), name ∉ world.locks.held)
    (run : (World.run family client (acquire family before after)).run world = (result, last)) :
    ((∃ guard, result = .ok guard) ↔ Table.checkUnique family world.table key entity = .ok ()) ∧
      ∀ cause, result = .error cause →
        (∃ field ∈ family.uniqueFields after, ∃ other row, other ≠ key ∧
          world.table.rows.get? other = some row ∧ field ∈ family.uniqueFields row ∧
          cause = .store (.uniqueViolation family.kind field.column false)) ∧
        last.locks = world.locks := by
  rw [← Table.claimsFree_iff separate distinct checks]
  obtain ⟨guard, rfl, clear⟩ | ⟨field, owner, within, looked, foreign, rfl, locks⟩ :=
    acquire_verdict reached free (World.runs_of_run run)
  · constructor
    · exact ⟨fun _ => clear, fun _ => ⟨guard, rfl⟩⟩
    · intro cause refused
      cases refused
  · constructor
    · constructor
      · rintro ⟨guard, passed⟩
        cases passed
      · intro clear
        exact absurd (clear field within owner looked) foreign
    · intro cause refused
      cases refused
      obtain ⟨row, found, holds⟩ := Table.holds_of_findUnique family looked
      exact ⟨⟨field, Table.uniqueFields_of_claimed within, owner, row,
        checks.ne_of_owner found foreign, found, holds, rfl⟩, locks⟩

section Club

def members : Family Int64 (Record Int64) := Record.family "member" "id" false

def ann : Record Int64 := { id := some 1, unique := [⟨"email", "a@x"⟩, ⟨"login", "ann"⟩] }

def annAsBob : Record Int64 :=
  { ann with unique := [⟨"email", "a@x"⟩, ⟨"login", "bob"⟩, ⟨"login", "bob"⟩] }

/-- Ann and Bob are members, and somebody is at work on the email that Ann keeps. -/
def club : World Int64 (Record Int64) where
  store := { inner := { table := { rows := .ofList [(1, ann),
    (2, { id := some 2, unique := [⟨"email", "b@x"⟩, ⟨"login", "bob"⟩] })] } } }
  locks := { held := .ofList ["member:email:a@x"] }

def clubClerk : Client Int64 (Record Int64) where
  reading drawn := drawn
  mutate record := (record, .changed)
  create key := { id := some key }

theorem acquire_agrees_club :
    let run := (World.run members clubClerk (acquire members (some ann) annAsBob)).run club
    club.table.Checks members (some ann) annAsBob 1 annAsBob ∧
      (∀ name ∈ lockNames members (claimed members (some ann) annAsBob), name ∉ club.locks.held) ∧
      ((∃ guard, run.1 = .ok guard) ↔ Table.checkUnique members club.table 1 annAsBob = .ok ()) ∧
      run.1 = .error (.store (.uniqueViolation "member" "login" false)) ∧
      run.2.locks = club.locks := by
  intro run
  have apart : ∀ entry ∈ club.table.rows.entries, ∀ other ∈ club.table.rows.entries,
      ∀ field ∈ members.uniqueFields entry.2, field ∈ members.uniqueFields other.2 →
        other.1 = entry.1 := by decide +kernel
  have distinct : club.table.Distinct members := by
    intro key row found other held foundToo field within shared
    exact apart (key, row) (SortedMap.mem_entries_iff.mpr found) (other, held)
      (SortedMap.mem_entries_iff.mpr foundToo) field within shared
  have checks : club.table.Checks members (some ann) annAsBob 1 annAsBob :=
    .update rfl (by decide +kernel)
  have free : ∀ name ∈ lockNames members (claimed members (some ann) annAsBob),
      name ∉ club.locks.held := by
    simp only [SortedSet.mem_def]
    decide +kernel
  have refused : run.1 = .error (.store (.uniqueViolation "member" "login" false)) := by
    decide +kernel
  have ran : run = (run.1, run.2) := rfl
  have agrees := acquire_agrees (Record.family_lawful "member" "id" false).separate rfl distinct checks
    free ran
  exact ⟨checks, free, agrees.1, refused, (agrees.2 _ refused).2⟩

end Club

end Uniqueness

end OptimisticStore
