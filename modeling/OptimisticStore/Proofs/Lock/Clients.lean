import Mathlib.Logic.Function.Basic
import Mathlib.Logic.Relation
import OptimisticStore.Proofs.Lock.Table
import OptimisticStore.Proofs.Writing.Locking
/-!
Clients of one table of locks, side by side.

Main statement: `LockRoom.safe_of_reachable`. However requests, waiting, timeouts, releases and drops of guards are
interleaved, the table has just the names of the guards that have not given them back, each name belongs
to one of these, and every guard gives back its names once. Among clients that ask only while they hold
nothing, nobody waits for someone who waits.
-/
namespace OptimisticStore

structure LockRoom (ι : Type) where
  table : LockTable := {}
  /-- How many guards have been given out. -/
  issued : Nat := 0
  /-- The guards given out and not yet dropped, by number, each with the client who has it. -/
  guards : Nat → Option (ι × LockGuard) := fun _ => none
  /-- The names that a client waits for. -/
  waiting : ι → Option (List String) := fun _ => none
  /-- What was asked for when a guard was given out, and which names the table lost to it since. -/
  granted : Nat → SortedSet String := fun _ => {}
  freed : Nat → List String := fun _ => []

namespace LockRoom

variable {ι : Type}

inductive Event (ι : Type) where
  | grants (i : ι) (names : List String)
  | waits (i : ι) (names : List String)
  | refuses (i : ι) (names : List String)
  | frees (number : Nat)

/-- The names still to be given back by a guard, or by what has been left of it. -/
def owed : Option (ι × LockGuard) → List String
  | some (_, guard) => guard.holds
  | none => []

@[simp] theorem owed_some (i : ι) (guard : LockGuard) : owed (some (i, guard)) = guard.holds := rfl

def names (room : LockRoom ι) (number : Nat) : List String := owed (room.guards number)

def holds [DecidableEq ι] (room : LockRoom ι) (i : ι) : List String :=
  (List.range room.issued).flatMap fun number =>
    owed ((room.guards number).filter fun held => held.1 = i)

def Asks (may : LockRoom ι → ι → Prop) (room : LockRoom ι) (i : ι) (names : List String) : Prop :=
  room.waiting i = some names ∨ room.waiting i = none ∧ may room i

variable [DecidableEq ι]

def give (room : LockRoom ι) (i : ι) (names : List String) (guard : LockGuard) (table : LockTable) :
    LockRoom ι :=
  { room with
    table
    issued := room.issued + 1
    guards := Function.update room.guards room.issued (some (i, guard))
    waiting := Function.update room.waiting i none
    granted := Function.update room.granted room.issued (.ofList names) }

omit [DecidableEq ι] in
def lost (before after : LockTable) : SortedSet String :=
  before.held.filter fun name => !after.held.contains name

omit [DecidableEq ι] in
def takeBack (room : LockRoom ι) (number : Nat) (guard : LockGuard) (rest : Option (ι × LockGuard)) :
    LockRoom ι :=
  let table := room.table.release guard
  { room with
    table
    guards := Function.update room.guards number rest
    freed := Function.update room.freed number
      (room.freed number ++ (lost room.table table).toList) }

/-- What may happen next, if clients make a request when they `may`. A guard that was released is still to
be dropped. -/
inductive Step (may : LockRoom ι → ι → Prop) : LockRoom ι → Event ι → LockRoom ι → Prop where
  | grants {room : LockRoom ι} {i : ι} {names : List String} {guard : LockGuard} {table : LockTable}
      (asks : Asks may room i names) (granted : room.table.lock names = (.ok guard, table)) :
      Step may room (.grants i names) (room.give i names guard table)
  | waits {room : LockRoom ι} {i : ι} {names : List String}
      (asks : Asks may room i names) (busy : room.table.tryLock names = none) :
      Step may room (.waits i names)
        { room with waiting := Function.update room.waiting i (some names) }
  | refuses {room : LockRoom ι} {i : ι} {names : List String} {cause : LockError} {table : LockTable}
      (asks : Asks may room i names) (refused : room.table.lock names = (.error cause, table)) :
      Step may room (.refuses i names)
        { room with table, waiting := Function.update room.waiting i none }
  | releases {room : LockRoom ι} {i : ι} {number : Nat} {guard : LockGuard}
      (has : room.guards number = some (i, guard)) :
      Step may room (.frees number) (room.takeBack number guard (some (i, guard.spent)))
  | drops {room : LockRoom ι} {i : ι} {number : Nat} {guard : LockGuard}
      (has : room.guards number = some (i, guard)) :
      Step may room (.frees number) (room.takeBack number guard none)

abbrev Reachable (may : LockRoom ι → ι → Prop) : LockRoom ι → LockRoom ι → Prop :=
  Relation.ReflTransGen fun before after => ∃ event, Step may before event after

/-- The table has the names of the guards, each name of one guard. A guard has all its names until it gives
back all of them, once. -/
structure Safe (room : LockRoom ι) : Prop where
  union : ∀ name, name ∈ room.table.held ↔ ∃ number, name ∈ room.names number
  single : ∀ number other name, name ∈ room.names number → name ∈ room.names other → number = other
  settled : ∀ number, room.freed number = [] ∧ room.names number = (room.granted number).toList ∨
    room.freed number = (room.granted number).toList ∧ room.names number = []
  fresh : ∀ number, room.issued ≤ number →
    room.guards number = none ∧ room.granted number = {} ∧ room.freed number = []

/-- A request that is granted gets all its names at once, none of which was held, and nobody else gets or
loses any. -/
structure Grants (i : ι) (wanted : List String) (before after : LockRoom ι) : Prop where
  free : ∀ name ∈ wanted, name ∉ before.table.held
  whole : ∃ guard, after.guards before.issued = some (i, guard) ∧
    guard.holds = (SortedSet.ofList wanted).toList
  table : ∀ name, name ∈ after.table.held ↔ name ∈ wanted ∨ name ∈ before.table.held
  others : ∀ number ≠ before.issued, after.guards number = before.guards number

structure Declines (wanted : List String) (before after : LockRoom ι) : Prop where
  busy : ∃ name ∈ wanted, name ∈ before.table.held
  table : after.table = before.table
  guards : after.guards = before.guards

/-- The names of a guard become free, all of them, and no others; it has nothing to give back any more. -/
structure Frees (number : Nat) (before after : LockRoom ι) : Prop where
  table : ∀ name, name ∈ after.table.held ↔ name ∈ before.table.held ∧ name ∉ before.names number
  spent : after.names number = []
  others : ∀ other ≠ number, after.guards other = before.guards other

def Event.Lawful (before after : LockRoom ι) : Event ι → Prop
  | .grants i wanted => Grants i wanted before after
  | .waits _ wanted | .refuses _ wanted => Declines wanted before after
  | .frees number => Frees number before after

/-- Whoever waits is kept by someone who does not, and if it is kept by nobody, it can go on. -/
structure Unstuck (may : LockRoom ι → ι → Prop) (room : LockRoom ι) : Prop where
  kept : ∀ i wanted, room.waiting i = some wanted → ∀ name ∈ wanted, name ∈ room.table.held →
    ∃ number j guard, room.guards number = some (j, guard) ∧ name ∈ guard.holds ∧ j ≠ i ∧
      room.waiting j = none
  free : ∀ i wanted, room.waiting i = some wanted → (∀ name ∈ wanted, name ∉ room.table.held) →
    ∃ after, Step may room (.grants i wanted) after

section Steps

variable {may : LockRoom ι → ι → Prop} {room before after : LockRoom ι} {event : Event ι} {i : ι}
  {number : Nat} {guard : LockGuard} {table : LockTable} {wanted : List String}

theorem guards_give (other : Nat) : (room.give i wanted guard table).guards other =
    if other = room.issued then some (i, guard) else room.guards other :=
  Function.update_apply ..

theorem granted_give (other : Nat) : (room.give i wanted guard table).granted other =
    if other = room.issued then .ofList wanted else room.granted other :=
  Function.update_apply ..

theorem names_give (other : Nat) : (room.give i wanted guard table).names other =
    if other = room.issued then guard.holds else room.names other := by
  rw [names, guards_give]
  split <;> rfl

section TakeBack

omit [DecidableEq ι]

variable {rest : Option (ι × LockGuard)}

theorem guards_takeBack (other : Nat) : (room.takeBack number guard rest).guards other =
    if other = number then rest else room.guards other :=
  Function.update_apply ..

theorem freed_takeBack (other : Nat) : (room.takeBack number guard rest).freed other =
    if other = number then
      room.freed number ++ (lost room.table (room.table.release guard)).toList
    else room.freed other :=
  Function.update_apply ..

theorem names_takeBack (spent : owed rest = []) (other : Nat) :
    (room.takeBack number guard rest).names other =
      if other = number then [] else room.names other := by
  rw [names, guards_takeBack]
  split
  next => exact spent
  next => rfl

theorem guards_of_takeBack (spent : owed rest = []) {other : Nat} {left : LockGuard}
    (has : (room.takeBack number guard rest).guards other = some (i, left)) :
    left.holds = [] ∨ room.guards other = some (i, left) := by
  rw [guards_takeBack] at has
  split at has
  next =>
    subst has
    exact .inl spent
  next => exact .inr has

theorem mem_lost_release {name : String} :
    name ∈ lost table (table.release guard) ↔ name ∈ table.held ∧ name ∈ guard.holds := by
  rw [lost, SortedSet.mem_filter, Bool.not_eq_true', ← Bool.not_eq_true, SortedSet.contains_iff,
    LockTable.mem_release]
  by_cases within : name ∈ guard.holds
  · simp [within]
  · simp [within]

theorem names_of_has (has : room.guards number = some (i, guard)) :
    room.names number = guard.holds := by
  rw [names, has, owed_some]

end TakeBack

omit [DecidableEq ι] in
theorem Safe.none_issued (safe : room.Safe) : room.names room.issued = [] := by
  rw [names, (safe.fresh room.issued (Nat.le_refl _)).1]
  rfl

theorem Safe.give (safe : room.Safe) (granted : room.table.lock wanted = (.ok guard, table)) :
    (room.give i wanted guard table).Safe := by
  obtain ⟨free, held, _⟩ := LockTable.lock_granted granted
  have whole : guard.holds = (SortedSet.ofList wanted).toList := (LockTable.lock_eq_ok granted).2.1
  have unused := safe.none_issued
  have theirs : ∀ {name other}, name ∈ (room.give i wanted guard table).names other ↔
      other = room.issued ∧ name ∈ guard.holds ∨ name ∈ room.names other := by
    intro name other
    rw [names_give]
    split
    next same => simp [same, unused]
    next apart => simp [apart]
  have apart : ∀ name ∈ guard.holds, ∀ other, name ∉ room.names other :=
    fun name within other there => free name within ((safe.union name).mpr ⟨other, there⟩)
  constructor
  · intro name
    simp only [theirs]
    refine (held name).trans ?_
    rw [safe.union]
    constructor
    · rintro (within | ⟨other, there⟩)
      · exact ⟨room.issued, .inl ⟨rfl, within⟩⟩
      · exact ⟨other, .inr there⟩
    · rintro ⟨other, ⟨_, within⟩ | there⟩
      · exact .inl within
      · exact .inr ⟨other, there⟩
  · intro one other name first second
    rw [theirs] at first second
    rcases first with ⟨rfl, within⟩ | first
    · rcases second with ⟨rfl, _⟩ | second
      · rfl
      · exact absurd second (apart name within other)
    · rcases second with ⟨_, within⟩ | second
      · exact absurd first (apart name within one)
      · exact safe.single one other name first second
  · intro other
    rw [names_give, granted_give]
    by_cases same : other = room.issued
    · left
      subst same
      rw [if_pos rfl, if_pos rfl]
      exact ⟨(safe.fresh room.issued (Nat.le_refl _)).2.2, whole⟩
    · rw [if_neg same, if_neg same]
      exact safe.settled other
  · intro other late
    have apart : other ≠ room.issued := Nat.ne_of_gt late
    rw [guards_give, granted_give, if_neg apart, if_neg apart]
    exact safe.fresh other (Nat.le_of_succ_le late)

omit [DecidableEq ι] in
theorem Safe.takeBack (safe : room.Safe) (has : room.guards number = some (i, guard))
    {rest : Option (ι × LockGuard)} (spent : owed rest = []) :
    (room.takeBack number guard rest).Safe := by
  have own := names_of_has has
  have theirs : ∀ {name other}, name ∈ (room.takeBack number guard rest).names other ↔
      other ≠ number ∧ name ∈ room.names other := by
    intro name other
    rw [names_takeBack spent]
    split
    next same => simp [same]
    next apart => simp [apart]
  constructor
  · intro name
    simp only [theirs]
    refine LockTable.mem_release.trans ?_
    rw [safe.union, ← own]
    constructor
    · rintro ⟨⟨other, there⟩, outside⟩
      have apart : other ≠ number := by
        rintro rfl
        exact outside there
      exact ⟨other, apart, there⟩
    · rintro ⟨other, apart, there⟩
      refine ⟨⟨other, there⟩, fun within => apart ?_⟩
      exact safe.single other number name there within
  · intro one other name first second
    exact safe.single one other name (theirs.mp first).2 (theirs.mp second).2
  · intro other
    rw [names_takeBack spent, freed_takeBack]
    by_cases same : other = number
    · subst same
      right
      rw [if_pos rfl, if_pos rfl]
      refine ⟨?_, rfl⟩
      -- what the table loses is what is still owed, all or nothing
      have departs : ∀ name, name ∈ lost room.table (room.table.release guard) ↔
          name ∈ room.names other := by
        intro name
        rw [mem_lost_release, own, and_iff_right_iff_imp]
        intro within
        exact (safe.union name).mpr ⟨other, own ▸ within⟩
      rcases safe.settled other with ⟨nothing, all⟩ | ⟨all, nothing⟩
      · have whole : lost room.table (room.table.release guard) = room.granted other := by
          apply SortedSet.ext_mem
          intro name
          rw [departs, all]
          rfl
        rw [nothing, whole]
        rfl
      · have stays : (lost room.table (room.table.release guard)).toList = [] := by
          apply List.eq_nil_iff_forall_not_mem.mpr
          intro name within
          have owing := (departs name).mp within
          rw [nothing] at owing
          cases owing
        rw [all, stays, List.append_nil]
        rfl
    · rw [if_neg same, if_neg same]
      exact safe.settled other
  · intro other late
    have apart : other ≠ number := by
      rintro rfl
      have none := (safe.fresh other late).1
      rw [has] at none
      cases none
    rw [guards_takeBack, freed_takeBack, if_neg apart, if_neg apart]
    exact safe.fresh other late

theorem Safe.of_step (safe : before.Safe) (step : Step may before event after) : after.Safe := by
  cases step with
  | grants _ granted => exact safe.give granted
  | waits => exact ⟨safe.union, safe.single, safe.settled, safe.fresh⟩
  | refuses _ refused =>
    obtain rfl := LockTable.lock_refused refused
    exact ⟨safe.union, safe.single, safe.settled, safe.fresh⟩
  | releases has => exact safe.takeBack has rfl
  | drops has => exact safe.takeBack has rfl

theorem Step.lawful (step : Step may before event after) : event.Lawful before after := by
  cases step with
  | grants _ granted =>
    obtain ⟨free, held, _⟩ := LockTable.lock_granted granted
    have whole := (LockTable.lock_eq_ok granted).2.1
    rw [whole] at free held
    constructor
    · intro name within
      exact free name (SortedSet.mem_ofList.mpr within)
    · exact ⟨_, by rw [guards_give, if_pos rfl], whole⟩
    · intro name
      exact (held name).trans (or_congr_left SortedSet.mem_ofList)
    · intro number apart
      rw [guards_give, if_neg apart]
  | waits _ busy => exact ⟨LockTable.tryLock_eq_none_iff.mp busy, rfl, rfl⟩
  | refuses _ refused =>
    obtain ⟨busy, rfl⟩ := LockTable.lock_eq_error refused
    exact ⟨LockTable.tryLock_eq_none_iff.mp busy, rfl, rfl⟩
  | releases has | drops has =>
    constructor
    · intro name
      rw [names_of_has has]
      exact LockTable.mem_release
    · rw [names_takeBack rfl, if_pos rfl]
    · intro other apart
      rw [guards_takeBack, if_neg apart]

def Patient (room : LockRoom ι) : Prop :=
  ∀ number i guard, room.guards number = some (i, guard) → room.waiting i ≠ none → guard.holds = []

theorem holds_of_has (safe : room.Safe) (none : room.holds i = [])
    (has : room.guards number = some (i, guard)) : guard.holds = [] := by
  have issued : number < room.issued := by
    by_contra late
    have missing := (safe.fresh number (Nat.le_of_not_lt late)).1
    rw [has] at missing
    cases missing
  have nothing := List.flatMap_eq_nil_iff.mp none number (List.mem_range.mpr issued)
  simpa [has, Option.filter] using nothing

theorem waits_of_update {waiting : ι → Option (List String)} {j : ι}
    (waits : Function.update waiting i none j ≠ none) : j ≠ i ∧ waiting j ≠ none := by
  by_cases same : j = i
  · subst same
    rw [Function.update_self] at waits
    exact absurd rfl waits
  · rw [Function.update_of_ne same] at waits
    exact ⟨same, waits⟩

theorem Patient.of_step (polite : ∀ room i, may room i → room.holds i = []) (safe : before.Safe)
    (patient : before.Patient) (step : Step may before event after) : after.Patient := by
  intro number j guard has waits
  cases step with
  | grants asks granted =>
    obtain ⟨apart, waits⟩ := waits_of_update waits
    rw [guards_give] at has
    split at has
    next =>
      obtain ⟨rfl, _⟩ := Prod.mk.inj (Option.some.inj has)
      exact absurd rfl apart
    next => exact patient number j guard has waits
  | @waits i wanted asks busy =>
    by_cases same : j = i
    · subst same
      rcases asks with waiting | ⟨_, allowed⟩
      · exact patient number j guard has (by simp [waiting])
      · exact holds_of_has safe (polite _ _ allowed) has
    · change Function.update before.waiting i (some wanted) j ≠ none at waits
      rw [Function.update_of_ne same] at waits
      exact patient number j guard has waits
  | refuses asks refused => exact patient number j guard has (waits_of_update waits).2
  | releases had | drops had =>
    rcases guards_of_takeBack rfl has with nothing | has
    · exact nothing
    · exact patient number j guard has waits

theorem Safe.unstuck (safe : room.Safe) (patient : room.Patient) : room.Unstuck may := by
  constructor
  · intro i wanted waits name within held
    obtain ⟨number, there⟩ := (safe.union name).mp held
    cases has : room.guards number with
    | none =>
      rw [names, has] at there
      cases there
    | some entry =>
      obtain ⟨j, guard⟩ := entry
      rw [names_of_has has] at there
      have idle : room.waiting j = none := by
        by_contra busy
        rw [patient number j guard has busy] at there
        cases there
      refine ⟨number, j, guard, has, there, ?_, idle⟩
      rintro rfl
      rw [waits] at idle
      cases idle
  · intro i wanted waits free
    cases tried : room.table.tryLock wanted with
    | none =>
      obtain ⟨name, within, held⟩ := LockTable.tryLock_eq_none_iff.mp tried
      exact absurd held (free name within)
    | some granted =>
      obtain ⟨guard, table⟩ := granted
      have granted : room.table.lock wanted = (.ok guard, table) := by rw [LockTable.lock, tried]
      exact ⟨_, .grants (.inl waits) granted⟩

omit [DecidableEq ι] in
theorem safe_empty : ({} : LockRoom ι).Safe := by
  constructor
  · intro name
    constructor
    · intro held
      cases held
    · rintro ⟨_, there⟩
      cases there
  · intro number other name first
    cases first
  · exact fun _ => .inl ⟨rfl, rfl⟩
  · exact fun _ _ => ⟨rfl, rfl, rfl⟩

theorem Reachable.kept (reached : Reachable may {} room) :
    room.Safe ∧ ((∀ room i, may room i → room.holds i = []) → room.Patient) := by
  induction reached with
  | refl =>
    refine ⟨safe_empty, fun _ number i guard has => ?_⟩
    cases has
  | tail _ step ih =>
    obtain ⟨event, step⟩ := step
    obtain ⟨safe, patient⟩ := ih
    exact ⟨safe.of_step step, fun polite => (patient polite).of_step polite safe step⟩

theorem Reachable.safe (reached : Reachable may {} room) : room.Safe := reached.kept.1

theorem Reachable.unstuck (reached : Reachable may {} room)
    (polite : ∀ room i, may room i → room.holds i = []) : room.Unstuck may :=
  reached.safe.unstuck (reached.kept.2 polite)

end Steps

/-- Whatever clients of one table do, it is safe: a request gets all its names or none, and every guard keeps
its names to itself until it gives them back, once. Clients that ask only while they hold nothing do not
come to wait for each other, and no write asks while it holds anything. -/
theorem safe_of_reachable {may : LockRoom ι → ι → Prop} {room : LockRoom ι} (reached : Reachable may {} room) :
    room.Safe ∧ (∀ {event after}, Step may room event after → event.Lawful room after) ∧
      ((∀ room i, may room i → room.holds i = []) → room.Unstuck may) ∧
      ∀ (K E : Type) [Key K] [DecidableEq K] (family : Family K E) (policy : RetryPolicy)
        (operation : Write.Operation K E),
        (operation.program family policy).Follows Handles (fun mine _ => mine = []) [] :=
  ⟨reached.safe, Step.lawful, reached.unstuck, fun _ _ _ _ _ _ _ => Write.Operation.program_handles⟩

section Crossing

def ask (room : LockRoom ι) (i : ι) (wanted : List String) : LockRoom ι :=
  match room.table.lock wanted with
  | (.ok guard, table) => room.give i wanted guard table
  | (.error _, _) => { room with waiting := Function.update room.waiting i (some wanted) }

def letGo (room : LockRoom ι) (number : Nat) (drops : Bool) : LockRoom ι :=
  match room.guards number with
  | some (i, guard) => room.takeBack number guard (if drops then none else some (i, guard.spent))
  | none => room

theorem reachable_ask {may : LockRoom ι → ι → Prop} {start room : LockRoom ι}
    (reached : Reachable may start room) (i : ι) (wanted : List String) (asks : Asks may room i wanted) :
    Reachable may start (room.ask i wanted) := by
  unfold ask
  split
  next granted => exact reached.tail ⟨_, .grants asks granted⟩
  next refused => exact reached.tail ⟨_, .waits asks (LockTable.lock_eq_error refused).1⟩

theorem reachable_letGo {may : LockRoom ι → ι → Prop} {start room : LockRoom ι}
    (reached : Reachable may start room) (number : Nat) (drops : Bool) :
    Reachable may start (room.letGo number drops) := by
  unfold letGo
  split
  next i guard has =>
    cases drops with
    | true => exact reached.tail ⟨_, .drops has⟩
    | false => exact reached.tail ⟨_, .releases has⟩
  next => exact reached

/-- A client gets two names, another waits for one of them and for a third, which is then taken as well; the
first releases its guard and drops it, and the other goes on waiting. -/
def crossing : LockRoom Nat :=
  let taken := ask {} 0 ["b", "a", "b"]
  let crossed := (taken.ask 1 ["b", "c"]).ask 2 ["c"]
  ((crossed.letGo 0 false).letGo 0 true).ask 1 ["b", "c"]

theorem safe_of_reachable_crossing :
    Reachable (fun room i => room.holds i = []) {} crossing ∧ crossing.Safe ∧
      crossing.freed 0 = ["a", "b"] ∧ crossing.waiting 1 = some ["b", "c"] ∧
      ∃ number j guard, crossing.guards number = some (j, guard) ∧ "c" ∈ guard.holds ∧ j ≠ 1 ∧
        crossing.waiting j = none := by
  have empty : Reachable (fun room i => room.holds i = []) ({} : LockRoom Nat) {} := .refl
  have taken := reachable_ask empty 0 ["b", "a", "b"] (.inr ⟨rfl, rfl⟩)
  have waits := reachable_ask taken 1 ["b", "c"] (.inr ⟨rfl, rfl⟩)
  have crossed := reachable_ask waits 2 ["c"] (.inr ⟨rfl, rfl⟩)
  have released := reachable_letGo (reachable_letGo crossed 0 false) 0 true
  have reached : Reachable (fun room i => room.holds i = []) {} crossing :=
    reachable_ask released 1 ["b", "c"] (.inl rfl)
  obtain ⟨kept, _, unstuck, _⟩ := safe_of_reachable reached
  have held : "c" ∈ crossing.table.held := SortedSet.contains_iff.mp (by decide +kernel)
  refine ⟨reached, kept, by decide +kernel, by decide +kernel, ?_⟩
  exact (unstuck fun _ _ polite => polite).kept 1 ["b", "c"] (by decide +kernel) "c" (by decide) held

end Crossing

end LockRoom

end OptimisticStore
