import OptimisticStore.Proofs.Writing.Alone
import OptimisticStore.Sample.Account
/-!
No committed write is lost.

Writers of one table, each with a clock, locks, caches and faults of its own, make their calls in any order.
The log of their commits says in which order the rows changed (`Ledger.log`). Main statement:
`serializable`, by which running the committed attempts one after another in this order, each in one
go, comes to the same rows and to the same outcomes.
-/
namespace OptimisticStore.Write

variable {ι K E : Type} [Key K]

structure Commit (ι K E : Type) [Key K] where
  writer : ι
  stamp : Int
  before : Table K E
  after : Table K E

/-- The table that writers share, the last stamp that each has drawn, and the writes so far made. -/
structure Ledger (ι K E : Type) [Key K] where
  table : Table K E := {}
  stamps : ι → Int := fun _ => 0
  log : List (Commit ι K E) := []

namespace Ledger

variable [DecidableEq ι]

def record (ledger : Ledger ι K E) (writer : ι) (call : Call K E) (answer : call.Answer)
    (table : Table K E) : Ledger ι K E where
  table
  stamps := match call, answer with
    | .tick, stamp => Function.update ledger.stamps writer stamp
    | _, _ => ledger.stamps
  log := if call.wrote answer then
      ledger.log ++ [⟨writer, ledger.stamps writer, ledger.table, table⟩]
    else ledger.log

variable (ledger : Ledger ι K E) (writer : ι) {call : Call K E} {answer : call.Answer}
  (table : Table K E)

theorem record_stamps_of_ne {other : ι} (apart : other ≠ writer) :
    (ledger.record writer call answer table).stamps other = ledger.stamps other := by
  unfold record
  dsimp only
  split
  · exact Function.update_of_ne apart _ _
  · rfl

theorem record_stamps_of_drew {stamp : Int} (drew : call.drew? answer = some stamp) :
    (ledger.record writer call answer table).stamps =
      Function.update ledger.stamps writer stamp := by
  cases call with
  | tick =>
    obtain rfl := Option.some.inj drew
    rfl
  | _ => cases drew

theorem record_stamps_of_not_drew (drew : call.drew? answer = none) :
    (ledger.record writer call answer table).stamps = ledger.stamps := by
  cases call with
  | tick => cases drew
  | _ => rfl

theorem record_log_of_wrote (wrote : call.wrote answer = true) :
    (ledger.record writer call answer table).log =
      ledger.log ++ [⟨writer, ledger.stamps writer, ledger.table, table⟩] := if_pos wrote

theorem record_log_of_not_wrote (quiet : call.wrote answer = false) :
    (ledger.record writer call answer table).log = ledger.log := by
  simp [record, quiet]

end Ledger

def Phase.outcome? : Phase E → Option (Outcome E)
  | .written _ outcome | .settled outcome | .announced outcome => some outcome
  | _ => none

def Phase.stamp? : Phase E → Option Int
  | .stamped stamp | .creating stamp | .editing stamp _ _ | .ready stamp _ _
  | .claiming stamp _ _ _ _ | .removing stamp _ => some stamp
  | _ => none

section Moves

variable {family : Family K E} {operation : Operation K E} {phase next : Phase E} {call : Call K E}
  {answer : call.Answer}

omit [Key K] in
theorem Cleared.stamp_eq {stamp : Int} {before : Option E} {entity : E} {guard : LockGuard}
    (cleared : Cleared family phase stamp before entity guard) : phase.stamp? = some stamp := by
  cases cleared with
  | unclaimed => rfl
  | checked => rfl

omit [Key K] in
theorem Cleared.outcome_eq {stamp : Int} {before : Option E} {entity : E} {guard : LockGuard}
    (cleared : Cleared family phase stamp before entity guard) : phase.outcome? = none := by
  cases cleared with
  | unclaimed => rfl
  | checked => rfl

theorem Moves.outcome_kept {outcome : Outcome E} (move : Moves family operation phase call answer next)
    (reached : phase.outcome? = some outcome) :
    next.outcome? = some outcome ∧ call.wrote answer = false := by
  cases move with
  | unlocks => exact ⟨reached, rfl⟩
  | forgets => exact ⟨reached, rfl⟩
  | posts => exact ⟨reached, rfl⟩
  | insertFails _ cleared => simp [cleared.outcome_eq] at reached
  | inserts _ cleared => simp [cleared.outcome_eq] at reached
  | mergeFails _ cleared => simp [cleared.outcome_eq] at reached
  | merges _ _ cleared => simp [cleared.outcome_eq] at reached
  | mergesNothing _ _ cleared => simp [cleared.outcome_eq] at reached
  | _ => simp [Phase.outcome?] at reached

theorem Moves.wrote_of_updated {outcome : Outcome E}
    (move : Moves family operation phase call answer next) (before : phase.outcome? = none)
    (reached : next.outcome? = some outcome) (updated : outcome.updated = true) :
    call.wrote answer = true := by
  cases move with
  | inserts => rfl
  | merges _ changed => exact changed
  | deletes => rfl
  | unlocks => simp [Phase.outcome?] at before
  | forgets => simp [Phase.outcome?] at before
  | posts => simp [Phase.outcome?] at before
  | findsTaken =>
    obtain rfl := Option.some.inj reached
    simp [Outcome.ofUnchanged] at updated
  | cancels =>
    obtain rfl := Option.some.inj reached
    simp [Outcome.ofCancel] at updated
  | leaves =>
    obtain rfl := Option.some.inj reached
    simp [Outcome.ofUnchanged] at updated
  | mergesNothing =>
    obtain rfl := Option.some.inj reached
    simp [Outcome.ofUnchanged] at updated
  | _ => simp [Phase.outcome?] at reached

theorem Moves.of_drew {stamp : Int} (move : Moves family operation phase call answer next)
    (drew : call.drew? answer = some stamp) : phase = .outside ∧ next.stamp? = some stamp := by
  cases move with
  | ticks => exact ⟨rfl, drew⟩
  | ticksUnkeyed => exact ⟨rfl, drew⟩
  | _ => simp [Call.drew?] at drew

theorem Moves.stamp_kept {stamp : Int} (move : Moves family operation phase call answer next)
    (drew : call.drew? answer = none) (held : next.stamp? = some stamp) :
    phase.stamp? = some stamp := by
  cases move with
  | ticks => simp [Call.drew?] at drew
  | ticksUnkeyed => simp [Call.drew?] at drew
  | finds => exact held
  | missesCreating => exact held
  | creates => exact held
  | findsVacant => exact held
  | findsDoomed => exact held
  | edits => exact held
  | locks => exact held
  | lookupClears => exact held
  | _ => simp [Phase.stamp?] at held

theorem Moves.stamped [DecidableEq ι] {ledger : Ledger ι K E} {writer : ι} {table : Table K E}
    (move : Moves family operation phase call answer next)
    (drawn : ∀ stamp, phase.stamp? = some stamp → stamp = ledger.stamps writer) :
    ∀ stamp, next.stamp? = some stamp →
      stamp = (ledger.record writer call answer table).stamps writer := by
  intro stamp held
  cases drew : call.drew? answer with
  | some latest =>
    rw [ledger.record_stamps_of_drew writer table drew, Function.update_self]
    exact Option.some.inj (held.symm.trans (move.of_drew drew).2)
  | none =>
    rw [ledger.record_stamps_of_not_drew writer table drew]
    exact drawn stamp (move.stamp_kept drew held)

end Moves

variable [DecidableEq K] [DecidableEq E]

/-- The world serves a call, of which the others see what it does to the table. -/
def Ledger.service [DecidableEq ι] (family : Family K E) (clients : ι → Client K E) :
    Service (calls K E) (Ledger ι K E) ι := fun writer call before answer after =>
  ∃ table, World.Shows family World.table (clients writer) call before.table answer table ∧
    after = before.record writer call answer table

variable (family : Family K E) (clients : ι → Client K E) (operations : ι → Operation K E)

namespace Commit

/-- The world of `rows` in which the next stamp drawn is that of the commit, and the next key the one
that the commit found next. -/
def stage (commit : Commit ι K E) (rows : SortedMap K E) : World K E where
  store := { inner := { table := { commit.before with rows } } }
  clock := { latest := commit.stamp - 1 }

/-- The attempt of the commit's writer, made in one go on `rows` at the stamp of the commit. -/
def alone (commit : Commit ι K E) (rows : SortedMap K E) : Except Error (Outcome E) × World K E :=
  (World.run family { clients commit.writer with reading := fun _ => commit.stamp }
    ((operations commit.writer).attempt family)).run (commit.stage rows)

def replay (rows : SortedMap K E) (commit : Commit ι K E) : SortedMap K E :=
  (commit.alone family clients operations rows).2.table.rows

/-- Made alone on the rows that it found, the commit has the given outcome and leaves the rows that it
left, and the outcome shows the row of its key as it was before and after. -/
structure Genuine (commit : Commit ι K E) (outcome : Outcome E) : Prop where
  alone : (commit.alone family clients operations commit.before.rows).1 = .ok outcome
  rows : replay family clients operations commit.before.rows commit = commit.after.rows
  updated : outcome.updated = true
  stamp : outcome.timestamp = commit.stamp
  row : ∃ key, outcome.key family = some key ∧ commit.before.rows.get? key = outcome.before ∧
    commit.after.rows.get? key = outcome.after

end Commit

def replayed (rows : SortedMap K E) (log : List (Commit ι K E)) : SortedMap K E :=
  log.foldl (Commit.replay family clients operations) rows

variable {family clients operations}

section Genuine

variable {operation : Operation K E} {client : Client K E} {table : Table K E}

omit [DecidableEq K] [DecidableEq E] in
theorem Prepared.of_reading {stamp : Int} {before : Option E} {entity : E} (reading : Nat → Int)
    (prepared : Prepared family operation client table stamp before entity) :
    Prepared family operation { client with reading } table stamp before entity := by
  cases prepared with
  | edited origin changed =>
    refine .edited ?_ changed
    cases origin with
    | read edits own passed => exact .read edits own passed
    | made creates => exact .made creates
  | fresh insert => exact .fresh insert

theorem next_of_stage (stamp : Int) : Clock.next (stamp - 1) stamp = stamp := by
  unfold Clock.next
  split
  · rfl
  · omega

theorem Commit.Genuine.of_alone {commit : Commit ι K E} {outcome : Outcome E} (key : K)
    (ran : ∃ final, commit.alone family clients operations commit.before.rows = (.ok outcome, final) ∧
      final.table = commit.after)
    (updated : outcome.updated = true) (stamp : outcome.timestamp = commit.stamp)
    (own : outcome.key family = some key) (before : commit.before.rows.get? key = outcome.before)
    (after : commit.after.rows.get? key = outcome.after) :
    commit.Genuine family clients operations outcome := by
  obtain ⟨final, ran, last⟩ := ran
  refine ⟨by rw [ran], ?_, updated, stamp, key, own, before, after⟩
  rw [replay, ran, last]

variable {writer : ι} {phase next : Phase E} {world after : World K E} {stamp : Int} {entity : E}
  {guard : LockGuard}

theorem genuine_of_insert {row : E} (lawful : family.Lawful)
    (keeps : (clients writer).KeepsIdentity family)
    (grounded : phase.Grounded family (operations writer) (clients writer) world.table)
    (cleared : Cleared family phase stamp none entity guard)
    (served : (World.serve family (clients writer) (.store (.insert entity))).run world =
      (.ok row, after)) :
    (Commit.mk writer stamp world.table after.table).Genuine family clients operations
      (.ofInsert family.kind row stamp) := by
  have keepsAlone : Client.KeepsIdentity family
      { clients writer with reading := fun _ => stamp } := keeps
  have prepared := (cleared.prepared grounded).of_reading fun _ => stamp
  have done := World.serve_insert served
  have writes := Table.Effect.writes (World.serve_effect served) rfl
  have ran : ∃ final, (Commit.mk writer stamp world.table after.table).alone family clients
      operations world.table.rows = (.ok (.ofInsert family.kind row stamp), final) ∧
      final.table = after.table :=
    attempt_inserts lawful keepsAlone prepared done writes ⟨rfl, rfl, rfl⟩ rfl (next_of_stage stamp)
  cases writes with
  | @insert _ chosen key _ own vacant unshared rows =>
    refine .of_alone key ran rfl rfl ?_ vacant ?_
    · exact (Table.key_firstVersion lawful.separate chosen).trans
        (Table.key_of_own lawful.separate own)
    · rw [rows, SortedMap.get?_insert_self]
      rfl

theorem genuine_of_merge {prior : E} {merged : Merged E} (lawful : family.Lawful)
    (keeps : (clients writer).KeepsIdentity family)
    (grounded : phase.Grounded family (operations writer) (clients writer) world.table)
    (cleared : Cleared family phase stamp (some prior) entity guard)
    (served : (World.serve family (clients writer) (.store (.merge entity))).run world =
      (.ok merged, after))
    (changed : merged.changed = true) :
    (Commit.mk writer stamp world.table after.table).Genuine family clients operations
      (.ofUpdate family.kind prior merged.entity stamp) := by
  have keepsAlone : Client.KeepsIdentity family
      { clients writer with reading := fun _ => stamp } := keeps
  have original := cleared.prepared grounded
  have prepared := original.of_reading fun _ => stamp
  have done := World.serve_merge served
  have writes := Table.Effect.writes (World.serve_effect served) changed
  have ran : ∃ final, (Commit.mk writer stamp world.table after.table).alone family clients
      operations world.table.rows =
        (.ok (.ofUpdate family.kind prior merged.entity stamp), final) ∧
      final.table = after.table :=
    attempt_merges lawful keepsAlone prepared done changed writes ⟨rfl, rfl, rfl⟩ rfl
      (next_of_stage stamp)
  obtain ⟨key, _, passed, own, version⟩ := original.identity lawful keeps
  cases writes with
  | @merge _ current chosen _ own' found same unshared rows =>
    obtain rfl := Option.some.inj (own.symm.trans own')
    have seen := passed.eq_of_version found (same.trans version)
    refine .of_alone key ran rfl rfl ?_ ?_ ?_
    · exact (Table.key_nextVersion lawful.separate _ _).trans own
    · rw [found, seen]
      rfl
    · rw [rows, SortedMap.get?_insert_self]
      rfl

theorem genuine_of_move {call : Call K E} {answer : call.Answer} (lawful : family.Lawful)
    (keeps : (clients writer).KeepsIdentity family)
    (grounded : phase.Grounded family (operations writer) (clients writer) world.table)
    (drawn : ∀ held, phase.stamp? = some held → held = stamp)
    (move : Moves family (operations writer) phase call answer next)
    (served : (World.serve family (clients writer) call).run world = (answer, after))
    (wrote : call.wrote answer = true) :
    ∃ outcome, next.outcome? = some outcome ∧
      (Commit.mk writer stamp world.table after.table).Genuine family clients operations outcome := by
  cases move with
  | inserts row cleared =>
    obtain rfl := drawn _ cleared.stamp_eq
    exact ⟨_, rfl, genuine_of_insert lawful keeps grounded cleared served⟩
  | merges merged changed cleared =>
    obtain rfl := drawn _ cleared.stamp_eq
    exact ⟨_, rfl, genuine_of_merge lawful keeps grounded cleared served changed⟩
  | mergesNothing _ unchanged => simp [Call.wrote, StoreCall.wrote, unchanged] at wrote
  | deletes => exact grounded.elim
  | _ => simp [Call.wrote, StoreCall.wrote] at wrote

end Genuine

section Runs

variable [DecidableEq ι] {rows : SortedMap K E} {ledger : Ledger ι K E} {phases : ι → Phase E}

/-- A log from the rows `first` to the rows `last`: each commit found what those before it come to when
they are made one after another, and so do the rows now. -/
structure History (family : Family K E) (clients : ι → Client K E)
    (operations : ι → Operation K E) (first : SortedMap K E) (log : List (Commit ι K E))
    (last : SortedMap K E) : Prop where
  present : last = replayed family clients operations first log
  found : ∀ earlier commit later, log = earlier ++ commit :: later →
    commit.before.rows = replayed family clients operations first earlier

omit [DecidableEq ι] in
theorem History.of_commit {log : List (Commit ι K E)} {first : SortedMap K E}
    {commit : Commit ι K E} {outcome : Outcome E}
    (history : History family clients operations first log commit.before.rows)
    (genuine : commit.Genuine family clients operations outcome) :
    History family clients operations first (log ++ [commit]) commit.after.rows := by
  constructor
  · rw [replayed, List.foldl_append, ← genuine.rows, history.present]
    rfl
  · intro earlier other later split
    rcases List.eq_nil_or_concat later with rfl | ⟨rest, last, rfl⟩
    · obtain ⟨rfl, same⟩ := List.append_inj' split rfl
      obtain rfl := List.singleton_inj.mp same
      exact history.present
    · rw [List.concat_eq_append, ← List.cons_append, ← List.append_assoc] at split
      exact history.found earlier other rest (List.append_inj' split rfl).1

/-- Who has written is on the way to end with an outcome of which `Told` holds, and has written once;
nobody else is on the way to tell of a write. -/
structure Enrolled (Told : Commit ι K E → Outcome E → Prop) (log : List (Commit ι K E))
    (phases : ι → Phase E) : Prop where
  committed : ∀ commit ∈ log, ∃ outcome, (phases commit.writer).outcome? = some outcome ∧
    Told commit outcome
  logged : ∀ i outcome, (phases i).outcome? = some outcome → outcome.updated = true →
    ∃ commit ∈ log, commit.writer = i
  once : (log.map Commit.writer).Nodup

section Enrolled

variable {Told : Commit ι K E → Outcome E → Prop} {log : List (Commit ι K E)} {i : ι}
  {call : Call K E} {answer : call.Answer} {next : Phase E}

omit [DecidableEq K] [DecidableEq E] [DecidableEq ι] in
theorem Enrolled.apart (enrolled : Enrolled Told log phases) (fresh : (phases i).outcome? = none) :
    ∀ commit ∈ log, commit.writer ≠ i := by
  intro commit within same
  obtain ⟨held, has, _⟩ := enrolled.committed commit within
  rw [same, fresh] at has
  cases has

omit [DecidableEq K] [DecidableEq E] in
theorem Enrolled.of_quiet (enrolled : Enrolled Told log phases)
    (move : Moves family (operations i) (phases i) call answer next)
    (quiet : call.wrote answer = false) : Enrolled Told log (Function.update phases i next) := by
  constructor
  · intro commit within
    obtain ⟨outcome, reached, told⟩ := enrolled.committed commit within
    refine ⟨outcome, ?_, told⟩
    by_cases same : commit.writer = i
    · rw [same, Function.update_self]
      rw [same] at reached
      exact (move.outcome_kept reached).1
    · rw [Function.update_of_ne same]
      exact reached
  · intro j outcome reached updated
    by_cases same : j = i
    · subst same
      rw [Function.update_self] at reached
      cases before : (phases j).outcome? with
      | none =>
        have wrote := move.wrote_of_updated before reached updated
        exact absurd (quiet.symm.trans wrote) (by simp)
      | some held =>
        have kept := (move.outcome_kept before).1
        obtain rfl := Option.some.inj (kept.symm.trans reached)
        exact enrolled.logged j held before updated
    · rw [Function.update_of_ne same] at reached
      exact enrolled.logged j outcome reached updated
  · exact enrolled.once

omit [DecidableEq K] [DecidableEq E] in
theorem Enrolled.of_write (enrolled : Enrolled Told log phases) {commit : Commit ι K E}
    {outcome : Outcome E} (own : commit.writer = i) (fresh : (phases i).outcome? = none)
    (reached : next.outcome? = some outcome) (told : Told commit outcome) :
    Enrolled Told (log ++ [commit]) (Function.update phases i next) := by
  have apart := enrolled.apart fresh
  constructor
  · intro other within
    rcases List.mem_append.mp within with earlier | last
    · rw [Function.update_of_ne (apart other earlier)]
      exact enrolled.committed other earlier
    · obtain rfl := List.mem_singleton.mp last
      refine ⟨outcome, ?_, told⟩
      rw [own, Function.update_self]
      exact reached
  · intro j held holds updated
    by_cases same : j = i
    · exact ⟨commit, List.mem_append_right _ List.mem_cons_self, own.trans same.symm⟩
    · rw [Function.update_of_ne same] at holds
      obtain ⟨other, within, by_j⟩ := enrolled.logged j held holds updated
      exact ⟨other, List.mem_append_left _ within, by_j⟩
  · rw [List.map_append]
    refine List.nodup_append.mpr ⟨enrolled.once, by simp, ?_⟩
    intro writer within other last
    obtain ⟨held, among, rfl⟩ := List.mem_map.mp within
    obtain rfl := List.mem_singleton.mp last
    rw [own]
    exact apart held among

end Enrolled

structure Standing (family : Family K E) (clients : ι → Client K E)
    (operations : ι → Operation K E) (ledger : Ledger ι K E) (phases : ι → Phase E) : Prop where
  keyed : ledger.table.Keyed family
  grounded : ∀ i, (phases i).Grounded family (operations i) (clients i) ledger.table
  drawn : ∀ i stamp, (phases i).stamp? = some stamp → stamp = ledger.stamps i

structure Settled (family : Family K E) (clients : ι → Client K E)
    (operations : ι → Operation K E) (rows : SortedMap K E) (ledger : Ledger ι K E)
    (phases : ι → Phase E) : Prop where
  history : History family clients operations rows ledger.log ledger.table.rows
  committed : ∀ commit ∈ ledger.log, ∃ outcome, (phases commit.writer).outcome? = some outcome ∧
    commit.Genuine family clients operations outcome
  logged : ∀ i outcome, (phases i).outcome? = some outcome → outcome.updated = true →
    ∃ commit ∈ ledger.log, commit.writer = i
  once : (ledger.log.map Commit.writer).Nodup

omit [DecidableEq K] [DecidableEq E] [DecidableEq ι] in
theorem standing_of_outside (keyed : ledger.table.Keyed family) :
    Standing family clients operations ledger fun _ => .outside := by
  refine ⟨keyed, fun _ => trivial, ?_⟩
  intro i stamp held
  simp [Phase.stamp?] at held

omit [DecidableEq ι] in
theorem settled_of_outside (unwritten : ledger.log = []) :
    Settled family clients operations ledger.table.rows ledger fun _ => .outside := by
  refine ⟨⟨by simp [unwritten, replayed], ?_⟩, ?_, ?_, ?_⟩
  · simp [unwritten]
  · simp [unwritten]
  · simp [Phase.outcome?]
  · simp [unwritten]

variable {i : ι} {call : Call K E} {answer : call.Answer} {next : Phase E} {world after : World K E}

theorem Standing.of_move (lawful : family.Lawful) (versioned : family.Versioned)
    (stays : ∀ key, operations i ≠ .delete key)
    (standing : Standing family clients operations ledger phases)
    (seen : world.table = ledger.table)
    (move : Moves family (operations i) (phases i) call answer next)
    (served : (World.serve family (clients i) call).run world = (answer, after)) :
    Standing family clients operations (ledger.record i call answer after.table)
      (Function.update phases i next) := by
  have keyed := standing.keyed
  have grounded := standing.grounded
  rw [← seen] at keyed grounded
  have effect := World.serve_effect served
  have calm := move.removes_eq_false (grounded i)
  refine ⟨keyed.of_call lawful effect, fun j => ?_, fun j => ?_⟩
  · by_cases same : j = i
    · subst same
      rw [Function.update_self]
      exact (grounded j).of_move lawful versioned stays keyed move served
    · rw [Function.update_of_ne same]
      exact (grounded j).of_call lawful versioned effect calm
  · by_cases same : j = i
    · subst same
      rw [Function.update_self]
      exact move.stamped (standing.drawn j)
    · rw [Function.update_of_ne same, Ledger.record_stamps_of_ne _ _ _ same]
      exact standing.drawn j

omit [DecidableEq ι] in
theorem Settled.enrolled (settled : Settled family clients operations rows ledger phases) :
    Enrolled (Commit.Genuine family clients operations) ledger.log phases :=
  ⟨settled.committed, settled.logged, settled.once⟩

omit [DecidableEq ι] in
theorem Settled.of_enrolled
    (history : History family clients operations rows ledger.log ledger.table.rows)
    (enrolled : Enrolled (Commit.Genuine family clients operations) ledger.log phases) :
    Settled family clients operations rows ledger phases :=
  ⟨history, enrolled.committed, enrolled.logged, enrolled.once⟩

theorem Settled.of_quiet (settled : Settled family clients operations rows ledger phases)
    (seen : world.table = ledger.table)
    (move : Moves family (operations i) (phases i) call answer next)
    (served : (World.serve family (clients i) call).run world = (answer, after))
    (quiet : call.wrote answer = false) :
    Settled family clients operations rows (ledger.record i call answer after.table)
      (Function.update phases i next) := by
  have kept := Table.rows_of_not_wrote (World.serve_effect served) quiet
  rw [seen] at kept
  have log := ledger.record_log_of_not_wrote i after.table quiet
  apply Settled.of_enrolled
  · rw [log]
    exact kept ▸ settled.history
  · rw [log]
    exact settled.enrolled.of_quiet move quiet

theorem Settled.of_write (settled : Settled family clients operations rows ledger phases)
    (seen : world.table = ledger.table) {outcome : Outcome E}
    (fresh : (phases i).outcome? = none) (reached : next.outcome? = some outcome)
    (genuine : (Commit.mk i (ledger.stamps i) world.table after.table).Genuine family clients
      operations outcome)
    (wrote : call.wrote answer = true) :
    Settled family clients operations rows (ledger.record i call answer after.table)
      (Function.update phases i next) := by
  rw [seen] at genuine
  have log := ledger.record_log_of_wrote i after.table wrote
  apply Settled.of_enrolled
  · rw [log]
    exact History.of_commit settled.history genuine
  · rw [log]
    exact settled.enrolled.of_write rfl fresh reached genuine

theorem Settled.of_move (lawful : family.Lawful) (keeps : (clients i).KeepsIdentity family)
    (standing : Standing family clients operations ledger phases)
    (settled : Settled family clients operations rows ledger phases)
    (seen : world.table = ledger.table)
    (move : Moves family (operations i) (phases i) call answer next)
    (served : (World.serve family (clients i) call).run world = (answer, after)) :
    Settled family clients operations rows (ledger.record i call answer after.table)
      (Function.update phases i next) := by
  cases wrote : call.wrote answer with
  | false => exact settled.of_quiet seen move served wrote
  | true =>
    have grounded := standing.grounded i
    rw [← seen] at grounded
    obtain ⟨outcome, reached, genuine⟩ :=
      genuine_of_move lawful keeps grounded (standing.drawn i) move served wrote
    have fresh : (phases i).outcome? = none := by
      cases before : (phases i).outcome? with
      | none => rfl
      | some held =>
        have quiet := (move.outcome_kept before).2
        exact absurd (quiet.symm.trans wrote) (by simp)
    exact settled.of_write seen fresh reached genuine wrote

end Runs

omit [DecidableEq K] in
theorem Ledger.reachable_of_advance [DecidableEq ι] (family : Family K E) (clients : ι → Client K E)
    (crew : Crew (calls K E) (Ledger ι K E) fun _ : ι => Except Error (Outcome E)) (i : ι)
    (left : Nat) (world : World K E) (seen : world.table = crew.state.table) :
    ∃ after, Crew.Reachable (Ledger.service family clients) crew after ∧
      after.tasks = Function.update crew.tasks i
        ((World.advance family (clients i) left (crew.tasks i)).run world).1 ∧
      ((World.advance family (clients i) left (crew.tasks i)).run world).2.table =
        after.state.table := by
  apply Crew.reachable_of_shown Ledger.table
  · intro call before answer table shows
    exact ⟨_, ⟨table, shows, rfl⟩, rfl⟩
  · exact seen

/-- Running the committed attempts alone, one after another in the order of their commits, comes to the
same rows; each attempt finds the rows that its commit found and ends with the outcome with which its
writer ends. -/
structure Serializable (family : Family K E) (clients : ι → Client K E)
    (operations : ι → Operation K E) (first : SortedMap K E)
    (crew : Crew (calls K E) (Ledger ι K E) fun _ : ι => Except Error (Outcome E)) : Prop where
  rows : crew.state.table.rows = replayed family clients operations first crew.state.log
  commits : ∀ earlier commit later, crew.state.log = earlier ++ commit :: later →
    commit.before.rows = replayed family clients operations first earlier ∧
      ∃ outcome, commit.Genuine family clients operations outcome ∧
        ∀ result, crew.tasks commit.writer = .done result → result = .ok outcome
  answers : ∀ i outcome, crew.tasks i = .done (.ok outcome) → outcome.updated = true →
    ∃ commit ∈ crew.state.log, commit.writer = i
  once : (crew.state.log.map Commit.writer).Nodup

omit [Key K] [DecidableEq K] [DecidableEq E] in
theorem outcome_eq_of_ends {phase : Phase E} {outcome : Outcome E} {result : Except Error (Outcome E)}
    (ends : Ends family phase result) (told : phase.outcome? = some outcome) :
    result = .ok outcome := by
  cases result with
  | error cause =>
    obtain rfl := ends
    simp [Phase.outcome?] at told
  | ok value =>
    rcases ends with rfl | ⟨rfl, _⟩
    · exact congrArg Except.ok (Option.some.inj told)
    · exact congrArg Except.ok (Option.some.inj told)

omit [Key K] [DecidableEq K] [DecidableEq E] in
theorem outcome_of_ends {phase : Phase E} {outcome : Outcome E}
    (ends : Ends family phase (.ok outcome)) : phase.outcome? = some outcome := by
  rcases ends with rfl | ⟨rfl, _⟩
  · rfl
  · rfl

theorem Serializable.of_settled {first : SortedMap K E} {phases : ι → Phase E}
    {crew : Crew (calls K E) (Ledger ι K E) fun _ : ι => Except Error (Outcome E)}
    (settled : Settled family clients operations first crew.state phases)
    (ended : ∀ i result, crew.tasks i = .done result → Ends family (phases i) result) :
    Serializable family clients operations first crew := by
  refine ⟨settled.history.present, ?_, ?_, settled.once⟩
  · intro earlier commit later split
    obtain ⟨outcome, told, genuine⟩ := settled.committed commit (by simp [split])
    refine ⟨settled.history.found earlier commit later split, outcome, genuine, ?_⟩
    intro result done
    exact outcome_eq_of_ends (ended _ _ done) told
  · intro i outcome done updated
    exact settled.logged i outcome (outcome_of_ends (ended i _ done)) updated

/-- Whatever the interleaving of any number of writers, none of whom removes rows, no committed write
is lost. -/
theorem serializable [DecidableEq ι] {policies : ι → RetryPolicy} (lawful : family.Lawful)
    (versioned : family.Versioned) (keeps : ∀ i, (clients i).KeepsIdentity family)
    (stays : ∀ i key, operations i ≠ .delete key)
    {start crew : Crew (calls K E) (Ledger ι K E) fun _ : ι => Except Error (Outcome E)}
    (keyed : start.state.table.Keyed family) (unwritten : start.state.log = [])
    (tasks : ∀ i, start.tasks i = (operations i).program family (policies i))
    (reached : Crew.Reachable (Ledger.service family clients) start crew) :
    Serializable family clients operations start.state.table.rows crew := by
  have follows : ∀ i, (start.tasks i).Follows (Moves family (operations i)) (Ends family) .outside := by
    intro i
    rw [tasks i]
    exact Operation.program_follows
  have step : ∀ {i call ledger answer after phases next},
      Standing family clients operations ledger phases ∧
        Settled family clients operations start.state.table.rows ledger phases →
      Ledger.service family clients i call ledger answer after →
      Moves family (operations i) (phases i) call answer next →
      Standing family clients operations after (Function.update phases i next) ∧
        Settled family clients operations start.state.table.rows after
          (Function.update phases i next) := by
    rintro i call ledger answer after phases next ⟨standing, settled⟩
      ⟨_, ⟨world, last, seen, served, rfl⟩, rfl⟩ move
    exact ⟨standing.of_move lawful versioned (stays i) seen move served,
      settled.of_move lawful (keeps i) standing seen move served⟩
  obtain ⟨phases, ⟨_, settled⟩, follows⟩ := Crew.Reachable.phases
    (fun ledger phases => Standing family clients operations ledger phases ∧
      Settled family clients operations start.state.table.rows ledger phases)
    step ⟨standing_of_outside keyed, settled_of_outside unwritten⟩ follows reached
  apply Serializable.of_settled settled
  intro i result done
  have ends := follows i
  rw [done] at ends
  exact ends

section Deposits

def deposits (_ : Bool) : Operation Int64 Account := .updateOrCreate 1

def tellers (_ : Bool) : Client Int64 Account where
  reading _ := 0
  mutate account := ({ account with balance := account.balance + 5 }, .changed)
  create _ := .fresh "ann" 10

def counter : Crew (calls Int64 Account) (Ledger Bool Int64 Account)
    fun _ : Bool => Except Error (Outcome Account) :=
  ⟨{}, fun teller => (deposits teller).program Account.family {}⟩

def written : Program Int64 Account (Except Error (Outcome Account)) → Bool
  | .done (.ok outcome) => outcome.updated
  | _ => false

/-- One teller has looked for the account in vain when the other opens it, and so has to try again. In
the end both deposits are made, and they are serializable. -/
theorem serializable_deposits :
    ∃ crew, Crew.Reachable (Ledger.service Account.family tellers) counter crew ∧
      (∀ teller, written (crew.tasks teller) = true) ∧
      Serializable Account.family tellers deposits {} crew := by
  obtain ⟨looked, first, missed, seen⟩ :=
    Ledger.reachable_of_advance Account.family tellers counter false 4 {} rfl
  obtain ⟨opened, second, made, seen⟩ :=
    Ledger.reachable_of_advance Account.family tellers looked true 30 _ seen
  obtain ⟨last, third, remade, _⟩ :=
    Ledger.reachable_of_advance Account.family tellers opened false 30 _ seen
  have reached := (first.trans second).trans third
  have waiting : looked.tasks true = counter.tasks true := by
    rw [missed, Function.update_of_ne (by decide)]
  have vacant : counter.state.table.Keyed Account.family := by
    intro key row found
    cases found
  refine ⟨last, reached, ?_, ?_⟩
  · intro teller
    cases teller with
    | false =>
      rw [remade, Function.update_self, made, Function.update_of_ne (by decide), missed,
        Function.update_self, Function.update_of_ne (by decide)]
      decide +kernel
    | true =>
      rw [remade, Function.update_of_ne (by decide), made, Function.update_self, waiting]
      decide +kernel
  · exact serializable Account.family_lawful (fun _ => rfl) (fun _ _ => ⟨rfl, rfl⟩)
      (fun _ _ same => by simp [deposits] at same) vacant rfl (fun _ => rfl) reached

end Deposits

end OptimisticStore.Write
