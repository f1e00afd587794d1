import OptimisticStore.Proofs.Journal.Replay
import OptimisticStore.Proofs.Running
import OptimisticStore.Proofs.Serving
import OptimisticStore.Proofs.Writing.Moves
import OptimisticStore.Sample.Account
/-!
The journal tells what writes did to the rows.

Writes are made one after another, each by a client of its own with a clock, caches, locks and faults of
its own, to one table and one journal. Main statements: `Operation.advances_of_runs`, by which a write
that is made is posted once and the change posted is the one made to the rows, and `journal_faithful`,
by which the journal of all of them can be replayed.
-/
namespace OptimisticStore

variable {K E : Type} [Key K]

structure Records (K E : Type) [Key K] where
  table : Table K E := {}
  journal : Journal E := {}

def World.records (world : World K E) : Records K E := ⟨world.table, world.journal⟩

def Client.KeepsKey (family : Family K E) (client : Client K E) : Prop :=
  ∀ entity, family.key (client.mutate entity).1 = family.key entity

theorem Outcome.isSome_change? (outcome : Outcome E) : outcome.change?.isSome = outcome.updated := by
  unfold change?
  cases outcome.updated with
  | false => rfl
  | true => cases outcome.inserted <;> cases outcome.deleted <;> rfl

def Call.posted? : Call K E → Option (Change E)
  | .post change => some change
  | _ => none

theorem World.serve_journal [DecidableEq E] {family : Family K E} {client : Client K E}
    {world after : World K E} {call : Call K E} {answer : call.Answer}
    (served : (serve family client call).run world = (answer, after)) :
    after.journal = if client.posting then (call.posted?.map world.journal.post).getD world.journal
      else world.journal := by
  cases call with
  | post change =>
    obtain ⟨_, rfl⟩ := Prod.mk.inj served
    split
    · rfl
    · rfl
  | _ =>
    obtain ⟨_, rfl⟩ := Prod.mk.inj served
    exact (ite_self _).symm

namespace Records

/-- A call of some client that posts what it writes. The client and all of the world but the records
may be others at the next call. -/
def serves [DecidableEq E] (family : Family K E) : Task.Serving (calls K E) (Records K E) :=
  fun call before answer after => ∃ client : Client K E, client.posting = true ∧
    client.KeepsKey family ∧ World.Shows family World.records client call before answer after

/-- The same rows and the same journal; numbers of the key sequence may have been used up. -/
structure Same (now start : Records K E) : Prop where
  rows : now.table.rows = start.table.rows
  journal : now.journal = start.journal

section Serving

variable [DecidableEq E] {family : Family K E} {now start after : Records K E} {call : Call K E}
  {answer : call.Answer}

theorem effect_of_serves (served : serves family call now answer after) :
    call.Effect family now.table answer after.table := by
  obtain ⟨client, _, _, world, last, rfl, served, rfl⟩ := served
  exact World.serve_effect served

theorem journal_of_serves (served : serves family call now answer after) :
    after.journal = (call.posted?.map now.journal.post).getD now.journal := by
  obtain ⟨client, posting, _, world, last, rfl, served, rfl⟩ := served
  exact (World.serve_journal served).trans (if_pos posting)

theorem Same.of_quiet (same : now.Same start) (served : serves family call now answer after)
    (quiet : call.wrote answer = false) (unposted : call.posted? = none) : after.Same start := by
  have rows := Table.rows_of_not_wrote (effect_of_serves served) quiet
  have journal := journal_of_serves served
  rw [unposted] at journal
  exact ⟨rows.trans same.rows, journal.trans same.journal⟩

theorem fetch_of_serves {key : K} {found : Option E}
    (served : serves family (.store (.fetch key)) now (.ok found) after) :
    now.table.rows.get? key = found := by
  obtain ⟨client, _, _, world, last, rfl, served, rfl⟩ := served
  exact (World.serve_fetch served).symm

theorem key_of_serves {entity mutated : E} {decision : Mutation}
    (served : serves family (.mutate entity) now (mutated, decision) after) :
    family.key mutated = family.key entity := by
  obtain ⟨client, _, keeps, world, last, rfl, served, rfl⟩ := served
  have same := keeps entity
  rw [(Prod.mk.inj served).1] at same
  exact same

end Serving

structure Advances (family : Family K E) (before after : Records K E) (changes : List (Change E)) :
    Prop where
  journal : after.journal.changes = before.journal.changes ++ changes
  opened : after.journal.closed = false
  fitting : Change.Fitting family before.table.rows changes
  rows : after.table.rows = Change.replay family before.table.rows changes

theorem Advances.trans {family : Family K E} {before mid after : Records K E}
    {first second : List (Change E)} (one : before.Advances family mid first)
    (other : mid.Advances family after second) : before.Advances family after (first ++ second) := by
  have fitting := other.fitting
  have rows := other.rows
  rw [one.rows] at fitting rows
  constructor
  · rw [other.journal, one.journal, List.append_assoc]
  · exact other.opened
  · exact Change.fitting_append.mpr ⟨one.fitting, fitting⟩
  · rw [Change.replay_append]
    exact rows

end Records

namespace Write

def posted? (family : Family K E) : Except Error (Outcome E) → Option (Change E)
  | .ok outcome => outcome.change?.map (changeOf family outcome)
  | .error _ => none

/-- The row that is to be replaced is the one that `rows` have of the record's key. -/
def Held (family : Family K E) (rows : SortedMap K E) (before : Option E) (entity : E) : Prop :=
  ∀ held, before = some held → ∃ key, family.key entity = some key ∧ rows.get? key = some held

structure Tells (family : Family K E) (start now : Records K E) (outcome : Outcome E) : Prop where
  journal : now.journal = start.journal
  fitting : Change.Fitting family start.table.rows (posted? family (.ok outcome)).toList
  rows : now.table.rows = Change.replay family start.table.rows (posted? family (.ok outcome)).toList

def Phase.Recorded (family : Family K E) (start now : Records K E) : Phase E → Prop
  | .editing _ before entity | .ready _ before entity | .claiming _ before entity _ _ =>
    now.Same start ∧ Held family start.table.rows before entity
  | .removing _ current => now.Same start ∧ Held family start.table.rows (some current) current
  | .written _ outcome | .settled outcome => Tells family start now outcome
  | .announced _ => True
  | _ => now.Same start

section Moves

variable {family : Family K E} {operation : Operation K E} {start now after : Records K E}
  {phase next : Phase E} {stamp : Int} {before : Option E} {entity : E} {guard : LockGuard}

theorem Cleared.recorded (cleared : Cleared family phase stamp before entity guard)
    (recorded : phase.Recorded family start now) :
    now.Same start ∧ Held family start.table.rows before entity := by
  cases cleared with
  | unclaimed => exact recorded
  | checked => exact recorded

theorem tells_of_unchanged {outcome : Outcome E} (same : now.Same start)
    (unchanged : outcome.change? = none) : Tells family start now outcome := by
  have nothing : posted? family (.ok outcome) = none := by simp [posted?, unchanged]
  constructor
  · exact same.journal
  · rw [nothing]
    trivial
  · rw [nothing]
    exact same.rows

theorem tells_of_changed {outcome : Outcome E} {change : ChangeKind} {key : K}
    (journal : now.journal = start.journal) (changed : outcome.change? = some change)
    (fits : (changeOf family outcome change).Fits family start.table.rows key)
    (rows : now.table.rows = (changeOf family outcome change).redo family start.table.rows) :
    Tells family start now outcome := by
  have posted : posted? family (.ok outcome) = some (changeOf family outcome change) := by
    simp [posted?, changed]
  constructor
  · exact journal
  · rw [posted]
    exact ⟨⟨key, fits⟩, trivial⟩
  · rw [posted]
    exact rows

theorem held_of_fetch {key : K} {current : E} (keyed : start.table.Keyed family)
    (found : start.table.rows.get? key = some current) :
    Held family start.table.rows (some current) current := by
  intro held same
  obtain rfl := Option.some.inj same
  exact ⟨key, keyed key current found, found⟩

variable [DecidableEq E] {call : Call K E} {answer : call.Answer}

theorem tells_of_insert {row : E} (lawful : family.Lawful) (same : now.Same start)
    (served : Records.serves family (.store (.insert entity)) now (.ok row) after) :
    Tells family start after (.ofInsert family.kind row stamp) := by
  have writes := Table.Effect.writes (Records.effect_of_serves served) rfl
  have journal := (Records.journal_of_serves served).trans same.journal
  cases writes with
  | @insert _ held key _ own vacant unshared rows =>
    rw [same.rows] at vacant rows
    have keyed : family.key (Table.firstVersion family held) = some key :=
      (Table.key_firstVersion lawful.separate held).trans (Table.key_of_own lawful.separate own)
    have fits : (changeOf family (.ofInsert family.kind (Table.firstVersion family held) stamp)
        .insert).Fits family start.table.rows key := by
      refine ⟨keyed, vacant.symm, by simp [changeOf, Outcome.ofInsert], ?_⟩
      simp [changeOf, Outcome.ofInsert]
    apply tells_of_changed journal rfl fits
    rw [Change.redo_of_some fits.key_eq rfl]
    exact rows

theorem tells_of_merge {held : E} {merged : Merged E} (lawful : family.Lawful) (same : now.Same start)
    (known : Held family start.table.rows (some held) entity) (changed : merged.changed = true)
    (served : Records.serves family (.store (.merge entity)) now (.ok merged) after) :
    Tells family start after (.ofUpdate family.kind held merged.entity stamp) := by
  have writes := Table.Effect.writes (Records.effect_of_serves served) changed
  have journal := (Records.journal_of_serves served).trans same.journal
  cases writes with
  | @merge _ current key _ own found version unshared rows =>
    rw [same.rows] at rows
    obtain ⟨chosen, own', there⟩ := known held rfl
    obtain rfl := Option.some.inj (own.symm.trans own')
    have keyed : family.key (Table.nextVersion family current entity) = some key :=
      (Table.key_nextVersion lawful.separate current entity).trans own
    have fits : (changeOf family (.ofUpdate family.kind held (Table.nextVersion family current entity)
        stamp) .update).Fits family start.table.rows key := by
      refine ⟨keyed, there.symm, by simp [changeOf, Outcome.ofUpdate], ?_⟩
      simp [changeOf, Outcome.ofUpdate]
    apply tells_of_changed journal rfl fits
    rw [Change.redo_of_some fits.key_eq rfl]
    exact rows

theorem tells_of_delete (same : now.Same start)
    (known : Held family start.table.rows (some entity) entity)
    (served : Records.serves family (.store (.delete entity)) now (.ok ()) after) :
    Tells family start after (.ofDelete family.kind entity stamp) := by
  have writes := Table.Effect.writes (Records.effect_of_serves served) rfl
  have journal := (Records.journal_of_serves served).trans same.journal
  cases writes with
  | @delete _ current key _ own found version rows =>
    rw [same.rows] at rows
    obtain ⟨chosen, own', there⟩ := known entity rfl
    obtain rfl := Option.some.inj (own.symm.trans own')
    have fits : (changeOf family (.ofDelete family.kind entity stamp) .delete).Fits family
        start.table.rows key := by
      refine ⟨own, there.symm, by simp [changeOf, Outcome.ofDelete], ?_⟩
      simp [changeOf, Outcome.ofDelete]
    apply tells_of_changed journal rfl fits
    rw [Change.redo_of_none fits.key_eq rfl]
    exact rows

theorem Tells.of_quiet {outcome : Outcome E} (tells : Tells family start now outcome)
    (served : Records.serves family call now answer after) (quiet : call.wrote answer = false)
    (unposted : call.posted? = none) : Tells family start after outcome := by
  have rows := Table.rows_of_not_wrote (Records.effect_of_serves served) quiet
  have journal := Records.journal_of_serves served
  rw [unposted] at journal
  exact ⟨journal.trans tells.journal, tells.fitting, rows.trans tells.rows⟩

theorem Phase.Recorded.of_move [DecidableEq K] (lawful : family.Lawful)
    (keyed : start.table.Keyed family) (recorded : phase.Recorded family start now)
    (served : Records.serves family call now answer after)
    (move : Moves family operation phase call answer next) : next.Recorded family start after := by
  cases move with
  | ticksUnkeyed => exact ⟨recorded.of_quiet served rfl rfl, by simp [Held]⟩
  | finds current =>
    have found := Records.fetch_of_serves served
    rw [recorded.rows] at found
    exact ⟨recorded.of_quiet served rfl rfl, held_of_fetch keyed found⟩
  | creates => exact ⟨recorded.of_quiet served rfl rfl, by simp [Held]⟩
  | findsTaken => exact tells_of_unchanged (recorded.of_quiet served rfl rfl) rfl
  | findsVacant => exact ⟨recorded.of_quiet served rfl rfl, by simp [Held]⟩
  | findsDoomed current =>
    have found := Records.fetch_of_serves served
    rw [recorded.rows] at found
    exact ⟨recorded.of_quiet served rfl rfl, held_of_fetch keyed found⟩
  | cancels => exact tells_of_unchanged (recorded.1.of_quiet served rfl rfl) rfl
  | leaves => exact tells_of_unchanged (recorded.1.of_quiet served rfl rfl) rfl
  | edits mutated =>
    obtain ⟨same, known⟩ := recorded
    refine ⟨same.of_quiet served rfl rfl, ?_⟩
    intro held there
    obtain ⟨key, own, found⟩ := known held there
    refine ⟨key, ?_, found⟩
    rw [lawful.key_markUpdated, Records.key_of_serves served, own]
  | lockFails => exact recorded.1.of_quiet served rfl rfl
  | locks => exact ⟨recorded.1.of_quiet served rfl rfl, recorded.2⟩
  | lookupFails => exact recorded.1.of_quiet served rfl rfl
  | lookupClears => exact ⟨recorded.1.of_quiet served rfl rfl, recorded.2⟩
  | lookupClashes => exact recorded.1.of_quiet served rfl rfl
  | insertFails cause cleared => exact (cleared.recorded recorded).1.of_quiet served rfl rfl
  | inserts row cleared => exact tells_of_insert lawful (cleared.recorded recorded).1 served
  | mergeFails cause cleared => exact (cleared.recorded recorded).1.of_quiet served rfl rfl
  | merges merged changed cleared =>
    obtain ⟨same, known⟩ := cleared.recorded recorded
    exact tells_of_merge lawful same known changed served
  | mergesNothing merged unchanged cleared =>
    exact tells_of_unchanged ((cleared.recorded recorded).1.of_quiet served unchanged rfl) rfl
  | deleteFails => exact recorded.1.of_quiet served rfl rfl
  | deletes => exact tells_of_delete recorded.1 recorded.2 served
  | forgets => trivial
  | posts => trivial
  | _ => exact recorded.of_quiet served rfl rfl

end Moves

section Runs

variable [DecidableEq K] [DecidableEq E] {family : Family K E} {operation : Operation K E}
  {policy : RetryPolicy} {start before after : Records K E}

omit [DecidableEq K] in
theorem advances_of_announce {outcome : Outcome E} (opened : start.journal.closed = false)
    (tells : Tells family start before outcome)
    (run : (announce family outcome).Runs (Records.serves family) before () after) :
    start.Advances family after (posted? family (.ok outcome)).toList := by
  unfold announce at run
  split at run
  next change key changed own =>
    obtain ⟨_, mid, removed, run⟩ := Task.runs_ask_bind.mp run
    obtain ⟨_, last, posts, run⟩ := Task.runs_ask_bind.mp run
    obtain ⟨_, rfl⟩ := Task.runs_pure.mp run
    have told := tells.of_quiet removed rfl rfl
    have journal := Records.journal_of_serves posts
    have rows := Table.rows_of_not_wrote (Records.effect_of_serves posts) rfl
    have posted : posted? family (.ok outcome) = some (changeOf family outcome change) := by
      simp [posted?, changed]
    have appended : after.journal = { start.journal with
        changes := start.journal.changes ++ [changeOf family outcome change] } := by
      rw [journal, told.journal]
      simp [Call.posted?, Journal.post, opened]
    constructor
    · rw [appended, posted]
      rfl
    · rw [appended]
      exact opened
    · exact told.fitting
    · exact rows.trans told.rows
  next unkeyed =>
    obtain ⟨_, rfl⟩ := Task.runs_pure.mp run
    -- a change that fits the rows has a key, so here there is none to post
    have nothing : posted? family (.ok outcome) = none := by
      cases changed : outcome.change? with
      | none => simp [posted?, changed]
      | some change =>
        have fitting := tells.fitting
        simp only [posted?, changed, Option.map_some, Option.toList_some, Change.Fitting] at fitting
        obtain ⟨⟨key, fits⟩, _⟩ := fitting
        exact absurd fits.own (unkeyed change key changed)
    constructor
    · rw [tells.journal, nothing]
      simp
    · rw [tells.journal]
      exact opened
    · exact tells.fitting
    · exact tells.rows

/-- A write that is made is posted once, and the change posted is the one that was made to the rows; a
write that is not made leaves rows and journal as they were. -/
theorem Operation.advances_of_runs {result : Except Error (Outcome E)} (lawful : family.Lawful)
    (keyed : start.table.Keyed family) (opened : start.journal.closed = false)
    (run : (operation.program family policy).Runs (Records.serves family) start result after) :
    start.Advances family after (posted? family result).toList := by
  rw [Operation.program_eq, committing, Task.runs_bind] at run
  obtain ⟨attempted, mid, run, rest⟩ := run
  have outside : (Phase.outside : Phase E).Recorded family start start := ⟨rfl, rfl⟩
  have follows : (Program.retrying family.kind policy (operation.label family)
      (operation.attempt family)).Follows (Moves family operation)
      (fun phase result => phase = .after result) .outside :=
    retrying_follows Operation.attempt_follows
  obtain ⟨phase, recorded, ended⟩ := run.follows (Phase.Recorded family start) outside follows
    fun recorded served move => recorded.of_move lawful keyed served move
  subst ended
  cases attempted with
  | error cause =>
    obtain ⟨rfl, rfl⟩ := Task.runs_pure.mp rest
    exact ⟨by simp [posted?, recorded.journal], recorded.journal ▸ opened, trivial, recorded.rows⟩
  | ok outcome =>
    obtain ⟨_, last, announced, rest⟩ := Task.runs_bind.mp rest
    obtain ⟨rfl, rfl⟩ := Task.runs_pure.mp rest
    exact advances_of_announce opened recorded announced

def inTurn (family : Family K E) (writes : List (RetryPolicy × Operation K E)) :
    Program K E (List (Except Error (Outcome E))) :=
  writes.mapM fun write => write.2.program family write.1

theorem advances_of_runs_inTurn {writes : List (RetryPolicy × Operation K E)}
    {results : List (Except Error (Outcome E))} (lawful : family.Lawful)
    (keyed : start.table.Keyed family) (opened : start.journal.closed = false)
    (run : (inTurn family writes).Runs (Records.serves family) start results after) :
    start.Advances family after (results.filterMap (posted? family)) := by
  induction writes generalizing start results with
  | nil =>
    obtain ⟨rfl, rfl⟩ := Task.runs_pure.mp run
    exact ⟨by simp, opened, trivial, rfl⟩
  | cons write rest ih =>
    rw [inTurn, List.mapM_cons] at run
    obtain ⟨result, mid, made, onward⟩ := Task.runs_bind.mp run
    obtain ⟨later, last, others, finish⟩ := Task.runs_bind.mp onward
    obtain ⟨rfl, rfl⟩ := Task.runs_pure.mp finish
    have first := Operation.advances_of_runs lawful keyed opened made
    have kept : mid.table.Keyed family :=
      made.keeps (fun records => records.table.Keyed family) keyed fun keyed served =>
        keyed.of_call lawful (Records.effect_of_serves served)
    have second := ih kept first.opened others
    have whole := first.trans second
    cases told : posted? family result with
    | none => simpa [told] using whole
    | some change => simpa [told] using whole

def updated : Except Error (Outcome E) → Bool
  | .ok outcome => outcome.updated
  | .error _ => false

omit [Key K] [DecidableEq K] [DecidableEq E] in
theorem isSome_posted? (result : Except Error (Outcome E)) :
    (posted? family result).isSome = updated result := by
  cases result with
  | error cause => rfl
  | ok outcome => rw [posted?, Option.isSome_map, outcome.isSome_change?, updated]

/-- The journal has one change for each result that made one, in their order. The changes of a key form a
chain that starts without a row, the last of them leaves the row that the key has, and doing all of
them again makes the rows. -/
structure Faithful (family : Family K E) (results : List (Except Error (Outcome E)))
    (records : Records K E) : Prop where
  posted : records.journal.changes = results.filterMap (posted? family)
  counted : records.journal.changes.length = results.countP updated
  keyed : ∀ change ∈ records.journal.changes, (change.key family).isSome
  chained : ∀ key, Change.Chain none (records.journal.changes.filter (Change.concerns family key))
  row : ∀ key, records.table.rows.get? key =
    (records.journal.changes.filter (Change.concerns family key)).getLast?.bind Change.after
  rebuilt : Change.replay family {} records.journal.changes = records.table.rows

/-- Whatever faults, refusals and retries there were: the journal of writes made one after another from
no rows is faithful. -/
theorem journal_faithful {writes : List (RetryPolicy × Operation K E)}
    {results : List (Except Error (Outcome E))} {last : Records K E} (lawful : family.Lawful)
    (run : (inTurn family writes).Runs (Records.serves family) {} results last) :
    Faithful family results last := by
  have keyed : ({} : Records K E).table.Keyed family := by
    intro key row found
    cases found
  obtain ⟨journal, _, fitting, rows⟩ := advances_of_runs_inTurn lawful keyed rfl run
  have posted : last.journal.changes = results.filterMap (posted? family) := by simpa using journal
  rw [← posted] at fitting rows
  refine ⟨posted, ?_, Change.isSome_key_of_fitting fitting, fun key => ?_, fun key => ?_, rows.symm⟩
  · rw [posted, List.length_filterMap_eq_countP]
    congr 1
    exact funext isSome_posted?
  · exact Change.chain_of_fitting fitting
  · rw [rows, Change.get?_replay]
    cases (last.journal.changes.filter (Change.concerns family key)).getLast? <;> rfl

end Runs

section Sessions

def scribe : Client Int64 Account where
  reading drawn := drawn
  mutate account :=
    if account.balance < 20 then ({ account with balance := account.balance + 5 }, .changed)
    else if account.balance = 20 then (account, .unchanged)
    else (account, .cancel)
  create _ := .fresh "ann" 10

/-- Account 1 is opened and raised to 20 and found so once more, is removed and opened again; between
these, a second account that takes its email is refused, one gets its key from the store, and one that
is there is found. -/
def session : List (RetryPolicy × Operation Int64 Account) :=
  [({}, .updateOrCreate 1), ({}, .insert { Account.fresh "bob" 0 with email := "ann@example.com" }),
    ({}, .update 1), ({}, .update 1), ({}, .insert (.fresh "cy" 30)), ({}, .update 2), ({}, .update 3),
    ({}, .delete 1), ({}, .updateOrCreate 1), ({}, .insert { Account.fresh "ann" 0 with id := some 1 })]

def contended : World Int64 Account where
  store := { mergeFaults := 2, insertFaults := 3 }

theorem journal_faithful_session :
    ∃ results last, (inTurn Account.family session).Runs (Records.serves Account.family) {} results
        last ∧
      results.map updated = [true, false, true, false, true, false, false, true, true, false] ∧
      last.journal.changes.map (fun change => (change.change, change.after.map Account.balance)) =
        [(.insert, some 15), (.update, some 20), (.insert, some 30), (.delete, none),
          (.insert, some 15)] ∧
      Faithful Account.family results last := by
  have keeps : scribe.KeepsKey Account.family := by
    intro account
    unfold scribe
    dsimp only
    split
    · rfl
    · split <;> rfl
  have shown : ∀ (call : Call Int64 Account) (world : World Int64 Account) answer last,
      (World.serve Account.family scribe call).run world = (answer, last) →
      Records.serves Account.family call world.records answer last.records := by
    intro call world answer last served
    exact ⟨scribe, rfl, keeps, world, last, rfl, served, rfl⟩
  have run := Task.runs_run shown (inTurn Account.family session) contended
  refine ⟨_, _, run, ?_, ?_, journal_faithful Account.family_lawful run⟩
  · decide +kernel
  · decide +kernel

end Sessions

end Write

end OptimisticStore
