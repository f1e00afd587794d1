import OptimisticStore.Proofs.Cache.Hands
import OptimisticStore.Proofs.Writing.Retries
/-!
Writes take nothing from the caches.

Factories over one store take turns at reading and writing, each with its own node, clock, locks and
notifier or sharing them with others. The calls that a node serves may fail at any time. Main statement:
`writes_ignore_caches`, by which the rows, the results of writes and the events are the same whatever the
nodes hold at the start and whichever of their calls fail.
-/
namespace OptimisticStore

variable {K E : Type} [Key K]

section Secluded

namespace Write

variable [DecidableEq K] {family : Family K E} {before : Option E} {entity : E} {stamp : Int}

abbrev Secluded (call : Call K E) : Prop := call.spreads = false

theorem acquire_secluded : (Uniqueness.acquire family before entity).Makes Secluded := by
  apply Task.Makes.mono acquire_claims
  intro call claiming
  cases call with
  | cache | post => cases claiming
  | _ => rfl

omit [DecidableEq K] in
theorem commit_secluded : (commit family before entity stamp).Makes Secluded := by
  unfold commit
  cases before with
  | none =>
    refine Task.makes_ask_bind rfl fun answer => ?_
    cases answer with
    | error cause => trivial
    | ok row => trivial
  | some held =>
    refine Task.makes_ask_bind rfl fun answer => ?_
    cases answer with
    | error cause => trivial
    | ok merged =>
      dsimp only
      split
      · trivial
      · trivial

theorem guardedCommit_secluded : (guardedCommit family before entity stamp).Makes Secluded := by
  apply Task.makes_bind acquire_secluded
  intro acquired
  cases acquired with
  | error cause => trivial
  | ok guard =>
    apply Task.makes_bind commit_secluded
    intro result
    exact Task.makes_ask_bind rfl fun _ => Task.makes_pure _

theorem mutateAndCommit_secluded : (mutateAndCommit family before entity stamp).Makes Secluded := by
  refine Task.makes_ask_bind rfl fun (mutated, decision) => ?_
  cases decision with
  | cancel => trivial
  | unchanged => trivial
  | changed => exact guardedCommit_secluded

theorem attemptUpdate_secluded {creating : Bool} {key : K} :
    (attemptUpdate family creating key).Makes Secluded := by
  refine Task.makes_ask_bind rfl fun stamp => ?_
  refine Task.makes_ask_bind rfl fun fetched => ?_
  match fetched with
  | .error cause => trivial
  | .ok (some current) => exact mutateAndCommit_secluded
  | .ok none =>
    cases creating with
    | true => exact Task.makes_ask_bind rfl fun _ => mutateAndCommit_secluded
    | false => trivial

theorem attemptInsert_secluded : (attemptInsert family entity).Makes Secluded := by
  refine Task.makes_ask_bind rfl fun stamp => ?_
  cases family.key entity with
  | none => exact guardedCommit_secluded
  | some key =>
    refine Task.makes_ask_bind rfl fun fetched => ?_
    match fetched with
    | .error cause => trivial
    | .ok (some existing) => trivial
    | .ok none => exact guardedCommit_secluded

omit [DecidableEq K] in
theorem attemptDelete_secluded {key : K} : (attemptDelete family key).Makes Secluded := by
  refine Task.makes_ask_bind rfl fun stamp => ?_
  refine Task.makes_ask_bind rfl fun fetched => ?_
  match fetched with
  | .error cause => trivial
  | .ok none => trivial
  | .ok (some current) =>
    refine Task.makes_ask_bind rfl fun removed => ?_
    cases removed with
    | error cause => trivial
    | ok done => trivial

theorem attempt_secluded {operation : Operation K E} :
    (operation.attempt family).Makes Secluded := by
  cases operation with
  | update key | updateOrCreate key => exact attemptUpdate_secluded
  | insert entity => exact attemptInsert_secluded
  | delete key => exact attemptDelete_secluded

omit [DecidableEq K] in
theorem attempts_secluded {kind label : String} {ambient : Bool} {budget left : Nat} {α : Type}
    {attempt : Program K E (Except Error α)} (secluded : attempt.Makes Secluded) :
    (Program.attempts kind label ambient budget attempt left).Makes Secluded := by
  induction left with
  | zero => trivial
  | succ left ih =>
    unfold Program.attempts
    refine Task.makes_ask_bind rfl fun told => ?_
    split
    · trivial
    · apply Task.makes_bind secluded
      intro result
      cases result with
      | ok value => trivial
      | error cause =>
        dsimp only
        split
        · trivial
        · split
          · trivial
          · refine Task.makes_ask_bind rfl fun onward => ?_
            cases onward with
            | true => exact ih
            | false => trivial

theorem retrying_secluded {policy : RetryPolicy} {label : String} {operation : Operation K E} :
    (Program.retrying family.kind policy label (operation.attempt family)).Makes Secluded := by
  refine Task.makes_ask_bind rfl fun ambient => ?_
  dsimp only
  split
  · trivial
  · exact attempts_secluded attempt_secluded

end Write

end Secluded

section Reading

def Call.reading : Call K E → Bool
  | .cache _ | .store (.fetch _) | .store (.fetchMany _) => true
  | _ => false

namespace ReadThrough

abbrev Reading (call : Call K E) : Prop := call.reading = true

theorem get_reading {key : K} : (get key : Program K E _).Makes Reading := by
  refine Task.makes_ask_bind rfl fun looked => ?_
  match looked with
  | .error cause => trivial
  | .ok (some slot) => trivial
  | .ok none =>
    refine Task.makes_ask_bind rfl fun numbered => ?_
    cases numbered with
    | error cause => trivial
    | ok generation =>
      refine Task.makes_ask_bind rfl fun fetched => ?_
      cases fetched with
      | error cause => trivial
      | ok fetched =>
        refine Task.makes_ask_bind rfl fun filled => ?_
        cases filled with
        | error cause => trivial
        | ok taken => trivial

theorem fill_reading {fetched : SortedMap K E} {generation : Nat} {keys : List K}
    {found : SortedMap K (Option E)} : (fill fetched generation keys found).Makes Reading := by
  induction keys generalizing found with
  | nil => trivial
  | cons key rest ih =>
    refine Task.makes_ask_bind rfl fun filled => ?_
    cases filled with
    | error cause => trivial
    | ok taken => exact ih

theorem getAll_reading {keys : SortedSet K} : (getAll keys : Program K E _).Makes Reading := by
  rw [getAll_eq]
  split
  · trivial
  · refine Task.makes_ask_bind rfl fun looked => ?_
    cases looked with
    | error cause => trivial
    | ok slots =>
      dsimp only
      split
      · trivial
      · refine Task.makes_ask_bind rfl fun numbered => ?_
        cases numbered with
        | error cause => trivial
        | ok generation =>
          refine Task.makes_ask_bind rfl fun fetched => ?_
          cases fetched with
          | error cause => trivial
          | ok fetched => exact fill_reading

theorem invalidateAll_reading {keys : SortedSet K} :
    (invalidateAll keys : Program K E _).Makes Reading := by
  unfold invalidateAll
  split
  · trivial
  · exact fun _ => ⟨(), rfl, trivial⟩

end ReadThrough

end Reading

/-- The same rows and transactions, and the same failures past and to come; the counts may differ. -/
structure FaultyStore.Alike (one other : FaultyStore K E) : Prop where
  inner : one.inner.Alike other.inner
  mergeFaults : one.mergeFaults = other.mergeFaults
  insertFaults : one.insertFaults = other.insertFaults
  injected : one.injected = other.injected

section Stores

variable [DecidableEq E] {family : Family K E} {one other : FaultyStore K E}

theorem FaultyStore.Alike.pass (alike : one.Alike other) (call : StoreCall K E) :
    (one.pass family call).1 = (other.pass family call).1 ∧
      (one.pass family call).2.Alike (other.pass family call).2 := by
  obtain ⟨same, inner⟩ := @Store.Alike.serve _ _ _ _ _ _ family alike.inner call
  exact ⟨same, inner, alike.mergeFaults, alike.insertFaults, alike.injected⟩

theorem FaultyStore.Alike.serve (alike : one.Alike other) (call : StoreCall K E) :
    (one.serve family call).1 = (other.serve family call).1 ∧
      (one.serve family call).2.Alike (other.serve family call).2 := by
  cases call with
  | insert entity =>
    unfold FaultyStore.serve
    dsimp only
    rw [← alike.insertFaults]
    cases one.insertFaults with
    | zero => exact alike.pass _
    | succ faults =>
      exact ⟨rfl, alike.inner, alike.mergeFaults, rfl, congrArg (· + 1) alike.injected⟩
  | merge entity =>
    unfold FaultyStore.serve
    dsimp only
    rw [← alike.mergeFaults]
    cases one.mergeFaults with
    | zero => exact alike.pass _
    | succ faults =>
      exact ⟨rfl, alike.inner, rfl, alike.insertFaults, congrArg (· + 1) alike.injected⟩
  | _ => exact alike.pass _

end Stores

namespace Cluster

/-- A node serves a call, or fails it, and then it may have come to anything. -/
inductive Meets : Task.Serving (nodeCalls K E) (Cluster K E) where
  | serves {call : (nodeCalls K E).Call} {nodes after : Cluster K E}
      {answer : (nodeCalls K E).Answer call} (served : (serveNode call).run nodes = (answer, after)) :
      Meets call nodes answer after
  | fails (call : (nodeCalls K E).Call) (cause : StoreError) (nodes after : Cluster K E) :
      Meets call nodes (call.2.refuse cause) after

end Cluster

namespace World

/-- The same in all but the caches and the counts of calls. -/
structure Concurs (one other : World K E) : Prop where
  store : one.store.Alike other.store
  clock : one.clock = other.clock
  locks : one.locks = other.locks
  journal : one.journal = other.journal
  posted : one.posted = other.posted
  stopping : one.stopping = other.stopping

inductive Unsteady [DecidableEq E] (family : Family K E) (client : Client K E) :
    Task.Serving (calls K E) (World K E) where
  | cache {call : CacheCall K E} {answer : call.Answer} {world : World K E} {nodes : Cluster K E}
      (carried : (client.placement.carry call).Runs Cluster.Meets world.nodes answer nodes) :
      Unsteady family client (.cache call) world answer { world with nodes }
  | other {call : Call K E} {answer : call.Answer} {world after : World K E}
      (elsewhere : ∀ request, call ≠ .cache request)
      (served : (serve family client call).run world = (answer, after)) :
      Unsteady family client call world answer after

section Concurs

variable [DecidableEq E] {family : Family K E} {client : Client K E} {one other next last : World K E}
  {call : Call K E} {answer answer' : call.Answer}

omit [DecidableEq E] in
theorem Concurs.refl (world : World K E) : world.Concurs world :=
  ⟨⟨⟨rfl, rfl, rfl⟩, rfl, rfl, rfl⟩, rfl, rfl, rfl, rfl, rfl⟩

omit [DecidableEq E] in
theorem Concurs.symm (concurs : one.Concurs other) : other.Concurs one := by
  obtain ⟨⟨⟨table, poisoned, transactions⟩, mergeFaults, insertFaults, injected⟩, clock, locks, journal,
    posted, stopping⟩ := concurs
  exact ⟨⟨⟨table.symm, poisoned.symm, transactions.symm⟩, mergeFaults.symm, insertFaults.symm,
    injected.symm⟩, clock.symm, locks.symm, journal.symm, posted.symm, stopping.symm⟩

omit [DecidableEq E] in
theorem Concurs.trans (first : one.Concurs other) (second : other.Concurs last) : one.Concurs last where
  store := {
    inner := {
      table := first.store.inner.table.trans second.store.inner.table
      poisoned := first.store.inner.poisoned.trans second.store.inner.poisoned
      transactions := first.store.inner.transactions.trans second.store.inner.transactions }
    mergeFaults := first.store.mergeFaults.trans second.store.mergeFaults
    insertFaults := first.store.insertFaults.trans second.store.insertFaults
    injected := first.store.injected.trans second.store.injected }
  clock := first.clock.trans second.clock
  locks := first.locks.trans second.locks
  journal := first.journal.trans second.journal
  posted := first.posted.trans second.posted
  stopping := first.stopping.trans second.stopping

theorem Concurs.served (concurs : one.Concurs other) (elsewhere : ∀ request, call ≠ .cache request)
    (served : (serve family client call).run one = (answer, next))
    (served' : (serve family client call).run other = (answer', last)) :
    answer = answer' ∧ next.Concurs last := by
  obtain ⟨store, nodes, _, _, _, _, _⟩ := one
  obtain ⟨store', nodes', _, _, _, _, _⟩ := other
  obtain ⟨alike, clock, locks, journal, posted, stopping⟩ := concurs
  dsimp only at clock locks journal posted stopping
  subst clock locks journal posted stopping
  cases call with
  | cache request => exact absurd rfl (elsewhere request)
  | store call =>
    obtain ⟨same, onward⟩ := @FaultyStore.Alike.serve _ _ _ _ family _ _ alike call
    obtain ⟨rfl, rfl⟩ := Prod.mk.inj served
    obtain ⟨rfl, rfl⟩ := Prod.mk.inj served'
    exact ⟨same, onward, rfl, rfl, rfl, rfl, rfl⟩
  | post change =>
    obtain ⟨rfl, rfl⟩ := Prod.mk.inj served
    obtain ⟨_, rfl⟩ := Prod.mk.inj served'
    refine ⟨rfl, ?_⟩
    split
    · exact ⟨alike, rfl, rfl, rfl, rfl, rfl⟩
    · exact ⟨alike, rfl, rfl, rfl, rfl, rfl⟩
  | _ =>
    obtain ⟨rfl, rfl⟩ := Prod.mk.inj served
    obtain ⟨rfl, rfl⟩ := Prod.mk.inj served'
    exact ⟨rfl, alike, rfl, rfl, rfl, rfl, rfl⟩

theorem Concurs.unsteady (concurs : one.Concurs other) (elsewhere : ∀ request, call ≠ .cache request)
    (met : Unsteady family client call one answer next)
    (met' : Unsteady family client call other answer' last) :
    answer = answer' ∧ next.Concurs last := by
  cases met with
  | cache => exact absurd rfl (elsewhere _)
  | other _ served =>
    cases met' with
    | cache => exact absurd rfl (elsewhere _)
    | other _ served' => exact concurs.served elsewhere served served'

theorem concurs_of_reading (reading : call.reading = true)
    (met : Unsteady family client call one answer next) : next.Concurs one := by
  cases met with
  | cache => exact ⟨(Concurs.refl one).store, rfl, rfl, rfl, rfl, rfl⟩
  | other elsewhere served =>
    cases call with
    | store call =>
      have quiet : call.writing = false := by
        cases call with
        | fetch | fetchMany => rfl
        | _ => cases reading
      obtain ⟨counts, rfl⟩ := serve_read served quiet
      exact ⟨⟨⟨rfl, rfl, rfl⟩, rfl, rfl, rfl⟩, rfl, rfl, rfl, rfl, rfl⟩
    | cache request => exact absurd rfl (elsewhere request)
    | _ => cases reading

end Concurs

end World

section Jobs

variable [DecidableEq K] [DecidableEq E] {family : Family K E} {client : Client K E}
  {one other next last : World K E}

open World

/-- What a write returned; reads return nothing that writes would have to do with. -/
def Job.written? : (job : Job K E) → job.Answer → Option (Except Error (Outcome E))
  | .write _ _, result => some result
  | _, _ => none

omit [DecidableEq K] in
theorem concurs_of_reads {α : Type} {program : Program K E α} {value : α}
    (makes : program.Makes ReadThrough.Reading)
    (run : program.Runs (Unsteady family client) one value next) : next.Concurs one := by
  obtain ⟨_, concurs, _⟩ := run.follows (fun mid _ => mid.Concurs one) (Concurs.refl one) makes
    fun concurs met reading => (concurs_of_reading reading met).trans concurs
  exact concurs

omit [DecidableEq K] in
theorem announce_concurs {outcome : Outcome E} (concurs : one.Concurs other)
    (run : (Write.announce family outcome).Runs (Unsteady family client) one () next)
    (run' : (Write.announce family outcome).Runs (Unsteady family client) other () last) :
    next.Concurs last := by
  unfold Write.announce at run run'
  cases told : outcome.change? with
  | none =>
    rw [told] at run run'
    obtain ⟨_, rfl⟩ := Task.runs_pure.mp run
    obtain ⟨_, rfl⟩ := Task.runs_pure.mp run'
    exact concurs
  | some change =>
    cases own : outcome.key family with
    | none =>
      rw [told, own] at run run'
      obtain ⟨_, rfl⟩ := Task.runs_pure.mp run
      obtain ⟨_, rfl⟩ := Task.runs_pure.mp run'
      exact concurs
    | some key =>
      rw [told, own] at run run'
      obtain ⟨_, mid, dropped, run⟩ := Task.runs_ask_bind.mp run
      obtain ⟨_, mid', dropped', run'⟩ := Task.runs_ask_bind.mp run'
      have level : mid.Concurs mid' :=
        ((concurs_of_reading rfl dropped).trans concurs).trans (concurs_of_reading rfl dropped').symm
      cases run with
      | call posted done =>
        cases run' with
        | call posted' done' =>
          obtain ⟨_, onward⟩ := level.unsteady (by intro request; simp) posted posted'
          cases done
          cases done'
          exact onward

theorem write_concurs {policy : RetryPolicy} {operation : Write.Operation K E}
    {result result' : Except Error (Outcome E)} (concurs : one.Concurs other)
    (run : (operation.program family policy).Runs (Unsteady family client) one result next)
    (run' : (operation.program family policy).Runs (Unsteady family client) other result' last) :
    result = result' ∧ next.Concurs last := by
  rw [Write.Operation.program_eq] at run run'
  obtain ⟨first, mid, tried, run⟩ := Task.runs_bind.mp run
  obtain ⟨first', mid', tried', run'⟩ := Task.runs_bind.mp run'
  obtain ⟨rfl, level⟩ := tried.agree tried' Write.Secluded Write.retrying_secluded
    (fun one other => one.Concurs other) concurs fun secluded concurs met met' =>
      concurs.unsteady (by rintro request rfl; cases secluded) met met'
  cases first with
  | error cause =>
    obtain ⟨rfl, rfl⟩ := Task.runs_pure.mp run
    obtain ⟨rfl, rfl⟩ := Task.runs_pure.mp run'
    exact ⟨rfl, level⟩
  | ok outcome =>
    obtain ⟨_, late, announced, run⟩ := Task.runs_bind.mp run
    obtain ⟨_, late', announced', run'⟩ := Task.runs_bind.mp run'
    obtain ⟨rfl, rfl⟩ := Task.runs_pure.mp run
    obtain ⟨rfl, rfl⟩ := Task.runs_pure.mp run'
    exact ⟨rfl, announce_concurs level announced announced'⟩

theorem job_concurs {job : Job K E} {answer answer' : job.Answer} (concurs : one.Concurs other)
    (run : (job.program family).Runs (Unsteady family client) one answer next)
    (run' : (job.program family).Runs (Unsteady family client) other answer' last) :
    job.written? answer = job.written? answer' ∧ next.Concurs last := by
  have reads (makes : (job.program family).Makes ReadThrough.Reading) :
      next.Concurs last :=
    ((concurs_of_reads makes run).trans concurs).trans (concurs_of_reads makes run').symm
  cases job with
  | get key => exact ⟨rfl, reads ReadThrough.get_reading⟩
  | getAll keys => exact ⟨rfl, reads ReadThrough.getAll_reading⟩
  | write policy operation =>
    obtain ⟨rfl, onward⟩ := write_concurs concurs run run'
    exact ⟨rfl, onward⟩
  | invalidate key | invalidateLocal key => exact ⟨rfl, reads fun _ => ⟨(), rfl, trivial⟩⟩
  | invalidateAll keys => exact ⟨rfl, reads ReadThrough.invalidateAll_reading⟩

end Jobs

structure Notifier (E : Type) where
  journal : Journal E := {}
  posted : List (Change E) := []

/-- One store with the factories over it. Each has a node, a clock, locks and a notifier, which it may
share with others. -/
structure Firm (K E : Type) [Key K] where
  store : FaultyStore K E := {}
  nodes : Cluster K E := [{}]
  clocks : Nat → Clock := fun _ => {}
  locks : Nat → LockTable := fun _ => {}
  notifiers : Nat → Notifier E := fun _ => {}

/-- A factory's turn at something: which clock, locks and notifier it uses, whether it has been told to
stop, and how many merges and inserts are made to fail from now on, unless that is left as it is. -/
structure Turn (K E : Type) [Key K] where
  client : Client K E
  clock : Nat := 0
  locks : Nat := 0
  notifier : Nat := 0
  told : Bool := false
  failing : Option (Nat × Nat) := none
  job : Job K E

/-- What there is to see after a turn beside the caches: the rows, all the events, and what it returned
if it was a write. -/
structure Entry (K E : Type) [Key K] where
  table : Table K E
  notifiers : Nat → Notifier E
  result : Option (Except Error (Outcome E))

namespace Firm

def enter (firm : Firm K E) (turn : Turn K E) : World K E where
  store := match turn.failing with
    | none => firm.store
    | some (merges, inserts) => (firm.store.failMerges merges).failInserts inserts
  nodes := firm.nodes
  clock := firm.clocks turn.clock
  locks := firm.locks turn.locks
  journal := (firm.notifiers turn.notifier).journal
  posted := (firm.notifiers turn.notifier).posted
  stopping := turn.told

def leave (firm : Firm K E) (turn : Turn K E) (world : World K E) : Firm K E where
  store := world.store
  nodes := world.nodes
  clocks := Function.update firm.clocks turn.clock world.clock
  locks := Function.update firm.locks turn.locks world.locks
  notifiers := Function.update firm.notifiers turn.notifier ⟨world.journal, world.posted⟩

def entry (firm : Firm K E) {job : Job K E} (answer : job.Answer) : Entry K E where
  table := firm.store.inner.table
  notifiers := firm.notifiers
  result := job.written? answer

structure Concurs (one other : Firm K E) : Prop where
  store : one.store.Alike other.store
  clocks : one.clocks = other.clocks
  locks : one.locks = other.locks
  notifiers : one.notifiers = other.notifiers

variable {one other : Firm K E} {turn : Turn K E}

theorem Concurs.enter (concurs : one.Concurs other) : (one.enter turn).Concurs (other.enter turn) := by
  obtain ⟨store, clocks, locks, notifiers⟩ := concurs
  unfold Firm.enter
  rw [clocks, locks, notifiers]
  refine ⟨?_, rfl, rfl, rfl, rfl, rfl⟩
  dsimp only
  split
  next => exact store
  next => exact ⟨store.inner, rfl, rfl, store.injected⟩

theorem Concurs.leave (concurs : one.Concurs other) (turn : Turn K E) {next last : World K E}
    (level : next.Concurs last) : (one.leave turn next).Concurs (other.leave turn last) := by
  obtain ⟨_, clocks, locks, notifiers⟩ := concurs
  unfold Firm.leave
  rw [clocks, locks, notifiers, level.clock, level.locks, level.journal, level.posted]
  exact ⟨level.store, rfl, rfl, rfl⟩

end Firm

section Sessions

variable [DecidableEq K] [DecidableEq E]

inductive Session (family : Family K E) : List (Turn K E) → Firm K E → List (Entry K E) → Prop where
  | ended (firm : Firm K E) : Session family [] firm []
  | took (turn : Turn K E) {rest : List (Turn K E)} {firm : Firm K E} {answer : turn.job.Answer}
      {world : World K E} {trace : List (Entry K E)}
      (run : (turn.job.program family).Runs (World.Unsteady family turn.client) (firm.enter turn)
        answer world)
      (onward : Session family rest (firm.leave turn world) trace) :
      Session family (turn :: rest) firm ((firm.leave turn world).entry answer :: trace)

variable {family : Family K E} {turns : List (Turn K E)} {trace trace' : List (Entry K E)}

theorem Session.trace_eq {one other : Firm K E} (session : Session family turns one trace)
    (session' : Session family turns other trace') (concurs : one.Concurs other) : trace = trace' := by
  induction session generalizing other trace' with
  | ended =>
    cases session' with
    | ended => rfl
  | took turn run _ ih =>
    cases session' with
    | took _ run' onward' =>
      obtain ⟨written, level⟩ := job_concurs concurs.enter run run'
      have after := concurs.leave turn level
      rw [ih onward' after]
      unfold Firm.entry
      rw [after.store.inner.table, after.notifiers, written]

theorem Session.writes_ignore_caches {firm : Firm K E} {nodes nodes' : Cluster K E}
    (session : Session family turns { firm with nodes } trace)
    (session' : Session family turns { firm with nodes := nodes' } trace') : trace = trace' :=
  session.trace_eq session' ⟨⟨⟨rfl, rfl, rfl⟩, rfl, rfl, rfl⟩, rfl, rfl, rfl⟩

/-- The turns as they are taken when no call of a node is made to fail from outside. -/
def Firm.play (family : Family K E) : List (Turn K E) → Firm K E → List (Entry K E)
  | [], _ => []
  | turn :: rest, firm =>
    let (answer, world) := (World.run family turn.client (turn.job.program family)).run (firm.enter turn)
    (firm.leave turn world).entry answer :: (firm.leave turn world).play family rest

omit [DecidableEq K] in
theorem World.unsteady_of_serve {client : Client K E} {call : Call K E} {answer : call.Answer}
    {world after : World K E} (served : (serve family client call).run world = (answer, after)) :
    Unsteady family client call world answer after := by
  cases call with
  | cache call =>
    obtain ⟨rfl, rfl⟩ := Prod.mk.inj served
    exact .cache (Task.runs_of_run (fun _ _ _ _ => .serves) (client.placement.carry call) world.nodes)
  | _ => exact .other (by intro request; simp) served

theorem session_play (firm : Firm K E) : Session family turns firm (firm.play family turns) := by
  induction turns generalizing firm with
  | nil => exact .ended firm
  | cons turn rest ih =>
    have run : (turn.job.program family).Runs (World.Unsteady family turn.client) (firm.enter turn)
        ((World.run family turn.client (turn.job.program family)).run (firm.enter turn)).1
        ((World.run family turn.client (turn.job.program family)).run (firm.enter turn)).2 :=
      Task.runs_of_run (fun _ _ _ _ => World.unsteady_of_serve) _ _
    exact .took turn run (ih _)

end Sessions

section Tellers

def teller (home : Nat) : Client Int64 Account where
  placement := { home }
  reading drawn := drawn
  mutate account := ({ account with balance := account.balance + 5 }, .changed)
  create _ := Account.fresh "cy" 0

/-- Two tellers with clocks of their own at Ann's account, of whom one is beaten to it once. -/
def workday : List (Turn Int64 Account) := [
  { client := teller 0, job := .get 1 },
  { client := teller 0, failing := some (1, 0), job := .write { maxIterations := 3 } (.update 1) },
  { client := teller 1, clock := 1, job := .getAll (.ofList [1, 2]) },
  { client := teller 1, clock := 1, job := .write {} (.insert (Account.fresh "bob" 7)) },
  { client := teller 0, job := .invalidate 1 },
  { client := teller 1, clock := 1, job := .write {} (.delete 1) },
  { client := teller 0, job := .write {} (.update 1) }]

def bank : Firm Int64 Account where
  store := { inner := { table := { rows := .ofList [
    (1, { Account.fresh "ann" 10 with id := some 1, version := 1 })] } } }
  nodes := [{}, {}]

/-- Neither teller can reach its slots, in which there is nothing right. -/
def spoilt : Cluster Int64 Account := [
  { slots := .ofList [(1, .absent)], generation := 7, poisoned := true },
  { slots := .ofList [(2, .present (Account.fresh "eve" 0))], poisoned := true }]

/-- With spoilt caches no account can be read and no removal succeeds, and yet deposits, openings and
closings are made and told as with empty ones. -/
theorem writes_ignore_caches_workday :
    bank.play Account.family workday = { bank with nodes := spoilt }.play Account.family workday ∧
      (bank.play Account.family workday).map (fun entry => entry.result.map Except.isOk) =
        [none, some true, none, some true, none, some true, some false] ∧
      (bank.play Account.family workday).map (fun entry => (entry.notifiers 0).journal.changes.length) =
        [0, 1, 1, 2, 2, 3, 3] ∧
      ((World.run Account.family (teller 0) (ReadThrough.invalidate 1)).run
        { store := bank.store, nodes := spoilt }).1 = .error .poisoned := by
  have clean : Session Account.family workday { bank with nodes := [{}, {}] }
      (bank.play Account.family workday) := session_play bank
  refine ⟨?_, ?_, ?_, ?_⟩
  · exact Session.writes_ignore_caches clean (session_play { bank with nodes := spoilt })
  · decide +kernel
  · decide +kernel
  · decide +kernel

end Tellers

end OptimisticStore
