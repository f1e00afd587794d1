import Mathlib.Data.List.Nodup
import OptimisticStore.Proofs.Writing.Serial
/-!
In which order the stamps of writes stand.

Writers of one table that draw their stamps from one clock are interleaved in any way, removals
included. A stamp is drawn when an attempt begins, so it says when the attempt began and not when its
write was made. Main statement: `stamps_ordered`, by which a write that was begun after another was
made has the later stamp and no stamp is used twice. `stamps_cross` shows that this is all there is to
it: of two updates of one row the later may carry the earlier stamp.
-/
namespace OptimisticStore

def World.timed {K E : Type} [Key K] (world : World K E) : Table K E × Clock :=
  (world.table, world.clock)

namespace Write

variable {ι K E : Type} [Key K]

section Moves

variable {family : Family K E} {operation : Operation K E} {phase next : Phase E} {call : Call K E}
  {answer : call.Answer}

theorem Moves.outcome_of_wrote (move : Moves family operation phase call answer next)
    (wrote : call.wrote answer = true) :
    ∃ outcome, next.outcome? = some outcome ∧ phase.stamp? = some outcome.timestamp := by
  cases move with
  | inserts row cleared => exact ⟨_, rfl, cleared.stamp_eq⟩
  | merges merged changed cleared => exact ⟨_, rfl, cleared.stamp_eq⟩
  | mergesNothing _ unchanged => simp [Call.wrote, StoreCall.wrote, unchanged] at wrote
  | deletes => exact ⟨_, rfl, rfl⟩
  | _ => simp [Call.wrote, StoreCall.wrote] at wrote

end Moves

theorem Phase.outcome?_eq_none {phase : Phase E} {stamp : Int} (held : phase.stamp? = some stamp) :
    phase.outcome? = none := by
  cases phase with
  | written => simp [Phase.stamp?] at held
  | settled => simp [Phase.stamp?] at held
  | announced => simp [Phase.stamp?] at held
  | _ => rfl

/-- What writers of one table share when they also share the clock: the ledger of their writes, the
clock, and how many writes had been made when each writer drew its last stamp. -/
structure Timeline (ι K E : Type) [Key K] where
  ledger : Ledger ι K E := {}
  clock : Clock := {}
  begun : ι → Nat := fun _ => 0

namespace Timeline

def timed (timeline : Timeline ι K E) : Table K E × Clock := (timeline.ledger.table, timeline.clock)

section Record

variable [DecidableEq ι]

def record (timeline : Timeline ι K E) (writer : ι) (call : Call K E) (answer : call.Answer)
    (table : Table K E) (clock : Clock) : Timeline ι K E where
  ledger := timeline.ledger.record writer call answer table
  clock
  begun := if (call.drew? answer).isSome then
      Function.update timeline.begun writer timeline.ledger.log.length
    else timeline.begun

def service [DecidableEq E] (family : Family K E) (clients : ι → Client K E) :
    Service (calls K E) (Timeline ι K E) ι := fun writer call before answer after =>
  ∃ table clock, World.Shows family World.timed (clients writer) call before.timed answer (table, clock) ∧
    after = before.record writer call answer table clock

end Record

def Live (timeline : Timeline ι K E) (phases : ι → Phase E) (i : ι) : Prop :=
  (phases i).stamp?.isSome ∨ i ∈ timeline.ledger.log.map Commit.writer

/-- The last stamps of those who are live: no two alike, none ahead of the clock, and each later than
those of the writes made when it was drawn. -/
structure Drawn (timeline : Timeline ι K E) (phases : ι → Phase E) : Prop where
  own : ∀ i stamp, (phases i).stamp? = some stamp → stamp = timeline.ledger.stamps i
  past : ∀ i, timeline.Live phases i → timeline.ledger.stamps i ≤ timeline.clock.latest
  apart : ∀ i j, timeline.Live phases i → timeline.Live phases j →
    timeline.ledger.stamps i = timeline.ledger.stamps j → i = j
  after : ∀ i, timeline.Live phases i → timeline.begun i ≤ timeline.ledger.log.length ∧
    ∀ commit ∈ timeline.ledger.log.take (timeline.begun i), commit.stamp < timeline.ledger.stamps i

structure Written (timeline : Timeline ι K E) (phases : ι → Phase E) : Prop where
  stamped : ∀ commit ∈ timeline.ledger.log, commit.stamp = timeline.ledger.stamps commit.writer
  enrolled : Enrolled (fun commit outcome => commit.stamp = outcome.timestamp) timeline.ledger.log phases

section Steps

variable [DecidableEq ι] {family : Family K E} {operations : ι → Operation K E}
  {timeline : Timeline ι K E} {phases : ι → Phase E} {i : ι} {call : Call K E} {answer : call.Answer}
  {next : Phase E} {table : Table K E} {clock : Clock}

theorem appended : ∃ more,
    (timeline.record i call answer table clock).ledger.log = timeline.ledger.log ++ more := by
  cases wrote : call.wrote answer with
  | false => exact ⟨[], by simp [record, Ledger.record, wrote]⟩
  | true => exact ⟨_, Ledger.record_log_of_wrote timeline.ledger i table wrote⟩

theorem writer_cases {j : ι}
    (within : j ∈ (timeline.record i call answer table clock).ledger.log.map Commit.writer) :
    j ∈ timeline.ledger.log.map Commit.writer ∨ j = i ∧ call.wrote answer = true := by
  change j ∈ (timeline.ledger.record i call answer table).log.map Commit.writer at within
  cases wrote : call.wrote answer with
  | false =>
    rw [Ledger.record_log_of_not_wrote _ _ _ wrote] at within
    exact .inl within
  | true =>
    rw [Ledger.record_log_of_wrote _ _ _ wrote] at within
    simpa using within

theorem Live.of_other {j : ι} (apart : j ≠ i)
    (live : (timeline.record i call answer table clock).Live (Function.update phases i next) j) :
    timeline.Live phases j := by
  rcases live with held | within
  · rw [Function.update_of_ne apart] at held
    exact .inl held
  · rcases writer_cases within with earlier | ⟨same, _⟩
    · exact .inr earlier
    · exact absurd same apart

theorem Live.of_kept {j : ι} (move : Moves family (operations i) (phases i) call answer next)
    (drew : call.drew? answer = none)
    (live : (timeline.record i call answer table clock).Live (Function.update phases i next) j) :
    timeline.Live phases j := by
  by_cases same : j = i
  · subst same
    rcases live with held | within
    · rw [Function.update_self] at held
      obtain ⟨stamp, held⟩ := Option.isSome_iff_exists.mp held
      exact .inl (Option.isSome_of_eq_some (move.stamp_kept drew held))
    · rcases writer_cases within with earlier | ⟨_, wrote⟩
      · exact .inr earlier
      · obtain ⟨outcome, _, held⟩ := move.outcome_of_wrote wrote
        exact .inl (Option.isSome_of_eq_some held)
  · exact live.of_other same

theorem stamps_of_drew {stamp : Int} (drew : call.drew? answer = some stamp) :
    (timeline.record i call answer table clock).ledger.stamps =
      Function.update timeline.ledger.stamps i stamp :=
  Ledger.record_stamps_of_drew _ _ _ drew

theorem stamps_of_not_drew (drew : call.drew? answer = none) :
    (timeline.record i call answer table clock).ledger.stamps = timeline.ledger.stamps :=
  Ledger.record_stamps_of_not_drew _ _ _ drew

theorem begun_of_drew {stamp : Int} (drew : call.drew? answer = some stamp) :
    (timeline.record i call answer table clock).begun =
      Function.update timeline.begun i timeline.ledger.log.length := by simp [record, drew]

theorem begun_of_not_drew (drew : call.drew? answer = none) :
    (timeline.record i call answer table clock).begun = timeline.begun := by simp [record, drew]

theorem log_of_drew {stamp : Int} (drew : call.drew? answer = some stamp) :
    (timeline.record i call answer table clock).ledger.log = timeline.ledger.log :=
  Ledger.record_log_of_not_wrote _ _ _ (Call.not_wrote_of_drew drew)

omit [DecidableEq ι] in
theorem Written.stamp_le (written : timeline.Written phases) (drawn : timeline.Drawn phases)
    {commit : Commit ι K E} (within : commit ∈ timeline.ledger.log) :
    commit.stamp ≤ timeline.clock.latest := by
  rw [written.stamped commit within]
  exact drawn.past commit.writer (.inr (List.mem_map_of_mem within))

theorem Live.of_drew {stamp : Int} {j : ι} (drawn : timeline.Drawn phases)
    (drew : call.drew? answer = some stamp) (later : timeline.clock.latest < stamp)
    (live : (timeline.record i call answer table clock).Live (Function.update phases i next) j) :
    j = i ∧ (timeline.record i call answer table clock).ledger.stamps j = stamp ∨
      j ≠ i ∧ timeline.Live phases j ∧ timeline.ledger.stamps j < stamp ∧
        (timeline.record i call answer table clock).ledger.stamps j = timeline.ledger.stamps j := by
  rw [stamps_of_drew drew]
  by_cases same : j = i
  · subst same
    exact .inl ⟨rfl, Function.update_self ..⟩
  · have before := live.of_other same
    have := drawn.past j before
    exact .inr ⟨same, before, by omega, Function.update_of_ne same ..⟩

theorem Drawn.of_drew {stamp : Int} (drawn : timeline.Drawn phases)
    (written : timeline.Written phases)
    (move : Moves family (operations i) (phases i) call answer next)
    (drew : call.drew? answer = some stamp) (latest : clock.latest = stamp)
    (later : timeline.clock.latest < stamp) :
    (timeline.record i call answer table clock).Drawn (Function.update phases i next) := by
  obtain ⟨_, held⟩ := move.of_drew drew
  constructor
  · rw [stamps_of_drew drew]
    intro j other told
    by_cases same : j = i
    · subst same
      rw [Function.update_self] at told ⊢
      exact Option.some.inj (told.symm.trans held)
    · rw [Function.update_of_ne same] at told ⊢
      exact drawn.own j other told
  · intro j live
    change _ ≤ clock.latest
    rcases live.of_drew drawn drew later with ⟨_, now⟩ | ⟨_, _, below, kept⟩
    · omega
    · omega
  · intro one other liveOne liveOther equal
    rcases liveOne.of_drew drawn drew later with ⟨rfl, now⟩ | ⟨_, before, below, kept⟩
    · rcases liveOther.of_drew drawn drew later with ⟨rfl, _⟩ | ⟨_, _, belowToo, keptToo⟩
      · rfl
      · omega
    · rcases liveOther.of_drew drawn drew later with ⟨rfl, now⟩ | ⟨_, beforeToo, _, keptToo⟩
      · omega
      · exact drawn.apart one other before beforeToo (by omega)
  · rw [log_of_drew drew, begun_of_drew drew]
    intro j live
    rcases live.of_drew drawn drew later with ⟨rfl, now⟩ | ⟨apart, before, _, kept⟩
    · rw [Function.update_self, now]
      refine ⟨Nat.le_refl _, fun commit within => ?_⟩
      have := written.stamp_le drawn (List.mem_of_mem_take within)
      omega
    · rw [Function.update_of_ne apart, kept]
      exact drawn.after j before

theorem Drawn.of_kept (drawn : timeline.Drawn phases)
    (move : Moves family (operations i) (phases i) call answer next)
    (drew : call.drew? answer = none) (same : clock = timeline.clock) :
    (timeline.record i call answer table clock).Drawn (Function.update phases i next) := by
  have before : ∀ j,
      (timeline.record i call answer table clock).Live (Function.update phases i next) j →
      timeline.Live phases j := fun j live => live.of_kept move drew
  have calm : (timeline.record i call answer table clock).clock = timeline.clock := same
  constructor
  · rw [stamps_of_not_drew drew]
    intro j stamp held
    by_cases same : j = i
    · subst same
      rw [Function.update_self] at held
      exact drawn.own j stamp (move.stamp_kept drew held)
    · rw [Function.update_of_ne same] at held
      exact drawn.own j stamp held
  · rw [stamps_of_not_drew drew, calm]
    intro j live
    exact drawn.past j (before j live)
  · rw [stamps_of_not_drew drew]
    intro one other liveOne liveOther
    exact drawn.apart one other (before one liveOne) (before other liveOther)
  · obtain ⟨more, log⟩ : ∃ more, (timeline.record i call answer table clock).ledger.log =
        timeline.ledger.log ++ more := appended
    rw [log, stamps_of_not_drew drew, begun_of_not_drew drew]
    intro j live
    obtain ⟨bounded, after⟩ := drawn.after j (before j live)
    rw [List.take_append_of_le_length bounded, List.length_append]
    exact ⟨by omega, after⟩

theorem Written.of_quiet (written : timeline.Written phases)
    (move : Moves family (operations i) (phases i) call answer next)
    (quiet : call.wrote answer = false) :
    (timeline.record i call answer table clock).Written (Function.update phases i next) := by
  have log : (timeline.record i call answer table clock).ledger.log = timeline.ledger.log :=
    Ledger.record_log_of_not_wrote _ _ _ quiet
  constructor
  · rw [log]
    intro commit within
    cases drew : call.drew? answer with
    | none =>
      rw [stamps_of_not_drew drew]
      exact written.stamped commit within
    | some stamp =>
      have fresh : (phases i).outcome? = none := by
        rw [(move.of_drew drew).1]
        rfl
      rw [stamps_of_drew drew, Function.update_of_ne (written.enrolled.apart fresh commit within)]
      exact written.stamped commit within
  · rw [log]
    exact written.enrolled.of_quiet move quiet

theorem Written.of_wrote (written : timeline.Written phases) (drawn : timeline.Drawn phases)
    (move : Moves family (operations i) (phases i) call answer next)
    (drew : call.drew? answer = none) (wrote : call.wrote answer = true) :
    (timeline.record i call answer table clock).Written (Function.update phases i next) := by
  obtain ⟨outcome, reached, held⟩ := move.outcome_of_wrote wrote
  have now : outcome.timestamp = timeline.ledger.stamps i := drawn.own i _ held
  have fresh := Phase.outcome?_eq_none held
  have log : (timeline.record i call answer table clock).ledger.log = timeline.ledger.log ++ [_] :=
    Ledger.record_log_of_wrote _ _ _ wrote
  constructor
  · rw [log, stamps_of_not_drew drew]
    intro commit within
    rcases List.mem_append.mp within with earlier | last
    · exact written.stamped commit earlier
    · obtain rfl := List.mem_singleton.mp last
      rfl
  · rw [log]
    exact written.enrolled.of_write rfl fresh reached now.symm

theorem orderly_of_move (drawn : timeline.Drawn phases) (written : timeline.Written phases)
    (move : Moves family (operations i) (phases i) call answer next)
    (moved : (∃ stamp, call.drew? answer = some stamp ∧ clock.latest = stamp ∧
        timeline.clock.latest < stamp) ∨
      call.drew? answer = none ∧ clock = timeline.clock) :
    (timeline.record i call answer table clock).Drawn (Function.update phases i next) ∧
      (timeline.record i call answer table clock).Written (Function.update phases i next) := by
  rcases moved with ⟨stamp, drew, latest, later⟩ | ⟨drew, same⟩
  · exact ⟨drawn.of_drew written move drew latest later,
      written.of_quiet move (Call.not_wrote_of_drew drew)⟩
  · refine ⟨drawn.of_kept move drew same, ?_⟩
    cases wrote : call.wrote answer with
    | false => exact written.of_quiet move wrote
    | true => exact written.of_wrote drawn move drew wrote

end Steps

end Timeline

section Runs

variable [DecidableEq ι] [DecidableEq K] [DecidableEq E] {family : Family K E}
  {clients : ι → Client K E} {operations : ι → Operation K E}

/-- The stamps of the writes: each is the one that its writer drew last, later than those of the writes
made by then, and told by the writer's result. No two are alike. -/
structure Stamped (crew : Crew (calls K E) (Timeline ι K E) fun _ : ι => Except Error (Outcome E)) :
    Prop where
  drawn : ∀ commit ∈ crew.state.ledger.log, commit.stamp = crew.state.ledger.stamps commit.writer
  later : ∀ commit ∈ crew.state.ledger.log,
    ∀ earlier ∈ crew.state.ledger.log.take (crew.state.begun commit.writer),
      earlier.stamp < commit.stamp
  distinct : (crew.state.ledger.log.map Commit.stamp).Nodup
  told : ∀ i outcome, crew.tasks i = .done (.ok outcome) → outcome.updated = true →
    ∃ commit ∈ crew.state.ledger.log, commit.writer = i ∧ commit.stamp = outcome.timestamp

omit [DecidableEq ι] [DecidableEq K] [DecidableEq E] in
theorem Stamped.of_drawn {phases : ι → Phase E}
    {crew : Crew (calls K E) (Timeline ι K E) fun _ : ι => Except Error (Outcome E)}
    (drawn : crew.state.Drawn phases) (written : crew.state.Written phases)
    (ended : ∀ i result, crew.tasks i = .done result → Ends family (phases i) result) :
    Stamped crew := by
  have live : ∀ commit ∈ crew.state.ledger.log, crew.state.Live phases commit.writer :=
    fun commit within => .inr (List.mem_map_of_mem within)
  refine ⟨written.stamped, ?_, ?_, ?_⟩
  · intro commit within earlier before
    rw [written.stamped commit within]
    exact (drawn.after commit.writer (live commit within)).2 earlier before
  · have stamps : crew.state.ledger.log.map Commit.stamp =
        (crew.state.ledger.log.map Commit.writer).map crew.state.ledger.stamps := by
      rw [List.map_map]
      exact List.map_congr_left written.stamped
    rw [stamps]
    refine List.Nodup.map_on ?_ written.enrolled.once
    intro one first other second equal
    exact drawn.apart one other (.inr first) (.inr second) equal
  · intro i outcome done updated
    have reached := outcome_of_ends (ended i _ done)
    obtain ⟨commit, within, rfl⟩ := written.enrolled.logged i outcome reached updated
    obtain ⟨told, reached', stamp⟩ := written.enrolled.committed commit within
    obtain rfl := Option.some.inj (reached'.symm.trans reached)
    exact ⟨commit, within, rfl, stamp⟩

/-- However writers with one table and one clock are interleaved: a write that was begun after another
was made has the later stamp, and no two have the same one. -/
theorem stamps_ordered {policies : ι → RetryPolicy}
    {start crew : Crew (calls K E) (Timeline ι K E) fun _ : ι => Except Error (Outcome E)}
    (unwritten : start.state.ledger.log = [])
    (tasks : ∀ i, start.tasks i = (operations i).program family (policies i))
    (reached : Crew.Reachable (Timeline.service family clients) start crew) : Stamped crew := by
  have idle : ∀ i, ¬ start.state.Live (fun _ => .outside) i := by
    rintro i (held | within)
    · simp [Phase.stamp?] at held
    · simp [unwritten] at within
  have drawn : start.state.Drawn fun _ => .outside := by
    refine ⟨?_, fun i live => absurd live (idle i), fun i _ live => absurd live (idle i),
      fun i live => absurd live (idle i)⟩
    intro i stamp held
    simp [Phase.stamp?] at held
  have written : start.state.Written fun _ => .outside := by
    refine ⟨by simp [unwritten], by simp [unwritten], ?_, by simp [unwritten]⟩
    intro i outcome told
    simp [Phase.outcome?] at told
  have follows : ∀ i, (start.tasks i).Follows (Moves family (operations i)) (Ends family) .outside := by
    intro i
    rw [tasks i]
    exact Operation.program_follows
  have step : ∀ {i call timeline answer after phases next},
      Timeline.Drawn timeline phases ∧ Timeline.Written timeline phases →
      Timeline.service family clients i call timeline answer after →
      Moves family (operations i) (phases i) call answer next →
      after.Drawn (Function.update phases i next) ∧
        after.Written (Function.update phases i next) := by
    rintro i call timeline answer after phases next ⟨drawn, written⟩
      ⟨_, _, ⟨world, last, seen, served, shown⟩, rfl⟩ move
    have moved := World.serve_clock served
    obtain ⟨_, rfl⟩ := Prod.mk.inj shown
    rw [(Prod.mk.inj seen).2] at moved
    exact Timeline.orderly_of_move drawn written move moved
  obtain ⟨phases, ⟨drawn, written⟩, follows⟩ := Crew.Reachable.phases
    (fun timeline phases => Timeline.Drawn timeline phases ∧ Timeline.Written timeline phases)
    step ⟨drawn, written⟩ follows reached
  apply Stamped.of_drawn drawn written
  intro i result done
  have ends := follows i
  rw [done] at ends
  exact ends

omit [DecidableEq K] in
theorem Timeline.reachable_of_advance (family : Family K E) (clients : ι → Client K E)
    (crew : Crew (calls K E) (Timeline ι K E) fun _ : ι => Except Error (Outcome E)) (i : ι)
    (left : Nat) (world : World K E)
    (seen : world.timed = crew.state.timed) :
    ∃ after, Crew.Reachable (Timeline.service family clients) crew after ∧
      after.tasks = Function.update crew.tasks i
        ((World.advance family (clients i) left (crew.tasks i)).run world).1 ∧
      ((World.advance family (clients i) left (crew.tasks i)).run world).2.timed =
        after.state.timed := by
  apply Crew.reachable_of_shown Timeline.timed
  · rintro call before answer ⟨table, clock⟩ shows
    exact ⟨_, ⟨table, clock, shows, rfl⟩, rfl⟩
  · exact seen

end Runs

section Raises

def raises (_ : Bool) : Operation Int64 Account := .update 1

def account (version balance : Int) (updatedAt : Option Timestamp) : Account :=
  { Account.fresh "ann" balance with id := some 1, version, updatedAt }

def opened : World Int64 Account where
  store.inner.table.rows := .ofList [(1, account 1 10 none)]

def counters : Crew (calls Int64 Account) (Timeline Bool Int64 Account)
    fun _ : Bool => Except Error (Outcome Account) :=
  ⟨{ ledger := { table := opened.table } }, fun teller => (raises teller).program Account.family {}⟩

def told : Program Int64 Account (Except Error (Outcome Account)) → Option (Outcome Account)
  | .done (.ok outcome) => some outcome
  | _ => none

theorem done_of_told {program : Program Int64 Account (Except Error (Outcome Account))}
    {outcome : Outcome Account} (tells : told program = some outcome) :
    program = .done (.ok outcome) := by
  unfold told at tells
  split at tells
  next =>
    obtain rfl := Option.some.inj tells
    rfl
  next => cases tells

theorem stamps_ordered_raises :
    ∃ crew, Crew.Reachable (Timeline.service Account.family tellers) counters crew ∧
      crew.tasks false = .done (.ok (.ofUpdate "account" (account 1 10 none)
        (account 2 15 (some (.ofMicros 1))) 1)) ∧
      crew.tasks true = .done (.ok (.ofUpdate "account" (account 2 15 (some (.ofMicros 1)))
        (account 3 20 (some (.ofMicros 2))) 2)) ∧
      Stamped crew := by
  obtain ⟨raised, first, made, seen⟩ :=
    Timeline.reachable_of_advance Account.family tellers counters false 30 opened rfl
  obtain ⟨last, second, remade, _⟩ :=
    Timeline.reachable_of_advance Account.family tellers raised true 30 _ seen
  have waiting : raised.tasks true = counters.tasks true := by
    rw [made, Function.update_of_ne (by decide)]
  have tasks : ∀ teller, counters.tasks teller = (raises teller).program Account.family {} :=
    fun _ => rfl
  refine ⟨last, first.trans second, done_of_told ?_, done_of_told ?_, ?_⟩
  · rw [remade, Function.update_of_ne (by decide), made, Function.update_self]
    decide +kernel
  · rw [remade, Function.update_self, waiting]
    decide +kernel
  · exact stamps_ordered rfl tasks (first.trans second)

/-- One teller draws a stamp, and the other raises the balance before it goes on: the raise made last
finds the row that the first one left, has the earlier stamp, and marks the row with it. -/
theorem stamps_cross :
    ∃ crew, Crew.Reachable (Timeline.service Account.family tellers) counters crew ∧
      crew.tasks true = .done (.ok (.ofUpdate "account" (account 1 10 none)
        (account 2 15 (some (.ofMicros 2))) 2)) ∧
      crew.tasks false = .done (.ok (.ofUpdate "account" (account 2 15 (some (.ofMicros 2)))
        (account 3 20 (some (.ofMicros 1))) 1)) ∧
      crew.state.ledger.table.rows.get? 1 = some (account 3 20 (some (.ofMicros 1))) := by
  obtain ⟨drawn, first, waits, seen⟩ :=
    Timeline.reachable_of_advance Account.family tellers counters false 3 opened rfl
  obtain ⟨raised, second, made, seen⟩ :=
    Timeline.reachable_of_advance Account.family tellers drawn true 30 _ seen
  obtain ⟨last, third, remade, shown⟩ :=
    Timeline.reachable_of_advance Account.family tellers raised false 30 _ seen
  have waiting : drawn.tasks true = counters.tasks true := by
    rw [waits, Function.update_of_ne (by decide)]
  have stopped : raised.tasks false = drawn.tasks false := by
    rw [made, Function.update_of_ne (by decide)]
  refine ⟨last, (first.trans second).trans third, done_of_told ?_, done_of_told ?_, ?_⟩
  · rw [remade, Function.update_of_ne (by decide), made, Function.update_self, waiting]
    decide +kernel
  · rw [remade, Function.update_self, stopped, waiting, waits, Function.update_self]
    decide +kernel
  · have table := congrArg Prod.fst shown
    change _ = last.state.ledger.table at table
    rw [← table, stopped, waiting, waits, Function.update_self]
    decide +kernel

end Raises

end Write

end OptimisticStore
