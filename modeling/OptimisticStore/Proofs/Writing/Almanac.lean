import OptimisticStore.Proofs.Writing.Marks
import OptimisticStore.Proofs.Writing.Stamps
import OptimisticStore.Proofs.Writing.Uncached
/-!
The one stamp of a write, on its record and in the journal.

Writers draw their stamps from one clock and post to one journal, interleaved in any way. Everything else
that a call meets may be another at the next call: the rows, the locks, the caches, the faults, and what
the mutator does. Main statement: `stamped_once`, by which an account that is written is marked with the
stamp of the attempt that wrote it, which is the latest of all drawn by then, and is posted once with this
stamp.
-/
namespace OptimisticStore

section Deeds

variable {K E : Type} [Key K]

omit [Key K] in
theorem Journal.changes_foldl_post {journal : Journal E} {posts : List (Change E)}
    (opened : journal.closed = false) :
    (posts.foldl Journal.post journal).changes = journal.changes ++ posts := by
  induction posts generalizing journal with
  | nil => exact (List.append_nil _).symm
  | cons change rest ih =>
    have taken : journal.post change = { journal with changes := journal.changes ++ [change] } := by
      rw [post, opened]
      rfl
    have still : (journal.post change).closed = false := by
      rw [taken]
      exact opened
    rw [List.foldl_cons, ih still, taken]
    exact List.append_assoc ..

theorem Timestamp.ofMicros_eq {micros : Int} (within : earliest ≤ micros ∧ micros ≤ latest) :
    ofMicros micros = ⟨micros⟩ := if_pos within

def World.published (world : World K E) : Clock × Journal E := (world.clock, world.journal)

inductive Deed where
  | drew (stamp : Int)
  | wrote

def Deed.stamp? : Deed → Option Int
  | .drew stamp => some stamp
  | .wrote => none

def Call.deed? (call : Call K E) (answer : call.Answer) : Option Deed :=
  match call.drew? answer with
  | some stamp => some (.drew stamp)
  | none => if call.wrote answer then some .wrote else none

theorem Call.stamp?_deed? (call : Call K E) (answer : call.Answer) :
    (call.deed? answer).bind Deed.stamp? = call.drew? answer := by
  unfold deed?
  cases call.drew? answer with
  | some stamp => rfl
  | none => cases call.wrote answer <;> rfl

end Deeds

namespace Write

variable {ι K E : Type} [Key K]

section Posts

variable {family : Family K E} {operation : Operation K E} {policy : RetryPolicy}

def Posting : OptimisticStore.Moves (calls K E) (List (Change E)) :=
  fun posts call _ after => after = posts ++ call.posted?.toList

/-- What is posted of an outcome: the change, if there is one and its record has a key. -/
def announced (family : Family K E) (outcome : Outcome E) : List (Change E) :=
  match outcome.change?, outcome.key family with
  | some change, some _ => [changeOf family outcome change]
  | _, _ => []

theorem announce_posts {outcome : Outcome E} :
    (announce family outcome).Follows Posting (fun posts _ => posts = announced family outcome) [] := by
  unfold announce announced
  cases outcome.change? with
  | none => rfl
  | some change =>
    cases outcome.key family with
    | none => rfl
    | some key => exact fun _ => ⟨[], rfl, fun _ => ⟨_, rfl, rfl⟩⟩

omit [Key K] in
theorem Marked.announced_eq {created updated : E → Option Timestamp} {outcome : Outcome E} {row : E}
    (marked : Marked family created updated outcome row) (written : outcome.updated = true) :
    announced family outcome =
      [changeOf family outcome (if outcome.inserted then .insert else .update)] := by
  have changed : outcome.change? = some (if outcome.inserted then .insert else .update) := by
    unfold Outcome.change?
    rw [written, marked.deleted]
    cases outcome.inserted with
    | true => rfl
    | false => rfl
  obtain ⟨key, own⟩ := Option.isSome_iff_exists.mp marked.keyed
  have keyed : outcome.key family = some key := by
    unfold Outcome.key
    rw [marked.after]
    exact own
  unfold announced
  rw [changed, keyed]

variable [DecidableEq K]

/-- A write posts what it returns, and nothing before that. -/
theorem Operation.program_posts :
    (operation.program family policy).Follows Posting
      (fun posts result => ∀ outcome, result = .ok outcome → posts = announced family outcome) [] := by
  rw [Operation.program_eq, committing, Task.follows_bind]
  have silent : (Program.retrying family.kind policy (operation.label family)
      (operation.attempt family)).Follows Posting (fun posts _ => posts = []) [] := by
    apply retrying_secluded.image (fun _ => [])
    · intro _ call _ _ secluded
      cases call with
      | post => cases secluded
      | _ => rfl
    · exact fun _ => rfl
  apply silent.mono
  rintro posts result rfl
  cases result with
  | error cause =>
    intro outcome failed
    cases failed
  | ok outcome =>
    apply Task.follows_bind.mpr
    apply announce_posts.mono
    rintro posts _ rfl other same
    rw [Except.ok.inj same]

abbrev Proceeds (family : Family K E) (operation : Operation K E) :
    OptimisticStore.Moves (calls K E) (Phase E × List (Change E)) := fun phases call answer after =>
  Moves family operation phases.1 call answer after.1 ∧ Posting phases.2 call answer after.2

abbrev Finishes (family : Family K E) (phases : Phase E × List (Change E))
    (result : Except Error (Outcome E)) : Prop :=
  Ends family phases.1 result ∧ ∀ outcome, result = .ok outcome → phases.2 = announced family outcome

theorem Operation.program_proceeds :
    (operation.program family policy).Follows (Proceeds family operation) (Finishes family)
      (.outside, []) :=
  Operation.program_follows.both Operation.program_posts

end Posts

section Conduct

def Last (deeds : List (ι × Deed)) (writer : ι) (stamp : Int) : Prop :=
  ∃ past later, deeds = past ++ (writer, .drew stamp) :: later ∧ ∀ deed ∈ later, deed.1 ≠ writer

def WroteOnce (deeds : List (ι × Deed)) (writer : ι) (stamp : Int) : Prop :=
  ∃ past mid later, deeds = past ++ (writer, .drew stamp) :: mid ++ (writer, .wrote) :: later ∧
    (writer, .wrote) ∉ past ∧ (∀ deed ∈ mid, deed.1 ≠ writer) ∧ ∀ deed ∈ later, deed.1 ≠ writer

structure Conduct (deeds : List (ι × Deed)) (writer : ι) (phase : Phase E) : Prop where
  held : ∀ stamp, phase.stamp? = some stamp → Last deeds writer stamp
  unwritten : phase.outcome? = none → (writer, .wrote) ∉ deeds
  told : ∀ outcome, phase.outcome? = some outcome → outcome.updated = true →
    WroteOnce deeds writer outcome.timestamp

variable {deeds more : List (ι × Deed)} {writer : ι} {stamp : Int} {phase next : Phase E}
  {family : Family K E} {operation : Operation K E} {call : Call K E} {answer : call.Answer}

theorem Last.append (last : Last deeds writer stamp) (others : ∀ deed ∈ more, deed.1 ≠ writer) :
    Last (deeds ++ more) writer stamp := by
  obtain ⟨past, later, rfl, apart⟩ := last
  refine ⟨past, later ++ more, by simp, ?_⟩
  intro deed within
  exact (List.mem_append.mp within).elim (apart deed) (others deed)

theorem Last.wroteOnce (last : Last deeds writer stamp) (unwritten : (writer, .wrote) ∉ deeds) :
    WroteOnce (deeds ++ [(writer, .wrote)]) writer stamp := by
  obtain ⟨past, later, rfl, apart⟩ := last
  refine ⟨past, later, [], rfl, ?_, apart, by simp⟩
  exact fun within => unwritten (List.mem_append_left _ within)

theorem WroteOnce.append (once : WroteOnce deeds writer stamp)
    (others : ∀ deed ∈ more, deed.1 ≠ writer) : WroteOnce (deeds ++ more) writer stamp := by
  obtain ⟨past, mid, later, rfl, first, between, apart⟩ := once
  refine ⟨past, mid, later ++ more, by simp, first, between, ?_⟩
  intro deed within
  exact (List.mem_append.mp within).elim (apart deed) (others deed)

theorem Conduct.append (conduct : Conduct deeds writer phase)
    (others : ∀ deed ∈ more, deed.1 ≠ writer) : Conduct (deeds ++ more) writer phase where
  held stamp held := (conduct.held stamp held).append others
  unwritten fresh within := by
    rcases List.mem_append.mp within with earlier | later
    · exact conduct.unwritten fresh earlier
    · exact others _ later rfl
  told outcome reached updated := (conduct.told outcome reached updated).append others

theorem Conduct.of_drew (conduct : Conduct deeds writer phase)
    (move : Moves family operation phase call answer next) (drew : call.drew? answer = some stamp) :
    Conduct (deeds ++ [(writer, .drew stamp)]) writer next := by
  obtain ⟨rfl, now⟩ := move.of_drew drew
  constructor
  · intro held reached
    obtain rfl := Option.some.inj (now.symm.trans reached)
    exact ⟨deeds, [], rfl, by simp⟩
  · intro _
    simpa using conduct.unwritten rfl
  · intro outcome reached
    rw [Phase.outcome?_eq_none now] at reached
    cases reached

theorem Conduct.of_wrote (conduct : Conduct deeds writer phase)
    (move : Moves family operation phase call answer next) (wrote : call.wrote answer = true) :
    Conduct (deeds ++ [(writer, .wrote)]) writer next := by
  obtain ⟨outcome, reached, held⟩ := move.outcome_of_wrote wrote
  constructor
  · intro stamp now
    rw [Phase.outcome?_eq_none now] at reached
    cases reached
  · intro fresh
    rw [fresh] at reached
    cases reached
  · intro told reached' _
    obtain rfl := Option.some.inj (reached.symm.trans reached')
    exact (conduct.held _ held).wroteOnce (conduct.unwritten (Phase.outcome?_eq_none held))

theorem Conduct.of_quiet (conduct : Conduct deeds writer phase)
    (move : Moves family operation phase call answer next) (drew : call.drew? answer = none)
    (quiet : call.wrote answer = false) : Conduct deeds writer next := by
  constructor
  · exact fun stamp held => conduct.held stamp (move.stamp_kept drew held)
  · intro fresh
    apply conduct.unwritten
    cases before : phase.outcome? with
    | none => rfl
    | some outcome => exact absurd ((move.outcome_kept before).1.symm.trans fresh) (by simp)
  · intro outcome reached updated
    cases before : phase.outcome? with
    | none => exact absurd (quiet.symm.trans (move.wrote_of_updated before reached updated)) (by simp)
    | some told =>
      obtain rfl := Option.some.inj ((move.outcome_kept before).1.symm.trans reached)
      exact conduct.told told before updated

theorem Conduct.of_move (conduct : Conduct deeds writer phase)
    (move : Moves family operation phase call answer next) :
    Conduct (deeds ++ (call.deed? answer).toList.map fun deed => (writer, deed)) writer next := by
  unfold Call.deed?
  cases drew : call.drew? answer with
  | some stamp => exact conduct.of_drew move drew
  | none =>
    cases wrote : call.wrote answer with
    | true => exact conduct.of_wrote move wrote
    | false => simpa using conduct.of_quiet move drew wrote

end Conduct

/-- What writers share who draw their stamps from one clock and post to one journal, with all that they
have done and posted. -/
structure Almanac (ι E : Type) where
  clock : Clock := {}
  journal : Journal E := {}
  deeds : List (ι × Deed) := []
  posted : List (ι × Change E) := []

namespace Almanac

def published (almanac : Almanac ι E) : Clock × Journal E := (almanac.clock, almanac.journal)

def stamps (almanac : Almanac ι E) : List Int := almanac.deeds.filterMap fun deed => deed.2.stamp?

def record (almanac : Almanac ι E) (writer : ι) (call : Call K E) (answer : call.Answer)
    (clock : Clock) (journal : Journal E) : Almanac ι E where
  clock
  journal
  deeds := almanac.deeds ++ (call.deed? answer).toList.map fun deed => (writer, deed)
  posted := almanac.posted ++ call.posted?.toList.map fun change => (writer, change)

/-- Some client's call is served, of which the others see what it does to the clock and to the journal. Its
mutator leaves the moment of creation alone, and what is posted goes to the journal for those of the
writers who have one. -/
def service [DecidableEq E] (family : Family K E) (created : E → Option Timestamp) (heard : ι → Bool) :
    Service (calls K E) (Almanac ι E) ι := fun writer call before answer after =>
  ∃ client : Client K E, client.posting = heard writer ∧ client.KeepsCreated created ∧
    ∃ clock journal,
      World.Shows family World.published client call before.published answer (clock, journal) ∧
        after = before.record writer call answer clock journal

variable [DecidableEq ι]

def postedBy (almanac : Almanac ι E) (writer : ι) : List (Change E) :=
  (almanac.posted.filter fun post => post.1 = writer).map Prod.snd

def told (almanac : Almanac ι E) (heard : ι → Bool) : List (Change E) :=
  (almanac.posted.filter fun post => heard post.1).map Prod.snd

structure Dates (almanac : Almanac ι E) (since : Int) : Prop where
  begun : since ≤ almanac.clock.latest
  within : ∀ stamp ∈ almanac.stamps, since < stamp ∧ stamp ≤ almanac.clock.latest
  ascending : almanac.stamps.Pairwise (· < ·)

structure Posts (almanac : Almanac ι E) (start : Journal E) (heard : ι → Bool)
    (posts : ι → List (Change E)) : Prop where
  own : almanac.postedBy = posts
  journal : almanac.journal = (almanac.told heard).foldl Journal.post start

section Steps

variable {almanac : Almanac ι E} {since : Int} {i : ι} {call : Call K E} {answer : call.Answer}
  {clock : Clock} {journal : Journal E}

omit [DecidableEq ι] in
theorem stamps_record : (almanac.record i call answer clock journal).stamps =
    almanac.stamps ++ (call.drew? answer).toList := by
  unfold stamps record
  rw [List.filterMap_append, ← Call.stamp?_deed?]
  cases call.deed? answer with
  | none => rfl
  | some deed => cases deed <;> rfl

omit [DecidableEq ι] in
theorem Dates.of_clock (dates : almanac.Dates since)
    (moved : (∃ stamp, call.drew? answer = some stamp ∧ clock.latest = stamp ∧
        almanac.clock.latest < stamp) ∨ call.drew? answer = none ∧ clock = almanac.clock) :
    (almanac.record i call answer clock journal).Dates since := by
  obtain ⟨begun, within, ascending⟩ := dates
  rcases moved with ⟨stamp, drew, latest, later⟩ | ⟨drew, rfl⟩
  · have stamps : (almanac.record i call answer clock journal).stamps = almanac.stamps ++ [stamp] := by
      rw [stamps_record, drew]
      rfl
    refine ⟨?_, ?_, ?_⟩
    · change since ≤ clock.latest
      omega
    · rw [stamps]
      change ∀ other ∈ _, since < other ∧ other ≤ clock.latest
      intro other drawn
      rcases List.mem_append.mp drawn with earlier | last
      · have := within other earlier
        omega
      · obtain rfl := List.mem_singleton.mp last
        omega
    · rw [stamps, List.pairwise_append]
      refine ⟨ascending, List.pairwise_singleton .., ?_⟩
      intro other earlier _ last
      obtain rfl := List.mem_singleton.mp last
      have := within other earlier
      omega
  · have stamps : (almanac.record i call answer almanac.clock journal).stamps = almanac.stamps := by
      rw [stamps_record, drew]
      exact List.append_nil _
    refine ⟨begun, ?_, ?_⟩
    · rw [stamps]
      exact within
    · rw [stamps]
      exact ascending

omit [DecidableEq ι] in
theorem posted_record : (almanac.record i call answer clock journal).posted =
    almanac.posted ++ call.posted?.toList.map fun change => (i, change) := rfl

theorem postedBy_record : (almanac.record i call answer clock journal).postedBy =
    Function.update almanac.postedBy i (almanac.postedBy i ++ call.posted?.toList) := by
  funext j
  unfold postedBy
  rw [posted_record, List.filter_append, List.map_append]
  by_cases same : j = i
  · subst same
    simp [List.filter_map, Function.comp_def]
  · rw [Function.update_of_ne same]
    simp [Ne.symm same]

omit [DecidableEq ι] in
theorem told_record {heard : ι → Bool} : (almanac.record i call answer clock journal).told heard =
    almanac.told heard ++ if heard i then call.posted?.toList else [] := by
  unfold told
  rw [posted_record, List.filter_append, List.map_append]
  cases audible : heard i with
  | true => simp [List.filter_map, Function.comp_def, audible]
  | false => simp [List.filter_map, Function.comp_def, audible]

theorem Posts.of_posting {start : Journal E} {heard : ι → Bool} {posts : ι → List (Change E)}
    {after : List (Change E)} (sent : almanac.Posts start heard posts)
    (written : journal = if heard i then (call.posted?.map almanac.journal.post).getD almanac.journal
      else almanac.journal)
    (posting : Posting (posts i) call answer after) :
    (almanac.record i call answer clock journal).Posts start heard
      (Function.update posts i after) := by
  constructor
  · rw [postedBy_record, sent.own]
    exact congrArg (Function.update posts i) posting.symm
  · change journal = _
    rw [told_record, List.foldl_append, ← sent.journal, written]
    cases heard i with
    | false => rfl
    | true => cases call.posted? <;> rfl

end Steps

end Almanac

section Runs

variable [DecidableEq ι] [DecidableEq K] [DecidableEq E] {family : Family K E}
  {created updated : E → Option Timestamp} {operations : ι → Operation K E} {heard : ι → Bool}

structure Kept (family : Family K E) (created updated : E → Option Timestamp)
    (operations : ι → Operation K E) (heard : ι → Bool) (start almanac : Almanac ι E)
    (phases : ι → Phase E × List (Change E)) : Prop where
  dates : almanac.Dates start.clock.latest
  conduct : ∀ i, Conduct almanac.deeds i (phases i).1
  marking : ∀ i, (phases i).1.Marking family created updated (operations i)
  posts : almanac.Posts start.journal heard (Prod.snd ∘ phases)

omit [DecidableEq K] in
theorem Kept.of_serves (lawful : family.Lawful) (dated : family.Dated created updated)
    {start almanac after : Almanac ι E} {phases : ι → Phase E × List (Change E)} {i : ι}
    {call : Call K E} {answer : call.Answer} {phase : Phase E × List (Change E)}
    (kept : Kept family created updated operations heard start almanac phases)
    (served : Almanac.service family created heard i call almanac answer after)
    (moved : Proceeds family (operations i) (phases i) call answer phase) :
    Kept family created updated operations heard start after (Function.update phases i phase) := by
  obtain ⟨move, posting⟩ := moved
  obtain ⟨client, posts, keeps, clock, journal, ⟨world, last, seen, served, shown⟩, rfl⟩ := served
  obtain ⟨sameClock, sameJournal⟩ := Prod.mk.inj seen
  obtain ⟨rfl, rfl⟩ := Prod.mk.inj shown
  constructor
  · have moved := World.serve_clock served
    rw [sameClock] at moved
    exact kept.dates.of_clock moved
  · intro j
    by_cases same : j = i
    · subst same
      rw [Function.update_self]
      exact (kept.conduct j).of_move move
    · rw [Function.update_of_ne same]
      exact (kept.conduct j).append (by simpa using fun _ _ => Ne.symm same)
  · intro j
    by_cases same : j = i
    · subst same
      rw [Function.update_self]
      exact (kept.marking j).of_move lawful dated keeps served move
    · rw [Function.update_of_ne same]
      exact kept.marking j
  · rw [Function.comp_update]
    have written := World.serve_journal served
    rw [sameJournal, posts] at written
    exact kept.posts.of_posting written posting

theorem kept_of_reachable (lawful : family.Lawful) (dated : family.Dated created updated)
    {policies : ι → RetryPolicy}
    {start crew : Crew (calls K E) (Almanac ι E) fun _ : ι => Except Error (Outcome E)}
    (idle : start.state.deeds = []) (unposted : start.state.posted = [])
    (tasks : ∀ i, start.tasks i = (operations i).program family (policies i))
    (reached : Crew.Reachable (Almanac.service family created heard) start crew) :
    ∃ phases, Kept family created updated operations heard start.state crew.state phases ∧
      ∀ i outcome, crew.tasks i = .done (.ok outcome) →
        (phases i).1.outcome? = some outcome ∧ (phases i).2 = announced family outcome := by
  have kept : Kept family created updated operations heard start.state start.state
      fun _ => (.outside, []) := by
    refine ⟨⟨Int.le_refl _, ?_, ?_⟩, fun i => ⟨?_, ?_, ?_⟩, fun _ => trivial, ?_⟩
    · simp [Almanac.stamps, idle]
    · simp [Almanac.stamps, idle]
    · intro stamp held
      cases held
    · simp [idle]
    · intro outcome told
      cases told
    · refine ⟨?_, by simp [Almanac.told, unposted]⟩
      funext i
      simp [Almanac.postedBy, unposted]
  have follows : ∀ i, (start.tasks i).Follows (Proceeds family (operations i)) (Finishes family)
      (.outside, []) := by
    intro i
    rw [tasks i]
    exact Operation.program_proceeds
  obtain ⟨phases, kept, follows⟩ := Crew.Reachable.phases
    (Kept family created updated operations heard start.state)
    (fun kept served moved => kept.of_serves lawful dated served moved) kept follows reached
  refine ⟨phases, kept, fun i outcome done => ?_⟩
  have ended := follows i
  rw [done] at ended
  exact ⟨outcome_of_ends ended.1, ended.2 outcome rfl⟩

/-- What becomes of a written account. It is marked with the last stamp that its writer drew before it
wrote, which is later than those of the attempts that failed and all others drawn by then, and one change
is posted, with the same stamp and the same rows. -/
structure StampedOnce (heard : ι → Bool) (start now : Almanac ι Account) (writer : ι)
    (outcome : Outcome Account) (row : Account) : Prop where
  marked : Marked Account.family Account.createdAt Account.updatedAt outcome row
  exact : Timestamp.earliest ≤ outcome.timestamp ∧ outcome.timestamp ≤ Timestamp.latest →
    row.updatedAt = some ⟨outcome.timestamp⟩
  wrote : ∃ past mid later,
    now.deeds = past ++ (writer, .drew outcome.timestamp) :: mid ++ (writer, .wrote) :: later ∧
      (writer, .wrote) ∉ past ∧ (∀ deed ∈ mid, deed.1 ≠ writer) ∧ (∀ deed ∈ later, deed.1 ≠ writer) ∧
      ∀ other stamp, (other, .drew stamp) ∈ past → stamp < outcome.timestamp
  since : start.clock.latest < outcome.timestamp
  posted : now.postedBy writer =
    [changeOf Account.family outcome (if outcome.inserted then .insert else .update)]
  journal : start.journal.closed = false →
    now.journal.changes = start.journal.changes ++ now.told heard

/-- However writers who share clock and journal are interleaved, and however often an attempt has failed:
each account that is written is stamped once. -/
theorem stamped_once {operations : ι → Operation Int64 Account} {policies : ι → RetryPolicy}
    {start crew : Crew (calls Int64 Account) (Almanac ι Account)
      fun _ : ι => Except Error (Outcome Account)}
    (idle : start.state.deeds = []) (unposted : start.state.posted = [])
    (tasks : ∀ i, start.tasks i = (operations i).program Account.family (policies i))
    (reached : Crew.Reachable (Almanac.service Account.family Account.createdAt heard) start crew)
    {i : ι} {outcome : Outcome Account} (edits : ∀ key, operations i ≠ .delete key)
    (done : crew.tasks i = .done (.ok outcome)) (updated : outcome.updated = true) :
    ∃ row, StampedOnce heard start.state crew.state i outcome row := by
  obtain ⟨phases, kept, ends⟩ := kept_of_reachable Account.family_lawful Account.family_dated
    idle unposted tasks reached
  obtain ⟨told, own⟩ := ends i outcome done
  obtain ⟨row, marked⟩ := (kept.marking i).of_outcome told updated edits
  obtain ⟨past, mid, later, deeds, first, between, apart⟩ :=
    (kept.conduct i).told outcome told updated
  have stamps : crew.state.stamps = past.filterMap (fun deed => deed.2.stamp?) ++
      outcome.timestamp :: (mid ++ (i, .wrote) :: later).filterMap fun deed => deed.2.stamp? := by
    simp [Almanac.stamps, deeds, Deed.stamp?]
  have ascending := kept.dates.ascending
  rw [stamps, List.pairwise_append] at ascending
  refine ⟨row, marked, ?_, ⟨past, mid, later, deeds, first, between, apart, ?_⟩, ?_, ?_, ?_⟩
  · intro within
    rw [marked.updated, Timestamp.ofMicros_eq within]
  · intro other stamp before
    exact ascending.2.2 stamp (List.mem_filterMap.mpr ⟨_, before, rfl⟩) _ List.mem_cons_self
  · refine (kept.dates.within outcome.timestamp ?_).1
    simp [stamps]
  · rw [kept.posts.own]
    exact own.trans (marked.announced_eq updated)
  · intro opened
    rw [kept.posts.journal, Journal.changes_foldl_post opened]

omit [DecidableEq K] in
theorem Almanac.reachable_of_advance (family : Family K E) (heard : ι → Bool) (i : ι)
    {client : Client K E} (posts : client.posting = heard i) (keeps : client.KeepsCreated created)
    (crew : Crew (calls K E) (Almanac ι E) fun _ : ι => Except Error (Outcome E)) (left : Nat)
    (world : World K E) (seen : world.published = crew.state.published) :
    ∃ after, Crew.Reachable (Almanac.service family created heard) crew after ∧
      after.tasks = Function.update crew.tasks i
        ((World.advance family client left (crew.tasks i)).run world).1 ∧
      ((World.advance family client left (crew.tasks i)).run world).2.published =
        after.state.published := by
  apply Crew.reachable_of_shown Almanac.published
  · rintro call before answer ⟨clock, journal⟩ shows
    exact ⟨_, ⟨client, posts, keeps, clock, journal, shows, rfl⟩, rfl⟩
  · exact seen

end Runs

section Deposits

def backdating : Client Int64 Account where
  reading _ := 0
  mutate account :=
    ({ account with balance := account.balance + 5, updatedAt := some .epoch }, .changed)
  create _ := .fresh "ann" 10

def aloud (_ : Bool) : Bool := true

def cashDesk : Crew (calls Int64 Account) (Almanac Bool Account)
    fun _ : Bool => Except Error (Outcome Account) :=
  ⟨{}, fun teller => (deposits teller).program Account.family { maxIterations := 3 }⟩

def beaten (world : World Int64 Account) : World Int64 Account :=
  { world with store := world.store.failMerges 2 }

theorem published_beaten (world : World Int64 Account) :
    (beaten world).published = world.published := rfl

def deposited (version balance : Int) (created updated : Int) : Account :=
  { Account.fresh "ann" balance with
    id := some 1, version, createdAt := some (.ofMicros created), updatedAt := some (.ofMicros updated) }

/-- The second teller is beaten to it twice, and pays in at the third attempt, which drew the fourth
stamp. -/
theorem stamped_once_deposits :
    ∃ crew row, Crew.Reachable (Almanac.service Account.family Account.createdAt aloud) cashDesk crew ∧
      crew.tasks true = .done (.ok (.ofUpdate "account" (deposited 1 15 1 1) (deposited 2 20 1 4) 4)) ∧
      StampedOnce aloud cashDesk.state crew.state true
        (.ofUpdate "account" (deposited 1 15 1 1) (deposited 2 20 1 4) 4) row := by
  have keeps : backdating.KeepsCreated Account.createdAt := fun _ => rfl
  obtain ⟨opened, first, made, seen⟩ :=
    Almanac.reachable_of_advance Account.family aloud false rfl keeps cashDesk 30 {} rfl
  obtain ⟨last, second, remade, _⟩ :=
    Almanac.reachable_of_advance Account.family aloud true rfl keeps opened 60 (beaten _)
      ((published_beaten _).trans seen)
  have waiting : opened.tasks true = cashDesk.tasks true := by
    rw [made, Function.update_of_ne (by decide)]
  have done : last.tasks true =
      .done (.ok (.ofUpdate "account" (deposited 1 15 1 1) (deposited 2 20 1 4) 4)) := by
    apply done_of_told
    rw [remade, Function.update_self, waiting]
    decide +kernel
  have tasks : ∀ teller, cashDesk.tasks teller =
      (deposits teller).program Account.family { maxIterations := 3 } := fun _ => rfl
  obtain ⟨row, stamped⟩ := stamped_once rfl rfl tasks (first.trans second)
    (by intro key; simp [deposits]) done rfl
  exact ⟨last, row, first.trans second, done, stamped⟩

end Deposits

end Write

end OptimisticStore
