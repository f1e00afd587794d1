import OptimisticStore.Proofs.Relation.Development
import OptimisticStore.Proofs.Running
import OptimisticStore.Relation.Load
import OptimisticStore.Relation.TableLoader
import OptimisticStore.Sample.Blog
/-!
What loading a graph reports of the rounds it took.

Main statement: `Walker.load_report`. Loaders may answer every batch with anything but an error, and
differently each time; the report counts what they were asked for and what became loaded, and says
whether the graph still awaits anything.
-/
namespace OptimisticStore

structure Batch where
  target : String
  keys : List RelationKey
  values : SortedMap RelationKey LoadedValue

namespace Batch

def Noted : Task.Serving batchCalls (List Batch) := fun request before answer after =>
  ∃ values, answer = .ok values ∧ after = before ++ [⟨request.1, request.2, values⟩]

def asked (batches : List Batch) : List (String × RelationKey) :=
  batches.flatMap fun batch => batch.keys.map (batch.target, ·)

def Bring (batches : List Batch) (key : RelationKey) (node : Node) : Prop :=
  ∃ batch ∈ batches, batch.values.get? key = some (.node node)

end Batch

namespace Resolved

variable {resolved : Resolved} {target : String} {keys : SortedSet RelationKey}
  {values : SortedMap RelationKey LoadedValue}

theorem brings_insert {key : RelationKey} {node : Node}
    (brought : (resolved.insert target keys values).Brings key node) :
    values.get? key = some (.node node) ∨ resolved.Brings key node := by
  obtain ⟨other, found⟩ := brought
  unfold get? insert at found
  dsimp only at found
  rw [SortedMap.get?_insert] at found
  split at found
  · rcases SortedMap.mem_of_get?_insertAll found with among | held
    · exact .inl (SortedMap.mem_entries_iff.mp among)
    · refine .inr ⟨target, ?_⟩
      unfold get?
      cases known : resolved.values.get? target with
      | none =>
        rw [known] at held
        cases held
      | some values =>
        rw [known] at held
        exact held
  · exact .inr ⟨other, found⟩

end Resolved

namespace Registry

variable {before after : List Batch}

/-- What came of some batches: they were for these pairs, which are requested now along with what was, and
nothing is there but what they or earlier ones brought. -/
structure Gathers (pairs : List (String × RelationKey)) (batches : List Batch) (start result : Resolved) :
    Prop where
  asked : Batch.asked batches = pairs
  requested : ∀ pair, pair ∈ pairs ∨ start.wasRequested pair.1 pair.2 = true →
    result.wasRequested pair.1 pair.2 = true
  brought : ∀ key node, result.Brings key node → Batch.Bring batches key node ∨ start.Brings key node

theorem resolveBatches_gathers {entries : List (String × SortedSet RelationKey)} {start result : Resolved}
    (run : (resolveBatches entries start).Runs Batch.Noted before (.ok result) after) :
    ∃ batches, after = before ++ batches ∧
      Gathers (entries.flatMap fun entry => entry.2.toList.map (entry.1, ·)) batches start result := by
  induction entries generalizing start before with
  | nil =>
    obtain ⟨same, rfl⟩ := Task.runs_pure.mp run
    obtain rfl := Except.ok.inj same
    refine ⟨[], (List.append_nil _).symm, rfl, ?_, fun _ _ => .inr⟩
    rintro pair (among | held)
    · cases among
    · exact held
  | cons entry rest ih =>
    obtain ⟨target, keys⟩ := entry
    unfold resolveBatches at run
    cases empty : keys.isEmpty with
    | true =>
      rw [if_pos empty] at run
      have nothing : keys.toList = [] := List.isEmpty_iff.mp empty
      rw [List.flatMap_cons, nothing]
      exact ih run
    | false =>
      rw [if_neg (by simp [empty])] at run
      obtain ⟨answer, mid, ⟨values, rfl, rfl⟩, run⟩ := Task.runs_ask_bind.mp run
      obtain ⟨batches, rfl, asked, requested, brought⟩ := ih run
      refine ⟨⟨target, keys.toList, values⟩ :: batches, by simp, ?_, ?_, ?_⟩
      · simp only [Batch.asked, List.flatMap_cons]
        exact congrArg _ asked
      · rintro pair (among | held)
        · rcases List.mem_append.mp among with here | later
          · obtain ⟨key, held, rfl⟩ := List.mem_map.mp here
            exact requested _ (.inr (Resolved.wasRequested_insert.mpr (.inl ⟨rfl, held⟩)))
          · exact requested pair (.inl later)
        · exact requested pair (.inr (Resolved.wasRequested_insert.mpr (.inr held)))
      · intro key node found
        rcases brought key node found with ⟨batch, among, found⟩ | found
        · exact .inl ⟨batch, .tail _ among, found⟩
        · rcases Resolved.brings_insert found with found | held
          · exact .inl ⟨_, .head _, found⟩
          · exact .inr held

theorem resolve_gathers {registry : Registry} {loaders : Loaders} {result : Resolved}
    (run : (registry.resolve loaders).Runs Batch.Noted before (.ok result) after) :
    ∃ batches, after = before ++ batches ∧ Gathers registry.pairs batches {} result := by
  unfold resolve at run
  cases known : loaders.requireAll registry.targets with
  | error cause =>
    rw [known] at run
    cases (Task.runs_pure.mp run).1
  | ok _ =>
    rw [known] at run
    exact resolveBatches_gathers run

end Registry

structure Round where
  before : Node
  batches : List Batch
  after : Node
  requested : Nat
  loaded : Nat

namespace Round

def total (count : Round → Nat) (rounds : List Round) : Nat := (rounds.map count).foldr (· + ·) 0

theorem total_cons {count : Round → Nat} {round : Round} {rest : List Round} :
    total count (round :: rest) = count round + total count rest := rfl

end Round

/-- The batches ask once for each pair that the graph awaits, and so many references of it become loaded
with what they bring; after a round that loads none, the graph awaits nothing. -/
structure Round.Sound (walker : Walker) (round : Round) : Prop where
  called : round.batches ≠ []
  asks : ∀ pair, pair ∈ Batch.asked round.batches ↔ round.before.Awaits walker pair
  once : (Batch.asked round.batches).Nodup
  requested : (Batch.asked round.batches).length = round.requested
  develops : round.before.Develops (Batch.Bring round.batches) round.after round.loaded
  finished : round.loaded = 0 → ∀ pair, ¬ round.after.Awaits walker pair

inductive Rounds (walker : Walker) : Node → List Round → Node → Prop where
  | nil (root : Node) : Rounds walker root [] root
  | cons {round : Round} {rest : List Round} {last : Node} (sound : round.Sound walker)
      (onward : Rounds walker round.after rest last) : Rounds walker round.before (round :: rest) last

theorem Rounds.develops {walker : Walker} {root last : Node} {rounds : List Round}
    (chain : Rounds walker root rounds last) :
    root.Develops (Batch.Bring (rounds.flatMap Round.batches)) last (Round.total Round.loaded rounds) := by
  induction chain with
  | nil root => exact .refl root
  | @cons round rest last sound _ ih =>
    rw [List.flatMap_cons, Round.total_cons]
    have first : round.before.Develops (Batch.Bring (round.batches ++ rest.flatMap Round.batches))
        round.after round.loaded := by
      apply sound.develops.mono
      rintro key node ⟨batch, among, found⟩
      exact ⟨batch, List.mem_append_left _ among, found⟩
    have later : round.after.Develops (Batch.Bring (round.batches ++ rest.flatMap Round.batches))
        last (Round.total Round.loaded rest) := by
      apply ih.mono
      rintro key node ⟨batch, among, found⟩
      exact ⟨batch, List.mem_append_right _ among, found⟩
    exact first.trans _ later

namespace Walker

variable {walker : Walker} {loaders : Loaders} {before after : List Batch}

theorem round_sound {root : Node} {batches : List Batch} {resolved : Resolved}
    (busy : (walker.frontier root).isEmpty = false)
    (gathers : Registry.Gathers (walker.frontier root).pairs batches {} resolved) :
    Round.Sound walker ⟨root, batches, (walker.inject resolved root).1, (walker.frontier root).size,
      (walker.inject resolved root).2⟩ := by
  obtain ⟨asked, requested, brought⟩ := gathers
  constructor
  · rintro rfl
    have none := Registry.isEmpty_iff_pairs.mpr asked.symm
    rw [busy] at none
    cases none
  · intro pair
    rw [asked]
    exact mem_frontier_iff
  · rw [asked]
    exact Registry.nodup_pairs _
  · rw [asked]
    exact Registry.length_pairs _
  · apply (inject_develops root).mono
    intro key node found
    rcases brought key node found with here | ⟨target, held⟩
    · exact here
    · cases held
  · intro calm pair awaits
    have all : resolved.Asked (root.waiting walker) := fun pair among =>
      requested pair (.inl (Registry.mem_pairs_ofPairs.mpr among))
    have among := (Node.mem_waiting_iff _).mpr awaits
    rw [inject_settles all calm] at among
    cases among

/-- What passes add to a report: the counts of their rounds, and whether anything is awaited at the end. -/
structure Reports (walker : Walker) (cap : Nat) (rounds : List Round) (last : Node)
    (start result : LoadReport) : Prop where
  passes : result.passes = start.passes + rounds.length
  requested : result.requested = start.requested + Round.total Round.requested rounds
  loaded : result.loaded = start.loaded + Round.total Round.loaded rounds
  within : rounds.length ≤ cap
  capped : result.capped = true ↔ ∃ pair, last.Awaits walker pair
  early : rounds.length < cap → ∀ pair, ¬ last.Awaits walker pair

namespace Reports

variable {cap : Nat} {rounds : List Round} {last : Node} {start result : LoadReport}

theorem idle (uncapped : start.capped = false) (done : ∀ pair, ¬ last.Awaits walker pair) :
    Reports walker cap [] last start start :=
  ⟨rfl, rfl, rfl, Nat.zero_le _, by simp [uncapped, done], fun _ => done⟩

theorem cons {round : Round}
    (reports : Reports walker cap rounds last (start.addPass round.requested round.loaded) result) :
    Reports walker (cap + 1) (round :: rounds) last start result := by
  obtain ⟨passes, requested, loaded, within, capped, early⟩ := reports
  refine ⟨?_, ?_, ?_, Nat.succ_le_succ within, capped, ?_⟩
  · rw [passes, List.length_cons]
    exact Nat.add_right_comm _ _ _
  · rw [requested, Round.total_cons]
    exact Nat.add_assoc _ _ _
  · rw [loaded, Round.total_cons]
    exact Nat.add_assoc _ _ _
  · intro less
    exact early (Nat.lt_of_succ_lt_succ less)

end Reports

theorem loadPasses_reports {passes : Nat} {root : Node} {start report : LoadReport} {loading : Loading}
    (uncapped : start.capped = false)
    (run : (walker.loadPasses loaders passes root start).Runs Batch.Noted before (.ok report, loading)
      after) :
    ∃ rounds, Rounds walker root rounds loading.root ∧ after = before ++ rounds.flatMap Round.batches ∧
      Reports walker passes rounds loading.root start report := by
  induction passes generalizing root start before with
  | zero =>
    -- At the cap, the graph is looked at once more.
    obtain ⟨ended, rfl⟩ := Task.runs_pure.mp run
    cases ended
    refine ⟨[], .nil root, (List.append_nil _).symm, rfl, rfl, rfl, Nat.le_refl _, ?_, nofun⟩
    rw [Bool.not_eq_true', ← Bool.not_eq_true, frontier_isEmpty_iff]
    simp
  | succ passes ih =>
    rw [loadPasses] at run
    cases idle : (walker.frontier root).isEmpty with
    | true =>
      simp only [idle, if_true] at run
      obtain ⟨ended, rfl⟩ := Task.runs_pure.mp run
      cases ended
      exact ⟨[], .nil root, (List.append_nil _).symm, .idle uncapped (frontier_isEmpty_iff.mp idle)⟩
    | false =>
      simp only [idle, Bool.false_eq_true, if_false] at run
      obtain ⟨answer, mid, first, run⟩ := Task.runs_bind.mp run
      cases answer with
      | error cause =>
        cases (Prod.mk.inj (Task.runs_pure.mp run).1).1
      | ok resolved =>
        obtain ⟨batches, rfl, gathers⟩ := Registry.resolve_gathers first
        have sound := round_sound idle gathers
        have still : (start.addPass (walker.frontier root).size (walker.inject resolved root).2).capped =
          false := uncapped
        dsimp only at run
        split at run
        next calm =>
          -- A pass that loaded nothing is the last one, and the graph is not looked at again.
          obtain ⟨ended, rfl⟩ := Task.runs_pure.mp run
          cases ended
          exact ⟨[_], .cons sound (.nil _), by simp, .cons (.idle still (sound.finished calm))⟩
        next =>
          obtain ⟨rounds, chain, rfl, reports⟩ := ih still run
          exact ⟨_ :: rounds, .cons sound chain, by simp, .cons reports⟩

/-- If loading succeeds with loaders that answer, its report is exact: it counts the rounds of calls, the
pairs that were awaited at the start of each, and the references that became loaded; and it is capped if
and only if the graph still awaits something, which takes as many passes as there may be. -/
theorem load_report {cap : Nat} {root : Node} {report : LoadReport} {loading : Loading}
    {batches : List Batch}
    (run : (walker.load loaders cap root).Runs Batch.Noted [] (.ok report, loading) batches) :
    ∃ rounds, Rounds walker root rounds loading.root ∧ batches = rounds.flatMap Round.batches ∧
      report.passes = rounds.length ∧ report.passes ≤ cap ∧
      report.requested = Round.total Round.requested rounds ∧
      report.loaded = Round.total Round.loaded rounds ∧
      root.Develops (Batch.Bring batches) loading.root report.loaded ∧
      (report.capped = true ↔ ∃ pair, loading.root.Awaits walker pair) ∧
      (report.passes < cap → ∀ pair, ¬ loading.root.Awaits walker pair) := by
  obtain ⟨rounds, chain, rfl, reports⟩ := loadPasses_reports rfl run
  obtain ⟨counted, requested, loaded, within, capped, early⟩ := reports
  change _ = 0 + _ at counted requested loaded
  rw [Nat.zero_add] at counted requested loaded
  refine ⟨rounds, chain, rfl, counted, counted ▸ within, requested, loaded, ?_, capped, ?_⟩
  · rw [loaded]
    exact chain.develops
  · rw [counted]
    exact early

section Feeds

def shelves (batch : String × List RelationKey) : SortedMap RelationKey LoadedValue :=
  let authors : TableLoader := {
    target := "author"
    rows := .ofList [(.int 1, Blog.author { id := some 1 } [.pending (.int 10), .pending (.int 11)]
      (.pending (.int 2)))] }
  let posts : TableLoader := {
    target := "post"
    rows := .ofList [(.int 10, Blog.post { id := some 10 } (.pending (.int 3)))]
    foreign := .ofList [.int 11] }
  if batch.1 = authors.target then authors.values batch.2 else posts.values batch.2

def shelved (batch : String × List RelationKey) :
    StateM (List Batch) (Except Error (SortedMap RelationKey LoadedValue)) :=
  fun batches => (.ok (shelves batch), batches ++ [⟨batch.1, batch.2, shelves batch⟩])

theorem shelved_noted (batch : String × List RelationKey) (before : List Batch)
    (answer : Except Error (SortedMap RelationKey LoadedValue)) (after : List Batch)
    (served : (shelved batch).run before = (answer, after)) : Batch.Noted batch before answer after := by
  obtain ⟨rfl, rfl⟩ := Prod.mk.inj served
  exact ⟨_, rfl, rfl⟩

def librarian : Walker := { schemas := Blog.schemas }

def shelf : Node := Blog.feed [Blog.post { id := some 12 } (.pending (.int 1))]

def shelfRun : (Except Error LoadReport × Loading) × List Batch :=
  ((librarian.load ⟨.ofList ["author", "post"]⟩ 5 shelf).run shelved).run []

theorem load_report_shelf :
    shelfRun.1.1 = .ok { passes := 3, requested := 5, loaded := 2, capped := false } ∧
      (∃ rounds, Rounds librarian shelf rounds shelfRun.1.2.root ∧
        shelfRun.2 = rounds.flatMap Round.batches ∧ rounds.length = 3) ∧
      shelf.Develops (Batch.Bring shelfRun.2) shelfRun.1.2.root 2 ∧
      ∀ pair, ¬ shelfRun.1.2.root.Awaits librarian pair := by
  have reported : shelfRun.1.1 = .ok { passes := 3, requested := 5, loaded := 2, capped := false } := by
    decide +kernel
  have ended : shelfRun.1 =
      (.ok { passes := 3, requested := 5, loaded := 2, capped := false }, shelfRun.1.2) :=
    Prod.ext reported rfl
  have run := Task.runs_of_run shelved_noted (librarian.load ⟨.ofList ["author", "post"]⟩ 5 shelf) []
  obtain ⟨rounds, chain, batches, counted, _, _, _, develops, _, early⟩ := load_report (ended ▸ run)
  exact ⟨reported, ⟨rounds, chain, batches, counted.symm⟩, develops, early (by decide)⟩

def leaf : Node := .mk "page" {} (.ofList [("next", .reference .any (.pending (.int 1)))])

def binder : Walker := { schemas := [({ typeName := "page" } : Schema).nested "next"] }

/-- The field is selected and its reference is pending, before loading and after; but a field of inline
values has no target, so nothing is asked for and the report is not capped. -/
theorem load_passes_over_nested :
    (binder.load {} 3 leaf).Runs Batch.Noted [] (.ok { capped := false }, ⟨leaf, {}⟩) [] ∧
      "next" ∈ ((binder.schemaOf leaf.type).fieldsFor binder.scenario).map FieldSpec.name ∧
      ("next", .reference .any (.pending (.int 1))) ∈ leaf.fields.toList := by
  refine ⟨Task.runs_pure.mpr ⟨rfl, rfl⟩, ?_, ?_⟩
  · decide
  · decide

end Feeds

end Walker

end OptimisticStore
