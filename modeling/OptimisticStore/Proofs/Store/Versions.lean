import OptimisticStore.Proofs.Store.Runs
import OptimisticStore.Sample.Record
/-!
Versions count changes.

An insertion starts a versioned row at one whatever version the record carried, and a merge that changes
the row takes the stored version one further. Main statement: `version_counts_changes`, by which the
version of a row can be read off the log of the run that led to it.
-/
namespace OptimisticStore

variable {K E : Type} [Key K] {family : Family K E}

/-- Setting the key sets it and no version; setting the version sets that of versioned records, and no
key. -/
structure Family.Numbered (family : Family K E) : Prop where
  key_withKey : ∀ key entity, family.key (family.withKey key entity) = some key
  version_withKey : ∀ key entity, family.version (family.withKey key entity) = family.version entity
  key_withVersion : ∀ version entity, family.key (family.withVersion version entity) = family.key entity
  version_withVersion : ∀ version entity,
    family.version (family.withVersion version entity) = (family.version entity).map fun _ => version

omit [Key K] in
theorem Family.Lawful.numbered (lawful : family.Lawful) : family.Numbered where
  key_withKey := lawful.key_withKey
  version_withKey := lawful.version_withKey
  key_withVersion := lawful.key_withVersion
  version_withVersion := lawful.version_withVersion

structure Exchange (K E : Type) [Key K] where
  call : StoreCall K E
  answer : call.Answer

namespace Exchange

variable [DecidableEq K] (family : Family K E) (key : K)

def inserts : Exchange K E → Bool
  | ⟨.insert _, .ok row⟩ => family.key row = some key
  | _ => false

def changes : Exchange K E → Bool
  | ⟨.merge entity, .ok merged⟩ => merged.changed && family.key entity = some key
  | _ => false

end Exchange

/-- The exchanges of a seeding: the insertions up to the first that is refused, with that one. -/
def Table.seeded (family : Family K E) (table : Table K E) : List E → List (Exchange K E)
  | [] => []
  | entity :: rest => match table.insert family entity with
    | (.error cause, _) => [⟨.insert entity, Except.error cause⟩]
    | (.ok row, after) => ⟨.insert entity, Except.ok row⟩ :: after.seeded family rest

namespace Store

variable [DecidableEq E] (family : Family K E)

def exchanged (store : Store K E) : Action K E → List (Exchange K E)
  | .call call => [⟨call, (store.serve family call).1⟩]
  | .seed entities => if store.poisoned then [] else store.table.seeded family entities
  | .clear => []

def log (store : Store K E) : List (Action K E) → List (Exchange K E)
  | [] => []
  | action :: rest => store.exchanged family action ++ (store.act family action).log rest

end Store

variable [DecidableEq K]

/-- The log tells when the row of a key was last inserted, and the row has the version one and one more
for each change there since then; if it was inserted without a version it has none. -/
def Counted (family : Family K E) (log : List (Exchange K E)) (key : K) (row : E) : Prop :=
  ∃ (entity first : E) (before later : List (Exchange K E)),
    log = before ++ ⟨.insert entity, Except.ok first⟩ :: later ∧ family.key first = some key ∧
    (∀ exchange ∈ later, exchange.inserts family key = false) ∧
    family.version row = (family.version entity).map fun _ =>
      1 + (later.countP (Exchange.changes family key) : Int)

/-- A version is at most the number of calls so far, so a run gets beyond a signed 64-bit word only by as
many calls as that counts to. -/
theorem Counted.version_le {log : List (Exchange K E)} {key : K} {row : E} {version : Int}
    (counted : Counted family log key row) (versioned : family.version row = some version) :
    0 < version ∧ version ≤ log.length := by
  obtain ⟨entity, first, before, later, rfl, _, _, counts⟩ := counted
  obtain ⟨_, _, rfl⟩ := Option.map_eq_some_iff.mp (counts.symm.trans versioned)
  have most : later.countP (Exchange.changes family key) ≤ later.length := List.countP_le_length
  simp only [List.length_append, List.length_cons]
  omega

def Table.Counted (family : Family K E) (log : List (Exchange K E)) (table : Table K E) : Prop :=
  ∀ key row, table.rows.get? key = some row → OptimisticStore.Counted family log key row

section Steps

variable {log : List (Exchange K E)} {exchange : Exchange K E} {key : K}

theorem Counted.onward {current row : E} (counted : Counted family log key current)
    (elsewhere : exchange.inserts family key = false)
    (next : family.version row =
      (family.version current).map (· + ((exchange.changes family key).toNat : Int))) :
    Counted family (log ++ [exchange]) key row := by
  obtain ⟨entity, first, before, later, rfl, own, alone, version⟩ := counted
  have one : [exchange].countP (Exchange.changes family key) = (exchange.changes family key).toNat := by
    cases changed : exchange.changes family key <;> simp [changed]
  refine ⟨entity, first, before, later ++ [exchange], by simp, own, ?_, ?_⟩
  · intro other within
    rcases List.mem_append.mp within with within | last
    · exact alone other within
    · rw [List.mem_singleton.mp last, elsewhere]
  · rw [next, version, Option.map_map, List.countP_append, one]
    simp [Function.comp_def, Int.add_assoc]

theorem Counted.beside {row : E} (counted : Counted family log key row)
    (elsewhere : exchange.inserts family key = false) (quiet : exchange.changes family key = false) :
    Counted family (log ++ [exchange]) key row := by
  apply counted.onward elsewhere
  simp [quiet]

omit [DecidableEq K] [Key K] in
theorem version_nextVersion_of_same (numbered : family.Numbered) {current entity : E}
    (same : family.version current = family.version entity) :
    family.version (Table.nextVersion family current entity) =
      (family.version current).map (· + 1) := by
  unfold Table.nextVersion
  cases held : family.version current with
  | none => exact same.symm.trans held
  | some version =>
    dsimp only
    rw [numbered.version_withVersion, ← same, held]
    rfl

omit [DecidableEq K] [Key K] in
theorem firstVersion_of_own (numbered : family.Numbered) {entity held : E} {key : K}
    (own : family.key entity = some key ∧ held = entity ∨
      family.key entity = none ∧ held = family.withKey key entity) :
    family.key (Table.firstVersion family held) = some key ∧
      family.version (Table.firstVersion family held) = (family.version entity).map fun _ => 1 := by
  have kept : family.key held = some key ∧ family.version held = family.version entity := by
    rcases own with ⟨own, rfl⟩ | ⟨_, rfl⟩
    · exact ⟨own, rfl⟩
    · exact ⟨numbered.key_withKey key entity, numbered.version_withKey key entity⟩
  unfold Table.firstVersion
  split
  next =>
    rw [numbered.key_withVersion, numbered.version_withVersion, kept.2]
    exact ⟨kept.1, rfl⟩
  next unversioned =>
    rw [Option.not_isSome_iff_eq_none] at unversioned
    rw [← kept.2, unversioned]
    exact ⟨kept.1, rfl⟩

variable {table after : Table K E} {call : StoreCall K E} {answer : call.Answer}

theorem Table.Counted.step (numbered : family.Numbered) (counted : table.Counted family log)
    (effect : table.Effect family call answer after) :
    after.Counted family (log ++ [⟨call, answer⟩]) := by
  intro key row found
  rcases effect with ⟨_, writes⟩ | ⟨quiet, rows⟩
  · cases writes with
    | @insert entity held own after under vacant unshared rows =>
      obtain ⟨stands, version⟩ := firstVersion_of_own numbered under
      rw [get?_of_inserted rows] at found
      split at found
      next same =>
        obtain rfl := Option.some.inj found
        subst same
        exact ⟨entity, _, log, [], rfl, stands, by simp, by simpa using version⟩
      next other =>
        refine (counted key row found).beside ?_ rfl
        change decide (family.key (firstVersion family held) = some key) = false
        rw [stands]
        simpa using Ne.symm other
    | @merge entity current own after under held same unshared rows =>
      rw [get?_of_inserted rows] at found
      split at found
      next here =>
        obtain rfl := Option.some.inj found
        subst here
        have changed : (⟨.merge entity, Except.ok ⟨nextVersion family current entity, true⟩⟩ :
            Exchange K E).changes family key = true := by simp [Exchange.changes, under]
        apply (counted key current held).onward rfl
        rw [changed]
        exact version_nextVersion_of_same numbered same
      next other =>
        refine (counted key row found).beside rfl ?_
        simpa [Exchange.changes, under] using Ne.symm other
    | @delete entity current own after under held same rows =>
      rw [rows, SortedMap.get?_erase] at found
      split at found
      next => cases found
      next => exact (counted key row found).beside rfl rfl
  · rw [rows] at found
    apply (counted key row found).beside
    · cases call with
      | insert entity =>
        cases answer with
        | error cause => rfl
        | ok row => cases quiet
      | _ => rfl
    · cases call with
      | merge entity =>
        cases answer with
        | error cause => rfl
        | ok merged =>
          have unchanged : merged.changed = false := quiet
          simp [Exchange.changes, unchanged]
      | _ => rfl

theorem Table.Counted.seed (numbered : family.Numbered) (entities : List E) {table : Table K E}
    {log : List (Exchange K E)} (counted : table.Counted family log) :
    (table.seed family entities).2.Counted family (log ++ table.seeded family entities) := by
  induction entities generalizing table log with
  | nil =>
    rw [seeded, List.append_nil]
    exact counted
  | cons entity rest ih =>
    cases inserted : table.insert family entity with
    | mk answer mid =>
      have first := counted.step numbered (insert_effect family inserted)
      cases answer with
      | error cause => simpa only [Table.seed, seeded, inserted] using first
      | ok row =>
        have later := ih first
        rw [List.append_assoc, List.singleton_append] at later
        cases onward : mid.seed family rest with
        | mk result last =>
          rw [onward] at later
          cases result with
          | error cause => simpa only [Table.seed, seeded, inserted, onward] using later
          | ok rows => simpa only [Table.seed, seeded, inserted, onward] using later

end Steps

namespace Store

variable [DecidableEq E] {store : Store K E} {log : List (Exchange K E)}

theorem counted_act (numbered : family.Numbered) (action : Action K E)
    (counted : store.table.Counted family log) :
    (store.act family action).table.Counted family (log ++ store.exchanged family action) := by
  cases action with
  | call call => exact counted.step numbered (serve_effect family rfl)
  | seed entities =>
    change (store.seed family entities).2.table.Counted family _
    unfold Store.seed onTable exchanged
    cases store.poisoned with
    | true => simpa using counted
    | false => exact counted.seed numbered entities
  | clear =>
    change store.clear.table.Counted family _
    rw [exchanged, List.append_nil]
    rcases clear_cases store with same | emptied
    · rw [same]
      exact counted
    · rw [emptied]
      intro key row found
      cases found

theorem counted_after (numbered : family.Numbered) (actions : List (Action K E))
    (counted : store.table.Counted family log) :
    (store.after family actions).table.Counted family (log ++ store.log family actions) := by
  induction actions generalizing store log with
  | nil =>
    rw [Store.log, List.append_nil]
    exact counted
  | cons action rest ih =>
    have later := ih (counted_act numbered action counted)
    rw [List.append_assoc] at later
    exact later

/-- After any run from an empty store the version of a row counts the changes on its key since it was
last inserted, and a merge that fails or finds nothing to change leaves all rows as they were. -/
theorem version_counts_changes (numbered : family.Numbered) (actions : List (Action K E)) :
    (∀ key row, (after family {} actions).row? key = some row →
      Counted family (Store.log family {} actions) key row) ∧
    ∀ (entity : E) (answer : Except StoreError (Merged E)) (last : Store K E),
      (after family {} actions).serve family (.merge entity) = (answer, last) →
      (∀ merged, answer = .ok merged → merged.changed = false) →
      ∀ key, last.row? key = (after family {} actions).row? key := by
  have reached : (after family {} actions).poisoned = false := after_poisoned actions
  constructor
  · intro key row found
    rw [row?_of_reached reached] at found
    have start : ({} : Store K E).table.Counted family [] := by
      intro key row found
      cases found
    exact counted_after numbered actions start key row found
  · intro entity answer last served unchanged key
    have still : last.poisoned = false := by
      have kept : ((after family {} actions).act family (.call (.merge entity))).poisoned = false :=
        (act_poisoned _).trans reached
      rw [act, served] at kept
      exact kept
    have quiet : (StoreCall.merge entity : StoreCall K E).wrote answer = false := by
      cases answer with
      | error cause => rfl
      | ok merged => exact unchanged merged rfl
    rcases serve_effect family served with ⟨wrote, _⟩ | ⟨_, rows⟩
    · rw [quiet] at wrote
      cases wrote
    · rw [row?_of_reached still, row?_of_reached reached, rows]

section Shelf

def books : Family Int64 (Record Int64) := Record.family "book" "id" false

/-- A book that comes with a version of its own, one without, and one that is removed and comes again,
each with changes that are accepted and others that are stale, of the wrong kind, or none. -/
def handlings : List (Action Int64 (Record Int64)) :=
  [.seed [{ version := some 7, text := "first" }, { id := some 5, text := "plain" }],
    .call (.merge { id := some 1, version := some 1, text := "second" }),
    .call (.merge { id := some 1, version := some 2, text := "second" }),
    .call (.merge { id := some 1, version := some 1, text := "third" }),
    .call (.merge { id := some 1, text := "third" }),
    .call (.merge { id := some 5, version := some 1, text := "kept" }),
    .call (.merge { id := some 5, text := "kept" }),
    .call (.insert { id := some 2, version := some 9 }),
    .call (.merge { id := some 2, version := some 1, number := 1 }),
    .call (.merge { id := some 2, version := some 2, number := 2 }),
    .call (.delete { id := some 2, version := some 3 }),
    .call (.insert { id := some 2, version := some 9 }),
    .call (.merge { id := some 2, version := some 1, number := 3 })]

theorem version_counts_changes_handlings :
    let store := after books {} handlings
    books.Numbered ∧
    [1, 2, 5].map (fun key => (store.row? key).map books.version) =
      [some (some 2), some (some 2), some none] ∧
    Counted books (Store.log books {} handlings) 2 { id := some 2, version := some 2, number := 3 } ∧
    Counted books (Store.log books {} handlings) 5 { id := some 5, text := "kept" } ∧
    (store.serve books (.merge { id := some 2, version := some 1 })).2.row? 2 = store.row? 2 := by
  intro store
  have numbered : books.Numbered := (Record.family_lawful "book" "id" false).numbered
  obtain ⟨counted, unchanged⟩ := version_counts_changes numbered handlings
  refine ⟨numbered, by decide +kernel, counted 2 _ (by decide +kernel),
    counted 5 _ (by decide +kernel), ?_⟩
  apply unchanged { id := some 2, version := some 1 } _ _ rfl
  intro merged accepted
  cases accepted

end Shelf

end Store

end OptimisticStore
