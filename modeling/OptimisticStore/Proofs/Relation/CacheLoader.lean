import OptimisticStore.Model.CacheLoader
import OptimisticStore.Proofs.Cache.Reads
import OptimisticStore.Proofs.Key.Typed
import OptimisticStore.Proofs.Relation.Registry
import OptimisticStore.Sample.Record
/-!
Under which relation keys a batch from the read cache brings its rows.

Main statement: `loadBatch_binds`, by which a requested relation key is bound to the row of the key that
is erased to it, and to nothing if there is none. For keys with one erased form that is the row of the
key it stands for; `loadBatch_misses` shows a key with two, which is not found under the other one.
-/
namespace OptimisticStore

variable {K E : Type} [Key K]

def Table.under (table : Table K E) (relation : RelationKey) : Option E :=
  (Key.recover relation).bind fun key =>
    if Key.erase key = relation then table.rows.get? key else none

theorem Table.under_of_exact [ExactKey K] {table : Table K E} {relation : RelationKey} :
    table.under relation = (Key.recover relation).bind table.rows.get? := by
  unfold Table.under
  cases recovered : (Key.recover relation : Option K) with
  | none => rfl
  | some key => exact if_pos (ExactKey.erase_of_recover recovered)

def World.Truthful (client : Client K E) (world : World K E) : Prop :=
  ∀ key slot, (world.home client).slots.get? key = some slot →
    slot = .ofOption (world.table.rows.get? key)

theorem World.seen_of_truthful {client : Client K E} {world : World K E}
    (truthful : world.Truthful client) (key : K) :
    world.seen client key = world.table.rows.get? key := by
  unfold World.seen
  cases held : (world.home client).slots.get? key with
  | none => rfl
  | some slot =>
    rw [truthful key slot held]
    exact Slot.toOption_ofOption _

namespace CacheLoader

variable [DecidableEq K]

omit [DecidableEq K] in
theorem mem_bindings_iff {found : SortedMap K (Option E)} {relation : RelationKey} {row : E} :
    (relation, row) ∈
        (found.entries.filterMap fun (key, entity) => entity.map (Key.erase key, ·)) ↔
      ∃ key, found.get? key = some (some row) ∧ Key.erase key = relation := by
  rw [List.mem_filterMap]
  constructor
  · rintro ⟨⟨key, entity⟩, within, same⟩
    obtain ⟨row, rfl, bound⟩ := Option.map_eq_some_iff.mp same
    obtain ⟨rfl, rfl⟩ := Prod.mk.inj bound
    exact ⟨key, SortedMap.mem_entries_iff.mp within, rfl⟩
  · rintro ⟨key, held, rfl⟩
    exact ⟨(key, some row), SortedMap.mem_entries_iff.mpr held, rfl⟩

omit [DecidableEq K] in
theorem get?_byRelationKey [LawfulKey K] {found : SortedMap K (Option E)} {relation : RelationKey}
    {row : E} : (byRelationKey found).get? relation = some row ↔
      ∃ key, found.get? key = some (some row) ∧ Key.erase key = relation := by
  rw [← mem_bindings_iff]
  constructor
  · intro held
    rcases SortedMap.mem_of_get?_insertAll held with within | nothing
    · exact within
    · cases nothing
  · intro within
    apply SortedMap.get?_insertAll_of_agree within
    intro other among
    obtain ⟨key, held, erased⟩ := mem_bindings_iff.mp within
    obtain ⟨key', held', erased'⟩ := mem_bindings_iff.mp among
    obtain rfl := Key.erase_injective (erased.trans erased'.symm)
    rw [held] at held'
    exact (Option.some.inj (Option.some.inj held')).symm

/-- What one would have of a batch: what a requested relation key stands for is found under it. -/
def FindsRows (table : Table K E) (requested : List RelationKey) (found : SortedMap RelationKey E) :
    Prop :=
  ∀ relation ∈ requested, found.get? relation = (Key.recover relation).bind table.rows.get?

variable [DecidableEq E] {family : Family K E} {client : Client K E} {world : World K E}
  {requested : List RelationKey}

theorem run_loadBatch (readable : world.Readable client) :
    ((World.run family client (loadBatch family requested)).run world).1 =
      .ok (byRelationKey (world.gathered client (typedKeys requested))) := by
  unfold loadBatch
  rw [World.run_bind, World.run_getAll readable]
  rfl

omit [DecidableEq E] in
theorem get?_loaded [LawfulKey K] (truthful : world.Truthful client) {relation : RelationKey}
    (among : relation ∈ requested) :
    (byRelationKey (world.gathered client (typedKeys requested))).get? relation =
      world.table.under relation := by
  apply Option.ext
  intro row
  rw [get?_byRelationKey]
  constructor
  · rintro ⟨key, held, rfl⟩
    rw [World.get?_gathered] at held
    split at held
    next =>
      rw [World.seen_of_truthful truthful] at held
      unfold Table.under
      rw [LawfulKey.recover_erase]
      exact (if_pos rfl).trans (Option.some.inj held)
    next => cases held
  · intro held
    obtain ⟨key, recovered, held⟩ := Option.bind_eq_some_iff.mp held
    split at held
    next erased =>
      have asked : key ∈ (typedKeys requested : SortedSet K).toList :=
        SortedSet.mem_ofList.mpr (List.mem_filterMap.mpr ⟨relation, among, recovered⟩)
      refine ⟨key, ?_, erased⟩
      rw [World.get?_gathered, if_pos asked, World.seen_of_truthful truthful, held]
    next => cases held

omit [DecidableEq K] [DecidableEq E] in
theorem inject_pending {walker : Walker} {resolved : Resolved} {revisit : Revisit} {target : String}
    {holds : RefType} {shape : E → Node} (fits : ∀ row, holds.accepts (shape row) = true)
    {found : SortedMap RelationKey E} {relation : RelationKey}
    (answered : resolved.Answers (fun _ key => (found.get? key).map fun row => .node (shape row))
      (target, relation)) :
    Ref.inject walker resolved revisit (some target) holds (.pending relation) =
      match found.get? relation with
      | some row => (.loaded relation (shape row), 1)
      | none => (.dangling relation, 0) := by
  obtain ⟨asked, value⟩ := answered
  dsimp only at asked value
  unfold Ref.inject Resolved.offer
  cases held : found.get? relation with
  | none => simp [value, held, asked]
  | some row => simp [value, held, LoadedValue.as?, fits]

theorem loadBatch_binds [LawfulKey K] {holds : RefType} {shape : E → Node}
    (readable : world.Readable client) (truthful : world.Truthful client)
    (fits : ∀ row, holds.accepts (shape row) = true) :
    ∃ found, ((World.run family client (loadBatch family requested)).run world).1 = .ok found ∧
      (∀ relation ∈ requested, found.get? relation = world.table.under relation) ∧
      (ExactKey K → FindsRows world.table requested found) ∧
      ∀ relation ∈ requested, ∀ (walker : Walker) (resolved : Resolved) (revisit : Revisit)
        (target : String),
        resolved.Answers (fun _ key => (found.get? key).map fun row => .node (shape row))
          (target, relation) →
        Ref.inject walker resolved revisit (some target) holds (.pending relation) =
          match world.table.under relation with
          | some row => (.loaded relation (shape row), 1)
          | none => (.dangling relation, 0) := by
  have bound : ∀ relation ∈ requested,
      (byRelationKey (world.gathered client (typedKeys requested))).get? relation =
        world.table.under relation := fun relation => get?_loaded truthful
  refine ⟨_, run_loadBatch readable, bound, ?_, ?_⟩
  · intro exact relation among
    rw [bound relation among, Table.under_of_exact]
  · intro relation among walker resolved revisit target answered
    rw [inject_pending fits answered, bound relation among]

section Register

abbrev Numbered := Record UInt64

def entries : Family UInt64 Numbered := Record.family "entry" "id" false

def reader : Client UInt64 Numbered where
  reading drawn := drawn
  mutate entry := (entry, .unchanged)
  create _ := {}

def five : Numbered := { id := some 5, text := "five" }

def largest : Numbered := { id := some 18446744073709551615, text := "largest" }

def register : World UInt64 Numbered where
  store := { inner := { table := { rows := .ofList [(5, five), (18446744073709551615, largest)] } } }
  nodes := [{ slots := .ofList [(5, .present five), (7, .absent)] }]

def shape (entry : Numbered) : Node := .mk "entry" { label := entry.text } .nil

theorem truthful_register : register.Truthful reader := by
  intro key slot held
  have among : (key, slot) ∈ [((5 : UInt64), Slot.present five), (7, .absent)] :=
    SortedMap.mem_entries_iff.mpr held
  simp only [List.mem_cons, Prod.mk.injEq, List.not_mem_nil, or_false] at among
  rcases among with ⟨rfl, rfl⟩ | ⟨rfl, rfl⟩
  · decide +kernel
  · decide +kernel

theorem loadBatch_binds_register :
    ∃ found, ((World.run entries reader (loadBatch entries [.int 5, .text "18446744073709551615",
        .text "5", .int 7, .int (-1)])).run register).1 = .ok found ∧
      found.get? (.int 5) = some five ∧
      found.get? (.text "18446744073709551615") = some largest ∧
      found.get? (.text "5") = none ∧ found.get? (.int 7) = none ∧ found.get? (.int (-1)) = none := by
  obtain ⟨found, loaded, bound, _⟩ := @loadBatch_binds UInt64 Numbered _ _ _ entries reader register
    [.int 5, .text "18446744073709551615", .text "5", .int 7, .int (-1)] _ .any shape
    ⟨by decide, rfl, rfl⟩ truthful_register (fun _ => rfl)
  refine ⟨found, loaded, ?_, ?_, ?_, ?_, ?_⟩
  · rw [bound _ (by simp)]
    decide +kernel
  · rw [bound _ (by simp)]
    decide +kernel
  · rw [bound _ (by simp)]
    decide +kernel
  · rw [bound _ (by simp)]
    decide +kernel
  · rw [bound _ (by simp)]
    decide +kernel

/-- A reference to the fifth entry, whose number is given as a text, is left dangling. -/
theorem loadBatch_misses :
    register.Readable reader ∧ register.Truthful reader ∧
    ∃ found, ((World.run entries reader (loadBatch entries [.text "5"])).run register).1 = .ok found ∧
      (Key.recover (.text "5") : Option UInt64) = some 5 ∧ register.table.rows.get? 5 = some five ∧
      ¬ FindsRows register.table [.text "5"] found ∧
      Ref.inject ⟨[], none⟩ (({} : Resolved).insert "entry" (.ofList [.text "5"])
          (.ofList (found.entries.map fun (key, row) => (key, .node (shape row)))))
        (fun _ before => before) (some "entry") .any (.pending (.text "5")) =
        (.dangling (.text "5"), 0) := by
  have readable : register.Readable reader := ⟨by decide, rfl, rfl⟩
  refine ⟨readable, truthful_register, _, run_loadBatch readable, ?_, ?_, ?_, ?_⟩
  · decide +kernel
  · decide +kernel
  · intro finds
    have here := finds _ List.mem_cons_self
    revert here
    decide +kernel
  · decide +kernel

end Register

end CacheLoader

end OptimisticStore
