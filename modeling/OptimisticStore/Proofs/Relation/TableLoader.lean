import OptimisticStore.Proofs.Relation.Registry
import OptimisticStore.Relation.TableLoader
/-!
Table loaders answer from fixed tables.

Main statement: `LoaderBench.answerFrom`. A bench of loaders that never fail answers each key as the rows of
its target's loader say, whatever else the batch asks for and however often loaders have been called.
-/
namespace OptimisticStore

namespace TableLoader

variable {loader : TableLoader} {keys : List RelationKey} {key : RelationKey}

def value? (loader : TableLoader) (key : RelationKey) : Option LoadedValue :=
  if loader.foreign.contains key then some .foreign else (loader.rows.get? key).map .node

theorem mem_rows_iff {value : LoadedValue} (among : key ∈ keys) :
    (key, value) ∈ ((loader.rows.entries.filter fun entry => loader.greedy || keys.contains entry.1).map
      fun (key, node) => (key, LoadedValue.node node)) ↔
      ∃ node, value = .node node ∧ loader.rows.get? key = some node := by
  rw [List.mem_map]
  constructor
  · rintro ⟨⟨other, node⟩, within, same⟩
    obtain ⟨rfl, rfl⟩ := Prod.mk.inj same
    exact ⟨node, rfl, SortedMap.mem_entries_iff.mp (List.mem_filter.mp within).1⟩
  · rintro ⟨node, rfl, found⟩
    refine ⟨(key, node), List.mem_filter.mpr ⟨SortedMap.mem_entries_iff.mpr found, ?_⟩, rfl⟩
    simp [among]

theorem mem_others_iff {value : LoadedValue} (among : key ∈ keys) :
    (key, value) ∈ ((keys.filter loader.foreign.contains).map fun key => (key, LoadedValue.foreign)) ↔
      value = .foreign ∧ loader.foreign.contains key = true := by
  rw [List.mem_map]
  constructor
  · rintro ⟨other, within, same⟩
    obtain ⟨rfl, rfl⟩ := Prod.mk.inj same
    exact ⟨rfl, (List.mem_filter.mp within).2⟩
  · rintro ⟨rfl, foreign⟩
    exact ⟨key, List.mem_filter.mpr ⟨among, foreign⟩, rfl⟩

theorem get?_values (among : key ∈ keys) : (loader.values keys).get? key = loader.value? key := by
  unfold values value? SortedMap.ofList
  rw [List.foldl_append]
  cases foreign : loader.foreign.contains key with
  | true =>
    rw [if_pos rfl]
    apply SortedMap.get?_insertAll_of_agree
    · exact (mem_others_iff among).mpr ⟨rfl, foreign⟩
    · intro other within
      exact ((mem_others_iff among).mp within).1
  | false =>
    rw [if_neg (by simp), SortedMap.get?_insertAll_of_unbound]
    · cases found : loader.rows.get? key with
      | none =>
        refine SortedMap.get?_insertAll_eq_none_iff.mpr ⟨?_, rfl⟩
        intro value within
        obtain ⟨node, _, held⟩ := (mem_rows_iff among).mp within
        rw [found] at held
        cases held
      | some node =>
        apply SortedMap.get?_insertAll_of_agree
        · exact (mem_rows_iff among).mpr ⟨node, rfl, found⟩
        · intro other within
          obtain ⟨held, rfl, same⟩ := (mem_rows_iff among).mp within
          rw [found] at same
          rw [Option.some.inj same]
    · intro value within
      have held := ((mem_others_iff among).mp within).2
      rw [foreign] at held
      cases held

def unused (loader : TableLoader) : TableLoader := { loader with calls := 0 }

theorem like_of_unused {other : TableLoader} (like : other.unused = loader.unused) :
    other.value? = loader.value? ∧ other.failure = loader.failure := by
  cases other
  cases loader
  cases like
  exact ⟨rfl, rfl⟩

theorem serve_of_sound (sound : loader.failure = none) :
    loader.serve keys = (.ok (loader.values keys), { loader with calls := loader.calls + 1 }) := by
  unfold serve
  rw [sound]

end TableLoader

namespace LoaderBench

variable {bench : LoaderBench}

def tables (bench : LoaderBench) : Tables := fun target key =>
  (bench.loaders.get? target).bind fun loader => loader.value? key

def Alike (bench later : LoaderBench) : Prop :=
  ∀ target, (later.loaders.get? target).map TableLoader.unused =
    (bench.loaders.get? target).map TableLoader.unused

theorem serve_of_found {batch : String × List RelationKey} {loader : TableLoader}
    (found : bench.loaders.get? batch.1 = some loader) (sound : loader.failure = none) :
    (serve batch).run bench = (.ok (loader.values batch.2),
      { loaders := bench.loaders.insert batch.1 { loader with calls := loader.calls + 1 }
        batches := bench.batches ++ [batch] }) := by
  unfold serve StateT.run
  dsimp only
  rw [found]
  simp only [TableLoader.serve_of_sound sound]

theorem answerFrom (sound : ∀ target loader, bench.loaders.get? target = some loader →
      loader.failure = none) :
    bench.registered.AnswerFrom bench.tables bench.Alike serve := by
  rintro ⟨target, keys⟩ state within alike
  obtain ⟨loader, held⟩ := SortedMap.mem_keys_iff.mp (SortedSet.mem_ofList.mp within)
  have same := alike target
  rw [held] at same
  obtain ⟨used, found, like⟩ := Option.map_eq_some_iff.mp same
  obtain ⟨value, failure⟩ := TableLoader.like_of_unused like
  rw [sound target loader held] at failure
  refine ⟨_, _, serve_of_found found failure, ?_, ?_⟩
  · intro other
    rw [← alike other, SortedMap.get?_insert]
    by_cases here : other = target
    · rw [if_pos here, here, found]
      rfl
    · rw [if_neg here]
  · intro key among
    rw [TableLoader.get?_values among, value]
    unfold tables
    rw [held]
    rfl

end LoaderBench

end OptimisticStore
