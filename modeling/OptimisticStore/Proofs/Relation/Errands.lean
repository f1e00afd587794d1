import OptimisticStore.Proofs.Relation.Registry
import OptimisticStore.Proofs.Running
/-!
The calls that resolving a registry makes, whatever the loaders answer.

Main statement: `Registry.resolve_course`. A target without a loader is noticed before any call; otherwise
each target is asked for once, in order and for all of its keys, up to the first call that fails.
-/
namespace OptimisticStore

structure Errand where
  target : String
  keys : List RelationKey
  answer : Except Error (SortedMap RelationKey LoadedValue)

namespace Errand

def batch (errand : Errand) : String × List RelationKey := (errand.target, errand.keys)

def Answered (errand : Errand) : Prop := ∃ values, errand.answer = .ok values

def Brings (errand : Errand) (target : String) (key : RelationKey) (value : LoadedValue) : Prop :=
  errand.target = target ∧ ∃ values, errand.answer = .ok values ∧ values.get? key = some value

def Noted : Task.Serving batchCalls (List Errand) := fun request before answer after =>
  after = before ++ [⟨request.1, request.2, answer⟩]

def noting (answers : String × List RelationKey → Except Error (SortedMap RelationKey LoadedValue))
    (request : String × List RelationKey) :
    StateM (List Errand) (Except Error (SortedMap RelationKey LoadedValue)) :=
  fun errands => (answers request, errands ++ [⟨request.1, request.2, answers request⟩])

theorem noting_noted
    (answers : String × List RelationKey → Except Error (SortedMap RelationKey LoadedValue))
    (request : String × List RelationKey) (before : List Errand)
    (answer : Except Error (SortedMap RelationKey LoadedValue)) (after : List Errand)
    (served : (noting answers request).run before = (answer, after)) :
    Noted request before answer after := by
  obtain ⟨rfl, rfl⟩ := Prod.mk.inj served
  rfl

end Errand

namespace Resolved

variable {resolved : Resolved} {errands : List Errand} {target : String} {key : RelationKey}

/-- All of the calls were answered, and nothing is held but what they asked for and what they brought. -/
structure Holds (resolved : Resolved) (errands : List Errand) : Prop where
  answered : ∀ errand ∈ errands, errand.Answered
  values : ∀ target key value, resolved.get? target key = some value ↔
    ∃ errand ∈ errands, errand.Brings target key value
  requested : ∀ target key, resolved.wasRequested target key = true ↔
    ∃ errand ∈ errands, errand.target = target ∧ key ∈ errand.keys

theorem holds_nil : ({} : Resolved).Holds [] := by
  refine ⟨nofun, fun target key value => ?_, fun target key => ?_⟩
  · exact ⟨nofun, nofun⟩
  · exact ⟨nofun, nofun⟩

theorem Holds.get?_eq_none (holds : resolved.Holds errands)
    (apart : ∀ errand ∈ errands, errand.target ≠ target) (key : RelationKey) :
    resolved.get? target key = none := by
  cases found : resolved.get? target key with
  | none => rfl
  | some value =>
    obtain ⟨errand, among, same, _⟩ := (holds.values target key value).mp found
    exact absurd same (apart errand among)

theorem Holds.get?_insert (holds : resolved.Holds errands)
    (apart : ∀ errand ∈ errands, errand.target ≠ target) (keys : SortedSet RelationKey)
    (values : SortedMap RelationKey LoadedValue) (other : String) (key : RelationKey) :
    (resolved.insert target keys values).get? other key =
      if other = target then values.get? key else resolved.get? other key := by
  by_cases same : other = target
  · subst same
    have unknown : ∀ key, ((resolved.values.get? other).getD {}).get? key = none := by
      intro key
      have none := holds.get?_eq_none apart key
      unfold get? at none
      cases known : resolved.values.get? other with
      | none => rfl
      | some held =>
        rw [known] at none
        exact none
    rw [if_pos rfl]
    simp only [get?, Resolved.insert, SortedMap.get?_insert_self, Option.bind_some]
    exact SortedMap.get?_merge_of_empty unknown key
  · rw [if_neg same]
    unfold get?
    rw [(sameAt_insert same).values]

theorem Holds.insert (holds : resolved.Holds errands)
    (apart : ∀ errand ∈ errands, errand.target ≠ target) (keys : SortedSet RelationKey)
    (values : SortedMap RelationKey LoadedValue) :
    (resolved.insert target keys values).Holds (errands ++ [⟨target, keys.toList, .ok values⟩]) := by
  refine ⟨?_, fun other key value => ?_, fun other key => ?_⟩
  · exact List.forall_mem_append.mpr ⟨holds.answered, List.forall_mem_singleton.mpr ⟨values, rfl⟩⟩
  · rw [holds.get?_insert apart]
    simp only [List.mem_append, List.mem_singleton, or_and_right, exists_or, exists_eq_left]
    by_cases same : other = target
    · subst same
      rw [if_pos rfl]
      constructor
      · intro found
        exact .inr ⟨rfl, values, rfl, found⟩
      · rintro (⟨errand, among, called, _⟩ | ⟨_, brought, answer, found⟩)
        · exact absurd called (apart errand among)
        · obtain rfl := Except.ok.inj answer
          exact found
    · rw [if_neg same, holds.values]
      constructor
      · exact .inl
      · rintro (brought | brings)
        · exact brought
        · exact absurd brings.1.symm same
  · rw [wasRequested_insert, holds.requested]
    simp only [List.mem_append, List.mem_singleton, or_and_right, exists_or, exists_eq_left]
    rw [or_comm, eq_comm, SortedSet.mem_def]

end Resolved

/-- Some batches are asked for one after another: all are answered, or up to one that fails. -/
inductive Errand.Ends (batches : List (String × List RelationKey)) (earlier : List Errand) :
    List Errand → Except Error Resolved → Prop where
  | answered {errands : List Errand} {resolved : Resolved} (asked : errands.map Errand.batch = batches)
      (holds : resolved.Holds (earlier ++ errands)) : Ends batches earlier errands (.ok resolved)
  | failed {errands : List Errand} {last : Errand} {cause : Error}
      {unasked : List (String × List RelationKey)}
      (asked : (errands ++ [last]).map Errand.batch ++ unasked = batches)
      (answered : ∀ errand ∈ errands, errand.Answered) (failed : last.answer = .error cause) :
      Ends batches earlier (errands ++ [last]) (.error cause)

theorem Errand.Ends.cons {batches : List (String × List RelationKey)} {first : Errand}
    {earlier errands : List Errand} {result : Except Error Resolved} (answered : first.Answered)
    (ends : Ends batches (earlier ++ [first]) errands result) :
    Ends (first.batch :: batches) earlier (first :: errands) result := by
  cases ends with
  | answered asked holds =>
    apply Ends.answered
    · rw [List.map_cons, asked]
    · rw [List.append_assoc] at holds
      exact holds
  | @failed errands last cause unasked asked others failed =>
    have whole : (first :: errands ++ [last]).map Errand.batch ++ unasked = first.batch :: batches := by
      rw [List.cons_append, List.map_cons, List.cons_append, asked]
    exact .failed whole (List.forall_mem_cons.mpr ⟨answered, others⟩) failed

namespace Loaders

variable {loaders : Loaders}

theorem require_cases (loaders : Loaders) (target : String) :
    target ∈ loaders.targets ∧ loaders.require target = .ok () ∨
      target ∉ loaders.targets ∧ loaders.require target = .error (.missingLoader target) := by
  unfold require
  by_cases known : target ∈ loaders.targets
  · exact .inl ⟨known, if_pos (SortedSet.contains_iff.mpr known)⟩
  · exact .inr ⟨known, if_neg (mt SortedSet.contains_iff.mp known)⟩

theorem requireAll_cases (loaders : Loaders) (targets : List String) :
    (∀ target ∈ targets, target ∈ loaders.targets) ∧ loaders.requireAll targets = .ok () ∨
      ∃ earlier target later, targets = earlier ++ target :: later ∧
        (∀ other ∈ earlier, other ∈ loaders.targets) ∧ target ∉ loaders.targets ∧
        loaders.requireAll targets = .error (.missingLoader target) := by
  induction targets with
  | nil => exact .inl ⟨nofun, rfl⟩
  | cons target rest ih =>
    rcases loaders.require_cases target with ⟨known, here⟩ | ⟨absent, here⟩
    · have onward : loaders.requireAll (target :: rest) = loaders.requireAll rest := by
        rw [requireAll, here]
        rfl
      rw [onward]
      rcases ih with ⟨all, passed⟩ | ⟨earlier, other, later, rfl, before, absent, refused⟩
      · exact .inl ⟨List.forall_mem_cons.mpr ⟨known, all⟩, passed⟩
      · exact .inr ⟨target :: earlier, other, later, rfl, List.forall_mem_cons.mpr ⟨known, before⟩,
          absent, refused⟩
    · refine .inr ⟨[], target, rest, rfl, nofun, absent, ?_⟩
      rw [requireAll, here]
      rfl

end Loaders

namespace Registry

variable {registry : Registry} {loaders : Loaders} {before after : List Errand}
  {result : Except Error Resolved}

/-- The batches are those of the targets that have keys, with all their keys, all in ascending order. -/
structure Splits (registry : Registry) (batches : List (String × List RelationKey)) : Prop where
  targets : batches.Pairwise fun a b => compare a.1 b.1 = .lt
  keys : ∀ batch ∈ batches, batch.2 ≠ [] ∧ batch.2.Pairwise fun a b => compare a b = .lt
  exact : ∀ batch ∈ batches, ∀ key, key ∈ batch.2 ↔ registry.contains batch.1 key = true
  all : ∀ target key, registry.contains target key = true → ∃ batch ∈ batches, batch.1 = target

def batchesOf (entries : List (String × SortedSet RelationKey)) : List (String × List RelationKey) :=
  (entries.filter fun entry => !entry.2.isEmpty).map fun entry => (entry.1, entry.2.toList)

theorem mem_batchesOf_iff {entries : List (String × SortedSet RelationKey)}
    {batch : String × List RelationKey} :
    batch ∈ batchesOf entries ↔
      ∃ entry ∈ entries, entry.2.toList ≠ [] ∧ (entry.1, entry.2.toList) = batch := by
  simp [batchesOf, SortedSet.isEmpty, and_assoc]

theorem splits_batchesOf (registry : Registry) : registry.Splits (batchesOf registry.pending.entries) := by
  refine ⟨?_, ?_, ?_, ?_⟩
  · have ascending := SortedMap.keys_ascending (m := registry.pending)
    rw [SortedMap.keys, List.pairwise_map] at ascending
    exact List.pairwise_map.mpr (ascending.sublist List.filter_sublist)
  · intro batch among
    obtain ⟨entry, _, some, rfl⟩ := mem_batchesOf_iff.mp among
    exact ⟨some, entry.2.ascending⟩
  · intro batch among key
    obtain ⟨entry, held, _, rfl⟩ := mem_batchesOf_iff.mp among
    have found := SortedMap.mem_entries_iff.mp held
    unfold contains
    rw [SortedSet.contains_iff, mem_keysOf_iff]
    constructor
    · intro within
      exact ⟨entry.2, found, within⟩
    · rintro ⟨keys, same, within⟩
      obtain rfl := Option.some.inj (found.symm.trans same)
      exact within
  · intro target key held
    unfold contains at held
    rw [SortedSet.contains_iff, mem_keysOf_iff] at held
    obtain ⟨keys, found, within⟩ := held
    refine ⟨(target, keys.toList), mem_batchesOf_iff.mpr ⟨(target, keys), ?_, ?_, rfl⟩, rfl⟩
    · exact SortedMap.mem_entries_iff.mpr found
    · exact List.ne_nil_of_mem within

theorem resolveBatches_ends {entries : List (String × SortedSet RelationKey)} {start : Resolved}
    {earlier : List Errand} (holds : start.Holds earlier)
    (fresh : ∀ entry ∈ entries, ∀ errand ∈ earlier, errand.target ≠ entry.1)
    (apart : entries.Pairwise fun a b => a.1 ≠ b.1)
    (run : (resolveBatches entries start).Runs Errand.Noted before result after) :
    ∃ errands, after = before ++ errands ∧ Errand.Ends (batchesOf entries) earlier errands result := by
  induction entries generalizing start earlier before with
  | nil =>
    obtain ⟨rfl, rfl⟩ := Task.runs_pure.mp run
    refine ⟨[], (List.append_nil _).symm, .answered rfl ?_⟩
    rw [List.append_nil]
    exact holds
  | cons entry rest ih =>
    obtain ⟨target, keys⟩ := entry
    obtain ⟨first, apart⟩ := List.pairwise_cons.mp apart
    have later : ∀ entry ∈ rest, ∀ errand ∈ earlier, errand.target ≠ entry.1 :=
      fun entry among => fresh entry (.tail _ among)
    unfold resolveBatches at run
    cases empty : keys.isEmpty with
    | true =>
      rw [if_pos empty] at run
      have skipped : batchesOf ((target, keys) :: rest) = batchesOf rest := by simp [batchesOf, empty]
      rw [skipped]
      exact ih holds later apart run
    | false =>
      rw [if_neg (by simp [empty])] at run
      have called : batchesOf ((target, keys) :: rest) = (target, keys.toList) :: batchesOf rest := by
        simp [batchesOf, empty]
      rw [called]
      obtain ⟨answer, mid, rfl, run⟩ := Task.runs_ask_bind.mp run
      cases answer with
      | error cause =>
        obtain ⟨rfl, rfl⟩ := Task.runs_pure.mp run
        have asked : ([] ++ [⟨target, keys.toList, .error cause⟩] : List Errand).map Errand.batch ++
            batchesOf rest = (target, keys.toList) :: batchesOf rest := rfl
        exact ⟨_, rfl, .failed asked (List.forall_mem_nil _) rfl⟩
      | ok values =>
        have known := holds.insert (fresh _ (.head _)) keys values
        have fresher : ∀ entry ∈ rest, ∀ errand ∈ earlier ++ [⟨target, keys.toList, .ok values⟩],
            errand.target ≠ entry.1 := fun entry among =>
          List.forall_mem_append.mpr ⟨later entry among, List.forall_mem_singleton.mpr (first entry among)⟩
        obtain ⟨errands, rfl, ends⟩ := ih known fresher apart run
        exact ⟨_ :: errands, List.append_assoc _ _ _, .cons ⟨values, rfl⟩ ends⟩

/-- What comes of a registry. The first target without a loader, if any, is an error without any call. -/
inductive Course (registry : Registry) (loaders : Loaders) :
    List Errand → Except Error Resolved → Prop where
  | unknown {target : String} (among : target ∈ registry.targets) (absent : target ∉ loaders.targets)
      (first : ∀ other ∈ registry.targets, compare other target = .lt → other ∈ loaders.targets) :
      Course registry loaders [] (.error (.load (.missingLoader target)))
  | called {errands : List Errand} {result : Except Error Resolved}
      {batches : List (String × List RelationKey)}
      (known : ∀ target ∈ registry.targets, target ∈ loaders.targets) (splits : registry.Splits batches)
      (ends : Errand.Ends batches [] errands result) : Course registry loaders errands result

theorem resolve_course (run : (registry.resolve loaders).Runs Errand.Noted before result after) :
    ∃ errands, after = before ++ errands ∧ registry.Course loaders errands result := by
  unfold resolve at run
  rcases loaders.requireAll_cases registry.targets with
    ⟨known, passed⟩ | ⟨earlier, target, later, split, known, absent, refused⟩
  · rw [passed] at run
    obtain ⟨errands, same, ends⟩ :=
      resolveBatches_ends Resolved.holds_nil nofun SortedMap.entries_apart run
    exact ⟨errands, same, .called known (splits_batchesOf registry) ends⟩
  · rw [refused] at run
    obtain ⟨rfl, rfl⟩ := Task.runs_pure.mp run
    have among : target ∈ registry.targets := by
      rw [split]
      exact List.mem_append_right _ (.head _)
    refine ⟨[], (List.append_nil _).symm, .unknown among absent fun other held less => ?_⟩
    have ascending := SortedMap.keys_ascending (m := registry.pending)
    change registry.targets.Pairwise _ at ascending
    rw [split] at held ascending
    have after := (List.pairwise_cons.mp (List.pairwise_append.mp ascending).2.1).1
    rcases List.mem_append.mp held with early | late
    · exact known other early
    · rcases List.mem_cons.mp late with rfl | late
      · rw [Std.ReflOrd.compare_self] at less
        cases less
      · rw [Std.OrientedCmp.gt_of_lt (after other late)] at less
        cases less

end Registry

end OptimisticStore
