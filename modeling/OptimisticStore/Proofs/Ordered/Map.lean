import OptimisticStore.Ordered.Map
import OptimisticStore.Proofs.Ordered.Set
/-!
Maps built by one insertion after another, the keys they hold and how many, and maps told apart by their
look-ups.
-/
namespace OptimisticStore.SortedMap

open Std

variable {κ α : Type} [Ord κ] [TransOrd κ] [LawfulEqOrd κ] [DecidableEq κ]

abbrev insertAll (m : SortedMap κ α) (bindings : List (κ × α)) : SortedMap κ α :=
  bindings.foldl (fun m binding => m.insert binding.1 binding.2) m

theorem mem_of_get?_insertAll {m : SortedMap κ α} {bindings : List (κ × α)} {key : κ} {value : α}
    (found : (m.insertAll bindings).get? key = some value) :
    (key, value) ∈ bindings ∨ m.get? key = some value := by
  induction bindings generalizing m with
  | nil => exact .inr found
  | cons binding rest ih =>
    rcases ih found with later | held
    · exact .inl (List.mem_cons_of_mem _ later)
    · rw [get?_insert] at held
      split at held
      next same =>
        obtain rfl := Option.some.inj held
        exact .inl (by simp [same])
      next => exact .inr held

theorem get?_insertAll_eq_none_iff {m : SortedMap κ α} {bindings : List (κ × α)} {key : κ} :
    (m.insertAll bindings).get? key = none ↔
      (∀ value, (key, value) ∉ bindings) ∧ m.get? key = none := by
  induction bindings generalizing m with
  | nil => simp
  | cons binding rest ih =>
    obtain ⟨other, value⟩ := binding
    have first := @ih (m.insert other value)
    rw [get?_insert] at first
    apply first.trans
    by_cases same : key = other
    · subst same
      constructor
      · rintro ⟨_, missing⟩
        simp at missing
      · rintro ⟨unbound, _⟩
        exact absurd List.mem_cons_self (unbound value)
    · simp [same]

theorem get?_insertAll_of_unbound {m : SortedMap κ α} {bindings : List (κ × α)} {key : κ}
    (unbound : ∀ value, (key, value) ∉ bindings) : (m.insertAll bindings).get? key = m.get? key := by
  induction bindings generalizing m with
  | nil => rfl
  | cons binding rest ih =>
    obtain ⟨other, value⟩ := binding
    have apart : key ≠ other := by
      rintro rfl
      exact unbound value List.mem_cons_self
    have later : ((m.insert other value).insertAll rest).get? key = (m.insert other value).get? key :=
      ih fun value among => unbound value (List.mem_cons_of_mem _ among)
    exact later.trans (by rw [get?_insert, if_neg apart])

theorem get?_insertAll_of_agree {m : SortedMap κ α} {bindings : List (κ × α)} {key : κ} {value : α}
    (within : (key, value) ∈ bindings) (agree : ∀ other, (key, other) ∈ bindings → other = value) :
    (m.insertAll bindings).get? key = some value := by
  induction bindings generalizing m with
  | nil => simp at within
  | cons binding rest ih =>
    by_cases later : (key, value) ∈ rest
    · exact ih later fun other among => agree other (List.mem_cons_of_mem _ among)
    · have here : binding = (key, value) := by
        rcases List.mem_cons.mp within with same | among
        · exact same.symm
        · exact absurd among later
      cases found : ((m.insert binding.1 binding.2).insertAll rest).get? key with
      | none =>
        have missing := (get?_insertAll_eq_none_iff.mp found).2
        simp [here] at missing
      | some held =>
        rcases mem_of_get?_insertAll found with among | held'
        · rw [agree held (List.mem_cons_of_mem _ among)] at found
          exact found
        · simp only [here, get?_insert_self, Option.some.injEq] at held'
          rw [← held'] at found
          exact found

theorem get?_merge_of_empty {m other : SortedMap κ α} (none : ∀ key, m.get? key = none) (key : κ) :
    (m.merge other).get? key = other.get? key := by
  change (m.insertAll other.entries).get? key = other.get? key
  cases found : other.get? key with
  | none =>
    rw [get?_insertAll_eq_none_iff]
    constructor
    · intro value within
      have held := mem_entries_iff.mp within
      rw [found] at held
      cases held
    · exact none key
  | some value =>
    apply get?_insertAll_of_agree
    · exact mem_entries_iff.mpr found
    · intro held within
      have same := found.symm.trans (mem_entries_iff.mp within)
      exact (Option.some.inj same).symm

omit [DecidableEq κ] in
theorem mem_keys_iff {m : SortedMap κ α} {key : κ} :
    key ∈ m.keys ↔ ∃ value, m.get? key = some value := by
  unfold keys
  rw [List.mem_map]
  constructor
  · rintro ⟨⟨key, value⟩, within, rfl⟩
    exact ⟨value, mem_entries_iff.mp within⟩
  · rintro ⟨value, found⟩
    exact ⟨(key, value), mem_entries_iff.mpr found, rfl⟩

omit [TransOrd κ] [DecidableEq κ] in
theorem entries_apart {m : SortedMap κ α} : m.entries.Pairwise fun a b => a.1 ≠ b.1 := by
  apply m.ascending.imp
  intro a b less same
  rw [LawfulEqOrd.compare_eq_iff_eq.mpr same] at less
  cases less

omit [TransOrd κ] [LawfulEqOrd κ] [DecidableEq κ] in
theorem keys_ascending {m : SortedMap κ α} : m.keys.Pairwise fun a b => compare a b = .lt :=
  List.pairwise_map.mpr m.ascending

omit [DecidableEq κ] in
theorem ext_get? {m n : SortedMap κ α} (same : ∀ key, m.get? key = n.get? key) : m = n := by
  have apart : Std.Irrefl fun a b : κ × α => compare a.1 b.1 = .lt := by
    constructor
    intro entry less
    rw [ReflOrd.compare_self] at less
    cases less
  have oriented : Std.Antisymm fun a b : κ × α => compare a.1 b.1 = .lt := by
    constructor
    intro a b less back
    rw [OrientedCmp.gt_of_lt less] at back
    cases back
  apply ext
  apply m.ascending.eq_of_mem_iff n.ascending
  rintro ⟨key, value⟩
  rw [mem_entries_iff, mem_entries_iff, same]

omit [DecidableEq κ] in
theorem keys_eq_of_mem_iff {m : SortedMap κ α} {s : SortedSet κ}
    (same : ∀ key, (∃ value, m.get? key = some value) ↔ key ∈ s) : m.keys = s.toList := by
  apply keys_ascending.eq_of_mem_iff s.ascending
  intro key
  rw [mem_keys_iff, same]
  rfl

theorem get?_insertAll_map (m : SortedMap κ α) (keys : List κ) (value : κ → α) (key : κ) :
    (m.insertAll (keys.map fun key => (key, value key))).get? key =
      if key ∈ keys then some (value key) else m.get? key := by
  by_cases within : key ∈ keys
  · rw [if_pos within]
    apply get?_insertAll_of_agree
    · exact List.mem_map.mpr ⟨key, within, rfl⟩
    · intro other among
      obtain ⟨_, _, same⟩ := List.mem_map.mp among
      obtain ⟨rfl, rfl⟩ := Prod.mk.inj same
      rfl
  · rw [if_neg within]
    apply get?_insertAll_of_unbound
    intro bound among
    obtain ⟨_, there, same⟩ := List.mem_map.mp among
    obtain ⟨rfl, _⟩ := Prod.mk.inj same
    exact within there

omit [DecidableEq κ] in
theorem contains_iff_mem_keys {m : SortedMap κ α} {key : κ} :
    m.contains key = true ↔ key ∈ m.keys := by
  rw [mem_keys_iff, contains, Option.isSome_iff_exists]

omit [TransOrd κ] [DecidableEq κ] in
theorem nodup_keys {m : SortedMap κ α} : m.keys.Nodup := List.pairwise_map.mpr entries_apart

omit [TransOrd κ] [LawfulEqOrd κ] [DecidableEq κ] in
theorem length_keys {m : SortedMap κ α} : m.keys.length = m.size := List.length_map _

omit [TransOrd κ] [DecidableEq κ] in
theorem size_eq_succ {m n : SortedMap κ α} {key : κ} (missing : key ∉ m.keys)
    (more : ∀ other, other ∈ n.keys ↔ other = key ∨ other ∈ m.keys) : n.size = m.size + 1 := by
  have fresh : (key :: m.keys).Nodup := List.nodup_cons.mpr ⟨missing, nodup_keys⟩
  have perm : n.keys.Perm (key :: m.keys) := by
    rw [List.perm_ext_iff_of_nodup nodup_keys fresh]
    intro other
    rw [more, List.mem_cons]
  have lengths := perm.length_eq
  rwa [List.length_cons, length_keys, length_keys] at lengths

theorem mem_keys_insert {m : SortedMap κ α} {key other : κ} {value : α} :
    other ∈ (m.insert key value).keys ↔ other = key ∨ other ∈ m.keys := by
  simp only [mem_keys_iff, get?_insert]
  by_cases same : other = key <;> simp [same]

theorem size_insert (m : SortedMap κ α) (key : κ) (value : α) :
    (m.insert key value).size = m.size + (!m.contains key).toNat := by
  cases there : m.contains key with
  | true =>
    have within := contains_iff_mem_keys.mp there
    have same : (m.insert key value).keys = m.keys := by
      apply keys_ascending.eq_of_mem_iff keys_ascending
      intro other
      rw [mem_keys_insert]
      exact or_iff_right_of_imp fun same => same ▸ within
    rw [← length_keys, same, length_keys]
    rfl
  | false =>
    have missing : key ∉ m.keys := by
      rw [← contains_iff_mem_keys, there]
      exact Bool.false_ne_true
    exact size_eq_succ missing fun other => mem_keys_insert

theorem size_erase {m : SortedMap κ α} {key : κ} (there : m.contains key = true) :
    m.size = (m.erase key).size + 1 := by
  have within := contains_iff_mem_keys.mp there
  have gone : key ∉ (m.erase key).keys := by simp [mem_keys_iff]
  apply size_eq_succ gone
  intro other
  simp only [mem_keys_iff] at within ⊢
  by_cases same : other = key
  · simp [same, within]
  · simp [get?_erase, same]

end OptimisticStore.SortedMap
