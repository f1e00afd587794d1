import OptimisticStore.Journal.Change
import OptimisticStore.Key.Typed
import OptimisticStore.Proofs.Ordered.Map
/-!
What a list of changes says of the rows.

Done again in order, changes make rows (`Change.replay`). If each fits the rows that it is made to
(`Change.Fitting`), the changes of one key form a chain from the row that the key had before
(`Change.chain_of_fitting`), and what the last of them left is the row that it has after them
(`Change.get?_replay`).
-/
namespace OptimisticStore.Change

variable {K E : Type} [Key K] (family : Family K E)

def redo (rows : SortedMap K E) (change : Change E) : SortedMap K E :=
  match change.key family, change.after with
  | none, _ => rows
  | some key, some row => rows.insert key row
  | some key, none => rows.erase key

def replay (rows : SortedMap K E) (changes : List (Change E)) : SortedMap K E :=
  changes.foldl (redo family) rows

/-- A change of the row that `rows` have of `key`, and of its kind: an insertion if there is no such row,
a removal if there is none after it. -/
structure Fits (rows : SortedMap K E) (key : K) (change : Change E) : Prop where
  own : (change.after.or change.before).bind family.key = some key
  before : change.before = rows.get? key
  insert : change.change = .insert ↔ change.before = none
  delete : change.change = .delete ↔ change.after = none

def Fitting : SortedMap K E → List (Change E) → Prop
  | _, [] => True
  | rows, change :: rest =>
    (∃ key, change.Fits family rows key) ∧ Fitting (change.redo family rows) rest

/-- Changes of one key, made to a row that is `held`: each starts from what the one before it left. -/
def Chain : Option E → List (Change E) → Prop
  | _, [] => True
  | held, change :: rest =>
    change.before = held ∧ (change.change = .insert ↔ held = none) ∧
      (change.change = .delete ↔ change.after = none) ∧ Chain change.after rest

def concerns [DecidableEq K] (key : K) (change : Change E) : Bool := change.key family = some key

variable {family} {rows : SortedMap K E} {change : Change E} {changes : List (Change E)} {key : K}

theorem Fits.key_eq (fits : change.Fits family rows key) : change.key family = some key := by
  have own := fits.own
  unfold Change.key
  cases after : change.after with
  | none =>
    rw [after] at own
    exact own
  | some row =>
    rw [after] at own
    have same : family.key row = some key := own
    simp [same]

theorem redo_of_some {row : E} (own : change.key family = some key) (after : change.after = some row) :
    change.redo family rows = rows.insert key row := by
  simp [redo, own, after]

theorem redo_of_none (own : change.key family = some key) (after : change.after = none) :
    change.redo family rows = rows.erase key := by
  simp [redo, own, after]

theorem replay_append (more : List (Change E)) :
    replay family rows (changes ++ more) = replay family (replay family rows changes) more :=
  List.foldl_append ..

theorem fitting_append {more : List (Change E)} :
    Fitting family rows (changes ++ more) ↔
      Fitting family rows changes ∧ Fitting family (replay family rows changes) more := by
  induction changes generalizing rows with
  | nil => simp [Fitting, replay]
  | cons change rest ih =>
    have onward := @ih (change.redo family rows)
    simp only [List.cons_append, Fitting, onward, and_assoc]
    rfl

variable [DecidableEq K]

theorem get?_redo_self (own : change.key family = some key) :
    (change.redo family rows).get? key = change.after := by
  cases after : change.after with
  | none => rw [redo_of_none own after, SortedMap.get?_erase, if_pos rfl]
  | some row => rw [redo_of_some own after, SortedMap.get?_insert_self]

theorem get?_redo_of_ne (other : change.key family ≠ some key) :
    (change.redo family rows).get? key = rows.get? key := by
  cases own : change.key family with
  | none => simp [redo, own]
  | some chosen =>
    have apart : key ≠ chosen := by
      rintro rfl
      exact other own
    cases after : change.after with
    | none => rw [redo_of_none own after, SortedMap.get?_erase, if_neg apart]
    | some row => rw [redo_of_some own after, SortedMap.get?_insert, if_neg apart]

theorem get?_replay : (replay family rows changes).get? key =
    ((changes.filter (concerns family key)).getLast?.map Change.after).getD (rows.get? key) := by
  induction changes generalizing rows with
  | nil => rfl
  | cons change rest ih =>
    have onward := @ih (change.redo family rows)
    by_cases own : change.key family = some key
    · have concerned : concerns family key change = true := by simp [concerns, own]
      rw [List.filter_cons_of_pos concerned, List.getLast?_cons]
      rw [get?_redo_self own] at onward
      apply onward.trans
      cases (rest.filter (concerns family key)).getLast? <;> rfl
    · have apart : ¬ concerns family key change = true := by simp [concerns, own]
      rw [get?_redo_of_ne own] at onward
      rw [List.filter_cons_of_neg apart]
      exact onward

theorem chain_of_fitting (fitting : Fitting family rows changes) :
    Chain (rows.get? key) (changes.filter (concerns family key)) := by
  induction changes generalizing rows with
  | nil => trivial
  | cons change rest ih =>
    obtain ⟨⟨chosen, fits⟩, onward⟩ := fitting
    have later := ih onward
    have own := fits.key_eq
    by_cases same : chosen = key
    · subst same
      have concerned : concerns family chosen change = true := by simp [concerns, own]
      rw [get?_redo_self own] at later
      rw [List.filter_cons_of_pos concerned]
      refine ⟨fits.before, ?_, fits.delete, later⟩
      rw [← fits.before]
      exact fits.insert
    · have other : change.key family ≠ some key := by
        rw [own]
        intro equal
        exact same (Option.some.inj equal)
      have apart : ¬ concerns family key change = true := by simp [concerns, other]
      rw [get?_redo_of_ne other] at later
      rw [List.filter_cons_of_neg apart]
      exact later

omit [DecidableEq K] in
theorem isSome_key_of_fitting (fitting : Fitting family rows changes) :
    ∀ change ∈ changes, (change.key family).isSome := by
  induction changes generalizing rows with
  | nil => simp
  | cons first rest ih =>
    obtain ⟨⟨chosen, fits⟩, onward⟩ := fitting
    intro change within
    rcases List.mem_cons.mp within with rfl | later
    · rw [fits.key_eq]
      rfl
    · exact ih onward change later

end OptimisticStore.Change
