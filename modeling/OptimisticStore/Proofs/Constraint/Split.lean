import OptimisticStore.Constraint
/-!
Joined column names and the search that takes them apart again.

A joined name may come apart in several ways, and the longest column that fits may lead nowhere. Main
statements: `joined_of_split`, by which what the search finds makes up the name, but for an underscore
that may be left over at the end, and `splitColumns_joined`, by which the search finds a way whenever there
is one. A single column is found as itself (`splitColumns_column`).
-/
namespace OptimisticStore

section Affixes

variable {head tail text body rest column : List Char}

theorem afterStart_append (head rest : List Char) : afterStart? head (head ++ rest) = some rest := by
  induction head with
  | nil => rfl
  | cons h head ih => simp [afterStart?, ih]

theorem afterStart_eq_some_iff : afterStart? head text = some rest ↔ text = head ++ rest := by
  constructor
  · exact eq_append_of_afterStart
  · rintro rfl
    exact afterStart_append head rest

theorem beforeEnd_eq_some_iff : beforeEnd? tail text = some body ↔ text = body ++ tail := by
  unfold beforeEnd?
  rw [Option.map_eq_some_iff]
  constructor
  · rintro ⟨turned, found, rfl⟩
    have whole := congrArg List.reverse (afterStart_eq_some_iff.mp found)
    simpa using whole
  · rintro rfl
    exact ⟨body.reverse, by rw [List.reverse_append, afterStart_append], List.reverse_reverse body⟩

theorem afterColumn_eq_some_iff : afterColumn? column body = some rest ↔ body = column ++ '_' :: rest := by
  unfold afterColumn?
  rw [Option.bind_eq_some_iff]
  constructor
  · rintro ⟨middle, first, second⟩
    rw [afterStart_eq_some_iff.mp first, afterStart_eq_some_iff.mp second]
    rfl
  · rintro rfl
    exact ⟨'_' :: rest, afterStart_append column _, afterStart_append ['_'] rest⟩

end Affixes

abbrev joined (named : List (List Char)) : List Char := ['_'].intercalate named

section Search

variable {columns named split : List (List Char)} {body column : List Char} {steps : Nat}

theorem joined_cons (nonempty : named ≠ []) : joined (column :: named) = column ++ '_' :: joined named := by
  rw [joined, List.intercalate_cons_of_ne_nil nonempty, List.append_assoc, List.singleton_append]

theorem joined_ne_nil (nonempty : named ≠ []) (plain : ∀ column ∈ named, column ≠ []) :
    joined named ≠ [] := by
  cases named with
  | nil => exact absurd rfl nonempty
  | cons column rest =>
    have first := plain column List.mem_cons_self
    cases rest with
    | nil => simpa [joined] using first
    | cons other rest => simp [joined]

theorem splitWithin_nil (steps : Nat) : splitWithin columns steps [] = some [] := by
  cases steps with
  | zero => rfl
  | succ steps => rfl

def splitBy (columns : List (List Char)) (steps : Nat) (body column : List Char) :
    Option (List (List Char)) :=
  if body = column then some [column]
  else (afterColumn? column body).bind fun rest => (splitWithin columns steps rest).map (column :: ·)

theorem splitWithin_succ (nonempty : body ≠ []) :
    splitWithin columns (steps + 1) body = columns.findSome? (splitBy columns steps body) := by
  cases body with
  | nil => exact absurd rfl nonempty
  | cons c body => rfl

theorem splitBy_cases (found : splitBy columns steps body column = some split) :
    body = column ∧ split = [column] ∨
      ∃ rest others, body = column ++ '_' :: rest ∧ splitWithin columns steps rest = some others ∧
        split = column :: others := by
  unfold splitBy at found
  split at found
  next whole => exact .inl ⟨whole, (Option.some.inj found).symm⟩
  next =>
    obtain ⟨rest, after, found⟩ := Option.bind_eq_some_iff.mp found
    obtain ⟨others, searched, rfl⟩ := Option.map_eq_some_iff.mp found
    exact .inr ⟨rest, others, afterColumn_eq_some_iff.mp after, searched, rfl⟩

/-- The search finds declared columns that make up the name. Behind the last one an underscore may be
left over, since a name that has come to its end is taken to be done. -/
theorem joined_of_split (nonempty : body ≠ []) (found : splitWithin columns steps body = some split) :
    split ≠ [] ∧ (∀ column ∈ split, column ∈ columns) ∧
      (body = joined split ∨ body = joined split ++ ['_']) := by
  induction steps generalizing body split with
  | zero =>
    cases body with
    | nil => exact absurd rfl nonempty
    | cons c body => cases found
  | succ steps ih =>
    rw [splitWithin_succ nonempty] at found
    obtain ⟨column, declared, found⟩ := List.exists_of_findSome?_eq_some found
    rcases splitBy_cases found with ⟨rfl, rfl⟩ | ⟨rest, others, rfl, searched, rfl⟩
    · simp [joined, declared]
    · by_cases ended : rest = []
      · subst ended
        rw [splitWithin_nil] at searched
        obtain rfl := Option.some.inj searched
        simp [joined, declared]
      · obtain ⟨more, within, makes⟩ := ih ended searched
        refine ⟨List.cons_ne_nil _ _, ?_, ?_⟩
        · simpa [declared] using within
        · rw [joined_cons more]
          rcases makes with makes | makes
          · exact .inl (by rw [makes])
          · exact .inr (by rw [makes]; simp)

/-- A way that exists is found, whichever columns are tried before: if the ones tried first do not lead to
the end then the search comes back to its first name. -/
theorem splitWithin_joined (nonempty : named ≠ []) (plain : ∀ column ∈ named, column ≠ [])
    (declared : ∀ column ∈ named, column ∈ columns) (enough : (joined named).length ≤ steps) :
    (splitWithin columns steps (joined named)).isSome = true := by
  induction named generalizing steps with
  | nil => exact absurd rfl nonempty
  | cons column named ih =>
    have name := joined_ne_nil nonempty plain
    obtain ⟨steps, rfl⟩ : ∃ less, steps = less + 1 := by
      apply Nat.exists_eq_succ_of_ne_zero
      have := List.length_pos_iff.mpr name
      omega
    rw [splitWithin_succ name, List.findSome?_isSome_iff]
    refine ⟨column, declared column List.mem_cons_self, ?_⟩
    unfold splitBy
    split
    next => rfl
    next longer =>
      have more : named ≠ [] := by
        rintro rfl
        exact longer (by simp [joined])
      rw [joined_cons more] at enough ⊢
      have later := @ih steps more (fun other within => plain other (List.mem_cons_of_mem _ within))
        (fun other within => declared other (List.mem_cons_of_mem _ within)) (by
          simp only [List.length_append, List.length_cons] at enough
          omega)
      rw [afterColumn_eq_some_iff.mpr rfl, Option.bind_some, Option.isSome_map]
      exact later

end Search

section Declared

variable {columns named split : List (List Char)} {body column : List Char}

theorem mem_longestFirst : column ∈ longestFirst columns ↔ column ∈ columns := List.mem_mergeSort

theorem longestFirst_descends :
    (longestFirst columns).Pairwise fun a b => byteLength b ≤ byteLength a := by
  unfold longestFirst
  apply List.Pairwise.imp (fun longer => of_decide_eq_true longer)
  apply List.pairwise_mergeSort
  · intro a b c first second
    simp only [decide_eq_true_eq] at first second ⊢
    omega
  · intro a b
    simp only [Bool.or_eq_true, decide_eq_true_eq]
    omega

theorem longestFirst_of_descends (descends : columns.Pairwise fun a b => byteLength b ≤ byteLength a) :
    longestFirst columns = columns :=
  List.mergeSort_of_pairwise (descends.imp fun longer => decide_eq_true longer)

theorem byteLength_append (first second : List Char) :
    byteLength (first ++ second) = byteLength first + byteLength second := by
  induction first with
  | nil => simp [byteLength]
  | cons c first ih =>
    simp only [byteLength, List.cons_append, List.map_cons, List.foldr_cons] at ih ⊢
    omega

theorem splitColumns_joined (nonempty : named ≠ []) (plain : ∀ column ∈ named, column ≠ [])
    (declared : ∀ column ∈ named, column ∈ columns) :
    ∃ split, splitColumns columns (joined named) = some split := by
  have found : (splitColumns columns (joined named)).isSome = true :=
    splitWithin_joined nonempty plain (fun column within => mem_longestFirst.mpr (declared column within))
      (Nat.le_refl _)
  exact Option.isSome_iff_exists.mp found

/-- What stands before a column in the order of the search is no shorter, and so no part of its name. -/
theorem splitColumns_column (plain : column ≠ []) (declared : column ∈ columns) :
    splitColumns columns column = some [column] := by
  obtain ⟨steps, long⟩ := Nat.exists_eq_succ_of_ne_zero (mt List.length_eq_zero_iff.mp plain)
  have search : splitColumns columns column =
      (longestFirst columns).findSome? (splitBy (longestFirst columns) steps column) := by
    unfold splitColumns
    rw [long, splitWithin_succ plain]
  obtain ⟨before, after, order, first⟩ :=
    List.eq_append_cons_of_mem (mem_longestFirst.mpr declared)
  rw [search, List.findSome?_eq_some_iff]
  refine ⟨before, column, after, order, by simp [splitBy], ?_⟩
  intro other within
  cases found : splitBy (longestFirst columns) steps column other with
  | none => rfl
  | some split =>
    rcases splitBy_cases found with ⟨rfl, _⟩ | ⟨rest, _, longer, _⟩
    · exact absurd within first
    · have descends := @longestFirst_descends columns
      rw [order] at descends
      have least := (List.pairwise_append.mp descends).2.2 other within column List.mem_cons_self
      rw [longer, byteLength_append] at least
      have : 0 < byteLength ('_' :: rest) := by
        change 0 < 1 + byteLength rest
        omega
      omega

end Declared

end OptimisticStore
