import Mathlib.Data.List.Basic
import OptimisticStore.Proofs.Constraint.Split
/-!
Which columns the violation of a named constraint is put down to.

Main statements: `violation_explained`, by which a violation is never put down to columns that the name
does not speak of, but for an underscore at the end of the columns, which is passed over
(`underscore_passed_over`), and `translate_generated`, by which every name that is made of declared columns
is put down to declared columns that make up the same name.
-/
namespace OptimisticStore.Constraints

/-- `field` lists declared columns that make up `body` with underscores between them. -/
def Lists (columns : List String) (body field : String) : Prop :=
  ∃ named : List String, named ≠ [] ∧ (∀ column ∈ named, column ∈ columns) ∧
    body = "_".intercalate named ∧ field = ",".intercalate named

section Fields

variable {columns : List String} {body field : String}

theorem joined_toList (named : List String) :
    ("_".intercalate named).toList = joined (named.map String.toList) := String.toList_intercalate

theorem map_toList_ofList (split : List (List Char)) :
    (split.map String.ofList).map String.toList = split := by
  simp

theorem mem_of_toList {column : List Char} (declared : column ∈ columns.map String.toList) :
    String.ofList column ∈ columns := by
  obtain ⟨name, within, rfl⟩ := List.mem_map.mp declared
  simpa using within

theorem lists_of_split {split : List (List Char)} (nonempty : split ≠ [])
    (declared : ∀ column ∈ split, column ∈ columns.map String.toList)
    (makes : body.toList = joined split) :
    Lists columns body (",".intercalate (split.map String.ofList)) := by
  refine ⟨split.map String.ofList, by simpa using nonempty, ?_, ?_, rfl⟩
  · intro column within
    obtain ⟨name, among, rfl⟩ := List.mem_map.mp within
    exact mem_of_toList (declared name among)
  · rw [← String.toList_inj, joined_toList, map_toList_ofList, makes]

theorem fieldName_cases (nonempty : body ≠ "") :
    fieldName columns body.toList = body ∨ Lists columns body (fieldName columns body.toList) ∨
      ∃ most, body = most ++ "_" ∧ Lists columns most (fieldName columns body.toList) := by
  unfold fieldName
  split
  next split found =>
    have some : body.toList ≠ [] := by simpa using nonempty
    obtain ⟨many, within, makes⟩ := joined_of_split some found
    have declared := fun column among => mem_longestFirst.mp (within column among)
    rcases makes with makes | makes
    · exact .inr (.inl (lists_of_split many declared makes))
    · refine .inr (.inr ⟨String.ofList (joined split), ?_, ?_⟩)
      · rw [← String.toList_inj, makes]
        simp
      · exact lists_of_split many declared (String.toList_ofList)
  next => exact .inl String.ofList_toList

end Fields

/-- A constraint of the table on what `body` stands for, under either of the two endings. -/
def Names (c : Constraints) (body name : String) : Prop :=
  name = c.table ++ "_" ++ body ++ "_key" ∨ name = c.table ++ "_" ++ body ++ "_idx"

/-- What a violated constraint may be put down to: the key column, the columns that its name speaks of as
they stand there, or declared columns that make up what it speaks of. -/
inductive Explains (c : Constraints) (columns : List String) (name : String) : String → Prop where
  | primaryKey (same : name = c.primaryKeyName) : Explains c columns name c.keyColumn
  | undivided {body : String} (names : c.Names body name) (nonempty : body ≠ "") :
      Explains c columns name body
  | divided {body field : String} (names : c.Names body name) (nonempty : body ≠ "")
      (lists : Lists columns body field) : Explains c columns name field

section Names

variable {c : Constraints} {columns named : List String} {name body field kind : String}

theorem afterTable_eq_some_iff {rest : List Char} :
    afterColumn? c.table.toList name.toList = some rest ↔ name = c.table ++ "_" ++ String.ofList rest := by
  rw [afterColumn_eq_some_iff, ← String.toList_inj]
  simp

theorem body_eq_some_iff {rest body : List Char} : body? rest = some body ↔
    body ≠ [] ∧ (rest = body ++ "_key".toList ∨ rest = body ++ "_idx".toList) := by
  have apart : ∀ other : List Char, body ++ "_idx".toList ≠ other ++ "_key".toList := by
    intro other same
    have last := congrArg List.getLast? same
    simp at last
  unfold body?
  simp only [Option.filter_eq_some_iff, Option.or_eq_some_iff, beforeEnd_eq_some_iff]
  constructor
  · rintro ⟨found, filled⟩
    refine ⟨by simpa using filled, ?_⟩
    rcases found with found | ⟨_, found⟩
    · exact .inl found
    · exact .inr found
  · rintro ⟨filled, found⟩
    refine ⟨?_, by simpa using filled⟩
    rcases found with found | rfl
    · exact .inl found
    · refine .inr ⟨?_, rfl⟩
      cases ended : beforeEnd? "_key".toList (body ++ "_idx".toList) with
      | none => rfl
      | some other => exact absurd (beforeEnd_eq_some_iff.mp ended) (apart other)

theorem names_iff : c.Names body name ↔ ∃ rest, name = c.table ++ "_" ++ String.ofList rest ∧
    (rest = body.toList ++ "_key".toList ∨ rest = body.toList ++ "_idx".toList) := by
  constructor
  · rintro (rfl | rfl)
    · refine ⟨_, ?_, .inl rfl⟩
      rw [← String.toList_inj]
      simp
    · refine ⟨_, ?_, .inr rfl⟩
      rw [← String.toList_inj]
      simp
  · rintro ⟨rest, rfl, rfl | rfl⟩
    · left
      rw [← String.toList_inj]
      simp
    · right
      rw [← String.toList_inj]
      simp

theorem translate_primaryKeyName (c : Constraints) (columns : List String) :
    c.translate c.primaryKeyName columns = c.violation c.keyColumn true := by
  have found : afterColumn? c.table.toList c.primaryKeyName.toList = some "pkey".toList := by
    rw [afterTable_eq_some_iff, ← String.toList_inj]
    simp [primaryKeyName]
  simp [translate, found]

theorem translate_of_names (names : c.Names body name) (nonempty : body ≠ "") :
    c.translate name columns = c.violation (fieldName columns body.toList)
      (fieldName columns body.toList == c.keyColumn) := by
  obtain ⟨rest, named, ended⟩ := names_iff.mp names
  have table := afterTable_eq_some_iff.mpr named
  have read : body? rest = some body.toList := body_eq_some_iff.mpr ⟨by simpa using nonempty, ended⟩
  have apart : rest ≠ "pkey".toList := by
    rintro rfl
    cases read
  unfold translate
  simp only [table, if_neg apart, read]

theorem translate_cases (c : Constraints) (name : String) (columns : List String) :
    name = c.primaryKeyName ∨ (∃ body, body ≠ "" ∧ c.Names body name) ∨
      c.translate name columns = c.unrecognized name := by
  unfold translate
  split
  next => exact .inr (.inr rfl)
  next rest found =>
    have table := afterTable_eq_some_iff.mp found
    split
    next same =>
      refine .inl (table.trans ?_)
      rw [same, ← String.toList_inj]
      simp [primaryKeyName]
    next =>
      split
      next => exact .inr (.inr rfl)
      next body read =>
        obtain ⟨filled, ended⟩ := body_eq_some_iff.mp read
        refine .inr (.inl ⟨String.ofList body, by simpa using filled, names_iff.mpr ⟨rest, table, ?_⟩⟩)
        simpa using ended

end Names

section Explained

variable {c : Constraints} {columns : List String} {name body field : String}

theorem Lists.single (lists : Lists columns body field) (single : ',' ∉ field.toList) :
    body = field ∧ field ∈ columns := by
  obtain ⟨named, nonempty, declared, rfl, rfl⟩ := lists
  match named with
  | [] => exact absurd rfl nonempty
  | [column] => simpa using declared
  | first :: second :: rest =>
    exfalso
    apply single
    rw [String.intercalate_cons_cons]
    simp

/-- A violation is put down to the key column or to what the name speaks of, as it stands there or taken
apart into declared columns; but an underscore at its end may have been passed over. So it is worth
another attempt only if the name is that of the primary key or speaks of the key column alone, with an
underscore passed over at most. -/
theorem violation_explained (c : Constraints) (columns : List String) (name : String) :
    (∀ kind field primaryKey, c.translate name columns = .uniqueViolation kind field primaryKey →
      c.Explains columns name field ∨
        ∃ most, c.Names (most ++ "_") name ∧ Lists columns most field) ∧
    ((c.translate name columns).isRetryable = true → ',' ∉ c.keyColumn.toList →
      name = c.primaryKeyName ∨ c.Names c.keyColumn name ∨
        c.keyColumn ∈ columns ∧ c.Names (c.keyColumn ++ "_") name) := by
  rcases translate_cases c name columns with rfl | ⟨body, nonempty, names⟩ | foreign
  · rw [translate_primaryKeyName]
    constructor
    · rintro kind field primaryKey violated
      cases violated
      exact .inl (.primaryKey rfl)
    · rintro _ _
      exact .inl rfl
  · rw [translate_of_names names nonempty]
    have reported := @fieldName_cases columns body nonempty
    constructor
    · rintro kind field primaryKey violated
      cases violated
      rcases reported with whole | divided | ⟨most, rfl, divided⟩
      · rw [whole]
        exact .inl (.undivided names nonempty)
      · exact .inl (.divided names nonempty divided)
      · exact .inr ⟨most, names, divided⟩
    · intro retryable single
      have same : fieldName columns body.toList = c.keyColumn := by
        simpa [violation, StoreError.isRetryable] using retryable
      rw [same] at reported
      rcases reported with rfl | divided | ⟨most, rfl, divided⟩
      · exact .inr (.inl names)
      · obtain ⟨rfl, _⟩ := divided.single single
        exact .inr (.inl names)
      · obtain ⟨rfl, declared⟩ := divided.single single
        exact .inr (.inr ⟨declared, names⟩)
  · rw [foreign]
    constructor
    · rintro kind field primaryKey violated
      cases violated
    · intro retryable
      cases retryable

def users : Constraints := ⟨"user", "user", "id"⟩

theorem violation_explained_users :
    users.translate "user_tenant_id_display_name_key" ["display_name", "tenant_id", "tenant"] =
        .uniqueViolation "user" "tenant_id,display_name" false ∧
      (users.Explains ["display_name", "tenant_id", "tenant"] "user_tenant_id_display_name_key"
          "tenant_id,display_name" ∨
        ∃ most, users.Names (most ++ "_") "user_tenant_id_display_name_key" ∧
          Lists ["display_name", "tenant_id", "tenant"] most "tenant_id,display_name") ∧
      (users.translate "user_id_idx" ["id"]).isRetryable = true ∧ ',' ∉ users.keyColumn.toList ∧
      ("user_id_idx" = users.primaryKeyName ∨ users.Names users.keyColumn "user_id_idx" ∨
        users.keyColumn ∈ ["id"] ∧ users.Names (users.keyColumn ++ "_") "user_id_idx") := by
  have composite : users.translate "user_tenant_id_display_name_key"
      ["display_name", "tenant_id", "tenant"] =
        .uniqueViolation "user" "tenant_id,display_name" false := by
    have names : users.Names "tenant_id_display_name" "user_tenant_id_display_name_key" :=
      .inl (by decide +kernel)
    have field : fieldName ["display_name", "tenant_id", "tenant"] "tenant_id_display_name".toList =
        "tenant_id,display_name" := by
      unfold fieldName splitColumns
      rw [longestFirst_of_descends (by decide +kernel)]
      decide +kernel
    rw [translate_of_names names (by decide), field]
    rfl
  have key : (users.translate "user_id_idx" ["id"]).isRetryable = true := by decide +kernel
  have single : ',' ∉ users.keyColumn.toList := by decide
  exact ⟨composite, (violation_explained users _ _).1 _ _ _ composite, key, single,
    (violation_explained users _ _).2 key single⟩

/-- The name speaks of a column `id_`, which is not declared. -/
theorem underscore_passed_over :
    users.translate "user_id__key" ["id"] = .uniqueViolation "user" "id" true ∧
      ¬ users.Explains ["id"] "user_id__key" "id" ∧
      (users.translate "user_id__key" ["id"]).isRetryable = true ∧
      "user_id__key" ≠ users.primaryKeyName ∧ ¬ users.Names users.keyColumn "user_id__key" := by
  have violated : users.translate "user_id__key" ["id"] = .uniqueViolation "user" "id" true := by
    decide +kernel
  have other : "user_id__key" ≠ users.primaryKeyName := by decide +kernel
  have unnamed : ¬ users.Names "id" "user_id__key" := by
    unfold Names
    decide +kernel
  refine ⟨violated, ?_, by rw [violated]; rfl, other, unnamed⟩
  intro explains
  generalize reported : "id" = field at explains
  cases explains with
  | primaryKey same => exact other same
  | undivided names => exact unnamed (reported ▸ names)
  | divided names _ lists =>
    subst reported
    obtain ⟨rfl, _⟩ := lists.single (by decide)
    exact unnamed names

end Explained

section Generated

variable {c : Constraints} {columns named : List String} {name column : String}

def Plain (column : String) : Prop := column ≠ "" ∧ column.toList.getLast? ≠ some '_'

instance (column : String) : Decidable (Plain column) := inferInstanceAs (Decidable (_ ∧ _))

theorem joined_ends {names : List (List Char)} (nonempty : names ≠ []) :
    ∃ front, ∃ column ∈ names, joined names = front ++ column := by
  induction names with
  | nil => exact absurd rfl nonempty
  | cons first names ih =>
    by_cases single : names = []
    · subst single
      exact ⟨[], first, by simp [joined]⟩
    · obtain ⟨front, column, within, ends⟩ := ih single
      refine ⟨first ++ '_' :: front, column, List.mem_cons_of_mem _ within, ?_⟩
      rw [joined_cons single, ends]
      simp

theorem ne_nil_of_plain (plain : ∀ column ∈ named, Plain column) :
    ∀ column ∈ named.map String.toList, column ≠ [] := by
  intro column within
  obtain ⟨name, among, rfl⟩ := List.mem_map.mp within
  simpa using (plain name among).1

theorem joined_ne_append (plain : ∀ column ∈ named, Plain column) (nonempty : named ≠ [])
    (most : List Char) : joined (named.map String.toList) ≠ most ++ ['_'] := by
  intro ended
  have several : named.map String.toList ≠ [] := by simpa using nonempty
  obtain ⟨front, last, within, ends⟩ := joined_ends several
  have filled := ne_nil_of_plain plain last within
  obtain ⟨column, among, rfl⟩ := List.mem_map.mp within
  have last := congrArg List.getLast? (ends.symm.trans ended)
  rw [List.getLast?_append_of_ne_nil _ filled] at last
  exact (plain column among).2 (by simpa using last)

theorem intercalate_ne_empty (plain : ∀ column ∈ named, Plain column) (nonempty : named ≠ []) :
    "_".intercalate named ≠ "" := by
  intro empty
  have body := congrArg String.toList empty
  rw [joined_toList] at body
  exact joined_ne_nil (by simpa using nonempty) (ne_nil_of_plain plain) body

theorem fieldName_joined (plain : ∀ column ∈ named, Plain column) (nonempty : named ≠ [])
    (declared : ∀ column ∈ named, column ∈ columns) :
    Lists columns ("_".intercalate named) (fieldName columns ("_".intercalate named).toList) := by
  have several : named.map String.toList ≠ [] := by simpa using nonempty
  have filled := ne_nil_of_plain plain
  obtain ⟨split, found⟩ := splitColumns_joined several filled (List.map_subset String.toList declared)
  obtain ⟨many, within, makes⟩ := joined_of_split (joined_ne_nil several filled) found
  have whole := makes.resolve_right (joined_ne_append plain nonempty _)
  unfold fieldName
  rw [joined_toList, found]
  apply lists_of_split many
  · exact fun column among => mem_longestFirst.mp (within column among)
  · rw [joined_toList, whole]

theorem fieldName_column (plain : Plain column) (declared : column ∈ columns) :
    fieldName columns column.toList = column := by
  have alone : splitColumns (columns.map String.toList) column.toList = some [column.toList] :=
    splitColumns_column (by simpa using plain.1) (List.mem_map_of_mem declared)
  simp [fieldName, alone]

theorem translate_joined (plain : ∀ column ∈ named, Plain column) (nonempty : named ≠ [])
    (declared : ∀ column ∈ named, column ∈ columns) (names : c.Names ("_".intercalate named) name) :
    ∃ field, Lists columns ("_".intercalate named) field ∧
      c.translate name columns = .uniqueViolation c.kind field (decide (field = c.keyColumn)) :=
  ⟨_, fieldName_joined plain nonempty declared,
    translate_of_names names (intercalate_ne_empty plain nonempty)⟩

theorem translate_column (plain : Plain column) (declared : column ∈ columns)
    (names : c.Names column name) :
    c.translate name columns = .uniqueViolation c.kind column (decide (column = c.keyColumn)) := by
  rw [translate_of_names names plain.1, fieldName_column plain declared]
  rfl

/-- The violation of a constraint named after plain columns is put down to declared columns that make up
the same name, and to the column itself if it is named after one; that of the primary key is put down to
the key column. -/
theorem translate_generated (c : Constraints) (plain : ∀ column ∈ columns, Plain column) :
    (∀ named name, named ≠ [] → (∀ column ∈ named, column ∈ columns) →
      c.Names ("_".intercalate named) name →
      ∃ field, Lists columns ("_".intercalate named) field ∧
        c.translate name columns = .uniqueViolation c.kind field (decide (field = c.keyColumn))) ∧
    (∀ column ∈ columns, ∀ name, c.Names column name →
      c.translate name columns = .uniqueViolation c.kind column (decide (column = c.keyColumn))) ∧
    (∀ column ∈ columns, c.translate (c.uniqueName column) columns =
      .uniqueViolation c.kind column (decide (column = c.keyColumn))) ∧
    c.translate c.primaryKeyName columns = .uniqueViolation c.kind c.keyColumn true := by
  refine ⟨?_, ?_, ?_, ?_⟩
  · intro named name nonempty declared names
    have each := fun column within => plain column (declared column within)
    exact translate_joined each nonempty declared names
  · intro column within name names
    exact translate_column (plain column within) within names
  · intro column within
    exact translate_column (plain column within) within (.inl rfl)
  · exact translate_primaryKeyName c columns

/-- Two columns of which the longest first choice leaves a rest that no column fits. -/
theorem translate_generated_overlapping :
    let columns := ["a_b", "b_c", "a"]
    (∀ column ∈ columns, Plain column) ∧ users.Names ("_".intercalate ["a", "b_c"]) "user_a_b_c_idx" ∧
      users.translate "user_a_b_c_idx" columns = .uniqueViolation "user" "a,b_c" false ∧
      ∃ field, Lists columns "a_b_c" field ∧ users.translate "user_a_b_c_idx" columns =
        .uniqueViolation "user" field (decide (field = "id")) := by
  intro columns
  have plain : ∀ column ∈ columns, Plain column := by decide
  have makes : "_".intercalate ["a", "b_c"] = "a_b_c" := by decide +kernel
  have names : users.Names ("_".intercalate ["a", "b_c"]) "user_a_b_c_idx" := .inr (by decide +kernel)
  have field : fieldName columns "a_b_c".toList = "a,b_c" := by
    unfold fieldName splitColumns
    rw [longestFirst_of_descends (by decide +kernel)]
    decide +kernel
  have translated : users.translate "user_a_b_c_idx" columns = .uniqueViolation "user" "a,b_c" false := by
    rw [translate_of_names names (by decide +kernel), makes, field]
    rfl
  have generated := (translate_generated users plain).1 _ _ (by decide) (by decide) names
  rw [makes] at generated
  exact ⟨plain, names, translated, generated⟩

end Generated

end OptimisticStore.Constraints
