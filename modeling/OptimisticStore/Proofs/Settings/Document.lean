import OptimisticStore.Settings.Document
/-!
Which documents are settings, and what is reported of the others.

A document is checked in stages: that no setting is missing, that nothing else is set and all values have
their type and range, and that no count is zero. Main statement: `ofToml_judged`, by which the first stage
that a document does not pass is reported, whatever else is wrong with it and whoever reads it.
-/
namespace OptimisticStore

theorem Toml.Table.contains_iff {table : Toml.Table} {name : String} :
    table.contains name ↔ name ∈ table.map Prod.fst := by
  simp only [Toml.Table.contains, Toml.Table.get?, List.lookup_isSome_iff, beq_iff_eq, List.mem_map]
  exact exists_congr fun entry => and_congr_right fun _ => eq_comm

def Toml.Table.Counts (table : Toml.Table) (name : String) (count : Nat) : Prop :=
  ∃ word : Int64, table.get? name = some (.integer word) ∧ word.toInt = count

namespace Toml.Table.Counts

variable {table : Toml.Table} {name : String} {count other : Nat}

theorem lt (counts : table.Counts name count) : count < UInt64.size := by
  obtain ⟨word, _, value⟩ := counts
  have below := word.toInt_lt
  have size : UInt64.size = 2 ^ 64 := rfl
  omega

theorem unique (counts : table.Counts name count) (counts' : table.Counts name other) :
    count = other := by
  obtain ⟨word, set, value⟩ := counts
  obtain ⟨word', set', value'⟩ := counts'
  obtain rfl : word = word' := by simpa using set.symm.trans set'
  exact Int.natCast_inj.mp (value.symm.trans value')

end Toml.Table.Counts

namespace Settings

/-- The names that the table sets are those of the settings, and their values are these settings. The
range of each value is that of the setting it becomes. -/
structure Spells (table : Toml.Table) (settings : Settings) : Prop where
  names : ∀ name, table.contains name ↔ name ∈ fieldNames
  iterations : table.Counts "max_iterations" settings.maxIterations.toNat
  backoff : ∃ millis, table.Counts "max_backoff" millis ∧ settings.maxBackoff = .ofMillis millis
  loads : table.Counts "max_load_iterations" settings.maxLoadIterations.toNat
  ambient : table.get? "allow_ambient_transaction" = some (.boolean settings.allowAmbientTransaction)

def Complete (table : Toml.Table) : Prop := ∀ name ∈ fieldNames, table.contains name

/-- The setting is missing, and those before it are not. -/
def FirstMissing (table : Toml.Table) (name : String) : Prop :=
  table.contains name = false ∧
    ∃ before after, fieldNames = before ++ name :: after ∧ ∀ other ∈ before, table.contains other

/-- Something else is set, or a setting to a value of another type or outside its range. -/
inductive Faulty (table : Toml.Table) : Prop where
  | name {name : String} (set : table.contains name) (foreign : name ∉ fieldNames)
  | iterations (other : ∀ count < UInt32.size, ¬ table.Counts "max_iterations" count)
  | backoff (other : ∀ count, ¬ table.Counts "max_backoff" count)
  | loads (other : ∀ count, ¬ table.Counts "max_load_iterations" count)
  | ambient (other : ∀ truth, table.get? "allow_ambient_transaction" ≠ some (.boolean truth))

inductive FirstZero (settings : Settings) : String → Prop where
  | iterations (zero : settings.maxIterations.toNat = 0) : FirstZero settings "max_iterations"
  | loads (positive : 0 < settings.maxIterations.toNat)
      (zero : settings.maxLoadIterations.toNat = 0) : FirstZero settings "max_load_iterations"

section Validity

variable {settings : Settings}

def zeroCount (field : String) : SettingsError :=
  .invalidValue field "0" (field ++ " must be greater than 0")

theorem nonzero_zero (field : String) : nonzero field 0 = .error (zeroCount field) := by
  rw [nonzero, if_pos rfl]
  rfl

theorem nonzero_pos {field : String} {count : Nat} (positive : 0 < count) :
    nonzero field count = .ok () := if_neg (by omega)

theorem validate_cases : (settings.validate = .ok () ∧ 0 < settings.maxIterations.toNat ∧
      0 < settings.maxLoadIterations.toNat) ∨
    ∃ field, FirstZero settings field ∧ settings.validate = .error (zeroCount field) := by
  unfold validate
  rcases Nat.eq_zero_or_pos settings.maxIterations.toNat with none | some
  · refine .inr ⟨_, .iterations none, ?_⟩
    rw [none, nonzero_zero]
    rfl
  · rw [nonzero_pos some]
    rcases Nat.eq_zero_or_pos settings.maxLoadIterations.toNat with zero | positive
    · refine .inr ⟨_, .loads some zero, ?_⟩
      rw [zero, nonzero_zero]
      rfl
    · refine .inl ⟨?_, some, positive⟩
      rw [nonzero_pos positive]
      rfl

theorem FirstZero.not_positive {field : String} (first : FirstZero settings field) :
    ¬ (0 < settings.maxIterations.toNat ∧ 0 < settings.maxLoadIterations.toNat) := by
  rintro ⟨iterations, loads⟩
  cases first with
  | iterations zero => omega
  | loads _ zero => omega

theorem FirstZero.unique {one other : String} (first : FirstZero settings one)
    (first' : FirstZero settings other) : one = other := by
  cases first with
  | iterations zero =>
    cases first' with
    | iterations => rfl
    | loads positive => omega
  | loads positive =>
    cases first' with
    | iterations zero => omega
    | loads => rfl

end Validity

section Tables

variable {table : Toml.Table} {settings other : Settings}

theorem Spells.complete (spells : Spells table settings) : Complete table :=
  fun name within => (spells.names name).mpr within

theorem Spells.not_faulty (spells : Spells table settings) : ¬ Faulty table := by
  intro faulty
  cases faulty with
  | name set foreign => exact foreign ((spells.names _).mp set)
  | iterations other => exact other _ settings.maxIterations.toNat_lt spells.iterations
  | backoff other =>
    obtain ⟨millis, written, _⟩ := spells.backoff
    exact other millis written
  | loads other => exact other _ spells.loads
  | ambient other => exact other _ spells.ambient

theorem Spells.unique (spells : Spells table settings) (spells' : Spells table other) :
    settings = other := by
  obtain ⟨millis, written, backoff⟩ := spells.backoff
  obtain ⟨millis', written', backoff'⟩ := spells'.backoff
  have iterations := UInt32.toNat_inj.mp (spells.iterations.unique spells'.iterations)
  have loads := UInt64.toNat_inj.mp (spells.loads.unique spells'.loads)
  have ambient := spells.ambient.symm.trans spells'.ambient
  rw [Option.some.injEq, Toml.Value.boolean.injEq] at ambient
  obtain rfl := written.unique written'
  calc
    settings = ⟨settings.maxIterations, settings.maxBackoff, settings.maxLoadIterations,
        settings.allowAmbientTransaction⟩ := rfl
    _ = ⟨other.maxIterations, other.maxBackoff, other.maxLoadIterations,
        other.allowAmbientTransaction⟩ := by rw [iterations, loads, ambient, backoff, backoff']

theorem missingField?_eq_some_iff {name : String} :
    missingField? table = some name ↔ FirstMissing table name := by
  simp [missingField?, FirstMissing, List.find?_eq_some_iff_append]

theorem missingField?_eq_none_iff : missingField? table = none ↔ Complete table := by
  simp [missingField?, Complete, List.find?_eq_none]

theorem FirstMissing.not_complete {name : String} (first : FirstMissing table name) :
    ¬ Complete table := by
  rw [← missingField?_eq_none_iff, missingField?_eq_some_iff.mpr first]
  simp

theorem FirstMissing.unique {one other : String} (first : FirstMissing table one)
    (first' : FirstMissing table other) : one = other :=
  Option.some.inj ((missingField?_eq_some_iff.mpr first).symm.trans
    (missingField?_eq_some_iff.mpr first'))

theorem unknownField?_eq_none_iff :
    unknownField? table = none ↔ ∀ name, table.contains name → name ∈ fieldNames := by
  simp only [unknownField?, List.find?_eq_none, Toml.Table.contains_iff, Bool.not_eq_true',
    List.contains_eq_mem, decide_eq_false_iff_not, Decidable.not_not]

theorem foreign_of_unknownField? {name : String} (found : unknownField? table = some name) :
    table.contains name ∧ name ∉ fieldNames := by
  have foreign := List.find?_some found
  exact ⟨Toml.Table.contains_iff.mpr (List.mem_of_find?_eq_some found), by simpa using foreign⟩

theorem integerBelow_eq_some_iff {bound count : Nat} {value : Toml.Value} :
    integerBelow bound value = some count ↔
      ∃ word : Int64, value = .integer word ∧ word.toInt = count ∧ count < bound := by
  cases value with
  | integer number =>
    simp only [integerBelow, Option.ite_none_right_eq_some, Option.some.injEq,
      Toml.Value.integer.injEq, exists_eq_left']
    omega
  | _ => simp [integerBelow]

theorem truth_eq_some_iff {truth : Bool} {value : Toml.Value} :
    Settings.truth value = some truth ↔ value = .boolean truth := by
  cases value <;> simp [Settings.truth]

theorem valueOf_cases {α : Type} (table : Toml.Table) (field expected : String)
    (read : Toml.Value → Option α) :
    (∃ value entry, table.get? field = some entry ∧ read entry = some value ∧
        valueOf table field expected read = .ok value) ∨
      (∀ entry, table.get? field = some entry → read entry = none) ∧
        ∃ reason, valueOf table field expected read = .error (.unreadable reason) := by
  unfold valueOf
  cases bound : (table.get? field).bind read with
  | some value =>
    obtain ⟨entry, set, reads⟩ := Option.bind_eq_some_iff.mp bound
    exact .inl ⟨value, entry, set, reads, rfl⟩
  | none =>
    refine .inr ⟨fun entry set => ?_, _, rfl⟩
    rw [set] at bound
    exact bound

theorem count_cases (table : Toml.Table) (field expected : String) (bound : Nat) :
    (∃ count < bound, table.Counts field count ∧
        valueOf table field expected (integerBelow bound) = .ok count) ∨
      (∀ count < bound, ¬ table.Counts field count) ∧
        ∃ reason, valueOf table field expected (integerBelow bound) = .error (.unreadable reason) := by
  rcases valueOf_cases table field expected (integerBelow bound) with
    ⟨count, entry, set, reads, ok⟩ | ⟨unread, failed⟩
  · obtain ⟨word, rfl, value, small⟩ := integerBelow_eq_some_iff.mp reads
    exact .inl ⟨count, small, ⟨word, set, value⟩, ok⟩
  · refine .inr ⟨fun count small counts => ?_, failed⟩
    obtain ⟨word, set, value⟩ := counts
    have reads := integerBelow_eq_some_iff.mpr ⟨word, rfl, value, small⟩
    rw [unread _ set] at reads
    cases reads

theorem truth_cases (table : Toml.Table) (field expected : String) :
    (∃ truth, table.get? field = some (.boolean truth) ∧
        valueOf table field expected Settings.truth = .ok truth) ∨
      (∀ truth, table.get? field ≠ some (.boolean truth)) ∧
        ∃ reason, valueOf table field expected Settings.truth = .error (.unreadable reason) := by
  rcases valueOf_cases table field expected Settings.truth with
    ⟨truth, entry, set, reads, ok⟩ | ⟨unread, failed⟩
  · obtain rfl := truth_eq_some_iff.mp reads
    exact .inl ⟨truth, set, ok⟩
  · refine .inr ⟨fun truth set => ?_, failed⟩
    have reads := truth_eq_some_iff.mpr (Eq.refl (Toml.Value.boolean truth))
    rw [unread _ set] at reads
    cases reads

theorem ofCompleteTable_of_known (known : unknownField? table = none) : ofCompleteTable table = (do
    let iterations ← valueOf table "max_iterations" "a 32-bit count" (integerBelow UInt32.size)
    let backoff ← valueOf table "max_backoff" "a count of milliseconds" (integerBelow UInt64.size)
    let loads ← valueOf table "max_load_iterations" "a count" (integerBelow UInt64.size)
    let ambient ← valueOf table "allow_ambient_transaction" "true or false" Settings.truth
    return {
      maxIterations := UInt32.ofNat iterations
      maxBackoff := .ofMillis backoff
      maxLoadIterations := UInt64.ofNat loads
      allowAmbientTransaction := ambient }) := by
  rw [ofCompleteTable, known]

theorem ofCompleteTable_cases (complete : Complete table) :
    (∃ settings, Spells table settings ∧ ofCompleteTable table = .ok settings) ∨
      Faulty table ∧ ∃ reason, ofCompleteTable table = .error (.unreadable reason) := by
  cases unknown : unknownField? table with
  | some name =>
    obtain ⟨set, foreign⟩ := foreign_of_unknownField? unknown
    refine .inr ⟨.name set foreign, s!"unknown field {name}", ?_⟩
    rw [ofCompleteTable, unknown]
    rfl
  | none =>
    rw [ofCompleteTable_of_known unknown]
    rcases count_cases table "max_iterations" "a 32-bit count" UInt32.size with
      ⟨iterations, small, setIterations, ok⟩ | ⟨other, reason, failed⟩
    case inr => exact .inr ⟨.iterations other, reason, by rw [failed]; rfl⟩
    rw [ok]
    rcases count_cases table "max_backoff" "a count of milliseconds" UInt64.size with
      ⟨backoff, _, setBackoff, ok⟩ | ⟨other, reason, failed⟩
    -- an unsigned word holds any integer of a document that is not negative
    case inr => exact .inr ⟨.backoff fun count counts => other count counts.lt counts, reason,
      by rw [failed]; rfl⟩
    rw [ok]
    rcases count_cases table "max_load_iterations" "a count" UInt64.size with
      ⟨loads, large, setLoads, ok⟩ | ⟨other, reason, failed⟩
    case inr => exact .inr ⟨.loads fun count counts => other count counts.lt counts, reason,
      by rw [failed]; rfl⟩
    rw [ok]
    rcases truth_cases table "allow_ambient_transaction" "true or false" with
      ⟨ambient, setAmbient, ok⟩ | ⟨other, reason, failed⟩
    case inr => exact .inr ⟨.ambient other, reason, by rw [failed]; rfl⟩
    rw [ok]
    refine .inl ⟨_, ?_, rfl⟩
    constructor
    · exact fun name => ⟨unknownField?_eq_none_iff.mp unknown name, complete name⟩
    · rw [UInt32.toNat_ofNat_of_lt' small]
      exact setIterations
    · exact ⟨backoff, setBackoff, rfl⟩
    · rw [UInt64.toNat_ofNat_of_lt' large]
      exact setLoads
    · exact setAmbient

/-- Of the stages that a table is checked in, the first that it does not pass is reported. -/
inductive Checked (table : Toml.Table) : Except SettingsError Settings → Prop where
  | missing {name : String} (first : FirstMissing table name) :
      Checked table (.error (.missingRequired name))
  | faulty {reason : String} (complete : Complete table) (faulty : Faulty table) :
      Checked table (.error (.unreadable reason))
  | zero {settings : Settings} {field : String} (spells : Spells table settings)
      (zero : FirstZero settings field) : Checked table (.error (zeroCount field))
  | accepted {settings : Settings} (spells : Spells table settings)
      (iterations : 0 < settings.maxIterations.toNat) (loads : 0 < settings.maxLoadIterations.toNat)
      (valid : settings.validate = .ok ()) : Checked table (.ok settings)

theorem ofTable_checked (table : Toml.Table) : Checked table (ofTable table) := by
  unfold ofTable
  cases missing : missingField? table with
  | some name => exact .missing (missingField?_eq_some_iff.mp missing)
  | none =>
    have complete := missingField?_eq_none_iff.mp missing
    rcases ofCompleteTable_cases complete with ⟨settings, spells, ok⟩ | ⟨faulty, reason, failed⟩
    · change Checked table (ofCompleteTable table >>= _)
      rw [ok]
      rcases settings.validate_cases with ⟨valid, iterations, loads⟩ | ⟨field, zero, invalid⟩
      · change Checked table (settings.validate >>= fun _ => .ok settings)
        rw [valid]
        exact .accepted spells iterations loads valid
      · change Checked table (settings.validate >>= fun _ => .ok settings)
        rw [invalid]
        exact .zero spells zero
    · change Checked table (ofCompleteTable table >>= _)
      rw [failed]
      exact .faulty complete faulty

/-- Of a zero, a value of the wrong kind, an unknown name and a missing one, the missing one is told. -/
example : ofTable [("max_iterations", .integer 0), ("max_load_iterations", .float), ("retries", .integer 1),
    ("allow_ambient_transaction", .boolean true)] = .error (.missingRequired "max_backoff") := rfl

end Tables

/-- What becomes of a document whose table is given: just the tables that spell settings without a zero
are accepted, and the faults of the others are reported in order. -/
structure Judged (table : Toml.Table) (result : Except SettingsError Settings) : Prop where
  accepted : ∀ settings, result = .ok settings ↔ Spells table settings ∧
    0 < settings.maxIterations.toNat ∧ 0 < settings.maxLoadIterations.toNat
  valid : ∀ settings, result = .ok settings → settings.validate = .ok ()
  missing : ∀ name, result = .error (.missingRequired name) ↔ FirstMissing table name
  unreadable : (∃ reason, result = .error (.unreadable reason)) ↔ Complete table ∧ Faulty table
  zero : ∀ field value reason, result = .error (.invalidValue field value reason) ↔
    (∃ settings, Spells table settings ∧ FirstZero settings field) ∧ value = "0" ∧
      reason = field ++ " must be greater than 0"

section Judgement

variable {table : Toml.Table} {result : Except SettingsError Settings}

theorem Checked.accepted_iff (checked : Checked table result) (settings : Settings) :
    result = .ok settings ↔ Spells table settings ∧ 0 < settings.maxIterations.toNat ∧
      0 < settings.maxLoadIterations.toNat := by
  cases checked with
  | missing first => simpa using fun spells => absurd spells.complete first.not_complete
  | faulty complete faulty => simpa using fun spells => absurd faulty spells.not_faulty
  | zero spells zero =>
    simp only [reduceCtorEq, false_iff]
    rintro ⟨spells', positive⟩
    obtain rfl := spells.unique spells'
    exact zero.not_positive positive
  | accepted spells iterations loads valid =>
    constructor
    · intro same
      obtain rfl := Except.ok.inj same
      exact ⟨spells, iterations, loads⟩
    · rintro ⟨spells', _⟩
      rw [spells.unique spells']

theorem Checked.missing_iff (checked : Checked table result) (name : String) :
    result = .error (.missingRequired name) ↔ FirstMissing table name := by
  cases checked with
  | missing first =>
    rw [Except.error.injEq, SettingsError.missingRequired.injEq]
    exact ⟨fun same => same ▸ first, first.unique⟩
  | faulty complete => simpa using fun first => FirstMissing.not_complete first complete
  | zero spells => simpa [zeroCount] using fun first => FirstMissing.not_complete first spells.complete
  | accepted spells => simpa using fun first => FirstMissing.not_complete first spells.complete

theorem Checked.unreadable_iff (checked : Checked table result) :
    (∃ reason, result = .error (.unreadable reason)) ↔ Complete table ∧ Faulty table := by
  cases checked with
  | missing first => simpa using fun complete => absurd complete first.not_complete
  | faulty complete faulty => exact ⟨fun _ => ⟨complete, faulty⟩, fun _ => ⟨_, rfl⟩⟩
  | zero spells => simpa [zeroCount] using fun _ => spells.not_faulty
  | accepted spells => simpa using fun _ => spells.not_faulty

theorem Checked.zero_iff (checked : Checked table result) (field value reason : String) :
    result = .error (.invalidValue field value reason) ↔
      (∃ settings, Spells table settings ∧ FirstZero settings field) ∧ value = "0" ∧
        reason = field ++ " must be greater than 0" := by
  cases checked with
  | missing first =>
    simp only [Except.error.injEq, reduceCtorEq, false_iff]
    rintro ⟨⟨settings, spells, _⟩, _⟩
    exact first.not_complete spells.complete
  | faulty complete faulty =>
    simp only [Except.error.injEq, reduceCtorEq, false_iff]
    rintro ⟨⟨settings, spells, _⟩, _⟩
    exact spells.not_faulty faulty
  | zero spells zero =>
    rw [Except.error.injEq, zeroCount, SettingsError.invalidValue.injEq]
    constructor
    · rintro ⟨rfl, rfl, rfl⟩
      exact ⟨⟨_, spells, zero⟩, rfl, rfl⟩
    · rintro ⟨⟨settings, spells', zero'⟩, rfl, rfl⟩
      obtain rfl := spells.unique spells'
      obtain rfl := zero.unique zero'
      exact ⟨rfl, rfl, rfl⟩
  | accepted spells iterations loads =>
    simp only [reduceCtorEq, false_iff]
    rintro ⟨⟨settings, spells', zero⟩, _⟩
    obtain rfl := spells.unique spells'
    exact zero.not_positive ⟨iterations, loads⟩

theorem Checked.judged (checked : Checked table result) : Judged table result where
  accepted := checked.accepted_iff
  valid settings accepted := by
    subst accepted
    cases checked
    assumption
  missing := checked.missing_iff
  unreadable := checked.unreadable_iff
  zero := checked.zero_iff

end Judgement

/-- A document is judged by the table that is made of it, and one without a table is unreadable. -/
theorem ofToml_judged (parse : String → Except String Toml.Table) (document : String) :
    match parse document with
    | .ok table => Judged table (ofToml parse document)
    | .error reason => ofToml parse document = .error (.unreadable reason) := by
  unfold ofToml
  cases parse document with
  | ok table => exact (ofTable_checked table).judged
  | error reason => rfl

def written : String :=
  "max_iterations = 3\nmax_backoff = 250\nmax_load_iterations = 7\nallow_ambient_transaction = true\n"

def writtenTable : Toml.Table := [("max_iterations", .integer 3), ("max_backoff", .integer 250),
  ("max_load_iterations", .integer 7), ("allow_ambient_transaction", .boolean true)]

def readWritten (document : String) : Except String Toml.Table :=
  if document = written then .ok writtenTable else .error "expected a key"

theorem ofToml_judged_written : Judged writtenTable (ofToml readWritten written) ∧
    ofToml readWritten written = .ok {
      maxIterations := 3
      maxBackoff := .ofMillis 250
      maxLoadIterations := 7
      allowAmbientTransaction := true } ∧
    ofToml readWritten "= 3" = .error (.unreadable "expected a key") := by
  have known : readWritten written = .ok writtenTable := if_pos rfl
  have judged := ofToml_judged readWritten written
  rw [known] at judged
  refine ⟨judged, ?_, ?_⟩
  · rw [ofToml, known]
    rfl
  · exact ofToml_judged readWritten "= 3"

end Settings

end OptimisticStore
