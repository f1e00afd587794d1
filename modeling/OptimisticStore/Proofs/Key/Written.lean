import Mathlib.Data.Nat.Digits.Defs
import OptimisticStore.Proofs.Key.Typed
/-!
The numbers that relation keys write.

A relation key writes a number as its value or as a decimal text. Main statement: `erased_exactly`, by
which every type of key is erased without loss, and the types whose keys are numbers recover a key from a
relation key only if that writes the key's own number.
-/
namespace OptimisticStore

namespace Text

inductive Decimal : List Char → Nat → Prop where
  | unsigned {digits : List Char} (nonempty : digits ≠ []) (all : ∀ c ∈ digits, c.isDigit) :
      Decimal digits (Nat.ofDigits 10 (digits.reverse.map fun c => c.toNat - '0'.toNat))
  | signed {digits : List Char} (nonempty : digits ≠ []) (all : ∀ c ∈ digits, c.isDigit) :
      Decimal ('+' :: digits) (Nat.ofDigits 10 (digits.reverse.map fun c => c.toNat - '0'.toNat))

theorem isDigit_of_digitValue {c : Char} {value : Nat} (read : digitValue? c = some value) :
    c.isDigit := by
  unfold digitValue? at read
  split at read
  next within => simpa [Char.isDigit, Char.le_def, UInt32.le_iff_toNat_le] using within
  next => cases read

theorem isDigit_of_digitsFrom {digits : List Char} {sofar n : Nat}
    (read : digitsFrom sofar digits = some n) : ∀ c ∈ digits, c.isDigit := by
  induction digits generalizing sofar with
  | nil => simp
  | cons c rest ih =>
    obtain ⟨value, digit, onward⟩ := Option.bind_eq_some_iff.mp read
    intro d within
    rcases List.mem_cons.mp within with rfl | later
    · exact isDigit_of_digitValue digit
    · exact ih onward d later

/-- Reading digits from the left gives each the weight of its place from the right. -/
theorem ofDigitChars_eq_ofDigits (digits : List Char) (sofar : Nat) :
    Nat.ofDigitChars 10 digits sofar =
      Nat.ofDigits 10 (digits.reverse.map fun c => c.toNat - '0'.toNat) + 10 ^ digits.length * sofar := by
  induction digits generalizing sofar with
  | nil => simp
  | cons c rest ih =>
    rw [Nat.ofDigitChars_cons, ih, List.reverse_cons, List.map_append, Nat.ofDigits_append]
    simp only [List.map_cons, List.map_nil, Nat.ofDigits_singleton, List.length_map,
      List.length_reverse, List.length_cons]
    ring

theorem digitsValue_eq_some_iff {digits : List Char} {n : Nat} :
    digitsValue? digits = some n ↔ digits ≠ [] ∧ (∀ c ∈ digits, c.isDigit) ∧
      n = Nat.ofDigits 10 (digits.reverse.map fun c => c.toNat - '0'.toNat) := by
  cases digits with
  | nil => simp [digitsValue?]
  | cons c rest =>
    have value : Nat.ofDigitChars 10 (c :: rest) 0 = _ := ofDigitChars_eq_ofDigits (c :: rest) 0
    rw [Nat.mul_zero, Nat.add_zero] at value
    constructor
    · intro read
      have all := isDigit_of_digitsFrom read
      have same := (digitsFrom_eq_ofDigitChars all 0).symm.trans read
      exact ⟨List.cons_ne_nil _ _, all, (Option.some.inj same).symm.trans value⟩
    · rintro ⟨_, all, rfl⟩
      exact (digitsFrom_eq_ofDigitChars all 0).trans (congrArg some value)

theorem readUnsigned_eq_some_iff {text : String} {n : Nat} :
    readUnsigned text = some n ↔ Decimal text.toList n := by
  unfold readUnsigned
  split
  next digits shape =>
    rw [shape, digitsValue_eq_some_iff]
    constructor
    · rintro ⟨nonempty, all, rfl⟩
      exact .signed nonempty all
    · intro decimal
      cases decimal with
      | signed nonempty all => exact ⟨nonempty, all, rfl⟩
      | unsigned _ all => exact absurd (all '+' List.mem_cons_self) (by decide)
  next unsigned =>
    rw [digitsValue_eq_some_iff]
    constructor
    · rintro ⟨nonempty, all, rfl⟩
      exact .unsigned nonempty all
    · intro decimal
      generalize text.toList = chars at decimal unsigned
      cases decimal with
      | unsigned nonempty all => exact ⟨nonempty, all, rfl⟩
      | signed => exact absurd rfl (unsigned _)

end Text

/-- The number written in a relation key: a number as it stands, or a decimal text. -/
inductive RelationKey.Writes : RelationKey → Int → Prop where
  | int (value : Int64) : Writes (.int value) value.toInt
  | text {text : String} {n : Nat} (decimal : Text.Decimal text.toList n) : Writes (.text text) n

structure Key.Lossless (K : Type) [Key K] : Prop where
  recover_erase : ∀ key : K, Key.recover (Key.erase key) = some key
  injective : Function.Injective fun key : K => Key.erase key

theorem Key.lossless (K : Type) [Key K] [LawfulKey K] : Key.Lossless K :=
  ⟨LawfulKey.recover_erase, fun _ _ same => Key.erase_injective same⟩

/-- Of the relation keys that a type of keys can read, each is recovered as the key whose number it
writes, and refused if there is none. -/
structure Key.Exact (K : Type) [Key K] (number : K → Int) (readable : RelationKey → Prop) : Prop where
  recover_iff : ∀ (relation : RelationKey) (key : K),
    Key.recover relation = some key ↔ readable relation ∧ relation.Writes (number key)
  erased : ∀ key : K, readable (Key.erase key) ∧ (Key.erase key).Writes (number key)

namespace RelationKey

def IsInt : RelationKey → Prop
  | .int _ => True
  | _ => False

theorem writes_int_iff {value : Int64} {n : Int} : (int value).Writes n ↔ n = value.toInt := by
  constructor
  · rintro ⟨⟩
    rfl
  · rintro rfl
    exact .int value

theorem writes_text_iff {text : String} {n : Int} :
    (RelationKey.text text).Writes n ↔ ∃ m : Nat, Text.readUnsigned text = some m ∧ n = m := by
  constructor
  · rintro ⟨⟩
    exact ⟨_, Text.readUnsigned_eq_some_iff.mpr ‹_›, rfl⟩
  · rintro ⟨m, read, rfl⟩
    exact .text (Text.readUnsigned_eq_some_iff.mp read)

end RelationKey

open RelationKey

namespace Key

theorem Exact.of_recover {K : Type} [Key K] [LawfulKey K] {number : K → Int}
    {readable : RelationKey → Prop}
    (recover_iff : ∀ (relation : RelationKey) (key : K),
      Key.recover relation = some key ↔ readable relation ∧ relation.Writes (number key)) :
    Exact K number readable :=
  ⟨recover_iff, fun key => (recover_iff _ key).mp (LawfulKey.recover_erase key)⟩

theorem exact_int64 : Exact Int64 Int64.toInt IsInt := by
  apply Exact.of_recover
  intro relation key
  cases relation with
  | int value => simp [recover, IsInt, writes_int_iff, Int64.toInt_inj, eq_comm]
  | text | uuid => simp [recover, IsInt]

theorem exact_int32 : Exact Int32 Int32.toInt IsInt := by
  apply Exact.of_recover
  intro relation key
  cases relation with
  | int value =>
    have least : Int32.minValue.toInt = -2 ^ 31 := by decide
    have most : Int32.maxValue.toInt = 2 ^ 31 - 1 := by decide
    have lower := key.le_toInt
    have upper := key.toInt_lt
    simp only [recover, IsInt, writes_int_iff, true_and, Option.ite_none_right_eq_some,
      Option.some.injEq, ← Int32.toInt_inj]
    constructor
    · rintro ⟨within, same⟩
      rw [← same, Int32.toInt_ofInt_of_le (by omega) (by omega)]
    · intro same
      refine ⟨by omega, ?_⟩
      rw [Int32.toInt_ofInt_of_le (by omega) (by omega), same]
  | text | uuid => simp [recover, IsInt]

theorem exact_uint64 : Exact UInt64 (fun key => key.toNat) fun _ => True := by
  apply Exact.of_recover
  intro relation key
  have bound : key.toNat < UInt64.size := key.toNat_lt
  cases relation with
  | int value =>
    have small : value.toInt.toNat < UInt64.size := by
      have upper := value.toInt_lt
      have size : UInt64.size = 2 ^ 64 := rfl
      omega
    simp only [recover, writes_int_iff, true_and, Option.ite_none_right_eq_some, Option.some.injEq,
      ← UInt64.toNat_inj]
    constructor
    · rintro ⟨lower, same⟩
      rw [UInt64.toNat_ofNat_of_lt' small] at same
      omega
    · intro same
      refine ⟨by omega, ?_⟩
      rw [UInt64.toNat_ofNat_of_lt' small]
      omega
  | text digits =>
    simp only [recover, writes_text_iff, true_and, Text.readBelow, Option.map_eq_some_iff,
      Option.filter_eq_some_iff, decide_eq_true_eq, ← UInt64.toNat_inj, Int.natCast_inj]
    constructor
    · rintro ⟨m, ⟨read, small⟩, same⟩
      rw [UInt64.toNat_ofNat_of_lt' small] at same
      exact ⟨m, read, same.symm⟩
    · rintro ⟨m, read, same⟩
      subst same
      exact ⟨_, ⟨read, bound⟩, UInt64.toNat_ofNat_of_lt' bound⟩
  | uuid value =>
    simp only [recover, true_and, reduceCtorEq, false_iff]
    rintro ⟨⟩

theorem isInt_erase_uint64_iff (key : UInt64) : (erase key).IsInt ↔ key.toNat < 2 ^ 63 := by
  have most : Int64.maxValue.toInt = 2 ^ 63 - 1 := by decide
  simp only [erase]
  split
  next small => simp only [IsInt, true_iff]; omega
  next large => simp only [IsInt, false_iff]; omega

/-- Erasing loses nothing for any type of key, and a number that is recovered is the one written. -/
theorem erased_exactly :
    (Lossless Int32 ∧ Lossless Int64 ∧ Lossless UInt64 ∧ Lossless String ∧ Lossless Uuid) ∧
      (Exact Int32 Int32.toInt IsInt ∧ Exact Int64 Int64.toInt IsInt ∧
        Exact UInt64 (fun key => key.toNat) fun _ => True) ∧
      ∀ key : UInt64, (erase key).IsInt ↔ key.toNat < 2 ^ 63 :=
  ⟨⟨lossless _, lossless _, lossless _, lossless _, lossless _⟩,
    ⟨exact_int32, exact_int64, exact_uint64⟩, isInt_erase_uint64_iff⟩

end Key

end OptimisticStore
