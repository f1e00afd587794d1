import OptimisticStore.Key.Typed
/-!
Keys erased to relation keys, and relation keys recovered as keys.

Main statements: what a key is erased to is recovered as that key (`LawfulKey`), for every type of key,
and no other relation key is recovered as it (`ExactKey`), for every type but the unsigned numbers. Those
are read from texts too, though only the large ones are erased to a text (`not_exactKey_uint64`).
-/
namespace OptimisticStore

class LawfulKey (K : Type) [Key K] : Prop where
  recover_erase : ∀ key : K, Key.recover (Key.erase key) = some key

/-- A relation key is recovered as the key that is erased to it, or not at all. -/
class ExactKey (K : Type) [Key K] : Prop where
  erase_of_recover : ∀ {relation : RelationKey} {key : K},
    Key.recover relation = some key → Key.erase key = relation

theorem Key.erase_injective {K : Type} [Key K] [LawfulKey K] {key other : K}
    (same : Key.erase key = Key.erase other) : key = other := by
  have recovered := LawfulKey.recover_erase key
  rw [same, LawfulKey.recover_erase] at recovered
  exact (Option.some.inj recovered).symm

section Numbers

instance : LawfulKey Int64 := ⟨fun _ => rfl⟩

instance : ExactKey Int64 where
  erase_of_recover {relation key} recovered := by
    cases relation with
    | int value => rw [Option.some.inj recovered]; rfl
    | text | uuid => cases recovered

instance : LawfulKey Int32 where
  recover_erase key := by
    have lower := key.le_toInt
    have upper := key.toInt_lt
    have wide : (Int64.ofInt key.toInt).toInt = key.toInt :=
      Int64.toInt_ofInt_of_le (by omega) (by omega)
    simp only [Key.recover, Key.erase, wide]
    have within : Int32.minValue.toInt ≤ key.toInt ∧ key.toInt ≤ Int32.maxValue.toInt := by
      have least : Int32.minValue.toInt = -2 ^ 31 := by decide
      have greatest : Int32.maxValue.toInt = 2 ^ 31 - 1 := by decide
      omega
    rw [if_pos within, Int32.ofInt_toInt]

instance : ExactKey Int32 where
  erase_of_recover {relation key} recovered := by
    cases relation with
    | int value =>
      simp only [Key.recover] at recovered
      split at recovered
      next within =>
        have least : Int32.minValue.toInt = -2 ^ 31 := by decide
        have greatest : Int32.maxValue.toInt = 2 ^ 31 - 1 := by decide
        obtain rfl := Option.some.inj recovered
        change RelationKey.int (Int64.ofInt (Int32.ofInt value.toInt).toInt) = .int value
        rw [Int32.toInt_ofInt_of_le (by omega) (by omega), Int64.ofInt_toInt]
      next => cases recovered
    | text | uuid => cases recovered

theorem readUnsigned_toString (n : Nat) : Text.readUnsigned (toString n) = some n := by
  have digits : (toString n).toList = Nat.toDigits 10 n := by
    rw [Nat.toString_eq_ofList_toDigits, String.toList_ofList]
  have value := Text.digitsValue_toDigits n
  unfold Text.readUnsigned
  rw [digits]
  split
  next rest shape =>
    have digit : '+'.isDigit = true :=
      Nat.isDigit_of_mem_toDigits (by decide) (by decide) (shape ▸ List.mem_cons_self)
    cases digit
  next => exact value

instance : LawfulKey UInt64 where
  recover_erase key := by
    have greatest : Int64.maxValue.toInt = 2 ^ 63 - 1 := by decide
    simp only [Key.erase]
    split
    next small =>
      have signed : (Int64.ofNat key.toNat).toInt = key.toNat :=
        Int64.toInt_ofNat_of_lt (by omega)
      simp only [Key.recover, signed]
      rw [if_pos (by omega), Int.toNat_natCast, UInt64.ofNat_toNat]
    next large =>
      have below : key.toNat < UInt64.size := key.toNat_lt
      have read : Text.readBelow UInt64.size (toString key.toNat) = some key.toNat := by
        unfold Text.readBelow
        rw [readUnsigned_toString]
        simp [below]
      simp only [Key.recover, read, Option.map_some, UInt64.ofNat_toNat]

theorem not_exactKey_uint64 : ¬ ExactKey UInt64 := by
  intro exact
  have same : Key.erase (5 : UInt64) = .text "5" := exact.erase_of_recover (by decide +kernel)
  cases same

end Numbers

instance : LawfulKey String := ⟨fun _ => rfl⟩

instance : ExactKey String where
  erase_of_recover {relation key} recovered := by
    cases relation with
    | text value => rw [Option.some.inj recovered]; rfl
    | int | uuid => cases recovered

instance : LawfulKey Uuid := ⟨fun _ => rfl⟩

instance : ExactKey Uuid where
  erase_of_recover {relation key} recovered := by
    cases relation with
    | uuid value => rw [Option.some.inj recovered]; rfl
    | int | text => cases recovered

instance : LawfulKey ChosenKey := ⟨fun _ => rfl⟩

instance : ExactKey ChosenKey where
  erase_of_recover {relation key} recovered := by
    cases relation with
    | text value => rw [← Option.some.inj recovered]; rfl
    | int | uuid => cases recovered

end OptimisticStore
