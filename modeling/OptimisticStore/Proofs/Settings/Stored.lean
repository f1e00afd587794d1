import OptimisticStore.Settings.Stored
/-!
Settings read back from their stored form.

The pause bound is stored in milliseconds and made again of seconds and nanoseconds. Main statement:
`restored_exactly`, by which nothing else is lost but its digits below the millisecond and what 64 bits
do not hold.
-/
namespace OptimisticStore

namespace Duration

theorem millis_eq (d : Duration) : d.millis = d.seconds * 1000 + d.subsecond / 1000000 := by
  unfold millis seconds subsecond
  omega

theorem ofMillis_eq (n : Nat) : ofMillis n = ofParts (n / 1000) (n % 1000 * 1000000) := by
  unfold ofMillis ofParts
  rw [Duration.mk.injEq]
  omega

end Duration

namespace Settings

def wholeMillis (settings : Settings) : Nat :=
  min (settings.maxBackoff.seconds * 1000 + settings.maxBackoff.subsecond / 1000000) (UInt64.size - 1)

def rounded (settings : Settings) : Settings :=
  { settings with
    maxBackoff := .ofParts (settings.wholeMillis / 1000) (settings.wholeMillis % 1000 * 1000000) }

theorem storedBackoff_eq (settings : Settings) : settings.storedBackoff = settings.wholeMillis := by
  rw [storedBackoff, wholeMillis, Duration.millis_eq]

theorem rounded_eq (settings : Settings) :
    settings.rounded = { settings with maxBackoff := .ofMillis settings.storedBackoff } := by
  rw [rounded, storedBackoff_eq, Duration.ofMillis_eq]

theorem storedBackoff_lt (settings : Settings) : settings.storedBackoff < UInt64.size := by
  have size : UInt64.size = 2 ^ 64 := rfl
  unfold storedBackoff
  omega

theorem below?_integer {n bound : Nat} (small : n < bound) :
    (Json.integer n).below? bound = some n := by
  simp [Json.below?, Json.integer?, small]

theorem ofJson?_members (iterations backoff loads ambient : Json) :
    ofJson? (.object (fieldNames.zip [iterations, backoff, loads, ambient])) =
      ofValues? iterations backoff loads ambient := rfl

theorem ofJson?_toJson (settings : Settings) : ofJson? settings.toJson = some settings.rounded := by
  have iterations : settings.maxIterations.toNat < UInt32.size := settings.maxIterations.toNat_lt
  have loads : settings.maxLoadIterations.toNat < UInt64.size := settings.maxLoadIterations.toNat_lt
  rw [toJson, ofJson?_members, ofValues?, below?_integer iterations,
    below?_integer settings.storedBackoff_lt, below?_integer loads, rounded_eq]
  simp only [Json.boolean?, Option.bind_eq_bind, Option.bind_some, UInt32.ofNat_toNat,
    UInt64.ofNat_toNat]
  rfl

theorem storedBackoff_ofMillis {settings : Settings} {n : Nat} (small : n < UInt64.size)
    (whole : settings.maxBackoff = .ofMillis n) : settings.storedBackoff = n := by
  rw [storedBackoff, whole, Duration.millis_ofMillis]
  omega

theorem rounded_eq_self_iff {settings : Settings} :
    settings.rounded = settings ↔ ∃ n < UInt64.size, settings.maxBackoff = .ofMillis n := by
  rw [rounded_eq]
  constructor
  · intro same
    exact ⟨settings.storedBackoff, settings.storedBackoff_lt, (congrArg maxBackoff same).symm⟩
  · rintro ⟨n, small, whole⟩
    rw [storedBackoff_ofMillis small whole, ← whole]

theorem rounded_rounded (settings : Settings) : settings.rounded.rounded = settings.rounded := by
  apply rounded_eq_self_iff.mpr
  exact ⟨settings.storedBackoff, settings.storedBackoff_lt, congrArg maxBackoff settings.rounded_eq⟩

/-- What is stored is read back as the settings with the pause bound in whole milliseconds. These are the
same settings just if the bound is a number of milliseconds that 64 bits hold, and storing what was read
back changes nothing. -/
theorem restored_exactly (settings : Settings) :
    ofJson? settings.toJson = some settings.rounded ∧
      (ofJson? settings.toJson = some settings ↔
        ∃ n < UInt64.size, settings.maxBackoff = .ofMillis n) ∧
      ofJson? settings.rounded.toJson = some settings.rounded := by
  refine ⟨ofJson?_toJson settings, ?_, ?_⟩
  · rw [ofJson?_toJson, Option.some.injEq, rounded_eq_self_iff]
  · rw [ofJson?_toJson, rounded_rounded]

end Settings

end OptimisticStore
