import OptimisticStore.Error
import OptimisticStore.Time.Duration
/-!
The settings of a model and what makes them valid.
-/
namespace OptimisticStore

structure Settings where
  maxIterations : UInt32 := 20
  /-- Upper bound of the random pause after a conflict. -/
  maxBackoff : Duration := .ofMillis 100
  maxLoadIterations : UInt64 := 5
  /-- Make a single attempt inside a transaction that someone else manages, instead of none. -/
  allowAmbientTransaction : Bool := false
deriving DecidableEq, Inhabited

namespace Settings

def nonzero (field : String) (count : Nat) : Except SettingsError Unit :=
  if count = 0 then
    .error (.invalidValue field (toString count) s!"{field} must be greater than 0")
  else .ok ()

def validate (settings : Settings) : Except SettingsError Unit := do
  nonzero "max_iterations" settings.maxIterations.toNat
  nonzero "max_load_iterations" settings.maxLoadIterations.toNat

end Settings

end OptimisticStore
