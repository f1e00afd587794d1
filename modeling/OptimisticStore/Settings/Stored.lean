import OptimisticStore.Json.Reader
import OptimisticStore.Settings.Basic
/-!
Settings as they are stored: an object with one member per setting, the pause bound in whole
milliseconds. An array of the four values in the order of the members is read as well.
-/
namespace OptimisticStore.Settings

def fieldNames : List String :=
  ["max_iterations", "max_backoff", "max_load_iterations", "allow_ambient_transaction"]

/-- The pause bound in milliseconds, no more than 64 bits hold. -/
def storedBackoff (settings : Settings) : Nat := min settings.maxBackoff.millis (UInt64.size - 1)

def toJson (settings : Settings) : Json :=
  .object (fieldNames.zip [
    .integer settings.maxIterations.toNat,
    .integer settings.storedBackoff,
    .integer settings.maxLoadIterations.toNat,
    .boolean settings.allowAmbientTransaction])

def ofValues? (iterations backoff loadIterations ambient : Json) : Option Settings := do
  return {
    maxIterations := UInt32.ofNat (← iterations.below? UInt32.size)
    maxBackoff := .ofMillis (← backoff.below? UInt64.size)
    maxLoadIterations := UInt64.ofNat (← loadIterations.below? UInt64.size)
    allowAmbientTransaction := ← ambient.boolean? }

def ofJson? : Json → Option Settings
  | .array [iterations, backoff, loadIterations, ambient] =>
    ofValues? iterations backoff loadIterations ambient
  | .object members => do
    if members.length = fieldNames.length then
      ofValues? (← members.lookup "max_iterations") (← members.lookup "max_backoff")
        (← members.lookup "max_load_iterations") (← members.lookup "allow_ambient_transaction")
    else none
  | _ => none

end OptimisticStore.Settings
