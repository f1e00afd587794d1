import OptimisticStore.Settings.Basic
import OptimisticStore.Text.Numeral
/-!
Settings from environment variables. A variable that is not set, or cannot be read, leaves its setting
at the default.
-/
namespace OptimisticStore.Settings

def readTruth : String → Option Bool
  | "true" => some true
  | "false" => some false
  | _ => none

def ofEnvironment (application : String) (value? : String → Option String) : Settings :=
  let read {α : Type} (name : String) (reader : String → Option α) (default : α) : α :=
    ((value? (application ++ "_" ++ name)).bind reader).getD default
  let defaults : Settings := {}
  { maxIterations := read "MAX_ITERATIONS"
      (fun text => (Text.readBelow UInt32.size text).map UInt32.ofNat) defaults.maxIterations
    maxBackoff := read "MAX_BACKOFF_MS"
      (fun text => (Text.readBelow UInt64.size text).map Duration.ofMillis) defaults.maxBackoff
    maxLoadIterations := read "MAX_LOAD_ITERATIONS"
      (fun text => (Text.readBelow UInt64.size text).map UInt64.ofNat) defaults.maxLoadIterations
    allowAmbientTransaction :=
      read "ALLOW_AMBIENT_TRANSACTION" readTruth defaults.allowAmbientTransaction }

end OptimisticStore.Settings
