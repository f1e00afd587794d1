import OptimisticStore.Settings.Stored
import OptimisticStore.Toml.Value
/-!
Settings from a TOML document.

The document is read by whoever can read TOML. It must set every setting and nothing else. Faults are
reported in a fixed order: a document that is no TOML, the first missing setting, a value of the wrong type
or range or an unknown name, and last a count of zero.
-/
namespace OptimisticStore.Settings

def valueOf {α : Type} (table : Toml.Table) (field expected : String) (read : Toml.Value → Option α) :
    Except SettingsError α :=
  match (table.get? field).bind read with
  | some value => .ok value
  | none => .error (.unreadable s!"{field} is not {expected}")

def integerBelow (bound : Nat) : Toml.Value → Option Nat
  | .integer value =>
    if 0 ≤ value.toInt ∧ value.toInt < bound then some value.toInt.toNat else none
  | _ => none

def truth : Toml.Value → Option Bool
  | .boolean value => some value
  | _ => none

def unknownField? (table : Toml.Table) : Option String :=
  (table.map Prod.fst).find? fun name => !fieldNames.contains name

def missingField? (table : Toml.Table) : Option String :=
  fieldNames.find? fun name => !table.contains name

def ofCompleteTable (table : Toml.Table) : Except SettingsError Settings := do
  if let some name := unknownField? table then
    throw (.unreadable s!"unknown field {name}")
  let iterations ← valueOf table "max_iterations" "a 32-bit count" (integerBelow UInt32.size)
  let backoff ← valueOf table "max_backoff" "a count of milliseconds" (integerBelow UInt64.size)
  let loads ← valueOf table "max_load_iterations" "a count" (integerBelow UInt64.size)
  let ambient ← valueOf table "allow_ambient_transaction" "true or false" truth
  return {
    maxIterations := UInt32.ofNat iterations
    maxBackoff := .ofMillis backoff
    maxLoadIterations := UInt64.ofNat loads
    allowAmbientTransaction := ambient }

def ofTable (table : Toml.Table) : Except SettingsError Settings := do
  if let some name := missingField? table then
    throw (.missingRequired name)
  let settings ← ofCompleteTable table
  settings.validate
  return settings

/-- The settings of a document that `parse` makes a table of, or says why it cannot. -/
def ofToml (parse : String → Except String Toml.Table) (document : String) :
    Except SettingsError Settings :=
  match parse document with
  | .error reason => .error (.unreadable reason)
  | .ok table => ofTable table

end OptimisticStore.Settings
