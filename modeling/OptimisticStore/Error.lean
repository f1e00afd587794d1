import OptimisticStore.Text.Quoted
/-!
What can go wrong, one type per part of the library and `Error` for all of them together.

Every cause has one wording, given by `message`. A store error is worth another attempt when it shows
that a concurrent writer came first: `StoreError.isRetryable`.
-/
namespace OptimisticStore

inductive StoreError where
  | uniqueViolation (kind field : String) (primaryKey : Bool)
  | concurrentModification (kind key : String)
  | backend (reason : String)
  | poisoned
deriving DecidableEq

inductive UpdateError where
  | notFound (kind key : String)
  | exhausted (kind key : String) (attempts : Nat)
  | ambientTransaction (kind : String)
  | interrupted (kind key : String)
deriving DecidableEq

inductive LockError where
  | acquisitionFailed (names : List String) (reason : String)
  | poisoned
deriving DecidableEq

inductive LoadError where
  | missingLoader (target : String)
  | loaderFailed (target reason : String)
deriving DecidableEq

inductive SettingsError where
  | missingRequired (field : String)
  | invalidValue (field value reason : String)
  | unreadable (reason : String)
deriving DecidableEq

inductive Error where
  | store (cause : StoreError)
  | update (cause : UpdateError)
  | lock (cause : LockError)
  | load (cause : LoadError)
  | settings (cause : SettingsError)
deriving DecidableEq

def StoreError.message : StoreError → String
  | .uniqueViolation kind field primaryKey =>
    s!"Unique constraint violated on {kind}.{field} (primary key: {primaryKey})"
  | .concurrentModification kind key => s!"Concurrent modification of {kind} with key {key}"
  | .backend reason => s!"Store backend failure: {reason}"
  | .poisoned => "Storage lock poisoned"

/-- A stale version, or a primary key taken meanwhile: a fresh attempt may succeed. -/
def StoreError.isRetryable : StoreError → Bool
  | .concurrentModification .. => true
  | .uniqueViolation _ _ primaryKey => primaryKey
  | _ => false

def UpdateError.message : UpdateError → String
  | .notFound kind key => s!"Entity not found: {kind} with key {key}"
  | .exhausted kind key attempts =>
    s!"Optimistic update of {kind} with key {key} failed after {attempts} attempts"
  | .ambientTransaction kind =>
    s!"Optimistic update of {kind} attempted inside an externally managed transaction"
  | .interrupted kind key => s!"Optimistic update of {kind} with key {key} was interrupted"

def LockError.message : LockError → String
  | .acquisitionFailed names reason =>
    s!"Lock acquisition failed for {Text.quoteList names}: {reason}"
  | .poisoned => "Lock table poisoned"

def LoadError.message : LoadError → String
  | .missingLoader target => s!"No loader registered for relation target {target}"
  | .loaderFailed target reason => s!"Loader for {target} failed: {reason}"

def SettingsError.message : SettingsError → String
  | .missingRequired field => s!"Missing required configuration field: {field}"
  | .invalidValue field value reason => s!"Invalid value for {field}: {value} - {reason}"
  | .unreadable reason => s!"Failed to parse configuration: {reason}"

def Error.message : Error → String
  | .store cause => "Store error: " ++ cause.message
  | .update cause => "Update error: " ++ cause.message
  | .lock cause => "Lock error: " ++ cause.message
  | .load cause => "Load error: " ++ cause.message
  | .settings cause => "Config error: " ++ cause.message

def Error.innerMessage : Error → String
  | .store cause => cause.message
  | .update cause => cause.message
  | .lock cause => cause.message
  | .load cause => cause.message
  | .settings cause => cause.message

def Error.isRetryable : Error → Bool
  | .store cause => cause.isRetryable
  | _ => false

end OptimisticStore
