import OptimisticStore.Model.Call
import OptimisticStore.Settings.Basic
/-!
Trying an operation again when a concurrent writer came first.

Attempts follow each other with a random pause until one ends otherwise than in such a conflict, or
the budget is used up. Inside a transaction that someone else manages there is at most one attempt,
and only if that is allowed. An operation told to stop does not start another attempt.
-/
namespace OptimisticStore

structure RetryPolicy where
  maxIterations : Nat := 20
  maxBackoff : Duration := .ofMillis 100
  allowAmbientTransaction : Bool := false
deriving DecidableEq, Inhabited

namespace RetryPolicy

def ofSettings (settings : Settings) : RetryPolicy :=
  { maxIterations := settings.maxIterations.toNat
    maxBackoff := settings.maxBackoff
    allowAmbientTransaction := settings.allowAmbientTransaction }

def atLeastOnce (policy : RetryPolicy) : RetryPolicy :=
  { policy with maxIterations := max policy.maxIterations 1 }

def ofSettings? (settings : Settings) : Except SettingsError RetryPolicy := do
  settings.validate
  return (ofSettings settings).atLeastOnce

/-- The pause drawn from a random number: whole milliseconds below the bound, none if the bound is
below one. -/
def pauseLength (maxBackoff : Duration) (random : Nat) : Duration :=
  if maxBackoff.millis = 0 then .zero else .ofMillis (random % maxBackoff.millis)

end RetryPolicy

namespace Program

variable {K E : Type} [Key K]

def attempts (kind label : String) (ambient : Bool) (budget : Nat) {α : Type}
    (attempt : Program K E (Except Error α)) : Nat → Program K E (Except Error α)
  | 0 => return .error (.update (.exhausted kind label budget))
  | left + 1 => do
    if ← stopped then return .error (.update (.interrupted kind label))
    let result ← attempt
    match result with
    | .ok value => return .ok value
    | .error cause =>
      if !cause.isRetryable || ambient then return .error cause
      if left = 0 then return .error (.update (.exhausted kind label budget))
      if ← pause then attempts kind label ambient budget attempt left
      else return .error (.update (.interrupted kind label))

def retrying (kind : String) (policy : RetryPolicy) (label : String) {α : Type}
    (attempt : Program K E (Except Error α)) : Program K E (Except Error α) := do
  let ambient ← inTransaction
  if ambient && !policy.allowAmbientTransaction then
    return .error (.update (.ambientTransaction kind))
  let budget := if ambient then 1 else policy.maxIterations
  attempts kind label ambient budget attempt budget

end Program

end OptimisticStore
