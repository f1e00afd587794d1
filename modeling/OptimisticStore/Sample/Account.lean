import OptimisticStore.Family
import OptimisticStore.Json.Value
import OptimisticStore.Key.Typed
/-!
Accounts: versioned records with a unique email and stamps of creation and update.
-/
namespace OptimisticStore

structure Account where
  id : Option Int64 := none
  version : Int := 0
  owner : String
  email : String
  balance : Int := 0
  createdAt : Option Timestamp := none
  updatedAt : Option Timestamp := none
deriving DecidableEq, Inhabited

namespace Account

def defaultEmail (owner : String) : String := owner ++ "@example.com"

def fresh (owner : String) (balance : Int) : Account :=
  { owner, email := defaultEmail owner, balance }

def family : Family Int64 Account where
  kind := "account"
  key account := account.id
  withKey key account := { account with id := some key }
  version account := some account.version
  withVersion version account := { account with version }
  markCreated moment account := { account with createdAt := some moment }
  markUpdated moment account := { account with updatedAt := some moment }
  uniqueFields account := [⟨"email", account.email⟩]

theorem family_lawful : family.Lawful := by constructor <;> intros <;> rfl

def momentJson (moment : Option Timestamp) : Json :=
  .ofOption (fun moment => .string moment.text) moment

def toJson (account : Account) : Json :=
  .object [
    ("id", .ofOption (fun id => .integer id.toInt) account.id),
    ("version", .integer account.version),
    ("owner", .string account.owner),
    ("email", .string account.email),
    ("balance", .integer account.balance),
    ("created_at", momentJson account.createdAt),
    ("updated_at", momentJson account.updatedAt)]

end Account

end OptimisticStore
