import OptimisticStore.Cache.Node
import OptimisticStore.Journal.Change
import OptimisticStore.Json.Value
import OptimisticStore.Model.Outcome
import OptimisticStore.Model.Retry
import OptimisticStore.Store.Basic
/-!
What the library reports of itself, as JSON: lengths of time, policies, counts, changes and outcomes.

Keys and records are written by the functions `key` and `row`.
-/
namespace OptimisticStore

def Duration.toJson (d : Duration) : Json :=
  .object [("secs", .integer d.seconds), ("nanos", .integer d.subsecond)]

def RetryPolicy.toJson (policy : RetryPolicy) : Json :=
  .object [
    ("max_iterations", .integer policy.maxIterations),
    ("max_backoff", policy.maxBackoff.toJson),
    ("allow_ambient_transaction", .boolean policy.allowAmbientTransaction)]

def CacheStats.toJson (stats : CacheStats) : Json :=
  .array ([stats.hits, stats.misses, stats.negativeHits, stats.entryCount, stats.removals].map
    fun (count : Nat) => .integer count)

def CallCounts.toJson {K : Type} (counts : CallCounts K) : Json :=
  .array ([counts.fetch, counts.fetchMany, counts.insert, counts.merge, counts.delete,
    counts.findUnique].map fun (count : Nat) => .integer count)

variable {K E : Type} (family : Family K E) (key : K → Json) (row : E → Json)

def Slot.toJson : Slot E → Json
  | .absent => .string "absent"
  | .present entity => .object [("present", row entity)]

def Merged.toJson (merged : Merged E) : Json :=
  .object [("entity", row merged.entity), ("changed", .boolean merged.changed)]

def Change.report (change : Change E) : Json :=
  .object [
    ("kind", .string change.kind),
    ("change", .string change.change.word),
    ("before", .ofOption row change.before),
    ("after", .ofOption row change.after),
    ("ts", .integer change.timestamp),
    ("key", .ofOption key (change.key family))]

def Outcome.report (outcome : Outcome E) : Json :=
  .object [
    ("kind", .string outcome.kind),
    ("before", .ofOption row outcome.before),
    ("after", .ofOption row outcome.after),
    ("updated", .boolean outcome.updated),
    ("inserted", .boolean outcome.inserted),
    ("deleted", .boolean outcome.deleted),
    ("canceled", .boolean outcome.canceled),
    ("ts", .integer outcome.timestamp),
    ("key", .ofOption key (outcome.key family)),
    ("change", .ofOption (fun change => .string change.word) outcome.change?)]

end OptimisticStore
