import OptimisticStore.Cache.Cluster
import OptimisticStore.Cache.Node
import OptimisticStore.Constraint
import OptimisticStore.Error
import OptimisticStore.Family
import OptimisticStore.Journal.Change
import OptimisticStore.Journal.Channel
import OptimisticStore.Journal.Stored
import OptimisticStore.Json.Printer
import OptimisticStore.Json.Ranked
import OptimisticStore.Json.Reader
import OptimisticStore.Json.Value
import OptimisticStore.Key.Relation
import OptimisticStore.Key.Stored
import OptimisticStore.Key.Typed
import OptimisticStore.Key.Uuid
import OptimisticStore.Lock.Table
import OptimisticStore.Model.CacheLoader
import OptimisticStore.Model.Call
import OptimisticStore.Model.Outcome
import OptimisticStore.Model.ReadThrough
import OptimisticStore.Model.Report
import OptimisticStore.Model.Retry
import OptimisticStore.Model.Uniqueness
import OptimisticStore.Model.World
import OptimisticStore.Model.Write
import OptimisticStore.Ordered.Map
import OptimisticStore.Ordered.Set
import OptimisticStore.Relation.Expand
import OptimisticStore.Relation.Load
import OptimisticStore.Relation.Node
import OptimisticStore.Relation.Registry
import OptimisticStore.Relation.Schema
import OptimisticStore.Relation.Stored
import OptimisticStore.Relation.TableLoader
import OptimisticStore.Relation.Walk
import OptimisticStore.Sample.Account
import OptimisticStore.Sample.Blog
import OptimisticStore.Sample.Record
import OptimisticStore.Sample.Site
import OptimisticStore.Sample.Stored
import OptimisticStore.Settings.Basic
import OptimisticStore.Settings.Document
import OptimisticStore.Settings.Environment
import OptimisticStore.Settings.Stored
import OptimisticStore.Store.Basic
import OptimisticStore.Store.Faulty
import OptimisticStore.Store.Table
import OptimisticStore.Task
import OptimisticStore.Text.Combining
import OptimisticStore.Text.Invisible
import OptimisticStore.Text.Numeral
import OptimisticStore.Text.Quoted
import OptimisticStore.Text.Reader
import OptimisticStore.Time.Clock
import OptimisticStore.Time.Duration
import OptimisticStore.Time.Timestamp
import OptimisticStore.Toml.Document
import OptimisticStore.Toml.Moment
import OptimisticStore.Toml.Scalar
import OptimisticStore.Toml.Value
import OptimisticStore.Proofs.Interleaving
import OptimisticStore.Proofs.Ordered.Set
import OptimisticStore.Proofs.Store.History
import OptimisticStore.Proofs.Writing.Moves
import OptimisticStore.Proofs.Serving
import OptimisticStore.Proofs.Writing.Grounds
import OptimisticStore.Proofs.Writing.Alone
import OptimisticStore.Proofs.Writing.Serial
import OptimisticStore.Proofs.Lock.Table
import OptimisticStore.Proofs.Writing.Locking
import OptimisticStore.Proofs.Lock.Clients
import OptimisticStore.Proofs.Writing.UniqueValues
import OptimisticStore.Proofs.Cache.Node
import OptimisticStore.Proofs.Cache.Mesh
import OptimisticStore.Proofs.Cache.Hands
import OptimisticStore.Proofs.Cache.Coherence
import OptimisticStore.Proofs.Cache.Removal
import OptimisticStore.Proofs.Relation.Expand
import OptimisticStore.Proofs.Relation.Registry
import OptimisticStore.Proofs.Relation.Walk
import OptimisticStore.Proofs.Relation.Load
import OptimisticStore.Proofs.Relation.TableLoader
import OptimisticStore.Proofs.Store.Runs
import OptimisticStore.Proofs.Store.Snapshots
import OptimisticStore.Proofs.Store.Versions
import OptimisticStore.Proofs.Journal.Replay
import OptimisticStore.Proofs.Running
import OptimisticStore.Proofs.Writing.Journal
import OptimisticStore.Proofs.Writing.Stamps
import OptimisticStore.Proofs.Writing.Unreported
import OptimisticStore.Proofs.Store.Acceptance
import OptimisticStore.Proofs.Watching
import OptimisticStore.Proofs.Writing.Commits
import OptimisticStore.Proofs.Writing.Attempts
import OptimisticStore.Proofs.Writing.Restamped
import OptimisticStore.Proofs.Writing.Retries
import OptimisticStore.Proofs.Cache.Reads
import OptimisticStore.Proofs.Cache.Refetches
import OptimisticStore.Proofs.Cache.Counters
import OptimisticStore.Proofs.Writing.Unchanged
import OptimisticStore.Proofs.Writing.Confined
import OptimisticStore.Proofs.Writing.Uncached
import OptimisticStore.Proofs.Key.Typed
import OptimisticStore.Proofs.Relation.CacheLoader
import OptimisticStore.Proofs.Relation.Reach
import OptimisticStore.Proofs.Relation.Development
import OptimisticStore.Proofs.Relation.Report
import OptimisticStore.Proofs.Constraint.Split
import OptimisticStore.Proofs.Constraint.Blame
import OptimisticStore.Proofs.Writing.Verdicts
import OptimisticStore.Proofs.Writing.Rounds
import OptimisticStore.Proofs.Relation.Slots
import OptimisticStore.Proofs.Relation.Errands
import OptimisticStore.Proofs.Relation.Filling
import OptimisticStore.Proofs.Relation.Passes
import OptimisticStore.Proofs.Time.Contention
import OptimisticStore.Proofs.Store.Sequence
import OptimisticStore.Proofs.Key.Written
import OptimisticStore.Proofs.Settings.Stored
import OptimisticStore.Proofs.Settings.Document
import OptimisticStore.Proofs.Writing.Marks
import OptimisticStore.Proofs.Writing.Almanac
