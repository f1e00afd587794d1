import OptimisticStore.Cache.Cluster
import OptimisticStore.Journal.Change
import OptimisticStore.Model.Call
import OptimisticStore.Store.Faulty
import OptimisticStore.Time.Clock
/-!
All the state that the programs of one family share, and how it serves one call.

Each call is an atomic step of the world (`World.serve`). Running a program alone is serving its
calls one after another; a schedule of several programs serves calls of different programs in turn.
-/
namespace OptimisticStore

structure World (K E : Type) [Key K] where
  store : FaultyStore K E := {}
  nodes : Cluster K E := [{}]
  clock : Clock := {}
  locks : LockTable := {}
  journal : Journal E := {}
  /-- Every change posted so far, in order, which is what a channel to subscribers is handed. -/
  posted : List (Change E) := []
  /-- Writers that can be stopped have been told to stop. -/
  stopping : Bool := false

/-- How one user of the world is connected to it, and the functions it brings. -/
structure Client (K E : Type) where
  placement : Placement := { home := 0 }
  stoppable : Bool := false
  posting : Bool := true
  /-- The wall clock's reading when the given number of stamps has been drawn. -/
  reading : Nat → Int
  mutate : E → E × Mutation
  create : K → E

namespace World

variable {K E : Type} [Key K] (family : Family K E)

instance : Inhabited (World K E) := ⟨{}⟩

def post (world : World K E) (change : Change E) : World K E :=
  { world with
    journal := world.journal.post change
    posted := world.posted ++ [change] }

/-- Serve one call of a client. A lock request that would have to wait is refused. -/
def serve [DecidableEq E] (client : Client K E) (call : Call K E) :
    StateM (World K E) call.Answer := fun world =>
  match call with
  | .store call =>
    let (answer, store) := world.store.serve family call
    (answer, { world with store })
  | .cache call =>
    let (answer, nodes) := (Cluster.serve client.placement call).run world.nodes
    (answer, { world with nodes })
  | .lock names =>
    let (answer, locks) := world.locks.lock names
    (answer, { world with locks })
  | .unlock guard => ((), { world with locks := world.locks.release guard })
  | .tick =>
    let (stamp, clock) := world.clock.tick (client.reading world.clock.drawn)
    (stamp, { world with clock })
  | .stopped => (client.stoppable && world.stopping, world)
  | .pause => (!(client.stoppable && world.stopping), world)
  | .mutate entity => (client.mutate entity, world)
  | .create key => (client.create key, world)
  | .post change => ((), if client.posting then world.post change else world)

def run [DecidableEq E] (client : Client K E) {α : Type} (program : Program K E α) :
    StateM (World K E) α :=
  Task.run (V := calls K E) (serve family client) program

end World

end OptimisticStore
