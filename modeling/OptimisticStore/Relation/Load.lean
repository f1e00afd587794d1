import OptimisticStore.Relation.Walk
import OptimisticStore.Settings.Basic
/-!
Loading a graph in passes.

Each pass collects what the graph waits for, fetches it in one batch per target and fills it in, so a
pass reaches one reference further. Loading ends when nothing is waited for, when a pass fills
nothing, or at the cap on passes, which alone ends the loading of a graph that leads back into itself.
A pass that fails leaves the graph as it was before that pass.
-/
namespace OptimisticStore

structure LoadReport where
  passes : Nat := 0
  /-- Distinct pairs of target and key asked for, summed over the passes. -/
  requested : Nat := 0
  loaded : Nat := 0
  /-- Whether loading stopped at the cap with references still waiting. -/
  capped : Bool := false
deriving DecidableEq, Inhabited

structure Loading where
  root : Node
  registry : Registry := {}
deriving DecidableEq

namespace LoadReport

def addPass (report : LoadReport) (requested loaded : Nat) : LoadReport :=
  { report with
    passes := report.passes + 1
    requested := report.requested + requested
    loaded := report.loaded + loaded }

end LoadReport

namespace Walker

/-- Look at the graph: whatever the registry held is forgotten, and what the graph waits for is added. -/
def look (walker : Walker) (loading : Loading) : Loading :=
  let registry := (loading.root.waiting walker).foldl
    (fun registry pair => registry.add pair.1 pair.2) loading.registry.clear
  { loading with registry }

def loadPasses (walker : Walker) (loaders : Loaders) :
    Nat → Node → LoadReport → Task batchCalls (Except Error LoadReport × Loading)
  | 0, root, report => do
    let registry := walker.frontier root
    return (.ok { report with capped := !registry.isEmpty }, ⟨root, registry⟩)
  | passes + 1, root, report => do
    let registry := walker.frontier root
    if registry.isEmpty then return (.ok report, ⟨root, registry⟩)
    match ← registry.resolve loaders with
    | .error cause => return (.error cause, ⟨root, registry⟩)
    | .ok resolved =>
      let (filled, count) := walker.inject resolved root
      let report := report.addPass registry.size count
      if count = 0 then return (.ok report, ⟨filled, registry⟩)
      else walker.loadPasses loaders passes filled report

def load (walker : Walker) (loaders : Loaders) (cap : Nat) (root : Node) :
    Task batchCalls (Except Error LoadReport × Loading) :=
  walker.loadPasses loaders cap root {}

end Walker

def Settings.loadCap? (settings : Settings) : Except SettingsError Nat := do
  settings.validate
  return settings.maxLoadIterations.toNat

end OptimisticStore
