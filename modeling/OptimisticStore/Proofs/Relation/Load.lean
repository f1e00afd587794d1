import OptimisticStore.Proofs.Relation.TableLoader
import OptimisticStore.Proofs.Relation.Walk
import OptimisticStore.Relation.Load
import OptimisticStore.Sample.Blog
/-!
Loading a graph in passes brings about its expansion.

A pass with answers from fixed tables expands the graph by one step, so the rest of the passes only has to
expand what it leaves. Main statement: `Walker.load_eq_expand`.
-/
namespace OptimisticStore.Walker

variable {S : Type} {tables : Tables} {loaders : Loaders} {good : S → Prop}
  {serve : (batch : batchCalls.Call) → StateM S (batchCalls.Answer batch)} {walker : Walker}

theorem run_pass {passes : Nat} {root : Node} {report : LoadReport} {state last : S} {resolved : Resolved}
    (busy : (walker.frontier root).isEmpty = false)
    (run : (((walker.frontier root).resolve loaders).run serve).run state = (.ok resolved, last)) :
    ((walker.loadPasses loaders (passes + 1) root report).run serve).run state =
      let (filled, count) := walker.inject resolved root
      let report := report.addPass (walker.frontier root).size count
      if count = 0 then ((.ok report, ⟨filled, walker.frontier root⟩), last)
      else ((walker.loadPasses loaders passes filled report).run serve).run last := by
  rw [loadPasses]
  simp only [busy, Bool.false_eq_true, if_false]
  rw [Task.run_bind, StateT.run_bind, run]
  change ((ite _ _ _ : Task batchCalls (Except Error LoadReport × Loading)).run serve).run last = _
  split
  · rfl
  · rfl

theorem loadPasses_eq_expand (once : ∀ schema ∈ walker.schemas, schema.DeclaresOnce)
    (fixed : loaders.AnswerFrom tables good serve) {passes : Nat} {root : Node} {report : LoadReport}
    {state : S} (start : good state)
    (known : ∀ depth < passes, ∀ pair ∈ (root.expand tables walker depth).waiting walker,
      pair.1 ∈ loaders.targets) :
    ∃ report' registry last, ((walker.loadPasses loaders passes root report).run serve).run state =
      ((.ok report', ⟨root.expand tables walker passes, registry⟩), last) := by
  induction passes generalizing root report state with
  | zero =>
    rw [Node.expand_zero]
    exact ⟨_, _, state, rfl⟩
  | succ passes ih =>
    cases idle : (walker.frontier root).isEmpty with
    | true =>
      rw [Node.expand_of_idle _ (Registry.eq_nil_of_isEmpty idle)]
      refine ⟨report, walker.frontier root, state, ?_⟩
      rw [loadPasses]
      simp only [idle, if_true]
      rfl
    | false =>
      have first := known 0 (Nat.zero_lt_succ _)
      rw [Node.expand_zero] at first
      obtain ⟨resolved, last, run, fine, answered⟩ := Registry.resolve_spec fixed first start
      obtain ⟨same, finished⟩ := inject_spec once answered
      rw [run_pass idle run]
      dsimp only
      rw [same]
      split
      next none =>
        rw [← Node.expand_step, Node.expand_of_idle _ (finished none)]
        exact ⟨_, _, last, rfl⟩
      next =>
        rw [← Node.expand_step]
        apply ih fine
        intro depth less
        rw [Node.expand_step]
        exact known (depth + 1) (by omega)

/-- Loading with answers from fixed tables succeeds, and leaves the expansion of the graph. -/
theorem load_eq_expand (once : ∀ schema ∈ walker.schemas, schema.DeclaresOnce)
    (fixed : loaders.AnswerFrom tables good serve) {cap : Nat} {root : Node} {state : S}
    (start : good state)
    (known : ∀ depth < cap, ∀ pair ∈ (root.expand tables walker depth).waiting walker,
      pair.1 ∈ loaders.targets) :
    ∃ report registry last, ((walker.load loaders cap root).run serve).run state =
      ((.ok report, ⟨root.expand tables walker cap, registry⟩), last) :=
  loadPasses_eq_expand once fixed start known

section Circles

def circle : LoaderBench :=
  (({} : LoaderBench).register {
    target := "author"
    rows := .ofList [
      (.int 1, Blog.author { id := some 1 } [.pending (.int 10), .pending (.int 11)]
        (.pending (.int 2))),
      (.int 2, Blog.author { id := some 2 } [] (.pending (.int 1)))] }).register {
    target := "post"
    rows := .ofList [
      (.int 10, Blog.post { id := some 10 } (.pending (.int 1))),
      (.int 11, Blog.author { id := some 11 } [] .null)] }

def page : Node := Blog.feed [Blog.post { id := some 12 } (.pending (.int 1))]

def reader : Walker := { schemas := Blog.schemas }

/-- Three passes lead around the circle once, and there is no fourth to lead on. -/
theorem load_eq_expand_circle :
    (∃ report registry last, ((reader.load circle.registered 3 page).run LoaderBench.serve).run circle =
      ((.ok report, ⟨page.expand circle.tables reader 3, registry⟩), last)) ∧
    (page.expand circle.tables reader 3).waiting reader = [
      ("post", .int 10), ("post", .int 11), ("author", .int 2),
      ("post", .int 10), ("post", .int 11), ("author", .int 2)] := by
  have sound : ∀ target loader, circle.loaders.get? target = some loader → loader.failure = none := by
    intro target loader found
    have all : ∀ entry ∈ circle.loaders.entries, entry.2.failure = none := by decide +kernel
    exact all _ (SortedMap.mem_entries_iff.mpr found)
  have known : ∀ depth < 3, ∀ pair ∈ (page.expand circle.tables reader depth).waiting reader,
      circle.registered.targets.contains pair.1 = true := by
    decide +kernel
  constructor
  · refine load_eq_expand (by decide) (LoaderBench.answerFrom sound) (fun _ => rfl) ?_
    intro depth less pair among
    exact SortedSet.contains_iff.mp (known depth less pair among)
  · decide +kernel

end Circles

end OptimisticStore.Walker
