import OptimisticStore.Proofs.Relation.Errands
import OptimisticStore.Relation.Load
import OptimisticStore.Sample.Blog
/-!
The calls of a whole loading, and what a pass that fails leaves of the graph.

Main statement: `Walker.load_course`. Whatever the loaders answer, the graph at the end is the one that the
last pass with answers to all of its calls filled in.
-/
namespace OptimisticStore.Walker

/-- Passes from one graph to another, with the calls of each: it asks for what the graph waits for, and
fills in the answers. -/
inductive Passes (walker : Walker) (loaders : Loaders) : Node → List (List Errand) → Node → Prop where
  | nil (root : Node) : Passes walker loaders root [] root
  | cons {root last : Node} {errands : List Errand} {resolved : Resolved} {rest : List (List Errand)}
      (busy : (walker.frontier root).isEmpty = false)
      (course : (walker.frontier root).Course loaders errands (.ok resolved))
      (onward : Passes walker loaders (walker.inject resolved root).1 rest last) :
      Passes walker loaders root (errands :: rest) last

/-- Loading stops after so many passes with a report of them, or in one more with its error. -/
inductive Stops (walker : Walker) (loaders : Loaders) (cap passes : Nat) (root : Node) :
    List Errand → Except Error LoadReport → Prop where
  | reports {report : LoadReport} (counted : report.passes = passes) :
      Stops walker loaders cap passes root [] (.ok report)
  | fails {errands : List Errand} {cause : Error} (within : passes < cap)
      (course : (walker.frontier root).Course loaders errands (.error cause)) :
      Stops walker loaders cap passes root errands (.error cause)

variable {walker : Walker} {loaders : Loaders} {before after : List Errand}

theorem loadPasses_course {cap : Nat} {root : Node} {start : LoadReport} {made : Nat}
    {result : Except Error LoadReport} {loading : Loading} (counted : start.passes = made)
    (run : (walker.loadPasses loaders cap root start).Runs Errand.Noted before (result, loading) after) :
    ∃ passes last, after = before ++ passes.flatten ++ last ∧
      Passes walker loaders root passes loading.root ∧
      Stops walker loaders (made + cap) (made + passes.length) loading.root last result := by
  induction cap generalizing root start made before with
  | zero =>
    obtain ⟨ended, rfl⟩ := Task.runs_pure.mp run
    cases ended
    exact ⟨[], [], by simp, .nil root, .reports counted⟩
  | succ cap ih =>
    rw [loadPasses] at run
    cases idle : (walker.frontier root).isEmpty with
    | true =>
      simp only [idle, if_true] at run
      obtain ⟨ended, rfl⟩ := Task.runs_pure.mp run
      cases ended
      exact ⟨[], [], by simp, .nil root, .reports counted⟩
    | false =>
      simp only [idle, Bool.false_eq_true, if_false] at run
      obtain ⟨answer, mid, first, run⟩ := Task.runs_bind.mp run
      obtain ⟨errands, rfl, course⟩ := Registry.resolve_course first
      cases answer with
      | error cause =>
        -- The graph is returned as it was when the pass began.
        obtain ⟨ended, rfl⟩ := Task.runs_pure.mp run
        cases ended
        exact ⟨[], errands, by simp, .nil root, .fails (by simp) course⟩
      | ok resolved =>
        have more : (start.addPass (walker.frontier root).size (walker.inject resolved root).2).passes =
          made + 1 := congrArg (· + 1) counted
        dsimp only at run
        split at run
        next =>
          obtain ⟨ended, rfl⟩ := Task.runs_pure.mp run
          cases ended
          exact ⟨[errands], [], by simp, .cons idle course (.nil _), .reports more⟩
        next =>
          obtain ⟨passes, last, rfl, chain, stops⟩ := ih more run
          refine ⟨errands :: passes, last, by simp, .cons idle course chain, ?_⟩
          rw [List.length_cons, Nat.add_comm passes.length, Nat.add_comm cap, ← Nat.add_assoc,
            ← Nat.add_assoc]
          exact stops

/-- Resolving any registry takes its course with the loaders, and so does every pass of a loading; one that
fails leaves the graph as the passes before it did. -/
theorem load_course (walker : Walker) (loaders : Loaders) :
    (∀ {registry : Registry} {before after : List Errand} {result : Except Error Resolved},
      (registry.resolve loaders).Runs Errand.Noted before result after →
        ∃ errands, after = before ++ errands ∧ registry.Course loaders errands result) ∧
      ∀ {cap : Nat} {root : Node} {before after : List Errand} {result : Except Error LoadReport}
        {loading : Loading},
        (walker.load loaders cap root).Runs Errand.Noted before (result, loading) after →
          ∃ passes last, after = before ++ passes.flatten ++ last ∧
            walker.Passes loaders root passes loading.root ∧
            walker.Stops loaders cap passes.length loading.root last result := by
  refine ⟨Registry.resolve_course, fun run => ?_⟩
  obtain ⟨passes, last, same, chain, stops⟩ := loadPasses_course rfl run
  rw [Nat.zero_add, Nat.zero_add] at stops
  exact ⟨passes, last, same, chain, stops⟩

section Outage

def outage (batch : String × List RelationKey) : Except Error (SortedMap RelationKey LoadedValue) :=
  if batch.1 = "author" then .ok (.ofList [
    (.int 1, .node (Blog.author { id := some 1 } [.pending (.int 10)] (.pending (.int 2)))),
    (.int 2, .node (Blog.author { id := some 2 } [] .null))])
  else .error (.load (.loaderFailed batch.1 "offline"))

def attendant : Walker := { schemas := Blog.schemas }

def bureau : Loaders := ⟨.ofList ["author", "post"]⟩

def letter (author : Ref) : Node := Blog.post { id := some 12 } author

def outageRun : (Except Error LoadReport × Loading) × List Errand :=
  ((attendant.load bureau 5 (letter (.pending (.int 1)))).run (Errand.noting outage)).run []

/-- The second pass fails after the mentor was answered, who is not filled in. -/
theorem load_course_outage :
    outageRun.1.1 = .error (.load (.loaderFailed "post" "offline")) ∧
      outageRun.2.map Errand.batch = [("author", [.int 1]), ("author", [.int 2]), ("post", [.int 10])] ∧
      outageRun.1.2.root = letter (.loaded (.int 1)
        (Blog.author { id := some 1 } [.pending (.int 10)] (.pending (.int 2)))) ∧
      ∃ passes last, outageRun.2 = [] ++ passes.flatten ++ last ∧
        attendant.Passes bureau (letter (.pending (.int 1))) passes outageRun.1.2.root ∧
        attendant.Stops bureau 5 passes.length outageRun.1.2.root last
          (.error (.load (.loaderFailed "post" "offline"))) := by
  have failed : outageRun.1.1 = .error (.load (.loaderFailed "post" "offline")) := by decide +kernel
  have run := Task.runs_of_run (Errand.noting_noted outage)
    (attendant.load bureau 5 (letter (.pending (.int 1)))) []
  have ended : outageRun.1 = (.error (.load (.loaderFailed "post" "offline")), outageRun.1.2) :=
    Prod.ext failed rfl
  refine ⟨failed, by decide +kernel, by decide +kernel, ?_⟩
  exact (load_course attendant bureau).2 (ended ▸ run)

end Outage

end OptimisticStore.Walker
