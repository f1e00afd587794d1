import OptimisticStore.Proofs.Cache.Mesh
/-!
What readers and writers have in hand while they deal with the caches.

A reader holds what it fetched, with the generation it noted before; a writer that has committed holds the
list of nodes from which it has yet to remove the key. Main statement: `Job.program_follows`, by which
everything done through the caches keeps to `Hand.Moves`.
-/
namespace OptimisticStore

variable {K E : Type} [Key K]

inductive Hand (K E : Type) where
  | free
  | noted (generation : Nat)
  /-- The keys were fetched after the generation was noted. -/
  | holding (generation : Nat) (keys : List K) (value : K → Option E)
  | owing (key : K) (nodes : List Nat)
  /-- A removal has failed, as none does while all nodes can be reached. -/
  | broken

namespace Hand

def Clear : Hand K E → Prop
  | .owing _ nodes => nodes = []
  | _ => True

variable (family : Family K E) (placement : Placement)

def Quiet : (request : MeshCall K E) → request.Answer → Prop
  | .world call, answer => call.writtenKey? family answer = none
  | .node _ call, _ => call.fills = false

inductive Moves : Hand K E → (request : MeshCall K E) → request.Answer → Hand K E → Prop where
  | keeps {hand : Hand K E} {request : MeshCall K E} {answer : request.Answer}
      (quiet : Quiet family request answer) : Moves hand request answer hand
  | notes (generation : Nat) :
      Moves .free (.node placement.home .generation) (.ok generation) (.noted generation)
  | fetches {generation : Nat} {key : K} (found : Option E) :
      Moves (.noted generation) (.world (.store (.fetch key))) (.ok found)
        (.holding generation [key] fun _ => found)
  | fetchesMany {generation : Nat} {keys : SortedSet K} (found : SortedMap K E) :
      Moves (.noted generation) (.world (.store (.fetchMany keys))) (.ok found)
        (.holding generation keys.toList found.get?)
  | fills {generation : Nat} {keys : List K} {value : K → Option E} {key : K}
      (answer : Except StoreError Bool) (within : key ∈ keys) :
      Moves (.holding generation keys value)
        (.node placement.home (.putIf key (.ofOption (value key)) generation)) answer
        (.holding generation keys value)
  | commits {call : Call K E} {answer : call.Answer} {key : K}
      (written : call.writtenKey? family answer = some key) :
      Moves .free (.world call) answer (.owing key (placement.home :: placement.peers))
  | removes {key : K} {index : Nat} {rest : List Nat} :
      Moves (.owing key (index :: rest)) (.node index (.removeLocal key)) (.ok ()) (.owing key rest)
  | removeFails {key : K} {index : Nat} {rest : List Nat} (cause : StoreError) :
      Moves (.owing key (index :: rest)) (.node index (.removeLocal key)) (.error cause) .broken
  | breaks {request : MeshCall K E} (answer : request.Answer) : Moves .broken request answer .broken

end Hand

variable {family : Family K E} {placement : Placement}

theorem Hand.broken_follows {α : Type} {task : Task (meshCalls K E) α}
    {ends : Hand K E → α → Prop} (allowed : ∀ value, ends .broken value) :
    task.Follows (Hand.Moves family placement) ends .broken := by
  induction task with
  | done value => exact allowed value
  | call request resume ih => exact fun answer => ⟨_, .breaks answer, ih answer⟩

section Reading

theorem get_follows {key : K} :
    ((ReadThrough.get key : Program K E _).overMesh placement).Follows (Hand.Moves family placement)
      (fun hand _ => hand.Clear) .free := by
  intro slot
  match slot with
  | .error cause => exact ⟨_, .keeps rfl, trivial⟩
  | .ok (some slot) => exact ⟨_, .keeps rfl, trivial⟩
  | .ok none =>
    refine ⟨_, .keeps rfl, fun noted => ?_⟩
    match noted with
    | .error cause => exact ⟨_, .keeps rfl, trivial⟩
    | .ok generation =>
      refine ⟨_, .notes generation, fun fetched => ?_⟩
      match fetched with
      | .error cause => exact ⟨_, .keeps rfl, trivial⟩
      | .ok found =>
        refine ⟨_, .fetches found, fun filled => ?_⟩
        refine ⟨_, .fills filled (by simp), ?_⟩
        match filled with
        | .error cause => trivial
        | .ok _ => trivial

theorem fill_follows {fetched : SortedMap K E} {generation : Nat} {keys rest : List K}
    {found : SortedMap K (Option E)} (within : ∀ key ∈ rest, key ∈ keys) :
    ((ReadThrough.fill fetched generation rest found).overMesh placement).Follows
      (Hand.Moves family placement) (fun hand _ => hand.Clear)
      (.holding generation keys fetched.get?) := by
  induction rest generalizing found with
  | nil => exact trivial
  | cons key rest ih =>
    intro filled
    refine ⟨_, .fills filled (within key List.mem_cons_self), ?_⟩
    match filled with
    | .error cause => exact trivial
    | .ok _ => exact ih fun other later => within other (List.mem_cons_of_mem _ later)

theorem getAll_follows {keys : SortedSet K} :
    ((ReadThrough.getAll keys : Program K E _).overMesh placement).Follows
      (Hand.Moves family placement) (fun hand _ => hand.Clear) .free := by
  rw [ReadThrough.getAll_eq]
  split
  · exact trivial
  · intro found
    match found with
    | .error cause => exact ⟨_, .keeps rfl, trivial⟩
    | .ok slots =>
      refine ⟨_, .keeps rfl, ?_⟩
      change ((ite _ _ _ : Program K E (Except StoreError (SortedMap K (Option E)))).overMesh
        placement).Follows _ _ _
      split
      · exact trivial
      · intro noted
        match noted with
        | .error cause => exact ⟨_, .keeps rfl, trivial⟩
        | .ok generation =>
          refine ⟨_, .notes generation, fun fetched => ?_⟩
          match fetched with
          | .error cause => exact ⟨_, .keeps rfl, trivial⟩
          | .ok found => exact ⟨_, .fetchesMany found, fill_follows fun _ within => within⟩

theorem inTurn_follows {nodes : List Nat} {hand : Hand K E}
    {call : Nat → Task (nodeCalls K E) (Except StoreError Unit)}
    (quiet : ∀ index, ((call index).expand atNode).Follows (Hand.Moves family placement)
      (fun after _ => after = hand) hand) :
    ((Placement.inTurn call nodes).expand atNode).Follows (Hand.Moves family placement)
      (fun after _ => after = hand) hand := by
  induction nodes with
  | nil => exact rfl
  | cons index rest ih =>
    unfold Placement.inTurn Task.expand
    rw [Task.run_bind, Task.follows_bind]
    apply (quiet index).mono
    intro after answer same
    subst same
    match answer with
    | .error cause => exact rfl
    | .ok () => exact ih

theorem removal_follows {nodes : List Nat}
    {call : Nat → Task (nodeCalls K E) (Except StoreError Unit)}
    (quiet : ∀ index, ((call index).expand atNode).Follows (Hand.Moves family placement)
      (fun after _ => after = .free) .free) :
    ((Placement.inTurn call nodes).expand atNode >>= Task.done).Follows
      (Hand.Moves family placement) (fun hand _ => hand.Clear) .free := by
  apply Task.follows_bind.mpr
  apply (inTurn_follows quiet).mono
  intro hand answer same
  subst same
  exact trivial

theorem invalidate_follows {key : K} :
    ((ReadThrough.invalidate key : Program K E _).overMesh placement).Follows
      (Hand.Moves family placement) (fun hand _ => hand.Clear) .free :=
  removal_follows fun _ _ => ⟨_, .keeps rfl, rfl⟩

theorem invalidateAll_follows {keys : SortedSet K} :
    ((ReadThrough.invalidateAll keys : Program K E _).overMesh placement).Follows
      (Hand.Moves family placement) (fun hand _ => hand.Clear) .free := by
  unfold ReadThrough.invalidateAll
  split
  · exact trivial
  · exact removal_follows fun _ _ => ⟨_, .keeps rfl, rfl⟩

end Reading

section Writing

open Write

def owed (family : Family K E) (placement : Placement) (outcome : Outcome E) : Hand K E :=
  match outcome.change?, outcome.key family with
  | some _, some key => .owing key (placement.home :: placement.peers)
  | _, _ => .free

/-- What a writer in a given phase has yet to remove. -/
def debt (family : Family K E) (placement : Placement) : Phase E → Hand K E
  | .written _ outcome | .settled outcome => owed family placement outcome
  | .announced outcome =>
    match outcome.key family with
    | some key => .owing key []
    | none => .free
  | _ => .free

variable {operation : Operation K E}

omit [Key K] in
theorem debt_of_cleared {phase : Phase E} {stamp : Int} {before : Option E} {entity : E}
    {guard : LockGuard} (cleared : Cleared family phase stamp before entity guard) :
    debt family placement phase = .free := by
  cases cleared with
  | unclaimed => rfl
  | checked => rfl

theorem owed_of_written {call : Call K E} {answer : call.Answer} {outcome : Outcome E}
    (changed : outcome.change?.isSome)
    (same : outcome.key family = call.writtenKey? family answer) :
    Hand.Moves family placement .free (.world call) answer (owed family placement outcome) := by
  obtain ⟨change, changed⟩ := Option.isSome_iff_exists.mp changed
  unfold owed
  rw [changed, same]
  cases written : call.writtenKey? family answer with
  | none => exact .keeps written
  | some key => exact .commits written

theorem debt_moves {phase after : Phase E} {call : Call K E} {answer : call.Answer}
    (move : Write.Moves family operation phase call answer after)
    (elsewhere : ∀ request, call ≠ .cache request) :
    Hand.Moves family placement (debt family placement phase) (.world call) answer
      (debt family placement after) := by
  cases move with
  | forgets => exact absurd rfl (elsewhere _)
  | inserts row cleared =>
    rw [debt_of_cleared cleared]
    exact owed_of_written rfl rfl
  | merges merged changed cleared =>
    rw [debt_of_cleared cleared]
    apply owed_of_written rfl
    simp only [Call.writtenKey?, changed, if_true]
    rfl
  | mergesNothing merged unchanged cleared =>
    rw [debt_of_cleared cleared]
    exact .keeps (by simp [Hand.Quiet, Call.writtenKey?, unchanged])
  | insertFails _ cleared | mergeFails _ cleared =>
    rw [debt_of_cleared cleared]
    exact .keeps rfl
  | deletes => exact owed_of_written rfl rfl
  | _ => exact .keeps rfl

theorem remove_follows {key : K} {nodes : List Nat} :
    ((Placement.inTurn (fun index => Task.ask (V := nodeCalls K E) (index, .removeLocal key))
      nodes).expand atNode).Follows (Hand.Moves family placement)
      (fun hand _ => hand = .owing key [] ∨ hand = .broken) (.owing key nodes) := by
  induction nodes with
  | nil => exact .inl rfl
  | cons index rest ih =>
    intro removed
    match removed with
    | .error cause => exact ⟨_, .removeFails cause, .inr rfl⟩
    | .ok () => exact ⟨_, .removes, ih⟩

theorem overMesh_follows {α : Type} {program : Program K E α} {phase : Phase E}
    {ends : Phase E → α → Prop} (follows : program.Follows (Write.Moves family operation) ends phase) :
    (program.overMesh placement).Follows (Hand.Moves family placement)
      (fun hand value => hand = .broken ∨
        ∃ after, hand = debt family placement after ∧ ends after value)
      (debt family placement phase) := by
  induction program generalizing phase with
  | done value => exact .inr ⟨phase, rfl, follows⟩
  | call request resume ih =>
    cases request with
    | cache request =>
      obtain ⟨_, move, _⟩ := follows (request.refuse .poisoned)
      cases move with
      | @forgets outcome key _ changed own =>
        have start : debt family placement (.settled outcome) =
            .owing key (placement.home :: placement.peers) := by
          obtain ⟨change, changed⟩ := Option.isSome_iff_exists.mp changed
          simp only [debt, owed, changed, own]
        have announced : debt family placement (.announced outcome) = .owing key [] := by
          simp only [debt, own]
        rw [start]
        apply Task.follows_bind.mpr
        apply remove_follows.mono
        intro hand answer ended
        rcases ended with rfl | rfl
        · obtain ⟨_, move, rest⟩ := follows answer
          cases move with
          | forgets =>
            rw [← announced]
            exact ih answer rest
        · exact Hand.broken_follows fun _ => .inl rfl
    | _ =>
      intro answer
      obtain ⟨after, move, rest⟩ := follows answer
      exact ⟨_, debt_moves move (by simp), ih answer rest⟩

omit [Key K] in
theorem debt_clear {phase : Phase E} {result : Except Error (Outcome E)}
    (ends : Ends family phase result) : (debt family placement phase).Clear := by
  match result with
  | .error cause =>
    obtain rfl := ends
    exact trivial
  | .ok outcome =>
    rcases ends with rfl | ⟨rfl, none | none⟩
    · unfold debt
      dsimp only
      split
      · exact rfl
      · exact trivial
    · simp only [debt, owed, none]
      exact trivial
    · change (owed family placement outcome).Clear
      unfold owed
      rw [none]
      cases outcome.change? with
      | none => exact trivial
      | some change => exact trivial

end Writing

inductive Job (K E : Type) [Key K] where
  | get (key : K)
  | getAll (keys : SortedSet K)
  | write (policy : RetryPolicy) (operation : Write.Operation K E)
  | invalidate (key : K)
  | invalidateLocal (key : K)
  | invalidateAll (keys : SortedSet K)

namespace Job

abbrev Answer : Job K E → Type
  | .get _ => Except StoreError (Option E)
  | .getAll _ => Except StoreError (SortedMap K (Option E))
  | .write _ _ => Except Error (Outcome E)
  | .invalidate _ | .invalidateLocal _ | .invalidateAll _ => Except StoreError Unit

variable [DecidableEq K]

def program (family : Family K E) : (job : Job K E) → Program K E job.Answer
  | .get key => ReadThrough.get key
  | .getAll keys => ReadThrough.getAll keys
  | .write policy operation => operation.program family policy
  | .invalidate key => ReadThrough.invalidate key
  | .invalidateLocal key => ReadThrough.invalidateLocal key
  | .invalidateAll keys => ReadThrough.invalidateAll keys

theorem program_follows {job : Job K E} :
    ((job.program family).overMesh placement).Follows (Hand.Moves family placement)
      (fun hand _ => hand.Clear) .free := by
  cases job with
  | get key => exact get_follows
  | getAll keys => exact getAll_follows
  | write policy operation =>
    apply (overMesh_follows Write.Operation.program_follows).mono
    intro hand result ended
    rcases ended with rfl | ⟨phase, rfl, ends⟩
    · exact trivial
    · exact debt_clear ends
  | invalidate key => exact invalidate_follows
  | invalidateLocal key => exact fun _ => ⟨_, .keeps rfl, trivial⟩
  | invalidateAll keys => exact invalidateAll_follows

end Job

end OptimisticStore
