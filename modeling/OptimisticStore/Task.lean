/-!
Programs that act on shared state through atomic calls.

A `Task` makes one call at a time and goes on with the call's answer. The same task can be run to its
end in a monad (`Task.run`) or advanced call by call beside other tasks, which is what a statement
about interleavings needs. Main statements: tasks form a lawful monad, and running respects `bind`.
-/
namespace OptimisticStore

structure Vocabulary where
  Call : Type
  Answer : Call → Type

inductive Task (V : Vocabulary) (α : Type) where
  | done (value : α)
  | call (request : V.Call) (resume : V.Answer request → Task V α)

namespace Task

variable {V W : Vocabulary} {α β γ : Type}

def bind : Task V α → (α → Task V β) → Task V β
  | .done value, next => next value
  | .call request resume, next => .call request fun answer => (resume answer).bind next

instance : Monad (Task V) where
  pure := .done
  bind := bind

def ask (request : V.Call) : Task V (V.Answer request) := .call request .done

def run {m : Type → Type} [Monad m] (serve : (request : V.Call) → m (V.Answer request)) :
    Task V α → m α
  | .done value => pure value
  | .call request resume => do
    let answer ← serve request
    (resume answer).run serve

def expand (carry : (request : V.Call) → Task W (V.Answer request)) : Task V α → Task W α :=
  run carry

@[simp] theorem pure_bind_eq (value : α) (next : α → Task V β) :
    (pure value : Task V α) >>= next = next value := rfl

@[simp] theorem done_bind (value : α) (next : α → Task V β) :
    (Task.done value : Task V α) >>= next = next value := rfl

@[simp] theorem call_bind (request : V.Call) (resume : V.Answer request → Task V α)
    (next : α → Task V β) :
    Task.call request resume >>= next = .call request fun answer => resume answer >>= next := rfl

theorem bind_done (task : Task V α) : (task >>= fun value => .done value) = task := by
  induction task with
  | done value => rfl
  | call request resume ih => simp [ih]

theorem bind_assoc (task : Task V α) (next : α → Task V β) (last : β → Task V γ) :
    task >>= next >>= last = task >>= fun value => next value >>= last := by
  induction task with
  | done value => rfl
  | call request resume ih => simp [ih]

instance : LawfulMonad (Task V) :=
  LawfulMonad.mk' (Task V) (fun task => bind_done task) (fun _ _ => rfl) bind_assoc

theorem run_bind {m : Type → Type} [Monad m] [LawfulMonad m]
    (serve : (request : V.Call) → m (V.Answer request)) (task : Task V α) (next : α → Task V β) :
    (task >>= next).run serve = task.run serve >>= fun value => (next value).run serve := by
  induction task with
  | done value => simp [run]
  | call request resume ih => simp [run, ih]

@[simp] theorem run_ask {m : Type → Type} [Monad m] [LawfulMonad m]
    (serve : (request : V.Call) → m (V.Answer request)) (request : V.Call) :
    (ask request).run serve = serve request := by
  simp [ask, run]

end Task

end OptimisticStore
