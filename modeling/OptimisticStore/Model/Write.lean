import OptimisticStore.Model.Outcome
import OptimisticStore.Model.ReadThrough
import OptimisticStore.Model.Retry
import OptimisticStore.Model.Uniqueness
/-!
Optimistic writes to one record.

An attempt draws a stamp, reads the record fresh from the store, lets the caller decide, claims the
unique values and commits; a commit that finds the record changed meanwhile makes the whole operation
try again. Once something is written, the key is dropped from every cache and the change is posted,
in this order, and neither can undo the write.
-/
namespace OptimisticStore.Write

variable {K E : Type} [Key K] [DecidableEq K] (family : Family K E)

open Program

def unassigned : String := "<unassigned>"

def notFound (key : K) : Error := .update (.notFound family.kind (Key.display key))

def commit (before : Option E) (entity : E) (stamp : Int) :
    Program K E (Except Error (Outcome E)) := do
  match before with
  | none =>
    match ← insertRow entity with
    | .error cause => return .error (.store cause)
    | .ok row => return .ok (.ofInsert family.kind row stamp)
  | some held =>
    match ← mergeRow entity with
    | .error cause => return .error (.store cause)
    | .ok merged =>
      if merged.changed then return .ok (.ofUpdate family.kind held merged.entity stamp)
      else return .ok (.ofUnchanged family.kind merged.entity stamp)

/-- Commit under the locks on the unique values claimed, which are given back either way. -/
def guardedCommit (before : Option E) (entity : E) (stamp : Int) :
    Program K E (Except Error (Outcome E)) := do
  match ← Uniqueness.acquire family before entity with
  | .error cause => return .error cause
  | .ok guard =>
    let result ← commit family before entity stamp
    unlock guard
    return result

def mutateAndCommit (before : Option E) (entity : E) (stamp : Int) :
    Program K E (Except Error (Outcome E)) := do
  let (mutated, decision) ← mutate entity
  match decision with
  | .cancel => return .ok (.ofCancel family.kind)
  | .unchanged => return .ok (.ofUnchanged family.kind mutated stamp)
  | .changed => guardedCommit family before (family.markUpdated (.ofMicros stamp) mutated) stamp

def attemptUpdate (creating : Bool) (key : K) : Program K E (Except Error (Outcome E)) := do
  let stamp ← tick
  match ← fetch key with
  | .error cause => return .error (.store cause)
  | .ok (some current) => mutateAndCommit family (some current) current stamp
  | .ok none =>
    if creating then
      let made ← create key
      let fresh := family.markCreated (.ofMicros stamp) (family.withKey key made)
      mutateAndCommit family none fresh stamp
    else return .error (notFound family key)

def insertFresh (entity : E) (stamp : Int) : Program K E (Except Error (Outcome E)) :=
  let now := Timestamp.ofMicros stamp
  guardedCommit family none (family.markUpdated now (family.markCreated now entity)) stamp

def attemptInsert (entity : E) : Program K E (Except Error (Outcome E)) := do
  let stamp ← tick
  match family.key entity with
  | none => insertFresh family entity stamp
  | some key =>
    match ← fetch key with
    | .error cause => return .error (.store cause)
    | .ok (some existing) => return .ok (.ofUnchanged family.kind existing stamp)
    | .ok none => insertFresh family entity stamp

def attemptDelete (key : K) : Program K E (Except Error (Outcome E)) := do
  let stamp ← tick
  match ← fetch key with
  | .error cause => return .error (.store cause)
  | .ok none => return .error (notFound family key)
  | .ok (some current) =>
    match ← deleteRow current with
    | .error cause => return .error (.store cause)
    | .ok () => return .ok (.ofDelete family.kind current stamp)

def changeOf (outcome : Outcome E) (change : ChangeKind) : Change E :=
  { kind := family.kind, change, before := outcome.before, after := outcome.after
    timestamp := outcome.timestamp }

/-- After a write: drop the key from every cache, then post the change. A cache that fails is passed
over, since the write has been made. -/
def announce (outcome : Outcome E) : Program K E Unit := do
  match outcome.change?, outcome.key family with
  | some change, some key =>
    let _ ← ReadThrough.invalidate (E := E) key
    post (changeOf family outcome change)
  | _, _ => return ()

def committing (policy : RetryPolicy) (label : String)
    (attempt : Program K E (Except Error (Outcome E))) : Program K E (Except Error (Outcome E)) := do
  match ← retrying family.kind policy label attempt with
  | .error cause => return .error cause
  | .ok outcome =>
    announce family outcome
    return .ok outcome

def update (policy : RetryPolicy) (key : K) : Program K E (Except Error (Outcome E)) :=
  committing family policy (Key.display key) (attemptUpdate family false key)

def updateOrCreate (policy : RetryPolicy) (key : K) : Program K E (Except Error (Outcome E)) :=
  committing family policy (Key.display key) (attemptUpdate family true key)

def insert (policy : RetryPolicy) (entity : E) : Program K E (Except Error (Outcome E)) :=
  committing family policy (((family.key entity).map Key.display).getD unassigned)
    (attemptInsert family entity)

def delete (policy : RetryPolicy) (key : K) : Program K E (Except Error (Outcome E)) :=
  committing family policy (Key.display key) (attemptDelete family key)

end OptimisticStore.Write
