import OptimisticStore.Model.Call
/-!
Claiming unique values before a write.

A writer takes locks named after the unique values it is about to claim and looks each value up, so
of two writers claiming one value only one passes. Only values that the record did not already hold
are claimed. The locks are kept until the write has been made.
-/
namespace OptimisticStore.Uniqueness

variable {K E : Type} [Key K] (family : Family K E)

def claimed (before : Option E) (after : E) : List UniqueField :=
  match before with
  | none => family.uniqueFields after
  | some held => (family.uniqueFields after).filter fun field =>
      !(family.uniqueFields held).contains field

def lockName (field : UniqueField) : String := s!"{family.kind}:{field.column}:{field.value}"

def lockNames (fields : List UniqueField) : List String :=
  (SortedSet.ofList (fields.map (lockName family))).toList

def taken (field : UniqueField) : StoreError := .uniqueViolation family.kind field.column false

def check [DecidableEq K] (own : Option K) : List UniqueField → Program K E (Except StoreError Unit)
  | [] => return .ok ()
  | field :: rest => do
    match ← Program.findUnique field with
    | .error cause => return .error cause
    | .ok none => check own rest
    | .ok (some owner) =>
      if own = some owner then check own rest else return .error (taken family field)

/-- Lock and check the values claimed. On any failure no lock is kept. -/
def acquire [DecidableEq K] (before : Option E) (after : E) :
    Program K E (Except Error LockGuard) := do
  let fields := claimed family before after
  if fields.isEmpty then return .ok .empty
  match ← Program.lock (lockNames family fields) with
  | .error cause => return .error (.lock cause)
  | .ok guard =>
    match ← check family (family.key after) fields with
    | .ok () => return .ok guard
    | .error cause =>
      Program.unlock guard
      return .error (.store cause)

end OptimisticStore.Uniqueness
