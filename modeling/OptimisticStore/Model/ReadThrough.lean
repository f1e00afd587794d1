import OptimisticStore.Model.Call
/-!
Reading through the cache.

A lookup that finds no slot notes the node's generation, asks the store, and remembers the answer
either way, a missing row as well as a found one, unless a removal came in between. The caller gets
what was fetched in any case.
-/
namespace OptimisticStore.ReadThrough

variable {K E : Type} [Key K]

open Program

def get (key : K) : Program K E (Except StoreError (Option E)) := do
  match ← cached (.get key) with
  | .error cause => return .error cause
  | .ok (some slot) => return .ok slot.toOption
  | .ok none =>
    match ← cached (E := E) .generation with
    | .error cause => return .error cause
    | .ok generation =>
      match ← fetch key with
      | .error cause => return .error cause
      | .ok fetched =>
        match ← cached (.putIf key (.ofOption fetched) generation) with
        | .error cause => return .error cause
        | .ok _ => return .ok fetched

def fill (fetched : SortedMap K E) (generation : Nat) :
    List K → SortedMap K (Option E) → Program K E (Except StoreError (SortedMap K (Option E)))
  | [], found => return .ok found
  | key :: rest, found => do
    let value := fetched.get? key
    match ← cached (.putIf key (.ofOption value) generation) with
    | .error cause => return .error cause
    | .ok _ => fill fetched generation rest (found.insert key value)

def addSlots (found : SortedMap K (Option E)) (slots : SortedMap K (Slot E)) : SortedMap K (Option E) :=
  slots.entries.foldl (fun found entry => found.insert entry.1 entry.2.toOption) found

def ofSlots (slots : SortedMap K (Slot E)) : SortedMap K (Option E) :=
  .ofList (slots.entries.map fun (key, slot) => (key, slot.toOption))

/-- Look some keys up, fetch those without a slot in one batch, and go on with the keys still waiting;
a batch takes all of them with it. -/
def load (waiting : SortedSet K) (found : SortedMap K (Option E)) :
    Program K E (Except StoreError (SortedMap K (Option E))) :=
  if _ended : waiting.isEmpty then return .ok found
  else do
    match ← cached (E := E) (.getAll waiting) with
    | .error cause => return .error cause
    | .ok slots =>
      let found := addSlots found slots
      let missing := waiting.filter fun key => !slots.contains key
      if missing.isEmpty then return .ok found
      match ← cached (E := E) .generation with
      | .error cause => return .error cause
      | .ok generation =>
        match ← fetchMany missing with
        | .error cause => return .error cause
        | .ok fetched =>
          match ← fill fetched generation missing.toList found with
          | .error cause => return .error cause
          | .ok found => load {} found
termination_by waiting.size
decreasing_by
  have some : waiting.toList ≠ [] := by simpa [SortedSet.isEmpty] using _ended
  exact List.length_pos_iff.mpr some

def getAll (keys : SortedSet K) : Program K E (Except StoreError (SortedMap K (Option E))) :=
  load keys {}

theorem load_empty (found : SortedMap K (Option E)) : load {} found = return .ok found := by
  have ended : ({} : SortedSet K).isEmpty = true := rfl
  rw [load, dif_pos ended]

/-- A bulk read is over after its first batch. -/
theorem getAll_eq (keys : SortedSet K) : (getAll keys : Program K E _) = (do
    if keys.isEmpty then return .ok {}
    match ← cached (E := E) (.getAll keys) with
    | .error cause => return .error cause
    | .ok slots =>
      let missing := keys.filter fun key => !slots.contains key
      if missing.isEmpty then return .ok (ofSlots slots)
      match ← cached (E := E) .generation with
      | .error cause => return .error cause
      | .ok generation =>
        match ← fetchMany missing with
        | .error cause => return .error cause
        | .ok fetched => fill fetched generation missing.toList (ofSlots slots)) := by
  have served (slots : SortedMap K (Slot E)) : addSlots {} slots = ofSlots slots := by
    unfold ofSlots SortedMap.ofList
    rw [List.foldl_map]
    rfl
  have ended (batch : Program K E (Except StoreError (SortedMap K (Option E)))) :
      (do
        match ← batch with
        | .error cause => return .error cause
        | .ok found => load {} found) = batch := by
    refine Eq.trans (congrArg (batch >>= ·) ?_) (bind_pure batch)
    funext answer
    cases answer with
    | error cause => rfl
    | ok found => exact load_empty found
  rw [getAll, load]
  simp only [served, ended]
  split <;> rfl

def invalidate (key : K) : Program K E (Except StoreError Unit) := cached (.remove key)

def invalidateLocal (key : K) : Program K E (Except StoreError Unit) := cached (.removeLocal key)

def invalidateAll (keys : SortedSet K) : Program K E (Except StoreError Unit) :=
  if keys.isEmpty then return .ok () else cached (.removeAll keys)

end OptimisticStore.ReadThrough
