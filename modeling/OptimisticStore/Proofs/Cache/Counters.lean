import OptimisticStore.Proofs.Cache.Reads
/-!
What the counters of a cache come to.

A node counts the look-ups that found a slot and those that did not, the slots that it dropped, and in its
generation the removals. Whoever listens to the calls and to the answers can tell all of these without a
look at the node: which fills were let in tells the slots, and the slots tell what a look-up finds and when
one is created. `Booked` is what any part of a run adds to the counters. Main statement: `conserved_after`.
-/
namespace OptimisticStore

variable {K E : Type} [Key K]

namespace CacheCall

def lookedUp : CacheCall K E → List K
  | .get key => [key]
  | .getAll keys => keys.toList
  | _ => []

def removed? : CacheCall K E → Option (List K)
  | .remove key | .removeLocal key => some [key]
  | .removeAll keys | .removeAllLocal keys => some keys.toList
  | _ => none

end CacheCall

structure CacheExchange (K E : Type) [Key K] where
  call : CacheCall K E
  answer : call.Answer

namespace CacheExchange

def found : CacheExchange K E → K → Option (Slot E)
  | ⟨.get _, .ok slot⟩, _ => slot
  | ⟨.getAll _, .ok slots⟩, key => slots.get? key
  | _, _ => none

/-- The slot that was stored, with its key; a fill that comes too late stores none. -/
def stored? : CacheExchange K E → Option (K × Slot E)
  | ⟨.put key slot, .ok ()⟩ => some (key, slot)
  | ⟨.putIf key slot _, .ok true⟩ => some (key, slot)
  | _ => none

def leaves [DecidableEq K] (slots : K → Option (Slot E)) (exchange : CacheExchange K E) (key : K) :
    Option (Slot E) :=
  match exchange.stored? with
  | some (other, slot) => if key = other then some slot else slots key
  | none => if exchange.call.removed?.any (·.contains key) then none else slots key

end CacheExchange

structure CacheMoment (K E : Type) [Key K] where
  slots : K → Option (Slot E)
  exchange : CacheExchange K E

namespace CacheMoment

def findings (moment : CacheMoment K E) : List (Option (Slot E)) :=
  moment.exchange.call.lookedUp.map moment.slots

def Truthful (moment : CacheMoment K E) : Prop :=
  ∀ key ∈ moment.exchange.call.lookedUp, moment.exchange.found key = moment.slots key

def creates (moment : CacheMoment K E) : Bool :=
  moment.exchange.stored?.any fun stored => (moment.slots stored.1).isNone

def ofLog [DecidableEq K] (slots : K → Option (Slot E)) :
    List (CacheExchange K E) → List (CacheMoment K E)
  | [] => []
  | exchange :: rest => ⟨slots, exchange⟩ :: ofLog (exchange.leaves slots) rest

end CacheMoment

namespace CacheNode

def after (node : CacheNode K E) (calls : List (CacheCall K E)) : CacheNode K E :=
  calls.foldl (fun node call => (node.serve call).2) node

def log (node : CacheNode K E) : List (CacheCall K E) → List (CacheExchange K E)
  | [] => []
  | call :: rest => ⟨call, (node.serve call).1⟩ :: (node.serve call).2.log rest

variable [DecidableEq K]

/-- What the exchanges of a log do to the slots and add to the counters of a node. -/
structure Booked (log : List (CacheExchange K E)) (before after : CacheNode K E) : Prop where
  reachable : after.poisoned = false
  slots : after.slots.get? = log.foldl CacheExchange.leaves before.slots.get?
  truthful : ∀ moment ∈ CacheMoment.ofLog before.slots.get? log, moment.Truthful
  hits : after.hits = before.hits +
    ((CacheMoment.ofLog before.slots.get? log).flatMap CacheMoment.findings).countP Option.isSome
  misses : after.misses = before.misses +
    ((CacheMoment.ofLog before.slots.get? log).flatMap CacheMoment.findings).countP Option.isNone
  negative : after.negativeHits = before.negativeHits +
    ((CacheMoment.ofLog before.slots.get? log).flatMap CacheMoment.findings).countP
      (·.any Slot.isAbsent)
  entries : after.slots.size + after.removals = before.slots.size + before.removals +
    (CacheMoment.ofLog before.slots.get? log).countP CacheMoment.creates
  generation : after.generation = before.generation +
    (log.map CacheExchange.call).countP (·.removed?.isSome)

variable {node mid last : CacheNode K E} {exchange : CacheExchange K E}
  {rest : List (CacheExchange K E)}

theorem booked_nil (reachable : node.poisoned = false) : Booked [] node node :=
  ⟨reachable, rfl, by simp [CacheMoment.ofLog], rfl, rfl, rfl, rfl, rfl⟩

theorem Booked.cons (first : Booked [exchange] node mid) (onward : Booked rest mid last) :
    Booked (exchange :: rest) node last := by
  -- The moments of the rest start from the slots that the first exchange leaves.
  have slots : mid.slots.get? = exchange.leaves node.slots.get? := first.slots
  have moments : CacheMoment.ofLog node.slots.get? (exchange :: rest) =
      CacheMoment.ofLog node.slots.get? [exchange] ++ CacheMoment.ofLog mid.slots.get? rest := by
    rw [slots]
    rfl
  constructor
  case reachable => exact onward.reachable
  case slots =>
    rw [onward.slots, slots]
    rfl
  case truthful =>
    rw [moments]
    intro moment within
    rcases List.mem_append.mp within with here | later
    · exact first.truthful moment here
    · exact onward.truthful moment later
  case hits =>
    rw [onward.hits, first.hits, moments, List.flatMap_append, List.countP_append, Nat.add_assoc]
  case misses =>
    rw [onward.misses, first.misses, moments, List.flatMap_append, List.countP_append, Nat.add_assoc]
  case negative =>
    rw [onward.negative, first.negative, moments, List.flatMap_append, List.countP_append,
      Nat.add_assoc]
  case entries => rw [onward.entries, first.entries, moments, List.countP_append, Nat.add_assoc]
  case generation =>
    rw [onward.generation, first.generation, Nat.add_assoc, ← List.countP_append, ← List.map_append,
      List.singleton_append]

theorem booked_lookups (reachable : node.poisoned = false) (keys : List K)
    (asked : exchange.call.lookedUp = keys)
    (found : ∀ key ∈ keys, exchange.found key = node.slots.get? key)
    (unstored : exchange.stored? = none) (kept : exchange.call.removed? = none) :
    Booked [exchange] node (node.counted keys) := by
  have lacks : node.lacks = fun key => (node.slots.get? key).isNone := by
    funext key
    simp [CacheNode.lacks, SortedMap.contains]
  constructor
  case reachable => exact reachable
  case slots =>
    funext key
    simp [CacheExchange.leaves, unstored, kept, counted]
  case truthful => simpa [CacheMoment.ofLog, CacheMoment.Truthful, asked] using found
  case hits | misses =>
    simp [CacheMoment.ofLog, CacheMoment.findings, asked, counted, List.countP_map, Function.comp_def,
      lacks]
  case negative =>
    simp [CacheMoment.ofLog, CacheMoment.findings, asked, counted, List.countP_map, Function.comp_def]
  case entries => simp [CacheMoment.ofLog, CacheMoment.creates, unstored, counted]
  case generation => simp [kept, counted]

theorem booked_unasked (unasked : exchange.call.lookedUp = []) (reachable : last.poisoned = false)
    (slots : last.slots.get? = exchange.leaves node.slots.get?)
    (still : last.hits = node.hits ∧ last.misses = node.misses ∧
      last.negativeHits = node.negativeHits)
    (entries : last.slots.size + last.removals = node.slots.size + node.removals +
      (CacheMoment.mk node.slots.get? exchange).creates.toNat)
    (generation : last.generation = node.generation + exchange.call.removed?.isSome.toNat) :
    Booked [exchange] node last := by
  constructor
  case reachable => exact reachable
  case slots => exact slots
  case truthful => simp [CacheMoment.ofLog, CacheMoment.Truthful, unasked]
  case hits | misses | negative => simp [CacheMoment.ofLog, CacheMoment.findings, unasked, still]
  case entries =>
    rw [entries, CacheMoment.ofLog, CacheMoment.ofLog, List.countP_singleton, Bool.toNat,
      Bool.cond_eq_ite]
  case generation =>
    rw [generation, List.map_singleton, List.countP_singleton, Bool.toNat, Bool.cond_eq_ite]

theorem booked_put (reachable : node.poisoned = false) {key : K} {slot : Slot E}
    (unasked : exchange.call.lookedUp = []) (stored : exchange.stored? = some (key, slot))
    (kept : exchange.call.removed? = none) : Booked [exchange] node (node.put key slot) := by
  have creates : (CacheMoment.mk node.slots.get? exchange).creates = !node.slots.contains key := by
    simp [CacheMoment.creates, stored, SortedMap.contains]
  apply booked_unasked unasked
  case reachable => exact reachable
  case slots =>
    funext other
    simp [put, SortedMap.get?_insert, CacheExchange.leaves, stored]
  case still => exact ⟨rfl, rfl, rfl⟩
  case entries =>
    rw [creates, put, SortedMap.size_insert]
    exact Nat.add_right_comm _ _ _
  case generation => simp [kept, put]

/-- Dropping keys counts the slots that go and advances the generation once, and touches nothing else. -/
theorem drop_conserves (node : CacheNode K E) (keys : List K) : ∃ slots removals,
    node.drop keys = { node with slots, removals, generation := node.generation + 1 } ∧
      slots.size + removals = node.slots.size + node.removals := by
  have each : ∀ start : CacheNode K E, ∃ slots removals,
      keys.foldl dropSlot start = { start with slots, removals } ∧
        slots.size + removals = start.slots.size + start.removals := by
    induction keys with
    | nil => exact fun start => ⟨start.slots, start.removals, rfl, rfl⟩
    | cons key rest ih =>
      intro start
      obtain ⟨slots, removals, dropped, conserved⟩ := ih (start.dropSlot key)
      refine ⟨slots, removals, ?_, ?_⟩
      · rw [List.foldl_cons, dropped]
        unfold dropSlot
        split
        · rfl
        · rfl
      · rw [conserved]
        unfold dropSlot
        split
        next there =>
          have fewer := SortedMap.size_erase there
          dsimp only
          omega
        next => rfl
  exact each _

theorem booked_drop (reachable : node.poisoned = false) (keys : List K)
    (unasked : exchange.call.lookedUp = []) (unstored : exchange.stored? = none)
    (removed : exchange.call.removed? = some keys) : Booked [exchange] node (node.drop keys) := by
  have creates : (CacheMoment.mk node.slots.get? exchange).creates = false := by
    simp [CacheMoment.creates, unstored]
  have gone : (node.drop keys).slots.get? = exchange.leaves node.slots.get? := by
    funext key
    simp [drop_slots, CacheExchange.leaves, unstored, removed]
  obtain ⟨slots, removals, dropped, conserved⟩ := drop_conserves node keys
  rw [dropped] at gone ⊢
  apply booked_unasked unasked
  case reachable => exact reachable
  case slots => exact gone
  case still => exact ⟨rfl, rfl, rfl⟩
  case entries => rw [creates, conserved, Bool.toNat_false, Nat.add_zero]
  case generation => rw [removed, Option.isSome_some, Bool.toNat_true]

theorem booked_serve (reachable : node.poisoned = false) (call : CacheCall K E) :
    Booked [⟨call, (node.serve call).1⟩] node (node.serve call).2 := by
  cases call with
  | get key =>
    simp only [serve, onSlots_of_reachable reachable, get_eq]
    exact booked_lookups reachable [key] rfl (by simp [CacheExchange.found]) rfl rfl
  | getAll keys =>
    simp only [serve, onSlots_of_reachable reachable, getAll_counted]
    apply booked_lookups reachable keys.toList rfl _ rfl rfl
    intro key within
    exact (get?_getAll key).trans (if_pos within)
  | put key slot =>
    simp only [serve, onSlots_of_reachable reachable]
    exact booked_put reachable rfl rfl rfl
  | generation => exact booked_lookups reachable [] rfl (by simp) rfl rfl
  | putIf key slot generation =>
    by_cases still : node.generation = generation
    · simp only [serve, onSlots_of_reachable reachable, putIf, still, if_true]
      exact booked_put reachable rfl rfl rfl
    · simp only [serve, onSlots_of_reachable reachable, putIf, still, if_false]
      -- Too late to store anything: it books as much as a look-up of no keys.
      exact booked_lookups reachable [] rfl (by simp) rfl rfl
  | remove key | removeLocal key =>
    simp only [serve, onSlots_of_reachable reachable]
    exact booked_drop reachable [key] rfl rfl rfl
  | removeAll keys | removeAllLocal keys =>
    simp only [serve, onSlots_of_reachable reachable]
    exact booked_drop reachable keys.toList rfl rfl rfl

theorem booked_after (reachable : node.poisoned = false) (calls : List (CacheCall K E)) :
    Booked (node.log calls) node (node.after calls) := by
  induction calls generalizing node with
  | nil => exact booked_nil reachable
  | cons call rest ih =>
    have first := booked_serve reachable call
    exact first.cons (ih first.reachable)

omit [DecidableEq K] in
theorem map_call_log (node : CacheNode K E) (calls : List (CacheCall K E)) :
    (node.log calls).map CacheExchange.call = calls := by
  induction calls generalizing node with
  | nil => rfl
  | cons call rest ih => rw [log, List.map_cons, ih]

omit [DecidableEq K] in
theorem after_append (earlier later : List (CacheCall K E)) :
    node.after (earlier ++ later) = (node.after earlier).after later :=
  List.foldl_append

theorem generation_after (reachable : node.poisoned = false) (calls : List (CacheCall K E)) :
    (node.after calls).generation = node.generation + calls.countP (·.removed?.isSome) := by
  rw [(booked_after reachable calls).generation, map_call_log]

section Sums

variable {log : List (CacheExchange K E)}

theorem length_findings (slots : K → Option (Slot E)) :
    ((CacheMoment.ofLog slots log).flatMap CacheMoment.findings).length =
      ((log.map CacheExchange.call).flatMap CacheCall.lookedUp).length := by
  induction log generalizing slots with
  | nil => rfl
  | cons exchange rest ih =>
    rw [CacheMoment.ofLog, List.flatMap_cons, List.length_append, ih, CacheMoment.findings,
      List.length_map, List.map_cons, List.flatMap_cons, List.length_append]

theorem Booked.lookups (booked : Booked log node last) : last.hits + last.misses =
    node.hits + node.misses + ((log.map CacheExchange.call).flatMap CacheCall.lookedUp).length := by
  have missed : (fun finding : Option (Slot E) => decide ¬finding.isSome = true) = Option.isNone := by
    funext finding
    cases finding <;> rfl
  have whole := @length_findings _ _ _ _ log node.slots.get?
  rw [List.length_eq_countP_add_countP Option.isSome, missed] at whole
  rw [booked.hits, booked.misses, ← whole]
  omega

theorem Booked.negative_le_hits (booked : Booked log node last)
    (within : node.negativeHits ≤ node.hits) : last.negativeHits ≤ last.hits := by
  rw [booked.negative, booked.hits]
  apply Nat.add_le_add within
  apply List.countP_mono_left
  intro finding _ absent
  cases finding with
  | none => cases absent
  | some slot => rfl

end Sums

def moments (calls : List (CacheCall K E)) : List (CacheMoment K E) :=
  CacheMoment.ofLog (fun _ => none) (log {} calls)

/-- What the counters of a node say after the calls that were made to it since it was new. -/
structure Conserved (calls : List (CacheCall K E)) (node : CacheNode K E) : Prop where
  truthful : ∀ moment ∈ moments calls, moment.Truthful
  lookups : node.stats.hits + node.stats.misses = (calls.flatMap CacheCall.lookedUp).length
  hits : node.stats.hits = ((moments calls).flatMap CacheMoment.findings).countP Option.isSome
  negative : node.stats.negativeHits =
    ((moments calls).flatMap CacheMoment.findings).countP (·.any Slot.isAbsent)
  negative_le_hits : node.stats.negativeHits ≤ node.stats.hits
  entries : node.stats.entryCount + node.stats.removals = (moments calls).countP CacheMoment.creates
  generation : node.generation = calls.countP (·.removed?.isSome)
  advances : ∀ earlier later, calls = earlier ++ later →
    (∃ call ∈ later, call.removed?.isSome = true) → (after {} earlier).generation < node.generation

/-- The counters of a cache that was new can be read off the calls and their answers, and as every removal
advances the generation, one noted before a removal is never met again after it. -/
theorem conserved_after (calls : List (CacheCall K E)) : Conserved calls (after {} calls) := by
  have booked : Booked (log {} calls) {} (after {} calls) := booked_after rfl calls
  have lookups := booked.lookups
  rw [map_call_log] at lookups
  constructor
  case truthful => exact booked.truthful
  case lookups => exact lookups.trans (Nat.zero_add _)
  case hits => exact booked.hits.trans (Nat.zero_add _)
  case negative => exact booked.negative.trans (Nat.zero_add _)
  case negative_le_hits => exact booked.negative_le_hits (Nat.le_refl 0)
  case entries =>
    simp only [stats, size, booked.reachable, Bool.false_eq_true, if_false]
    exact booked.entries.trans (Nat.zero_add _)
  case generation => exact (generation_after rfl calls).trans (Nat.zero_add _)
  case advances =>
    rintro earlier later rfl ⟨call, within, removal⟩
    have removals : 0 < later.countP (·.removed?.isSome) :=
      List.countP_pos_iff.mpr ⟨call, within, removal⟩
    rw [after_append, generation_after (booked_after rfl earlier).reachable]
    exact Nat.lt_add_of_pos_right removals

/-- A fill, one that comes too late, overwritten slots, and removals of keys that have none. -/
def browsing : List (CacheCall Int64 String) :=
  [.get 1, .putIf 1 (.present "ann") 0, .put 2 .absent, .getAll (.ofList [1, 2, 3]),
    .put 2 (.present "bob"), .removeAll (.ofList [2, 3, 4]), .putIf 2 (.present "late") 0,
    .get 2, .removeLocal 5, .putIf 2 .absent 2, .put 1 .absent, .getAll (.ofList [1, 2])]

example : (after {} browsing).stats =
      { hits := 4, misses := 3, negativeHits := 3, entryCount := 2, removals := 1 } ∧
    (after {} browsing).generation = 2 ∧ (moments browsing).countP CacheMoment.creates = 3 := by
  decide +kernel

end CacheNode

end OptimisticStore
