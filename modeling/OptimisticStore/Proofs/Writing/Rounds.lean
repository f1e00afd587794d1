import OptimisticStore.Model.Retry
import OptimisticStore.Model.World
import OptimisticStore.Sample.Account
/-!
In which round an operation that is tried again ends, and how.

Nothing is assumed of the surroundings or of the attempts: rounds are looked at one after another, as
they would be played to their ends, and the operation stops in the first one that gives it a reason to
(`attempts_stops`). Main statement: `retrying_stops`, which adds what an operation does before its first
round and what follows about the attempts it makes and the conflicts it reports.
-/
namespace OptimisticStore.Retry

open Program

variable {K E S α : Type} [Key K]

/-- A look at whether to stop, an attempt, and a pause, each with the state after it. -/
structure Round (α S : Type) where
  told : Bool
  looked : S
  outcome : Except Error α
  tried : S
  waited : Bool
  rested : S

section Rounds

variable (serve : (call : Call K E) → StateM S call.Answer) (attempt : Program K E (Except Error α))

/-- The round that begins in a state, to its end, whether or not an operation gets that far. -/
def Round.starting (state : S) : Round α S :=
  let look := (serve .stopped).run state
  let trial := (Task.run (V := calls K E) serve attempt).run look.2
  let rest := (serve .pause).run trial.2
  { told := look.1, looked := look.2, outcome := trial.1, tried := trial.2
    waited := rest.1, rested := rest.2 }

def rounds (start : S) : Nat → Round α S
  | 0 => .starting serve attempt start
  | number + 1 => .starting serve attempt (rounds start number).rested

theorem rounds_succ (start : S) (number : Nat) :
    rounds serve attempt start (number + 1) =
      rounds serve attempt (Round.starting serve attempt start).rested number := by
  induction number with
  | zero => rfl
  | succ number ih =>
    rw [rounds, ih]
    rfl

end Rounds

namespace Round

variable (kind label : String) (ambient : Bool) (budget number : Nat)

structure GoesOn (round : Round α S) : Prop where
  untold : round.told = false
  conflict : ∃ cause, round.outcome = .error cause ∧ cause.isRetryable = true
  outside : ambient = false
  more : number + 1 < budget
  waited : round.waited = true

inductive Ends (round : Round α S) : Except Error α → S → Prop where
  | told (told : round.told = true) :
      Ends round (.error (.update (.interrupted kind label))) round.looked
  | settled (untold : round.told = false)
      (settled : ∀ cause, round.outcome = .error cause → cause.isRetryable = false) :
      Ends round round.outcome round.tried
  | ambient {cause : Error} (untold : round.told = false) (failed : round.outcome = .error cause)
      (retryable : cause.isRetryable = true) (within : ambient = true) :
      Ends round (.error cause) round.tried
  | exhausted {cause : Error} (untold : round.told = false) (failed : round.outcome = .error cause)
      (retryable : cause.isRetryable = true) (outside : ambient = false) (last : number + 1 = budget) :
      Ends round (.error (.update (.exhausted kind label budget))) round.tried
  | roused {cause : Error} (untold : round.told = false) (failed : round.outcome = .error cause)
      (retryable : cause.isRetryable = true) (outside : ambient = false) (more : number + 1 < budget)
      (roused : round.waited = false) :
      Ends round (.error (.update (.interrupted kind label))) round.rested

end Round

section Loop

variable {serve : (call : Call K E) → StateM S call.Answer} {attempt : Program K E (Except Error α)}
  {kind label : String} {ambient : Bool} {budget number left : Nat} {start last : S}
  {result : Except Error α}

theorem Round.Ends.of_outcome {round : Round α S} (untold : round.told = false)
    (outcome : round.outcome = result)
    (settled : ∀ cause, result = .error cause → cause.isRetryable = false) :
    round.Ends kind label ambient budget number result round.tried := by
  subst outcome
  exact .settled untold settled

theorem run_then {β γ : Type} (program : Program K E β) (next : β → Program K E γ) (state : S) :
    (Task.run (V := calls K E) serve (program >>= next)).run state =
      let first := (Task.run (V := calls K E) serve program).run state
      (Task.run (V := calls K E) serve (next first.1)).run first.2 := by
  rw [Task.run_bind]
  rfl

theorem attempts_round (total : number + (left + 1) = budget)
    (run : (Task.run (V := calls K E) serve
      (attempts kind label ambient budget attempt (left + 1))).run start = (result, last)) :
    let round := Round.starting serve attempt start
    round.Ends kind label ambient budget number result last ∨
      round.GoesOn ambient budget number ∧ (Task.run (V := calls K E) serve
        (attempts kind label ambient budget attempt left)).run round.rested = (result, last) := by
  intro round
  have looked : (Task.run (V := calls K E) serve stopped).run start = (round.told, round.looked) := rfl
  have tried : (Task.run (V := calls K E) serve attempt).run round.looked =
      (round.outcome, round.tried) := rfl
  have rested : (Task.run (V := calls K E) serve pause).run round.tried =
      (round.waited, round.rested) := rfl
  -- The cases come in the order of their priority: each exit supposes that those before it are not taken.
  rw [attempts, run_then, looked] at run
  dsimp only at run
  split at run
  next told =>
    obtain ⟨rfl, rfl⟩ := Prod.mk.inj run
    exact .inl (.told told)
  next awake =>
    have untold : round.told = false := Bool.eq_false_iff.mpr awake
    rw [run_then, tried] at run
    cases outcome : round.outcome with
    | ok value =>
      rw [outcome] at run
      obtain ⟨rfl, rfl⟩ := Prod.mk.inj run
      refine .inl (.of_outcome untold outcome ?_)
      intro cause failed
      cases failed
    | error cause =>
      rw [outcome] at run
      cases retryable : cause.isRetryable with
      | false =>
        simp only [retryable] at run
        obtain ⟨rfl, rfl⟩ := Prod.mk.inj run
        refine .inl (.of_outcome untold outcome ?_)
        intro other failed
        obtain rfl := Except.error.inj failed
        exact retryable
      | true =>
        cases ambient with
        | true =>
          simp only [retryable] at run
          obtain ⟨rfl, rfl⟩ := Prod.mk.inj run
          exact .inl (.ambient untold outcome retryable rfl)
        | false =>
          simp only [retryable, Bool.not_true, Bool.or_false, Bool.false_eq_true, if_false] at run
          split at run
          next none =>
            obtain ⟨rfl, rfl⟩ := Prod.mk.inj run
            exact .inl (.exhausted untold outcome retryable rfl (by omega))
          next some =>
            rw [run_then, rested] at run
            dsimp only at run
            split at run
            next waited =>
              exact .inr ⟨⟨untold, ⟨cause, outcome, retryable⟩, rfl, by omega, waited⟩, run⟩
            next roused =>
              obtain ⟨rfl, rfl⟩ := Prod.mk.inj run
              exact .inl (.roused untold outcome retryable rfl (by omega) (Bool.eq_false_iff.mpr roused))

/-- An operation ends in the first round after which it does not go on. -/
theorem attempts_stops (total : number + left = budget) (some : 0 < left)
    (run : (Task.run (V := calls K E) serve
      (attempts kind label ambient budget attempt left)).run start = (result, last)) :
    ∃ later, number + later < budget ∧
      (∀ earlier < later,
        (rounds serve attempt start earlier).GoesOn ambient budget (number + earlier)) ∧
      (rounds serve attempt start later).Ends kind label ambient budget (number + later) result last := by
  -- Rounds are counted from where they start, so a round played moves the start and the numbers by one.
  induction left generalizing number start with
  | zero => omega
  | succ left ih =>
    rcases attempts_round total run with ends | ⟨goesOn, rest⟩
    · exact ⟨0, by omega, fun _ none => absurd none (Nat.not_lt_zero _), ends⟩
    · have more := goesOn.more
      have fewer : number + 1 + left = budget := by omega
      obtain ⟨later, within, before, ends⟩ := ih fewer (by omega) rest
      refine ⟨later + 1, by omega, ?_, ?_⟩
      · intro earlier less
        cases earlier with
        | zero => exact goesOn
        | succ earlier =>
          rw [rounds_succ, Nat.add_comm earlier, ← Nat.add_assoc]
          exact before earlier (by omega)
      · rw [rounds_succ, Nat.add_comm later, ← Nat.add_assoc]
        exact ends

theorem Round.Ends.conflict_free {round : Round α S} {cause : StoreError}
    (ends : round.Ends kind label false budget number result last)
    (retryable : cause.isRetryable = true) : result ≠ .error (.store cause) := by
  intro same
  cases ends with
  | told => cases same
  | settled untold settled =>
    have final : cause.isRetryable = false := settled _ same
    rw [retryable] at final
    cases final
  | ambient _ _ _ within => cases within
  | exhausted => cases same
  | roused => cases same

/-- What counts the attempts, and nothing else that an operation does between them. -/
structure Counts (serve : (call : Call K E) → StateM S call.Answer)
    (attempt : Program K E (Except Error α)) (made : S → Nat) : Prop where
  looking : ∀ state, made ((serve .stopped).run state).2 = made state
  trying : ∀ state,
    made ((Task.run (V := calls K E) serve attempt).run state).2 = made state + 1
  pausing : ∀ state, made ((serve .pause).run state).2 = made state

variable {made : S → Nat}

theorem Counts.starting (counts : Counts serve attempt made) (state : S) :
    let round := Round.starting serve attempt state
    made round.looked = made state ∧ made round.tried = made state + 1 ∧
      made round.rested = made state + 1 := by
  intro round
  have looked : made round.looked = made state := counts.looking state
  have tried : made round.tried = made round.looked + 1 := counts.trying round.looked
  have rested : made round.rested = made round.tried := counts.pausing round.tried
  exact ⟨looked, by omega, by omega⟩

theorem Counts.through (counts : Counts serve attempt made) (start : S) (number : Nat) :
    let round := rounds serve attempt start number
    made round.looked = made start + number ∧ made round.tried = made start + number + 1 ∧
      made round.rested = made start + number + 1 := by
  induction number with
  | zero => exact counts.starting start
  | succ number ih =>
    obtain ⟨_, _, before⟩ := ih
    obtain ⟨looked, tried, rested⟩ := counts.starting (rounds serve attempt start number).rested
    exact ⟨looked.trans before, by rw [rounds]; omega, by rw [rounds]; omega⟩

theorem Counts.ended (counts : Counts serve attempt made)
    (ends : (rounds serve attempt start number).Ends kind label ambient budget number result last) :
    made last = made start +
      if (rounds serve attempt start number).told then number else number + 1 := by
  obtain ⟨looked, tried, rested⟩ := counts.through start number
  cases ends with
  | told told => rw [if_pos told, looked]
  | settled untold => rw [untold, tried]; rfl
  | ambient untold => rw [untold, tried]; rfl
  | exhausted untold => rw [untold, tried]; rfl
  | roused untold => rw [untold, rested]; rfl

end Loop

structure Script (α : Type) where
  ambient : Bool
  told : Nat → Bool
  outcome : Nat → Except Error α
  waited : Nat → Bool

namespace Script

def serving (script : Script α) (others : (call : Call K E) → StateM S call.Answer) (call : Call K E) :
    StateM (Nat × S) call.Answer := fun now =>
  match call with
  | .store .inTransaction => (script.ambient, now)
  | .stopped => (script.told now.1, now)
  | .tick => (now.1, now.1 + 1, now.2)
  | .pause => (script.waited (now.1 - 1), now)
  | call =>
    let (answer, left) := (others call).run now.2
    (answer, now.1, left)

def trial (script : Script α) : Program K E (Except Error α) := do
  let number ← tick
  return script.outcome number.toNat

variable (script : Script α) (others : (call : Call K E) → StateM S call.Answer)

theorem rounds_eq (state : S) (number : Nat) :
    rounds (script.serving others) script.trial (0, state) number =
      { told := script.told number, looked := (number, state)
        outcome := script.outcome number, tried := (number + 1, state)
        waited := script.waited number, rested := (number + 1, state) } := by
  induction number with
  | zero => rfl
  | succ number ih =>
    rw [rounds, ih]
    rfl

theorem counts : Counts (script.serving others) script.trial Prod.fst where
  looking _ := rfl
  trying _ := rfl
  pausing _ := rfl

theorem followed (script : Script α) (others : (call : Call K E) → StateM S call.Answer) (state : S) :
    Counts (script.serving others) script.trial Prod.fst ∧
      (script.serving others (.store .inTransaction)).run (0, state) = (script.ambient, 0, state) ∧
      ∀ number, let round := rounds (script.serving others) script.trial (0, state) number
        round.told = script.told number ∧ round.outcome = script.outcome number ∧
          round.waited = script.waited number := by
  refine ⟨script.counts others, rfl, fun number => ?_⟩
  rw [script.rounds_eq]
  exact ⟨rfl, rfl, rfl⟩

end Script

section Retrying

variable {serve : (call : Call K E) → StateM S call.Answer} {attempt : Program K E (Except Error α)}
  {kind label : String} {policy : RetryPolicy} {ambient : Bool} {start now last : S}
  {result : Except Error α}

theorem run_retrying (asked : (serve (.store .inTransaction)).run start = (ambient, now)) :
    (Task.run (V := calls K E) serve (retrying kind policy.atLeastOnce label attempt)).run start =
      let budget := if ambient then 1 else max policy.maxIterations 1
      (Task.run (V := calls K E) serve
        (if ambient && !policy.allowAmbientTransaction then
          pure (.error (.update (.ambientTransaction kind)))
        else attempts kind label ambient budget attempt budget)).run now := by
  obtain ⟨rfl, rfl⟩ := Prod.mk.inj asked
  rfl

theorem retrying_declines (asked : (serve (.store .inTransaction)).run start = (true, now))
    (forbids : policy.allowAmbientTransaction = false) :
    (Task.run (V := calls K E) serve (retrying kind policy.atLeastOnce label attempt)).run start =
      (.error (.update (.ambientTransaction kind)), now) := by
  rw [run_retrying asked]
  dsimp only
  rw [if_pos (by simp [forbids])]
  rfl

theorem retrying_ends (asked : (serve (.store .inTransaction)).run start = (ambient, now))
    (permitted : ambient = false ∨ policy.allowAmbientTransaction = true)
    (run : (Task.run (V := calls K E) serve
      (retrying kind policy.atLeastOnce label attempt)).run start = (result, last)) :
    let budget := if ambient then 1 else max policy.maxIterations 1
    ∃ number < budget,
      (∀ earlier < number, (rounds serve attempt now earlier).GoesOn ambient budget earlier) ∧
      (rounds serve attempt now number).Ends kind label ambient budget number result last := by
  intro budget
  have some : 0 < budget := by
    simp only [budget]
    split
    · omega
    · omega
  have allowed : (ambient && !policy.allowAmbientTransaction) = false := by
    rcases permitted with outside | allows
    · simp [outside]
    · simp [allows]
  rw [run_retrying asked] at run
  dsimp only at run
  rw [if_neg (by simp [allowed])] at run
  obtain ⟨number, within, before, ends⟩ := attempts_stops (Nat.zero_add budget) some run
  simp only [Nat.zero_add] at within before ends
  exact ⟨number, within, before, ends⟩

theorem retrying_reports {cause : StoreError}
    (asked : (serve (.store .inTransaction)).run start = (false, now))
    (run : (Task.run (V := calls K E) serve
      (retrying kind policy.atLeastOnce label attempt)).run start = (result, last))
    (retryable : cause.isRetryable = true) : result ≠ .error (.store cause) := by
  obtain ⟨_, _, _, ends⟩ := retrying_ends asked (.inl rfl) run
  exact ends.conflict_free retryable

end Retrying

/-- Inside a transaction that its policy does not allow, an operation makes no attempt. Otherwise it ends in
the first round that does not go on, of as many as the policy allows and of one inside a transaction, with
one attempt made in each round and none after it was told to stop; and outside a transaction no conflict is
reported that another attempt might have resolved. The rounds may come to anything, since every script is
followed by some surroundings and attempts. -/
theorem retrying_stops (serve : (call : Call K E) → StateM S call.Answer)
    (attempt : Program K E (Except Error α)) (kind label : String) (policy : RetryPolicy) (start : S) :
    let asked := (serve (.store .inTransaction)).run start
    let ran := (Task.run (V := calls K E) serve
      (retrying kind policy.atLeastOnce label attempt)).run start
    let budget := if asked.1 then 1 else max policy.maxIterations 1
    let round := rounds serve attempt asked.2
    (asked.1 = true ∧ policy.allowAmbientTransaction = false →
      ran = (.error (.update (.ambientTransaction kind)), asked.2)) ∧
    (asked.1 = false ∨ policy.allowAmbientTransaction = true →
      ∃ number < budget,
        (∀ earlier < number, (round earlier).GoesOn asked.1 budget earlier) ∧
        (round number).Ends kind label asked.1 budget number ran.1 ran.2 ∧
        ∀ made, Counts serve attempt made →
          made ran.2 = made asked.2 + if (round number).told then number else number + 1) ∧
    (asked.1 = false → ∀ cause, cause.isRetryable = true → ran.1 ≠ .error (.store cause)) ∧
    ∀ script : Script α, ∃ (serve : (call : Call K E) → StateM (Nat × S) call.Answer)
        (attempt : Program K E (Except Error α)) (start : Nat × S),
      Counts serve attempt Prod.fst ∧
      (serve (.store .inTransaction)).run start = (script.ambient, start) ∧
      ∀ number, (rounds serve attempt start number).told = script.told number ∧
        (rounds serve attempt start number).outcome = script.outcome number ∧
        (rounds serve attempt start number).waited = script.waited number := by
  intro asked ran budget round
  have asks : (serve (.store .inTransaction)).run start = (asked.1, asked.2) := rfl
  have runs : (Task.run (V := calls K E) serve
      (retrying kind policy.atLeastOnce label attempt)).run start = (ran.1, ran.2) := rfl
  refine ⟨?_, ?_, ?_, ?_⟩
  · rintro ⟨ambient, forbids⟩
    rw [ambient] at asks
    exact retrying_declines asks forbids
  · intro permitted
    obtain ⟨number, within, before, ends⟩ := retrying_ends asks permitted runs
    exact ⟨number, within, before, ends, fun made counts => counts.ended ends⟩
  · intro outside cause retryable
    rw [outside] at asks
    exact retrying_reports asks runs retryable
  · intro script
    exact ⟨script.serving serve, script.trial, (0, start), script.followed serve start⟩

section Deadline

/-- Somebody else is always first, and the second pause is cut short. -/
def overtaken : Script Unit where
  ambient := false
  told _ := false
  outcome _ := .error (.store (.concurrentModification "account" "1"))
  waited number := number == 0

def onlooker : Client Int64 Account where
  reading drawn := drawn
  mutate account := (account, .unchanged)
  create _ := .fresh "nobody" 0

def afterScript (script : Script Unit) (policy : RetryPolicy) :
    Except Error Unit × Nat × World Int64 Account :=
  (Task.run (V := calls Int64 Account) (script.serving (World.serve Account.family onlooker))
    (retrying "account" policy.atLeastOnce "1" script.trial)).run (0, {})

theorem retrying_stops_overtaken :
    let round := rounds (overtaken.serving (World.serve Account.family onlooker)) overtaken.trial (0, {})
    let ran := afterScript overtaken { maxIterations := 5 }
    ran.1 = .error (.update (.interrupted "account" "1")) ∧ ran.2.1 = 2 ∧
    (∃ number < 5, (∀ earlier < number, (round earlier).GoesOn false 5 earlier) ∧
      (round number).Ends "account" "1" false 5 number ran.1 ran.2 ∧
      ran.2.1 = if (round number).told then number else number + 1) ∧
    ran.1 ≠ .error (.store (.concurrentModification "account" "1")) ∧
    afterScript { overtaken with ambient := true } {} =
      (.error (.update (.ambientTransaction "account")), 0, {}) := by
  intro round ran
  obtain ⟨_, stops, reports, _⟩ := retrying_stops
    (overtaken.serving (World.serve Account.family onlooker)) overtaken.trial "account" "1"
    { maxIterations := 5 } (0, {})
  obtain ⟨number, within, before, ends, counted⟩ := stops (.inl rfl)
  have made := counted Prod.fst (overtaken.counts _)
  refine ⟨rfl, rfl, ⟨number, within, before, ends, made.trans (Nat.zero_add _)⟩, ?_, ?_⟩
  · exact reports rfl (.concurrentModification "account" "1") rfl
  · exact (retrying_stops ({ overtaken with ambient := true : Script Unit }.serving
      (World.serve Account.family onlooker)) overtaken.trial "account" "1" {} (0, {})).1 ⟨rfl, rfl⟩

end Deadline

end OptimisticStore.Retry
