/-!
A clock whose stamps never repeat and never step back, whatever the wall clock does.

A stamp is drawn in two atomic moves: read the latest stamp, then exchange it for `Clock.next`, which
takes effect only if no other writer moved the clock in between. Main statements: the next stamp is
above the latest one and not below the reading.
-/
namespace OptimisticStore

structure Clock where
  latest : Int := 0
  drawn : Nat := 0
deriving DecidableEq, Inhabited

namespace Clock

def next (latest reading : Int) : Int := if reading > latest then reading else latest + 1

theorem latest_lt_next (latest reading : Int) : latest < next latest reading := by
  unfold next; split <;> omega

theorem reading_le_next (latest reading : Int) : reading ≤ next latest reading := by
  unfold next; split <;> omega

/-- Put `stamp` in place of the latest stamp, if that is still `seen`. -/
def exchange (clock : Clock) (seen stamp : Int) : Option Clock :=
  if clock.latest = seen then some { latest := stamp, drawn := clock.drawn + 1 } else none

/-- Draw a stamp when no other writer is in the way. -/
def tick (clock : Clock) (reading : Int) : Int × Clock :=
  let stamp := next clock.latest reading
  (stamp, { latest := stamp, drawn := clock.drawn + 1 })

def ticks (clock : Clock) : List Int → List Int
  | [] => []
  | reading :: rest =>
    let (stamp, after) := clock.tick reading
    stamp :: after.ticks rest

end Clock

end OptimisticStore
