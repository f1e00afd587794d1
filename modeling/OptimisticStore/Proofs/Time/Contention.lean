import Mathlib.Data.List.Nodup
import Mathlib.Logic.Function.Basic
import Mathlib.Logic.Relation
import OptimisticStore.Time.Clock
/-!
Stamps drawn from one clock by many clients at once.

A client reads the wall clock, looks at the latest stamp and exchanges it for the next one; if the
exchange fails it looks again, but does not read the wall clock again. A look may show a stamp that is
out of date, and an exchange may fail for no reason. Main statement: `ClockRoom.ordered_of_reachable`, by
which the stamps are those of one client that draws them one after another, in the order of the
exchanges that took effect.
-/
namespace OptimisticStore

namespace Clock

def ticked (clock : Clock) (readings : List Int) : Clock :=
  readings.foldl (fun clock reading => (clock.tick reading).2) clock

theorem ticked_concat (clock : Clock) (readings : List Int) (reading : Int) :
    clock.ticked (readings ++ [reading]) = ((clock.ticked readings).tick reading).2 := by
  simp [ticked]

theorem ticks_concat (clock : Clock) (readings : List Int) (reading : Int) :
    clock.ticks (readings ++ [reading]) =
      clock.ticks readings ++ [((clock.ticked readings).tick reading).1] := by
  induction readings generalizing clock with
  | nil => rfl
  | cons first rest ih =>
    simp only [List.cons_append, ticks, ih]
    rfl

theorem ticks_ascend (clock : Clock) (readings : List Int) :
    (∀ stamp ∈ clock.ticks readings, clock.latest < stamp) ∧ (clock.ticks readings).Pairwise (· < ·) := by
  induction readings generalizing clock with
  | nil => exact ⟨nofun, .nil⟩
  | cons reading rest ih =>
    obtain ⟨above, ascending⟩ := ih (clock.tick reading).2
    have first : clock.latest < (clock.tick reading).1 := latest_lt_next _ _
    constructor
    · intro stamp within
      rcases List.mem_cons.mp within with rfl | later
      · exact first
      · exact Int.lt_trans first (above stamp later)
    · exact List.pairwise_cons.mpr ⟨above, ascending⟩

/-- An exchange that takes effect draws a stamp as if nobody else were there, whenever the wall clock was
read. -/
theorem tick_of_exchange {clock after : Clock} {seen reading : Int}
    (moved : clock.exchange seen (next seen reading) = some after) :
    clock.tick reading = (next seen reading, after) := by
  unfold exchange at moved
  split at moved
  next same =>
    subst same
    obtain rfl := Option.some.inj moved
    rfl
  next => cases moved

/-- In 64-bit words the next stamp is the same while the latest one is below the largest word. -/
theorem toInt_next_word {latest reading : Int64} (below : latest < Int64.maxValue) :
    (if reading > latest then reading else latest + 1).toInt = next latest.toInt reading.toInt := by
  rw [Int64.lt_iff_toInt_lt] at below
  have least := latest.le_toInt
  have most : Int64.maxValue.toInt = 2 ^ 63 - 1 := by decide
  unfold next
  simp only [gt_iff_lt, Int64.lt_iff_toInt_lt]
  split
  · rfl
  · rw [Int64.toInt_add, Int64.toInt_one]
    exact Int.bmod_eq_of_le (by omega) (by omega)

inductive Stage where
  | idle
  | timed (reading : Int)
  | looking (reading seen : Int)
  /-- The exchange took effect, and the stamp is yet to be returned. -/
  | drawn (stamp : Int)
deriving DecidableEq

def Stage.due : Stage → List Int
  | .drawn stamp => [stamp]
  | _ => []

structure Draw (ι : Type) where
  client : ι
  reading : Int
  stamp : Int
deriving DecidableEq

end Clock

structure ClockRoom (ι : Type) where
  clock : Clock
  /-- All stamps that a look may show. -/
  shown : List Int
  stages : ι → Clock.Stage := fun _ => .idle
  /-- The draws in the order in which their exchanges took effect. -/
  draws : List (Clock.Draw ι) := []
  /-- The stamps returned to a client, in order. -/
  told : ι → List Int := fun _ => []

namespace ClockRoom

variable {ι : Type}

def opened (clock : Clock) : ClockRoom ι := { clock, shown := [clock.latest] }

def stamps (room : ClockRoom ι) : List Int := room.draws.map Clock.Draw.stamp

def readings (room : ClockRoom ι) : List Int := room.draws.map Clock.Draw.reading

variable [DecidableEq ι]

def enter (room : ClockRoom ι) (i : ι) (stage : Clock.Stage) : ClockRoom ι :=
  { room with stages := Function.update room.stages i stage }

def stampsOf (room : ClockRoom ι) (i : ι) : List Int :=
  (room.draws.filter (·.client = i)).map Clock.Draw.stamp

/-- The wall clock may show anything, and so may a look among the stamps that there have been. Whether or
not another client has moved the clock, an exchange may fail, and shows a stamp. -/
inductive Step : ClockRoom ι → ClockRoom ι → Prop where
  | reads {room : ClockRoom ι} (i : ι) (reading : Int) (idle : room.stages i = .idle) :
      Step room (room.enter i (.timed reading))
  | looks {room : ClockRoom ι} (i : ι) (seen : Int) {reading : Int} (timed : room.stages i = .timed reading)
      (shown : seen ∈ room.shown) : Step room (room.enter i (.looking reading seen))
  | fails {room : ClockRoom ι} (i : ι) (seen : Int) {reading missed : Int}
      (looking : room.stages i = .looking reading missed) (shown : seen ∈ room.shown) :
      Step room (room.enter i (.looking reading seen))
  | exchanges {room : ClockRoom ι} (i : ι) {reading seen : Int} {after : Clock}
      (looking : room.stages i = .looking reading seen)
      (moved : room.clock.exchange seen (Clock.next seen reading) = some after) :
      Step room { room.enter i (.drawn (Clock.next seen reading)) with
        clock := after
        shown := Clock.next seen reading :: room.shown
        draws := room.draws ++ [⟨i, reading, Clock.next seen reading⟩] }
  | returns {room : ClockRoom ι} (i : ι) {stamp : Int} (drawn : room.stages i = .drawn stamp) :
      Step room { room.enter i .idle with
        told := Function.update room.told i (room.told i ++ [stamp]) }

abbrev Reachable : ClockRoom ι → ClockRoom ι → Prop := Relation.ReflTransGen Step

/-- The stamps are those that one client draws one after another at the readings of the draws; each
client is told its own, in the order of its draws, up to one that is yet to be returned. -/
structure Serial (start : Clock) (room : ClockRoom ι) : Prop where
  clock : room.clock = start.ticked room.readings
  stamps : room.stamps = start.ticks room.readings
  reading_le : ∀ draw ∈ room.draws, draw.reading ≤ draw.stamp
  told : ∀ i, room.told i ++ (room.stages i).due = room.stampsOf i

/-- Later exchanges draw later stamps, none of them before the reading of its client. So the stamps told
to a client increase, and no two clients are told the same. -/
structure Ordered (start : Clock) (room : ClockRoom ι) : Prop extends Serial start room where
  above : ∀ draw ∈ room.draws, start.latest < draw.stamp
  ascending : room.draws.Pairwise fun earlier later => earlier.stamp < later.stamp
  own : ∀ i, (room.told i).Pairwise (· < ·)
  apart : ∀ i j, i ≠ j → (room.told i).Disjoint (room.told j)

section Steps

variable {start : Clock} {room after : ClockRoom ι}

theorem Serial.enter {i : ι} {stage : Clock.Stage} (serial : room.Serial start)
    (due : stage.due = (room.stages i).due) : (room.enter i stage).Serial start := by
  obtain ⟨clock, stamps, reading_le, told⟩ := serial
  refine ⟨clock, stamps, reading_le, fun j => ?_⟩
  change room.told j ++ (Function.update room.stages i stage j).due = room.stampsOf j
  by_cases same : j = i
  · subst same
    rw [Function.update_self, due]
    exact told j
  · rw [Function.update_of_ne same]
    exact told j

theorem Serial.of_step (serial : room.Serial start) (step : Step room after) : after.Serial start := by
  cases step with
  | reads i reading idle => exact serial.enter (by rw [idle]; rfl)
  | looks i seen timed => exact serial.enter (by rw [timed]; rfl)
  | fails i seen looking => exact serial.enter (by rw [looking]; rfl)
  | @exchanges i reading seen clock looking moved =>
    have drawn := Clock.tick_of_exchange moved
    let draw : Clock.Draw ι := ⟨i, reading, Clock.next seen reading⟩
    have readings : (room.draws ++ [draw]).map Clock.Draw.reading = room.readings ++ [reading] :=
      List.map_append
    constructor
    · change clock = start.ticked (List.map _ _)
      rw [readings, Clock.ticked_concat, ← serial.clock, drawn]
    · change List.map _ _ = start.ticks (List.map _ _)
      rw [readings, Clock.ticks_concat, ← serial.clock, drawn, ← serial.stamps]
      exact List.map_append
    · intro draw within
      rcases List.mem_append.mp within with earlier | last
      · exact serial.reading_le draw earlier
      · obtain rfl := List.mem_singleton.mp last
        exact Clock.reading_le_next _ _
    · intro j
      have told := serial.told j
      change room.told j ++ (Function.update room.stages i _ j).due =
        ((room.draws ++ [_]).filter _).map _
      rw [List.filter_append, List.map_append]
      by_cases same : j = i
      · subst same
        rw [looking] at told
        rw [Function.update_self, ← stampsOf, ← told]
        simp [Clock.Stage.due]
      · rw [Function.update_of_ne same, told]
        simp [stampsOf, Ne.symm same]
  | @returns i stamp drawn =>
    obtain ⟨clock, stamps, reading_le, told⟩ := serial
    refine ⟨clock, stamps, reading_le, fun j => ?_⟩
    change Function.update room.told i _ j ++ (Function.update room.stages i _ j).due = room.stampsOf j
    rw [← told j]
    by_cases same : j = i
    · subst same
      simp [drawn, Clock.Stage.due]
    · rw [Function.update_of_ne same, Function.update_of_ne same]

theorem serial_opened : (opened start : ClockRoom ι).Serial start := ⟨rfl, rfl, nofun, fun _ => rfl⟩

theorem Serial.of_reachable (reached : Reachable (opened start) room) : room.Serial start := by
  induction reached with
  | refl => exact serial_opened
  | tail _ step ih => exact ih.of_step step

theorem Serial.ascending (serial : room.Serial start) :
    room.draws.Pairwise fun earlier later => earlier.stamp < later.stamp := by
  apply List.pairwise_map.mp
  change room.stamps.Pairwise _
  rw [serial.stamps]
  exact (start.ticks_ascend _).2

theorem Serial.drawn_of_told (serial : room.Serial start) {i : ι} {stamp : Int}
    (told : stamp ∈ room.told i) : ∃ draw ∈ room.draws, draw.client = i ∧ draw.stamp = stamp := by
  have among : stamp ∈ room.stampsOf i := serial.told i ▸ List.mem_append_left _ told
  obtain ⟨draw, within, rfl⟩ := List.mem_map.mp among
  obtain ⟨drawn, client⟩ := List.mem_filter.mp within
  exact ⟨draw, drawn, of_decide_eq_true client, rfl⟩

theorem Serial.ordered (serial : room.Serial start) : room.Ordered start := by
  have ascending := serial.ascending
  refine ⟨serial, ?_, ascending, ?_, ?_⟩
  · intro draw within
    have among : draw.stamp ∈ room.stamps := List.mem_map_of_mem within
    rw [serial.stamps] at among
    exact (start.ticks_ascend _).1 _ among
  · intro i
    have all : (room.stampsOf i).Pairwise (· < ·) := List.pairwise_map.mpr (ascending.filter _)
    rw [← serial.told i] at all
    exact (List.pairwise_append.mp all).1
  · intro i j distinct stamp first second
    obtain ⟨draw, drawn, rfl, same⟩ := serial.drawn_of_told first
    obtain ⟨other, otherDrawn, rfl, otherSame⟩ := serial.drawn_of_told second
    have once : (room.draws.map Clock.Draw.stamp).Nodup :=
      (List.pairwise_map.mpr ascending).imp fun less => Int.ne_of_lt less
    have alike := List.inj_on_of_nodup_map once drawn otherDrawn (same.trans otherSame.symm)
    exact distinct (congrArg Clock.Draw.client alike)

end Steps

/-- Whatever the wall clock shows and however the clients of one clock get in each other's way, their
stamps are drawn in order. In 64-bit words it is the same as long as no stamp comes to the largest word. -/
theorem ordered_of_reachable {start : Clock} {room : ClockRoom ι} (reached : Reachable (opened start) room) :
    room.Ordered start ∧ ∀ latest reading : Int64, latest < Int64.maxValue →
      (if reading > latest then reading else latest + 1).toInt =
        Clock.next latest.toInt reading.toInt :=
  ⟨(Serial.of_reachable reached).ordered, fun _ _ => Clock.toInt_next_word⟩

/-- The wall clock is behind. Client 1 comes first, so the exchange of client 0 fails, and once more after
a look at the stamp before; then client 1 draws again and is told its stamp before client 0 is. -/
theorem ordered_of_reachable_race : ∃ room : ClockRoom Nat, Reachable (opened { latest := 7 }) room ∧
    room.Ordered { latest := 7 } ∧ room.stamps = [8, 9, 20] ∧ room.told 0 = [9] ∧
    room.told 1 = [8, 20] := by
  have start : Reachable (opened { latest := 7 } : ClockRoom Nat) _ := .refl
  have both := (((start.tail (.reads 0 (-3) rfl)).tail (.looks 0 7 rfl (by decide))).tail
    (.reads 1 5 rfl)).tail (.looks 1 7 rfl (by decide))
  have late := ((both.tail (.exchanges 1 rfl rfl)).tail (.fails 0 7 rfl (by decide))).tail
    (.fails 0 8 rfl (by decide))
  have again := (((late.tail (.exchanges 0 rfl rfl)).tail (.returns 1 rfl)).tail (.reads 1 20 rfl)).tail
    (.looks 1 9 rfl (by decide))
  have ended := ((again.tail (.exchanges 1 rfl rfl)).tail (.returns 1 rfl)).tail (.returns 0 rfl)
  exact ⟨_, ended, (ordered_of_reachable ended).1, rfl, rfl, rfl⟩

end ClockRoom

end OptimisticStore
