import OptimisticStore.Journal.Change
/-!
A channel that carries changes to subscribers, keeping only the latest ones.

This is the broadcast channel of the runtime, as it is documented. No world holds one: a world lists what
has been posted, and a channel is brought up to date from the list. A subscriber sees every change posted
after it subscribed, in order, unless it falls behind the kept changes; then it is told once how many it
missed and goes on with the oldest kept.
-/
namespace OptimisticStore

inductive Delivery (E : Type) where
  | change (change : Change E)
  | lagged (missed : Nat)
  | nothing

structure Channel (E : Type) where
  capacity : Nat
  /-- The latest changes, at most `capacity` of them. -/
  kept : List (Change E) := []
  posted : Nat := 0
  /-- For each subscriber how many changes it is past; none once it has left. -/
  positions : List (Option Nat) := []

namespace Channel

variable {E : Type}

def roomWithin (wanted : Nat) : Nat → Nat → Nat
  | 0, size => size
  | steps + 1, size => if wanted ≤ size then size else roomWithin wanted steps (2 * size)

/-- A channel that keeps at least `wanted` changes, and at least one. -/
def withRoom (wanted : Nat) : Channel E := { capacity := roomWithin wanted wanted 1 }

def subscribers (channel : Channel E) : Nat := channel.positions.countP Option.isSome

def post (channel : Channel E) (change : Change E) : Channel E :=
  let kept := channel.kept ++ [change]
  { channel with kept := kept.drop (kept.length - channel.capacity), posted := channel.posted + 1 }

/-- The channel once it has carried all of what has been posted so far. -/
def catchUp (channel : Channel E) (posted : List (Change E)) : Channel E :=
  (posted.drop channel.posted).foldl post channel

def subscribe (channel : Channel E) : Nat × Channel E :=
  (channel.positions.length,
    { channel with positions := channel.positions ++ [some channel.posted] })

def unsubscribe (channel : Channel E) (subscriber : Nat) : Channel E :=
  { channel with positions := channel.positions.set subscriber none }

def receive (channel : Channel E) (subscriber : Nat) : Delivery E × Channel E :=
  match channel.positions[subscriber]?.join with
  | none => (.nothing, channel)
  | some position =>
    let moveTo (next : Nat) : Channel E :=
      { channel with positions := channel.positions.set subscriber (some next) }
    let oldest := channel.posted - channel.kept.length
    if position < oldest then (.lagged (oldest - position), moveTo oldest)
    else match channel.kept[position - oldest]? with
      | some change => (.change change, moveTo (position + 1))
      | none => (.nothing, channel)

end Channel

end OptimisticStore
