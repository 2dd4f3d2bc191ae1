import ChipEight.Hardware.Timers

/-! Timers held in common: several holders reach one pair of timers.

A machine, a thread that ticks and an observer can each hold a handle. Handles
that were copied from one another reach the same pair; a pair added later is
reached by none of the earlier handles. Holders act one atomic operation at a
time, in any interleaving, and a tick is two operations: the delay timer's count
down, then the sound timer's. -/
namespace ChipEight

/-- Every pair of timers there is; a handle is a place in this list. -/
structure TimerBoard where
  pairs : List Timers
deriving DecidableEq

/-- What one atomic operation does to a pair of timers. -/
inductive TimerAction where
  | loadDelay (value : UInt8)
  | loadSound (value : UInt8)
  | countDelay
  | countSound
deriving DecidableEq, Repr

/-- A pair of timers after one atomic operation. -/
def TimerAction.apply : TimerAction → Timers → Timers
  | .loadDelay value, t => t.setDelay value
  | .loadSound value, t => t.setSound value
  | .countDelay, t => { t with delay := Timers.countDown t.delay }
  | .countSound, t => { t with sound := Timers.countDown t.sound }

namespace TimerAction

/-- The operations of one tick. -/
def ticking : List TimerAction := [.countDelay, .countSound]

/-- The operations that put both timers back to zero. -/
def resetting : List TimerAction := [.loadDelay 0, .loadSound 0]

end TimerAction

namespace TimerBoard

/-- No timers yet. -/
def empty : TimerBoard := ⟨[]⟩

/-- The board with a new pair at zero, and the handle that reaches it. -/
def add (b : TimerBoard) : Nat × TimerBoard := (b.pairs.length, ⟨b.pairs ++ [.zero]⟩)

/-- The pair a handle reaches. -/
def read (b : TimerBoard) (handle : Nat) : Timers := b.pairs.getD handle .zero

/-- The board after one atomic operation through a handle. -/
def act (b : TimerBoard) (handle : Nat) (action : TimerAction) : TimerBoard :=
  ⟨b.pairs.modify handle action.apply⟩

/-- The board after operations through one handle, none of the others acting meanwhile. -/
def actAll (b : TimerBoard) (handle : Nat) (actions : List TimerAction) : TimerBoard :=
  actions.foldl (fun b action => b.act handle action) b

end TimerBoard

/-- A thread that ticks a pair of timers until its holder lets go of it. -/
structure Ticker where
  running : Bool
deriving DecidableEq, Repr

namespace Ticker

/-- A thread just started. -/
def start : Ticker := ⟨true⟩

end Ticker
end ChipEight
