import ChipEight.Hardware.Timers

/-! Settings: how fast, how strictly and in which dialect a machine runs.

Programs were written for interpreters that disagreed on a few instructions. A
`Dialect` is one choice for each of the four disagreements. -/
namespace ChipEight

/-- A choice for each point on which interpreters disagree. -/
structure Dialect where
  /-- Shifts shift the second register into the first, rather than the first in place. -/
  shiftReadsVy : Bool
  /-- Storing and loading registers leaves the index behind the block. -/
  blockMovesIndex : Bool
  /-- The logical operations clear the flag. -/
  logicClearsFlag : Bool
  /-- The computed jump adds the register named by the address's high nibble, rather than
  register 0. -/
  jumpReadsVx : Bool
deriving DecidableEq, Repr

namespace Dialect

/-- The dialect most programs are written in. -/
def chip48 : Dialect := ⟨false, false, false, false⟩

/-- The dialect of the COSMAC VIP. -/
def cosmacVip : Dialect := ⟨true, true, true, false⟩

instance : Inhabited Dialect := ⟨chip48⟩

end Dialect

/-- Who ticks the timers. -/
inductive TimerMode where
  /-- The console, in step with the instructions. -/
  | cooperative
  /-- A thread of their own. -/
  | threaded
deriving DecidableEq, Repr, Inhabited

/-- The settings of a machine. -/
structure Settings where
  /-- Instructions per second. -/
  speed : UInt32
  /-- Whether a word outside the instruction set is a fault rather than skipped. -/
  strict : Bool
  dialect : Dialect
  timerMode : TimerMode
  /-- How many cycles can be taken back. -/
  rewindDepth : Nat
  /-- Whether a console stops when its machine halts. -/
  exitOnHalt : Bool
  /-- The seed of the random stream; without one the stream is not reproducible. -/
  seed : Option UInt64
deriving DecidableEq, Repr

namespace Settings

/-- Instructions per second unless set otherwise. -/
def defaultSpeed : UInt32 := 700

/-- Cycles that can be taken back unless set otherwise. -/
def defaultDepth : Nat := 600

/-- The settings unless set otherwise. -/
def standard : Settings where
  speed := defaultSpeed
  strict := false
  dialect := .chip48
  timerMode := .cooperative
  rewindDepth := defaultDepth
  exitOnHalt := false
  seed := none

instance : Inhabited Settings := ⟨standard⟩

/-- Instructions per second, of which there is at least one. -/
def rate (s : Settings) : Nat := max s.speed.toNat 1

/-- The time between two instructions in whole nanoseconds; at least one, since with a
cycle of zero, time would stand still. -/
def cycle (s : Settings) : Nat := max (1000000000 / s.rate) 1

/-- The cycles that one frame of rewinding takes back: those of a sixtieth of a second, at
least one. -/
def cyclesPerFrame (s : Settings) : Nat := max (s.rate / Timers.frequency) 1

theorem rate_pos (s : Settings) : 0 < s.rate := by
  simp only [rate]
  omega

theorem cycle_pos (s : Settings) : 0 < s.cycle := by
  simp only [cycle]
  omega

theorem cyclesPerFrame_pos (s : Settings) : 0 < s.cyclesPerFrame := by
  simp only [cyclesPerFrame]
  omega

end Settings
end ChipEight
