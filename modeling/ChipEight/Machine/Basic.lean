import ChipEight.Machine.Execute
import ChipEight.Machine.History
import ChipEight.Machine.Journal

/-! The machine: a snapshot, and the world around it that rewinding leaves alone.

Operations that can fail answer with a `Reply`: the result, the machine afterwards
whether it succeeded or not, and what there is to say about it. Loading a program is all or
nothing, and resetting loads the program in the machine once more; neither touches
the random stream, which goes on from where it is. -/
namespace ChipEight

/-- A machine. -/
structure Machine where
  snapshot : Snapshot
  history : History
  keypad : Keypad
  timers : Timers
  random : Random
  settings : Settings
  /-- The program that a reset loads again. -/
  program : List UInt8
  /-- Whether the program was found to jump to itself and has not moved since. -/
  halted : Bool
  /-- The addresses at which a word outside the instruction set was reported. -/
  reported : List UInt16

/-- What an operation of a machine came to. -/
structure Reply (α : Type) where
  result : Except Fault α
  machine : Machine
  records : List Record

/-- Where a program is read from: pieces served in turn, and then an end or a failure. -/
structure Source where
  pieces : List (List UInt8)
  failure : Option String
deriving DecidableEq, Repr

/-- Everything a source has, unless it fails before its end. -/
def Source.readAll (source : Source) : Except String (List UInt8) :=
  match source.failure with
  | some cause => .error cause
  | none => .ok source.pieces.flatten

namespace Machine

/-- A machine without a program. The entropy is the random stream of a machine whose
settings name no seed. -/
def new (settings : Settings) (entropy : Random) : Machine where
  snapshot := .initial
  history := .empty
  keypad := .released
  timers := .zero
  random := (settings.seed.map Random.ofSeed).getD entropy
  settings := settings
  program := []
  halted := false
  reported := []

instance : Inhabited Machine := ⟨new .standard default⟩

/-- The machine right after this memory was filled: everything back at its start but the
random stream, the settings and the program. -/
def restarted (m : Machine) (memory : Memory) : Machine :=
  { m with
    snapshot := { Snapshot.initial with memory }
    history := .empty
    keypad := .released
    timers := .zero
    halted := false
    reported := [] }

/-- Load a program, putting the machine back to its start first. -/
def load (m : Machine) (program : List UInt8) : Reply Unit :=
  match Memory.initial.load Memory.programStart program with
  | .error fault => ⟨.error fault, m, []⟩
  | .ok memory => ⟨.ok (), { m.restarted memory with program }, [.loaded program.length]⟩

/-- Load a program from a source. -/
def loadFrom (m : Machine) (source : Source) : Reply Unit :=
  match source.readAll with
  | .error cause => ⟨.error (.unreadable cause), m, []⟩
  | .ok program => m.load program

/-- Put the machine back to where it was right after its program was loaded. -/
def reset (m : Machine) : Reply Unit :=
  match Memory.initial.load Memory.programStart m.program with
  | .error fault => ⟨.error fault, m, []⟩
  | .ok memory => ⟨.ok (), m.restarted memory, [.reset]⟩

/-- The picture if it is to be shown again, which it then no longer is. -/
def takeFrame (m : Machine) : Option Screen × Machine :=
  if m.snapshot.redraw then
    (some m.snapshot.screen, { m with snapshot := { m.snapshot with redraw := false } })
  else (none, m)

/-- The machine with all keys set at once. -/
def setKeypad (m : Machine) (keypad : Keypad) : Machine := { m with keypad }

/-- The machine with the key down that a byte names. -/
def press (m : Machine) (key : UInt8) : Machine :=
  { m with keypad := m.keypad.press (keyOf key) }

/-- The machine with the key up that a byte names. -/
def release (m : Machine) (key : UInt8) : Machine :=
  { m with keypad := m.keypad.release (keyOf key) }

/-- The machine with its delay timer loaded. -/
def setDelay (m : Machine) (value : UInt8) : Machine :=
  { m with timers := m.timers.setDelay value }

/-- The machine with its sound timer loaded. -/
def setSound (m : Machine) (value : UInt8) : Machine :=
  { m with timers := m.timers.setSound value }

/-- The machine after a number of timer ticks. -/
def tickBy (m : Machine) (ticks : Nat) : Machine :=
  { m with timers := m.timers.tickBy ticks }

end Machine
end ChipEight
