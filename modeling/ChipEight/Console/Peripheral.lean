import ChipEight.Hardware.Screen
import ChipEight.Hardware.Keypad
import ChipEight.Machine.Journal

/-! Peripherals: what a console shows, reads and sounds through.

A peripheral is any type of state with the one function its kind asks for. Every call
may fail, says what became of the peripheral either way, and may have something to
say for the journal. -/
namespace ChipEight

/-- What the user wants of the console. -/
inductive Control where
  /-- Go on. -/
  | run
  /-- Let time pass faster. -/
  | fastForward
  /-- Go back. -/
  | rewind
  /-- Stop. -/
  | quit
deriving DecidableEq, Repr, Inhabited

/-- What a call of a peripheral came to. -/
structure Response (σ α : Type) where
  result : Except String α
  peripheral : σ
  records : List Record

namespace Response

/-- A call that succeeded, with nothing to say. -/
def ok {σ α : Type} (peripheral : σ) (value : α) : Response σ α := ⟨.ok value, peripheral, []⟩

/-- A call that failed. -/
def failed {σ α : Type} (peripheral : σ) (cause : String) : Response σ α :=
  ⟨.error cause, peripheral, []⟩

end Response

/-- Something that shows pictures. -/
class Display (σ : Type) where
  /-- Show a picture. -/
  present : Screen → σ → Response σ Unit

/-- Something that reads the keypad and the user's wishes. -/
class Input (σ : Type) where
  /-- Read the keypad. -/
  poll : σ → Response σ Keypad
  /-- What the user wants, as of the last reading. -/
  control : σ → Control := fun _ => .run

/-- Something that sounds the tone. -/
class Audio (σ : Type) where
  /-- Turn the tone on or off. -/
  setTone : Bool → σ → Response σ Unit

end ChipEight
