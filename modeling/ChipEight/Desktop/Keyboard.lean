import ChipEight.Console.Peripheral

/-! The keyboard: the keypad laid out on a desktop keyboard's left four columns.

    1 2 3 C        1 2 3 4
    4 5 6 D   on   Q W E R
    7 8 9 E        A S D F
    A 0 B F        Z X C V

Events come in batches, one batch for each reading. A key that goes down and up again
within one batch still reads as down for that reading, so a short tap is not lost.
Space fast forwards and backspace rewinds while held; escape or closing the window
quits for good. -/
namespace ChipEight

/-- A key of the keyboard. -/
inductive KeyCode where
  | letter (name : Char)
  | digit (value : Fin 10)
  | space
  | backspace
  | escape
  /-- Any other key, which has no meaning here. -/
  | other (name : String)
deriving DecidableEq, Repr

/-- Something that happened at the keyboard or to the window. -/
inductive KeyEvent where
  /-- A key went down; the keyboard may not know which. -/
  | down (key : Option KeyCode)
  /-- A key came up. -/
  | up (key : Option KeyCode)
  /-- The window is to be closed. -/
  | quit
  /-- Anything else. -/
  | other
deriving DecidableEq, Repr

namespace KeyCode

/-- The keys that stand for the keypad's, in the order of the keypad's keys. -/
def layout : List KeyCode :=
  [ .letter 'X', .digit 1, .digit 2, .digit 3,
    .letter 'Q', .letter 'W', .letter 'E', .letter 'A',
    .letter 'S', .letter 'D', .letter 'Z', .letter 'C',
    .digit 4, .letter 'R', .letter 'F', .letter 'V' ]

/-- The keypad's key that a key stands for. -/
def padKey? (key : KeyCode) : Option Nibble :=
  (layout.findIdx? (· = key)).map Nibble.ofNat

end KeyCode

/-- The keypad over one batch of events: which keys are down now, and which went down
since the last reading. -/
structure KeyLatch where
  held : Keypad
  tapped : Keypad
deriving DecidableEq

namespace KeyLatch

/-- No key touched yet. -/
def untouched : KeyLatch := ⟨.released, .released⟩

/-- A key went down. -/
def press (l : KeyLatch) (key : Nibble) : KeyLatch := ⟨l.held.press key, l.tapped.press key⟩

/-- A key came up. -/
def release (l : KeyLatch) (key : Nibble) : KeyLatch := { l with held := l.held.release key }

/-- The keys to report. -/
def reading (l : KeyLatch) : Keypad := l.held.union l.tapped

/-- The latch after they were reported. -/
def rest (l : KeyLatch) : KeyLatch := { l with tapped := .released }

end KeyLatch

/-- A keyboard with the events still to come. -/
structure Keyboard where
  /-- The batches to come; after the last one, every batch closes the window. -/
  batches : List (List KeyEvent)
  keys : KeyLatch
  fastForward : Bool
  rewind : Bool
  quit : Bool
deriving DecidableEq

namespace Keyboard

/-- A keyboard nobody has touched yet. -/
def untouched (batches : List (List KeyEvent)) : Keyboard :=
  ⟨batches, .untouched, false, false, false⟩

/-- A key went down. -/
def keyDown (k : Keyboard) (key : KeyCode) : Keyboard :=
  match key.padKey? with
  | some pad => { k with keys := k.keys.press pad }
  | none =>
    match key with
    | .space => { k with fastForward := true }
    | .backspace => { k with rewind := true }
    | .escape => { k with quit := true }
    | _ => k

/-- A key came up. -/
def keyUp (k : Keyboard) (key : KeyCode) : Keyboard :=
  match key.padKey? with
  | some pad => { k with keys := k.keys.release pad }
  | none =>
    match key with
    | .space => { k with fastForward := false }
    | .backspace => { k with rewind := false }
    | _ => k

/-- One event. -/
def handle (k : Keyboard) : KeyEvent → Keyboard
  | .quit => { k with quit := true }
  | .down (some key) => k.keyDown key
  | .up (some key) => k.keyUp key
  | _ => k

/-- The events of the next reading. -/
def batch (k : Keyboard) : List KeyEvent := k.batches.headD [.quit]

/-- The keyboard with the events of the next reading in. -/
def absorb (k : Keyboard) : Keyboard :=
  k.batch.foldl handle { k with batches := k.batches.tail }

/-- Read the keypad. -/
def read (k : Keyboard) : Response Keyboard Keypad :=
  .ok { k.absorb with keys := k.absorb.keys.rest } k.absorb.keys.reading

/-- Quitting goes before rewinding, and that before fast forwarding. -/
def wish (k : Keyboard) : Control :=
  if k.quit then .quit
  else if k.rewind then .rewind
  else if k.fastForward then .fastForward
  else .run

instance : Input Keyboard where
  poll := read
  control := wish

end Keyboard
end ChipEight
