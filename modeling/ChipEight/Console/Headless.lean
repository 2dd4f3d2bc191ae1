import ChipEight.Console.Peripheral

/-! Peripherals without a screen, a keyboard or a loudspeaker: they remember what they
were given or follow a script. -/
namespace ChipEight

/-- A display that counts pictures and keeps the last. -/
structure HeadlessDisplay where
  presented : Nat
  last : Option Screen
deriving DecidableEq

namespace HeadlessDisplay

/-- Nothing shown yet. -/
def fresh : HeadlessDisplay := ⟨0, none⟩

instance : Inhabited HeadlessDisplay := ⟨fresh⟩

instance : Display HeadlessDisplay where
  present picture d := .ok ⟨d.presented + 1, some picture⟩ ()

end HeadlessDisplay

/-- An input that reads keypads off a script, holds the last one, and may ask to quit after
a number of readings. -/
structure ScriptedInput where
  script : List Keypad
  current : Keypad
  polls : Nat
  quitAfter : Option Nat
deriving DecidableEq

namespace ScriptedInput

/-- A script not begun yet. -/
def ofScript (script : List Keypad) (quitAfter : Option Nat) : ScriptedInput :=
  ⟨script, .released, 0, quitAfter⟩

instance : Inhabited ScriptedInput := ⟨ofScript [] none⟩

/-- The input after one more reading. -/
def advance (i : ScriptedInput) : ScriptedInput :=
  match i.script with
  | [] => { i with polls := i.polls + 1 }
  | keypad :: rest => { i with script := rest, current := keypad, polls := i.polls + 1 }

/-- Quit once there were enough readings. -/
def wish (i : ScriptedInput) : Control :=
  match i.quitAfter with
  | some limit => if limit ≤ i.polls then .quit else .run
  | none => .run

instance : Input ScriptedInput where
  poll i := .ok i.advance i.advance.current
  control := wish

end ScriptedInput

/-- An input that only ever reads keypads and never wishes for anything. -/
structure PlainInput where
  keypad : Keypad
deriving DecidableEq

instance : Input PlainInput where
  poll i := .ok i i.keypad

/-- A buzzer that makes no sound, but keeps the tone and counts its changes. -/
structure SilentAudio where
  tone : Bool
  transitions : Nat
deriving DecidableEq, Repr

namespace SilentAudio

/-- No tone yet. -/
def fresh : SilentAudio := ⟨false, 0⟩

instance : Inhabited SilentAudio := ⟨fresh⟩

/-- The buzzer with the tone turned on or off; only a change counts and is said. -/
def turn (on : Bool) (a : SilentAudio) : Response SilentAudio Unit :=
  if on = a.tone then ⟨.ok (), a, []⟩
  else ⟨.ok (), ⟨on, a.transitions + 1⟩, [.tone on]⟩

instance : Audio SilentAudio where
  setTone := turn

end SilentAudio
end ChipEight
