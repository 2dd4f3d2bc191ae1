import ChipEight.Console.Peripheral

/-! Peripherals that give out: another peripheral behind a rule for when it fails.

They show what a console does when the world lets it down. -/
namespace ChipEight

/-- A display that gives out at one of its pictures and shows none from then on. -/
structure FadingDisplay (σ : Type) where
  inner : σ
  /-- How many pictures it has shown. -/
  shown : Nat
  /-- At which picture it gives out, the first being number one; without a number, or at
  number zero, it never does. -/
  failsAt : Option Nat
  cause : String

namespace FadingDisplay

variable {σ : Type} [Display σ]

/-- Show a picture, unless it would be the one at which the display gives out. A picture
that was not shown does not count, so every later attempt is at the same one. -/
def display (picture : Screen) (d : FadingDisplay σ) : Response (FadingDisplay σ) Unit :=
  if d.failsAt = some (d.shown + 1) then .failed d d.cause
  else
    let response := Display.present picture d.inner
    ⟨response.result,
      { d with
        inner := response.peripheral
        shown := if response.result.isOk then d.shown + 1 else d.shown },
      response.records⟩

instance : Display (FadingDisplay σ) where
  present := display

end FadingDisplay

/-- A buzzer that cannot turn the tone one of the two ways. -/
structure StuckAudio (σ : Type) where
  inner : σ
  /-- The way it cannot turn. -/
  stuck : Option Bool
  cause : String

namespace StuckAudio

variable {σ : Type} [Audio σ]

/-- Turn the tone unless it cannot be turned that way. -/
def turn (on : Bool) (a : StuckAudio σ) : Response (StuckAudio σ) Unit :=
  if a.stuck = some on then .failed a a.cause
  else
    let response := Audio.setTone on a.inner
    ⟨response.result, { a with inner := response.peripheral }, response.records⟩

instance : Audio (StuckAudio σ) where
  setTone := turn

end StuckAudio

/-- An input under instruction: one reading may fail, and the user's wishes may be given as
one for each reading, the last of which lasts. -/
structure GuidedInput (σ : Type) where
  inner : σ
  polls : Nat
  /-- Which reading fails, the first being number one. -/
  failsAt : Option Nat
  /-- The wishes; if there are none, they are those of the inner input. -/
  wishes : List Control
  cause : String

namespace GuidedInput

variable {σ : Type} [Input σ]

/-- Read the keypad, unless this is the reading that fails. -/
def read (i : GuidedInput σ) : Response (GuidedInput σ) Keypad :=
  if i.failsAt = some (i.polls + 1) then .failed { i with polls := i.polls + 1 } i.cause
  else
    let response := Input.poll i.inner
    ⟨response.result, { i with inner := response.peripheral, polls := i.polls + 1 },
      response.records⟩

/-- The wish that belongs to the last reading. -/
def wish (i : GuidedInput σ) : Control :=
  (i.wishes[i.polls - 1]?.or i.wishes.getLast?).getD (Input.control i.inner)

instance : Input (GuidedInput σ) where
  poll := read
  control := wish

end GuidedInput
end ChipEight
