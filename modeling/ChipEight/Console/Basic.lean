import ChipEight.Console.Peripheral
import ChipEight.Console.Timetable
import ChipEight.Hardware.TimerBoard
import ChipEight.Machine.Cycle

/-! The console: a machine, its peripherals and the time that has passed.

`advance` lets a span of emulated time pass: every event of the timetable that falls
due before its end happens in order, a picture is shown after every instruction that
changed the screen, and the buzzer hears of every change of the tone. An error ends
it at once and leaves the timetable where it is, so going on afterwards neither
repeats nor skips an event. -/
namespace ChipEight

/-- A machine wired to a display, an input and a buzzer. -/
structure Console (D I A : Type) where
  machine : Machine
  display : D
  input : I
  audio : A
  /-- Emulated time that has passed. -/
  elapsed : Nat
  timetable : Timetable
  /-- Whether the buzzer was last told to sound. -/
  tone : Bool
  /-- The thread that ticks the timers, while one is held. -/
  ticker : Option Ticker
  journal : Journal

/-- What happened in a span of time. -/
structure Progress where
  steps : Nat
  ticks : Nat
  halted : Bool
deriving DecidableEq, Repr

/-- What one event came to. -/
inductive Beat where
  /-- The timers ticked. -/
  | ticked
  /-- An instruction ran. -/
  | executed
  /-- The program waits for a key. -/
  | waited
  /-- The program jumps to itself. -/
  | halted
deriving DecidableEq, Repr

namespace Progress

/-- Nothing happened. -/
def none : Progress := ⟨0, 0, false⟩

/-- What happened with one more event. -/
def count (p : Progress) : Beat → Progress
  | .ticked => { p with ticks := p.ticks + 1 }
  | .executed => { p with steps := p.steps + 1 }
  | .waited => p
  | .halted => { p with halted := true }

end Progress

namespace Console

variable {D I A : Type}

/-- A console at instant zero. -/
def new (machine : Machine) (display : D) (input : I) (audio : A) (journal : Journal) :
    Console D I A where
  machine := machine
  display := display
  input := input
  audio := audio
  elapsed := 0
  timetable := .start machine.settings.cycle machine.settings.cycle_pos
    (machine.settings.timerMode == .cooperative)
  tone := false
  ticker := .none
  journal := journal

/-- The console with records written down. -/
def note (c : Console D I A) (records : List Record) : Console D I A :=
  { c with journal := c.journal.writeAll records }

variable [Display D] [Input I] [Audio A]

/-- Show a picture. -/
def present (c : Console D I A) (picture : Screen) : Except Fault Unit × Console D I A :=
  let response := Display.present picture c.display
  (response.result.mapError .peripheral,
    { c with display := response.peripheral }.note response.records)

/-- Show the machine's picture if it is to be shown again. -/
def showFrame (c : Console D I A) : Except Fault Unit × Console D I A :=
  match c.machine.takeFrame with
  | (none, _) => (.ok (), c)
  | (some picture, machine) => { c with machine }.present picture

/-- Tell the buzzer if the tone is not what it was last told. -/
def updateTone (c : Console D I A) : Except Fault Unit × Console D I A :=
  let tone := c.machine.timers.tone
  if tone = c.tone then (.ok (), c)
  else
    let response := Audio.setTone tone c.audio
    let c := { c with audio := response.peripheral }.note response.records
    match response.result with
    | .error cause => (.error (.peripheral cause), c)
    | .ok () => (.ok (), { c with tone })

/-- What an instruction that ran has to be followed by: the tone, then the picture. -/
def settle (c : Console D I A) : Except Fault Unit × Console D I A :=
  match c.updateTone with
  | (.error fault, c) => (.error fault, c)
  | (.ok (), c) => c.showFrame

/-- Let one event happen. -/
def perform (c : Console D I A) : Event → Except Fault Beat × Console D I A
  | .tick =>
    match { c with machine := c.machine.tickBy 1 }.updateTone with
    | (.error fault, c) => (.error fault, c)
    | (.ok (), c) => (.ok .ticked, c)
  | .step =>
    let reply := c.machine.step
    let c := { c with machine := reply.machine }.note reply.records
    match reply.result with
    | .error fault => (.error fault, c)
    | .ok .awaitingKey => (.ok .waited, c)
    | .ok .halted => (.ok .halted, c)
    | .ok (.executed _) =>
      match c.settle with
      | (.error fault, c) => (.error fault, c)
      | (.ok (), c) => (.ok .executed, c)

/-- Whether an event is the last one the settings allow. -/
def stopsAfter (c : Console D I A) (beat : Beat) : Bool :=
  beat == .halted && c.machine.settings.exitOnHalt

/-- Let the events of a timetable happen up to a target instant. -/
def advanceTo (target : Nat) (t : Timetable) (c : Console D I A) (p : Progress) :
    Except Fault Progress × Console D I A :=
  if _ : t.dueAt < target then
    match _ : t.advance? with
    | none => (.error .clockOverflow, c)
    | some t' =>
      match { c with timetable := t' }.perform t.next with
      | (.error fault, c) => (.error fault, c)
      | (.ok beat, c) =>
        if c.stopsAfter beat then (.ok (p.count beat), c)
        else advanceTo target t' c (p.count beat)
  else (.ok p, c)
termination_by t.distance target
decreasing_by
  rw [Timetable.eq_advance_of_advance? ‹t.advance? = some t'›]
  exact Timetable.distance_advance ‹t.dueAt < target›

/-- Let a span of emulated time pass. -/
def advance (span : Nat) (c : Console D I A) : Except Fault Progress × Console D I A :=
  match Span.add? c.elapsed span with
  | none => (.error .clockOverflow, c)
  | some target =>
    match advanceTo target c.timetable c .none with
    | (.error fault, c) => (.error fault, c)
    | (.ok progress, c) =>
      match { c with elapsed := target }.updateTone with
      | (.error fault, c) => (.error fault, c)
      | (.ok (), c) => (.ok progress, c)

end Console
end ChipEight
