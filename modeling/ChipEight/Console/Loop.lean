import ChipEight.Console.Basic

/-! The console's frame loop.

Sixty times a second the console reads its input and does what the user wants: let the
time since the last frame pass, let four times as much pass, go back by a frame's
worth of instructions, or quit. The world is data here: a `Gap` says how long a frame
was measured to take and how often someone else ticked the timers meanwhile.

However a run ends, the ticking thread is let go, which ticks until it has ended, and the
tone is turned off; the fault that ended the run wins over one of turning the tone off. -/
namespace ChipEight

/-- How much faster time passes while the user fast forwards. -/
def fastForwardFactor : Nat := 4

/-- What passes between two frames.

Others can tick the timers at any instant, also while a frame is at work. A gap has all their
ticks since the gap before, and they are done together, before the frame reads its input. This
restricts what others do: no tick of theirs comes between two instructions of a frame. -/
structure Gap where
  /-- The time it was measured to take. -/
  elapsed : Nat
  /-- The ticks that other holders of the timers did meanwhile. -/
  ticks : Nat
deriving DecidableEq, Repr

/-- Where a run stands after a frame. -/
inductive Standing where
  | goingOn
  | finished
deriving DecidableEq, Repr

namespace Console

variable {D I A : Type} [Display D] [Input I] [Audio A]

/-- Go back by a frame's worth of instructions and show where that leads. -/
def rewindFrame (c : Console D I A) : Except Fault Unit × Console D I A :=
  let machine := c.machine.rewindBy c.machine.settings.cyclesPerFrame
  { c with machine }.showFrame

/-- Let a span of time pass within a frame. -/
def runFrame (span : Nat) (c : Console D I A) : Except Fault Standing × Console D I A :=
  match c.advance span with
  | (.error fault, c) => (.error fault, c)
  | (.ok progress, c) =>
    if progress.halted && c.machine.settings.exitOnHalt then (.ok .finished, c)
    else (.ok .goingOn, c)

/-- Do what the user wants of a frame that took some time. -/
def obey (span : Nat) (c : Console D I A) : Control → Except Fault Standing × Console D I A
  | .quit => (.ok .finished, c.note [.quit])
  | .rewind =>
    match c.rewindFrame with
    | (.error fault, c) => (.error fault, c)
    | (.ok (), c) => (.ok .goingOn, c)
  | .run => c.runFrame span
  | .fastForward =>
    if span * fastForwardFactor < Span.limit then c.runFrame (span * fastForwardFactor)
    else (.error .clockOverflow, c)

/-- Read the input. -/
def poll (c : Console D I A) : Except Fault Unit × Console D I A :=
  let response := Input.poll c.input
  let c := { c with input := response.peripheral }.note response.records
  match response.result with
  | .error cause => (.error (.peripheral cause), c)
  | .ok keypad => (.ok (), { c with machine := c.machine.setKeypad keypad })

/-- One frame. -/
def frame (gap : Gap) (c : Console D I A) : Except Fault Standing × Console D I A :=
  match { c with machine := c.machine.tickBy gap.ticks }.poll with
  | (.error fault, c) => (.error fault, c)
  | (.ok (), c) => c.obey gap.elapsed (Input.control c.input)

/-- Frames until one ends the run or there are none left. -/
def frames : List Gap → Console D I A → Except Fault Standing × Console D I A
  | [], c => (.ok .goingOn, c)
  | gap :: rest, c =>
    match c.frame gap with
    | (.error fault, c) => (.error fault, c)
    | (.ok .finished, c) => (.ok .finished, c)
    | (.ok .goingOn, c) => frames rest c

/-- Begin a run: start the ticking thread if there is to be one, and show the picture
there is. A thread that cannot be started ends the run with the reason given. -/
def start (threadFailure : Option String) (c : Console D I A) :
    Except Fault Unit × Console D I A :=
  if c.machine.settings.timerMode = .threaded then
    match threadFailure with
    | some cause => (.error (.unreadable cause), c)
    | none => { c with ticker := some .start }.present c.machine.snapshot.screen
  else c.present c.machine.snapshot.screen

/-- Turn the tone off if it is on; it counts as off from then on, even if that fails. -/
def silence (c : Console D I A) : Except Fault Unit × Console D I A :=
  if c.tone then
    let response := Audio.setTone false c.audio
    (response.result.mapError .peripheral,
      { c with tone := false, audio := response.peripheral }.note response.records)
  else (.ok (), c)

/-- Let go of the ticking thread, if one is held, and wait for its end. It looks whether it is
to end between two ticks only, so it has some ticks left to do: those since the last gap, and
the one that it was about to do. -/
def letGo (ticks : Nat) (c : Console D I A) : Console D I A :=
  let machine := match c.ticker with
    | none => c.machine
    | some _ => c.machine.tickBy ticks
  { c with machine, ticker := none }

/-- End a run that came to a result. -/
def finish (ticks : Nat) (result : Except Fault Unit) (c : Console D I A) :
    Except Fault Unit × Console D I A :=
  let (silenced, c) := (c.letGo ticks).silence
  match result with
  | .error fault => (.error fault, c.note [.stopped fault.message])
  | .ok () => (silenced, c)

/-- Run frame by frame. The result is there once the user quit, the program halted under
settings that end a run then, or something failed; it is not if the gaps ran out
first. The ticks at the end are those of a thread that is let go. -/
def run (threadFailure : Option String) (gaps : List Gap) (c : Console D I A) (ticks : Nat := 0) :
    Option (Except Fault Unit) × Console D I A :=
  match c.start threadFailure with
  | (.error fault, c) => let (r, c) := c.finish ticks (.error fault); (some r, c)
  | (.ok (), c) =>
    match c.frames gaps with
    | (.error fault, c) => let (r, c) := c.finish ticks (.error fault); (some r, c)
    | (.ok .finished, c) => let (r, c) := c.finish ticks (.ok ()); (some r, c)
    | (.ok .goingOn, c) => (none, c)

end Console
end ChipEight
