import ChipEight.Console.Headless
import ChipEight.Console.Loop
import ChipEight.Desktop.CommandLine
import ChipEight.Desktop.Keyboard
import ChipEight.Desktop.Window

/-! The application: a program run in a window with the keyboard as its keypad.

The program is read before the window opens, so a program that cannot be read shows
no window. Whatever stops the application is told as a chain of reasons, the
outermost first. -/
namespace ChipEight

/-- What keeps the application from running a program to its end. -/
inductive ApplicationFault where
  /-- The program's file cannot be opened. -/
  | cannotOpen (cause : String)
  /-- The program cannot be loaded. -/
  | cannotLoad (fault : Fault)
  /-- The desktop refused. -/
  | refused (words : String)
  /-- The window would be too large. -/
  | windowTooLarge
  /-- The run ended by a fault. -/
  | stopped (fault : Fault)
deriving DecidableEq, Repr

namespace ApplicationFault

/-- The reasons, the outermost first. -/
def chain (path : String) : ApplicationFault → List String
  | .cannotOpen cause => ["unable to open " ++ path, cause]
  | .cannotLoad fault => ("unable to load " ++ path) :: fault.chain
  | .refused words => [words]
  | .windowTooLarge => ["window too large"]
  | .stopped fault => fault.chain

end ApplicationFault

/-- Everything outside the application. -/
structure World where
  /-- The program's file, or why it cannot be opened. -/
  file : Except String Source
  desktop : Desktop
  /-- What happens at the keyboard, one batch for each frame. -/
  events : List (List KeyEvent)
  /-- The random stream of a machine whose settings name no seed. -/
  entropy : Random
  /-- Why a ticking thread cannot be started, if it cannot. -/
  threadFailure : Option String
  gaps : List Gap
  /-- The ticks that a ticking thread still does when it is let go. -/
  parting : Nat := 0

namespace Application

/-- The console of the application. -/
abbrev WindowConsole := Console Window Keyboard SilentAudio

/-- A machine with the program from a file in it, and the records of that. -/
def loadMachine (world : World) (settings : Settings) :
    Except ApplicationFault (Machine × List Record) :=
  match world.file with
  | .error cause => .error (.cannotOpen cause)
  | .ok source =>
    let reply := (Machine.new settings world.entropy).loadFrom source
    match reply.result with
    | .error fault => .error (.cannotLoad fault)
    | .ok () => .ok (reply.machine, reply.records)

/-- A window on the desktop, and its events being listened to. -/
def openWindow (world : World) (scale : UInt32) : Except ApplicationFault Window :=
  match world.desktop.callAll [.init] with
  | .error words => .error (.refused words)
  | .ok () =>
    match Window.opened world.desktop scale with
    | .error (.refused words) => .error (.refused words)
    | .error .tooLarge => .error .windowTooLarge
    | .ok window =>
      match world.desktop.callAll [.eventPump] with
      | .error words => .error (.refused words)
      | .ok () => .ok window

/-- The console ready to run. -/
def setUp (world : World) (options : Options) (threshold : Option Severity) :
    Except ApplicationFault WindowConsole :=
  match loadMachine world options.settings with
  | .error fault => .error fault
  | .ok (machine, records) =>
    match openWindow world options.scale with
    | .error fault => .error fault
    | .ok window =>
      let console : WindowConsole :=
        .new machine window (.untouched world.events) .fresh (.opened threshold)
      .ok (console.note (records ++ [.running options.path options.settings.speed.toNat]))

/-- Run the application: its result, unless the world's gaps ran out first, and its console
if there came to be one. -/
def run (world : World) (options : Options) (threshold : Option Severity) :
    Option (Except ApplicationFault Unit) × Option WindowConsole :=
  match setUp world options threshold with
  | .error fault => (some (.error fault), none)
  | .ok console =>
    let (result, console) := console.run world.threadFailure world.gaps world.parting
    (result.map (·.mapError .stopped), some console)

end Application
end ChipEight
