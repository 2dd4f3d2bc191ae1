import ChipEight.Desktop.CommandLine
import ChipEight.Console.Headless
import ChipEight.Console.Loop

/-! The program: plays a program file in a terminal.

This layer only reads the file and the clock and prints: what a frame does is
`Console.frame`, and what the words mean is `Options.parse`. A terminal has no key-up
events, so the keypad stays untouched here. -/
namespace ChipEight.Terminal

/-- A console that shows nothing by itself; its last picture is printed after each frame. -/
abbrev TerminalConsole := Console HeadlessDisplay ScriptedInput SilentAudio

/-- How the program is called. -/
def usage : String := String.intercalate "\n"
  [ "Runs a Chip-8 ROM"
  , ""
  , "Usage: chip8 [OPTIONS] <ROM>"
  , ""
  , "Arguments:"
  , "  <ROM>  Path to the ROM file to run"
  , ""
  , "Options:"
  , "  -i, --ips <IPS>                    Instructions per second [default: 700]"
  , "      --strict                       Stop on unknown opcodes instead of skipping them"
  , "      --cosmac                       " ++
      "Use the COSMAC VIP behaviour for shifts, loads and logic ops"
  , "      --jump-vx                      Make BNNN jump to XNN + VX instead of NNN + V0"
  , "      --threaded-timers              Tick the timers on their own thread"
  , "      --rewind-depth <REWIND_DEPTH>  Number of past states kept for rewinding [default: 600]"
  , "      --exit-on-halt                 Exit once the program jumps to itself"
  , "      --seed <SEED>                  Seed for the random number generator"
  , "  -s, --scale <SCALE>                Size of a Chip-8 pixel in screen pixels [default: 10]"
  , "  -h, --help                         Print help"
  , "  -V, --version                      Print version" ]

/-- Why a command line was refused. -/
def reason : Refusal → String
  | .unknownArgument => "unexpected argument found"
  | .tooManyValues => "unexpected value for a flag"
  | .argumentConflict => "an argument cannot be used multiple times"
  | .invalidValue => "a value is required but none was supplied"
  | .missingRequiredArgument => "the path to a ROM is required"
  | .valueValidation => "invalid value for an option"
  | .displayHelp => usage
  | .displayVersion => "chip8 0.1.0"

/-- A picture in text, one character a pixel. -/
def drawing (picture : Screen) : String :=
  String.intercalate "\n" ((List.range Screen.height).map fun y =>
    String.ofList ((List.range Screen.width).map fun x => if picture.pixel x y then '#' else ' '))

/-- A chain of reasons, the outermost first. -/
def explained : List String → String
  | [] => ""
  | [outermost] => "Error: " ++ outermost
  | outermost :: causes =>
    "Error: " ++ outermost ++ "\n\nCaused by:\n" ++
      String.intercalate "\n" (causes.map ("    " ++ ·))

/-- Print what is new since the last frame. -/
def print (before : Nat) (c : TerminalConsole) : IO Unit := do
  for record in c.journal.toList do
    IO.eprintln (record.severity.name ++ " " ++ record.text)
  if c.display.presented != before then
    IO.println ("\x1b[H\x1b[2J" ++ drawing (c.display.last.getD .blank))

/-- Frame by frame, from an instant of the clock on, until the run ends. A ticking thread that is
let go ticks once more. -/
partial def play (last : Nat) (c : TerminalConsole) : IO (Except Fault Unit × TerminalConsole) := do
  let now ← IO.monoNanosNow
  let ticks := if c.ticker.isSome then now / Timers.period - last / Timers.period else 0
  let before := c.display.presented
  match c.frame ⟨now - last, ticks⟩ with
  | (.error fault, c) => return c.finish 1 (.error fault)
  | (.ok .finished, c) => return c.finish 1 (.ok ())
  | (.ok .goingOn, c) =>
    print before c
    IO.sleep 16
    play now { c with journal := c.journal.cleared }

/-- Run the machine with a program in it. -/
def run (machine : Machine) : IO UInt32 := do
  let c : TerminalConsole := .new machine .fresh (.ofScript [] none) .fresh (.opened (some .warn))
  let start ← IO.monoNanosNow
  let (result, c) ← match c.start none with
    | (.error fault, c) => pure (c.finish 1 (.error fault))
    | (.ok (), c) => play start c
  print 0 c
  match result with
  | .ok () => return 0
  | .error fault => IO.eprintln (explained fault.chain); return 1

/-- Load a program file and run it. -/
def runFile (options : Options) : IO UInt32 := do
  let entropy ← IO.getRandomBytes 32
  let words := (List.range 4).map fun k =>
    ((entropy.data.toList.drop (8 * k)).take 8).foldl
      (fun (word : UInt64) (byte : UInt8) => word * 256 + byte.toUInt64) 0
  let machine := Machine.new options.settings (Random.ofWords words)
  match ← (IO.FS.readBinFile options.path).toBaseIO with
  | .error e =>
    IO.eprintln (explained ["unable to open " ++ options.path, toString e])
    return 1
  | .ok program =>
    let reply := machine.load program.toList
    match reply.result with
    | .ok () => run reply.machine
    | .error fault =>
      IO.eprintln (explained (("unable to load " ++ options.path) :: fault.chain))
      return 1

end ChipEight.Terminal

open ChipEight in
/-- The program's entry. -/
def main (words : List String) : IO UInt32 := do
  match Options.parse words with
  | .error .displayHelp => IO.println Terminal.usage; return 0
  | .error .displayVersion => IO.println (Terminal.reason .displayVersion); return 0
  | .error refusal => IO.eprintln ("error: " ++ Terminal.reason refusal); return 2
  | .ok options => Terminal.runFile options
