import ChipEight.Machine.Settings

/-! The command line: words to options.

Words are read from left to right. A word is an option that takes a value (attached to it
or the next word), a flag, the mark `--` after which every word is a plain one, or a
plain word; there is exactly one plain word, the program's path.

A value that stands as a word of its own, and the path, are only looked into once the
next word is accepted or the words are at their end: an unknown word right after them
is refused whatever they are. A repeated option is refused before its value is looked
into. -/
namespace ChipEight

/-- What a command line can do other than start a program. -/
inductive Refusal where
  /-- A word that is no option, or one plain word too many. -/
  | unknownArgument
  /-- A flag with a value attached. -/
  | tooManyValues
  /-- An option or a flag given twice. -/
  | argumentConflict
  /-- An option without its value, or an empty path. -/
  | invalidValue
  /-- No path. -/
  | missingRequiredArgument
  /-- A value that is no number, or one out of range. -/
  | valueValidation
  /-- The user asks for help. -/
  | displayHelp
  /-- The user asks for the version. -/
  | displayVersion
deriving DecidableEq, Repr

/-- The options that take a value. -/
inductive ValueOption where
  | speed
  | rewindDepth
  | seed
  | scale
deriving DecidableEq, Repr

/-- The flags. -/
inductive Flag where
  | strict
  | cosmac
  | jumpVx
  | threadedTimers
  | exitOnHalt
deriving DecidableEq, Repr

/-- What a named word stands for. -/
inductive Named where
  | value (option : ValueOption)
  | flag (flag : Flag)
  | help
  | version
deriving DecidableEq, Repr

/-- What has been given so far; nothing stands for not given. -/
structure Given where
  speed : Option Nat
  rewindDepth : Option Nat
  seed : Option Nat
  scale : Option Nat
  flags : List Flag
  path : Option String
deriving DecidableEq, Repr

/-- What a command line that starts a program says. -/
structure Options where
  path : String
  settings : Settings
  scale : UInt32
deriving DecidableEq, Repr

namespace Named

/-- The word that a long name stands for. -/
def ofLong? : String → Option Named
  | "ips" => some (.value .speed)
  | "rewind-depth" => some (.value .rewindDepth)
  | "seed" => some (.value .seed)
  | "scale" => some (.value .scale)
  | "strict" => some (.flag .strict)
  | "cosmac" => some (.flag .cosmac)
  | "jump-vx" => some (.flag .jumpVx)
  | "threaded-timers" => some (.flag .threadedTimers)
  | "exit-on-halt" => some (.flag .exitOnHalt)
  | "help" => some .help
  | "version" => some .version
  | _ => none

/-- The word that a letter stands for. -/
def ofShort? : Char → Option Named
  | 'i' => some (.value .speed)
  | 's' => some (.value .scale)
  | 'h' => some .help
  | 'V' => some .version
  | _ => none

end Named

/-- A decimal number: one digit or more. -/
def decimal? : List Char → Option Nat
  | [] => none
  | digits =>
    if digits.all Char.isDigit then
      some (digits.foldl (fun n d => 10 * n + (d.toNat - '0'.toNat)) 0)
    else none

/-- A decimal number that a plus sign may stand before. -/
def unsigned? : List Char → Option Nat
  | '+' :: digits => decimal? digits
  | digits => decimal? digits

/-- A decimal number that either sign may stand before, if it is not below zero. -/
def signed? : List Char → Option Nat
  | '-' :: digits => (decimal? digits).bind fun n => if n = 0 then some 0 else none
  | digits => unsigned? digits

namespace ValueOption

/-- The least number an option takes. -/
def least : ValueOption → Nat
  | .speed => 1
  | _ => 0

/-- The greatest number an option takes. -/
def greatest : ValueOption → Nat
  | .speed => 100000
  | .rewindDepth => 36000
  | .seed => 18446744073709551615
  | .scale => 4294967295

/-- The number a text stands for. The options of up to 32 bits are read as signed numbers,
so that a zero may have a minus sign. -/
def number? (option : ValueOption) (text : String) : Option Nat :=
  match option with
  | .speed | .scale => signed? text.toList
  | .rewindDepth | .seed => unsigned? text.toList

/-- The number a text gives an option. -/
def parse (option : ValueOption) (text : String) : Except Refusal Nat :=
  match option.number? text with
  | none => .error .valueValidation
  | some n =>
    if option.least ≤ n ∧ n ≤ option.greatest then .ok n else .error .valueValidation

end ValueOption

namespace Given

/-- Nothing given yet. -/
def nothing : Given := ⟨none, none, none, none, [], none⟩

/-- The number given for an option. -/
def number (g : Given) : ValueOption → Option Nat
  | .speed => g.speed
  | .rewindDepth => g.rewindDepth
  | .seed => g.seed
  | .scale => g.scale

/-- With a number given for an option. -/
def setNumber (g : Given) (n : Nat) : ValueOption → Given
  | .speed => { g with speed := some n }
  | .rewindDepth => { g with rewindDepth := some n }
  | .seed => { g with seed := some n }
  | .scale => { g with scale := some n }

/-- Take an option's value, which must be its first. -/
def takeValue (g : Given) (option : ValueOption) (text : String) : Except Refusal Given :=
  if (g.number option).isSome then .error .argumentConflict
  else (option.parse text).map fun n => g.setNumber n option

/-- Take a flag, which must not have been given before. -/
def takeFlag (g : Given) (flag : Flag) : Except Refusal Given :=
  if flag ∈ g.flags then .error .argumentConflict else .ok { g with flags := flag :: g.flags }

/-- Take the path, which must say something. -/
def takePath (g : Given) (text : String) : Except Refusal Given :=
  if text = "" then .error .invalidValue else .ok { g with path := some text }

/-- The settings given, the standard ones where nothing was. -/
def settings (g : Given) : Settings where
  speed := (g.speed.map UInt32.ofNat).getD Settings.defaultSpeed
  strict := .strict ∈ g.flags
  dialect :=
    let dialect := if .cosmac ∈ g.flags then Dialect.cosmacVip else Dialect.chip48
    { dialect with jumpReadsVx := .jumpVx ∈ g.flags }
  timerMode := if .threadedTimers ∈ g.flags then .threaded else .cooperative
  rewindDepth := g.rewindDepth.getD Settings.defaultDepth
  exitOnHalt := .exitOnHalt ∈ g.flags
  seed := g.seed.map UInt64.ofNat

end Given

namespace Options

/-- The side of a machine's pixel unless set otherwise. -/
def defaultScale : UInt32 := 10

end Options

/-- A word that was accepted but not looked into yet. -/
inductive Pending where
  /-- Nothing. -/
  | nothing
  /-- An option whose value is still to come. -/
  | awaiting (option : ValueOption)
  /-- An option and its value. -/
  | value (option : ValueOption) (text : String)
  /-- The path. -/
  | path (text : String)
deriving DecidableEq, Repr

/-- How far a command line has been read. -/
structure Reading where
  given : Given
  pending : Pending
  /-- Whether there was a plain word. -/
  hasPath : Bool
deriving DecidableEq, Repr

namespace Reading

/-- Before the first word. -/
def start : Reading := ⟨.nothing, .nothing, false⟩

/-- Look into what was accepted last. -/
def settle (r : Reading) : Except Refusal Given :=
  match r.pending with
  | .nothing => .ok r.given
  | .awaiting _ => .error .invalidValue
  | .value option text => r.given.takeValue option text
  | .path text => r.given.takePath text

/-- Take an option that has its value attached, or none yet. -/
def takeOption (r : Reading) (option : ValueOption) (attached : Option String) :
    Except Refusal Reading := do
  let given ← r.settle
  match attached with
  | some text => return ⟨← given.takeValue option text, .nothing, r.hasPath⟩
  | none => return ⟨given, .awaiting option, r.hasPath⟩

/-- Take a named word, with the value that was attached to it by an equals sign or, for a
letter, directly. -/
def takeNamed (r : Reading) (named : Named) (attached : Option String) :
    Except Refusal Reading :=
  match named, attached with
  | .value option, attached => r.takeOption option attached
  | _, some _ => .error .tooManyValues
  | .flag flag, none => do
    let given ← r.settle
    return ⟨← given.takeFlag flag, .nothing, r.hasPath⟩
  | .help, none => do let _ ← r.settle; .error .displayHelp
  | .version, none => do let _ ← r.settle; .error .displayVersion

/-- Take a word that starts with two dashes; `name` is what stands behind them. -/
def takeLong (r : Reading) (word : List Char) : Except Refusal Reading :=
  let name := word.takeWhile (· != '=')
  let attached := match word.dropWhile (· != '=') with
    | [] => none
    | _ :: value => some (String.ofList value)
  match Named.ofLong? (String.ofList name) with
  | none => .error .unknownArgument
  | some named => r.takeNamed named attached

/-- Take a word that starts with one dash and a letter. What stands behind a letter that
takes a value is that value, less one equals sign in front. -/
def takeShort (r : Reading) (letter : Char) (rest : List Char) : Except Refusal Reading :=
  match Named.ofShort? letter with
  | none => .error .unknownArgument
  | some (.value option) =>
    match rest with
    | [] => r.takeOption option none
    | '=' :: value => r.takeOption option (some (String.ofList value))
    | value => r.takeOption option (some (String.ofList value))
  | some named => r.takeNamed named none

/-- Take a plain word: the value an option waits for, or else the path. -/
def takePlain (r : Reading) (text : String) : Except Refusal Reading :=
  match r.pending with
  | .awaiting option => .ok { r with pending := .value option text }
  | _ =>
    if r.hasPath then .error .unknownArgument
    else do
      let given ← r.settle
      return ⟨given, .path text, true⟩

/-- Take a word behind the mark `--`: it is never an option's value. -/
def takeMarked (r : Reading) (text : String) : Except Refusal Reading :=
  if r.hasPath then .error .unknownArgument
  else do
    let given ← r.settle
    return ⟨given, .path text, true⟩

/-- Take a word; whether it was the mark `--` is up to the caller. -/
def take (r : Reading) (word : String) : Except Refusal Reading :=
  match word.toList with
  | '-' :: '-' :: name => r.takeLong name
  | ['-'] => r.takePlain word
  | '-' :: letter :: rest => r.takeShort letter rest
  | _ => r.takePlain word

/-- Take all words behind the mark `--`. -/
def takeAllMarked : List String → Reading → Except Refusal Reading
  | [], r => .ok r
  | word :: rest, r => do takeAllMarked rest (← r.takeMarked word)

/-- Take all words. -/
def takeAll : List String → Reading → Except Refusal Reading
  | [], r => .ok r
  | "--" :: rest, r => takeAllMarked rest r
  | word :: rest, r => do takeAll rest (← r.take word)

/-- The options, once there are no more words. -/
def finish (r : Reading) : Except Refusal Options := do
  let given ← r.settle
  match given.path with
  | none => .error .missingRequiredArgument
  | some path =>
    return ⟨path, given.settings, (given.scale.map UInt32.ofNat).getD Options.defaultScale⟩

end Reading

/-- The options that the words of a command line give. -/
def Options.parse (words : List String) : Except Refusal Options := do
  (← Reading.takeAll words .start).finish

end ChipEight
