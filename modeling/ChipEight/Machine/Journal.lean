import ChipEight.Isa.Listing

/-! The journal: what a machine and its console have to say about a run.

A record is data: what happened and the numbers that belong to it. Its wording is in
`Record.text`. A journal keeps the records that are at least as severe as the
threshold it was opened with. -/
namespace ChipEight

/-- How much a record matters, the most severe first. -/
inductive Severity where
  | error
  | warn
  | info
  | debug
  | trace
deriving DecidableEq, Repr, Inhabited

namespace Severity

/-- The place of a severity, from zero for the most severe. -/
def rank : Severity → Nat
  | .error => 0
  | .warn => 1
  | .info => 2
  | .debug => 3
  | .trace => 4

/-- The name of a severity. -/
def name : Severity → String
  | .error => "ERROR"
  | .warn => "WARN"
  | .info => "INFO"
  | .debug => "DEBUG"
  | .trace => "TRACE"

end Severity

/-- Something that happened. -/
inductive Record where
  /-- An instruction was fetched, with the registers and the index at that moment. -/
  | fetched (pc : UInt16) (op : Opcode) (registers : Vector UInt8 16) (index : UInt16)
  /-- A program jumped to itself for the first time. -/
  | halted (pc : UInt16)
  /-- A word outside the instruction set was met for the first time at an address. -/
  | metUnknown (op : Opcode) (pc : UInt16)
  /-- A word outside the instruction set was skipped. -/
  | skippedUnknown (op : Opcode) (pc : UInt16)
  /-- A call of the host's machine code was ignored. -/
  | ignoredHostCall (target : Address) (pc : UInt16)
  /-- A program was loaded. -/
  | loaded (size : Nat)
  /-- The program in the machine was loaded again. -/
  | reset
  /-- A buzzer went on or off. -/
  | tone (on : Bool)
  /-- A program is about to run. -/
  | running (path : String) (speed : Nat)
  /-- The user asked to quit. -/
  | quit
  /-- A run ended by a fault. -/
  | stopped (reason : String)
deriving DecidableEq

namespace Record

/-- How much a record matters. -/
def severity : Record → Severity
  | .fetched .. => .trace
  | .halted _ => .info
  | .metUnknown .. => .warn
  | .skippedUnknown .. => .debug
  | .ignoredHostCall .. => .debug
  | .loaded _ => .info
  | .reset => .info
  | .tone _ => .debug
  | .running .. => .info
  | .quit => .info
  | .stopped _ => .error

/-- The registers in order, two digits each. -/
def registersText (registers : Vector UInt8 16) : String :=
  "[" ++ String.intercalate ", " (registers.toList.map fun v => Numeral.hex 2 v.toNat) ++ "]"

/-- The wording of a record. -/
def text : Record → String
  | .fetched pc op registers index =>
    Numeral.marked 3 pc.toNat ++ " " ++ op.text ++ " " ++ Numeral.filled 18 op.decode.mnemonic ++
      " v" ++ registersText registers ++ " i" ++ Numeral.marked 3 index.toNat
  | .halted pc => "program halted at " ++ Numeral.marked 3 pc.toNat
  | .metUnknown op pc =>
    "skipping unknown opcode " ++ op.text ++ " at " ++ Numeral.marked 3 pc.toNat
  | .skippedUnknown op pc =>
    "skipping unknown opcode " ++ op.text ++ " at " ++ Numeral.marked 3 pc.toNat
  | .ignoredHostCall target pc =>
    "ignoring SYS " ++ Numeral.marked 3 target.val ++ " at " ++ Numeral.marked 3 pc.toNat
  | .loaded size => "loaded " ++ toString size ++ " byte ROM"
  | .reset => "reset"
  | .tone on => "tone " ++ (if on then "on" else "off")
  | .running path speed =>
    "running " ++ path ++ " at " ++ toString speed ++ " instructions per second"
  | .quit => "quit requested"
  | .stopped reason => "stopped: " ++ reason

end Record

/-- Records at least as severe as a threshold, the latest first; without a threshold
nothing is kept. -/
structure Journal where
  threshold : Option Severity
  entries : List Record
deriving DecidableEq

namespace Journal

/-- A journal with nothing in it yet. -/
def opened (threshold : Option Severity) : Journal := ⟨threshold, []⟩

/-- A journal that never keeps anything. -/
def closed : Journal := opened none

instance : Inhabited Journal := ⟨closed⟩

/-- Whether a record is kept. -/
def keeps (j : Journal) (record : Record) : Bool :=
  match j.threshold with
  | none => false
  | some threshold => record.severity.rank ≤ threshold.rank

/-- The journal after one more record. -/
def write (j : Journal) (record : Record) : Journal :=
  if j.keeps record then { j with entries := record :: j.entries } else j

/-- The journal after more records, the earliest first. -/
def writeAll (j : Journal) (records : List Record) : Journal := records.foldl write j

/-- What is in the journal, the earliest first. -/
def toList (j : Journal) : List Record := j.entries.reverse

/-- The journal with its entries taken out. -/
def cleared (j : Journal) : Journal := { j with entries := [] }

end Journal
end ChipEight
