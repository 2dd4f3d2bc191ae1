import ChipEight.Isa.Opcode

/-! Faults: everything that can stop a machine or what drives it.

A fault is a cause with the numbers that explain it. Its wording is in
`Fault.message`; a fault that came from outside keeps the outside's own words as
its `cause`. -/
namespace ChipEight

/-- The two ways to misuse a call stack. -/
inductive StackFault where
  /-- A call with every slot in use. -/
  | overflow
  /-- A return outside of any subroutine. -/
  | underflow
deriving DecidableEq, Repr, Inhabited

/-- The wording of a stack fault. -/
def StackFault.message : StackFault → String
  | .overflow => "overflow (more than 16 nested calls)"
  | .underflow => "underflow (return outside of a subroutine)"

/-- Everything that can stop a machine. -/
inductive Fault where
  /-- The first address of an access that lies outside memory. -/
  | outOfBounds (address : Nat)
  /-- A program that does not fit behind the place it is loaded at. -/
  | programTooLarge (size : Nat) (origin : UInt16) (capacity : Nat)
  /-- A misused call stack, and the instruction that did it. -/
  | stack (fault : StackFault) (address : UInt16)
  /-- A word outside the instruction set, where that is not tolerated. -/
  | unknownOpcode (op : Opcode) (address : UInt16)
  /-- A program that could not be read from its source. -/
  | unreadable (cause : String)
  /-- A display, an input or a buzzer that gave out. -/
  | peripheral (cause : String)
  /-- More emulated time than a clock can count. -/
  | clockOverflow
deriving DecidableEq, Repr, Inhabited

namespace Fault

/-- The wording of a fault. -/
def message : Fault → String
  | .outOfBounds address =>
    "memory access out of bounds at address " ++ Numeral.marked 4 address
  | .programTooLarge size origin capacity =>
    "ROM is too large (" ++ toString size ++ " bytes at " ++ Numeral.marked 3 origin.toNat ++
      "), at most " ++ toString capacity ++ " bytes fit"
  | .stack fault address =>
    "stack " ++ fault.message ++ " at address " ++ Numeral.marked 3 address.toNat
  | .unknownOpcode op address =>
    "unknown opcode " ++ op.text ++ " at address " ++ Numeral.marked 3 address.toNat
  | .unreadable _ => "I/O failure"
  | .peripheral cause => "frontend failure: " ++ cause
  | .clockOverflow => "emulated time overflow"

/-- What the outside said, for a fault that came from there. -/
def cause : Fault → Option String
  | .unreadable cause => some cause
  | .peripheral cause => some cause
  | _ => none

/-- A fault's wording followed by its cause's. -/
def chain (fault : Fault) : List String := fault.message :: fault.cause.toList

end Fault
end ChipEight
