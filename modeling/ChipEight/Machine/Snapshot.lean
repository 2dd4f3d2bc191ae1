import ChipEight.Hardware.Memory
import ChipEight.Hardware.CallStack
import ChipEight.Hardware.Screen

/-! Snapshots: everything about a machine that taking back a cycle restores.

The keypad, the timers and the random stream are not in a snapshot: the world
moves on while a program goes back. -/
namespace ChipEight

/-- A program waiting for a key: the register it goes to, and the key once one is down. -/
structure KeyWait where
  register : Nibble
  pressed : Option Nibble
deriving DecidableEq, Repr

/-- The state of a machine's processor, memory and screen. -/
structure Snapshot where
  registers : Vector UInt8 16
  index : UInt16
  pc : UInt16
  stack : CallStack
  memory : Memory
  screen : Screen
  /-- Whether the screen may have changed since it was last shown. -/
  redraw : Bool
  keyWait : Option KeyWait
deriving DecidableEq

namespace Snapshot

/-- The register that comparisons and arithmetic flag. -/
def flag : Nibble := ⟨15, by decide⟩

/-- The register that a computed jump adds unless the dialect says otherwise. -/
def zeroth : Nibble := ⟨0, by decide⟩

/-- The state before a program is loaded. -/
def initial : Snapshot where
  registers := Vector.replicate 16 0
  index := 0
  pc := Memory.programStart
  stack := .empty
  memory := .initial
  screen := .blank
  redraw := false
  keyWait := none

instance : Inhabited Snapshot := ⟨initial⟩

/-- The value of a register. -/
def register (s : Snapshot) (x : Nibble) : UInt8 := s.registers.get x

/-- The state with a register replaced. -/
def setRegister (s : Snapshot) (x : Nibble) (value : UInt8) : Snapshot :=
  { s with registers := s.registers.set x.val value x.lt }

/-- The state with a result put into a register and then a flag into the flag register, so
that the flag stays where both go to one place. -/
def setFlagged (s : Snapshot) (x : Nibble) (value flag : UInt8) : Snapshot :=
  (s.setRegister x value).setRegister Snapshot.flag flag

/-- The state with the registers from one on replaced by bytes in order. -/
def setRegistersFrom (s : Snapshot) (start : Nat) (values : List UInt8) : Snapshot :=
  match values with
  | [] => s
  | v :: rest =>
    let first : Snapshot := { s with registers := s.registers.setIfInBounds start v }
    first.setRegistersFrom (start + 1) rest

/-- The registers up to one, that one included. -/
def registersTo (s : Snapshot) (x : Nibble) : List UInt8 := s.registers.toList.take (x.val + 1)

/-- The state with the program one instruction further. -/
def next (s : Snapshot) : Snapshot := { s with pc := s.pc + Opcode.size }

/-- The state with the program past the next instruction if a condition holds. -/
def skipIf (s : Snapshot) (condition : Bool) : Snapshot :=
  if condition then { s with pc := s.pc + 2 * Opcode.size } else s.next

theorem register_eq (s : Snapshot) (x : Nibble) :
    s.register x = getElem s.registers x.val x.lt := rfl

@[simp] theorem register_setRegister (s : Snapshot) (x z : Nibble) (value : UInt8) :
    (s.setRegister x value).register z = if z = x then value else s.register z := by
  simp only [register_eq, setRegister, Vector.getElem_set, Fin.ext_iff, eq_comm]

/-! ### What registers have nothing to do with -/

@[simp] theorem pc_setRegister (s : Snapshot) (x : Nibble) (value : UInt8) :
    (s.setRegister x value).pc = s.pc := rfl

@[simp] theorem stack_setRegister (s : Snapshot) (x : Nibble) (value : UInt8) :
    (s.setRegister x value).stack = s.stack := rfl

@[simp] theorem pc_setFlagged (s : Snapshot) (x : Nibble) (value flag : UInt8) :
    (s.setFlagged x value flag).pc = s.pc := rfl

@[simp] theorem stack_setFlagged (s : Snapshot) (x : Nibble) (value flag : UInt8) :
    (s.setFlagged x value flag).stack = s.stack := rfl

/-- Loading registers replaces the registers and nothing else. -/
theorem setRegistersFrom_eq (s : Snapshot) (start : Nat) (values : List UInt8) :
    s.setRegistersFrom start values =
      { s with registers := (s.setRegistersFrom start values).registers } := by
  induction values generalizing s start with
  | nil => rfl
  | cons v rest ih =>
    simp only [setRegistersFrom]
    rw [ih]

/-- Skipping changes the place of the program and nothing else. -/
theorem skipIf_eq (s : Snapshot) (condition : Bool) :
    s.skipIf condition = { s with pc := (s.skipIf condition).pc } := by
  cases condition <;> rfl

@[simp] theorem stack_next (s : Snapshot) : s.next.stack = s.stack := rfl

end Snapshot
end ChipEight
