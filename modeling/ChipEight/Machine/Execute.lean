import ChipEight.Isa.Instruction
import ChipEight.Machine.Snapshot
import ChipEight.Machine.Settings
import ChipEight.Hardware.Keypad
import ChipEight.Hardware.Random

/-! What each instruction does.

An instruction turns a snapshot into the next one or faults; besides, it may read the
keypad and may load the timers or draw from the random stream. A fault leaves no
next snapshot, so nothing is ever half done, and `execute` says in every case what
became of the devices. -/
namespace ChipEight

/-- What an instruction can look at but not change. -/
structure Surroundings where
  keypad : Keypad
  dialect : Dialect
  strict : Bool

/-- What an instruction can change besides the snapshot. -/
structure Devices where
  timers : Timers
  random : Random
deriving DecidableEq

namespace Snapshot

/-- One if a condition holds, else zero. -/
def flagOf (condition : Bool) : UInt8 := if condition then 1 else 0

/-- A logical operation on two registers. -/
def logic (s : Snapshot) (dialect : Dialect) (x : Nibble) (value : UInt8) : Snapshot :=
  if dialect.logicClearsFlag then s.setFlagged x value 0 else s.setRegister x value

/-- What a shift shifts. -/
def shiftSource (s : Snapshot) (dialect : Dialect) (x y : Nibble) : UInt8 :=
  if dialect.shiftReadsVy then s.register y else s.register x

/-- Where the index points after a block of registers was stored or loaded. -/
def indexAfterBlock (s : Snapshot) (dialect : Dialect) (x : Nibble) : UInt16 :=
  if dialect.blockMovesIndex then s.index + UInt16.ofNat (x.val + 1) else s.index

/-- The register that a computed jump adds. -/
def jumpOffset (s : Snapshot) (dialect : Dialect) (target : Address) : UInt8 :=
  if dialect.jumpReadsVx then s.register (Nibble.ofNat (target.val / 256)) else s.register zeroth

/-- The state with a sprite of some rows drawn; every row is read before any is drawn. -/
def drawSprite (s : Snapshot) (x y n : Nibble) : Except Fault Snapshot :=
  match s.memory.block s.index n.val with
  | .error fault => .error fault
  | .ok sprite =>
    let drawn := s.screen.xorSprite (s.register x).toNat (s.register y).toNat sprite
    .ok { s.setRegister flag (flagOf drawn.1) with screen := drawn.2, redraw := true }

/-- The hundreds, tens and ones of a byte. -/
def decimalDigits (value : UInt8) : List UInt8 := [value / 100, value / 10 % 10, value % 10]

/-- The state with bytes stored at the index. -/
def storeAtIndex (s : Snapshot) (bytes : List UInt8) : Except Fault Snapshot :=
  match s.memory.writeBlock s.index bytes with
  | .error fault => .error fault
  | .ok memory => .ok { s with memory }

/-- The state with the registers up to one loaded from the index. -/
def loadRegisters (s : Snapshot) (x : Nibble) : Except Fault Snapshot :=
  match s.memory.block s.index (x.val + 1) with
  | .error fault => .error fault
  | .ok bytes => .ok (s.setRegistersFrom 0 bytes)

/-- The state in the subroutine that a call goes to. -/
def enter (s : Snapshot) (target : Address) : Except Fault Snapshot :=
  match s.stack.push (s.pc + Opcode.size) with
  | .error fault => .error (.stack fault s.pc)
  | .ok stack => .ok { s with pc := target.word, stack }

/-- The state that a subroutine returns to. -/
def leave (s : Snapshot) : Except Fault Snapshot :=
  match s.stack.pop with
  | .error fault => .error (.stack fault s.pc)
  | .ok (pc, stack) => .ok { s with pc, stack }

/-- A logical operation replaces registers and nothing else. -/
theorem logic_eq (s : Snapshot) (dialect : Dialect) (x : Nibble) (value : UInt8) :
    s.logic dialect x value = { s with registers := (s.logic dialect x value).registers } := by
  simp only [logic]
  split <;> rfl

@[simp] theorem pc_logic (s : Snapshot) (dialect : Dialect) (x : Nibble) (value : UInt8) :
    (s.logic dialect x value).pc = s.pc := by
  rw [logic_eq]

@[simp] theorem stack_logic (s : Snapshot) (dialect : Dialect) (x : Nibble) (value : UInt8) :
    (s.logic dialect x value).stack = s.stack := by
  rw [logic_eq]

/-- A subroutine that could be entered changes the place and the stack and nothing else. -/
theorem enter_ok {s t : Snapshot} {target : Address} (h : s.enter target = .ok t) :
    t = { s with pc := t.pc, stack := t.stack } := by
  simp only [enter] at h
  split at h <;> cases h
  rfl

/-- A subroutine that could be left changes the place and the stack and nothing else. -/
theorem leave_ok {s t : Snapshot} (h : s.leave = .ok t) :
    t = { s with pc := t.pc, stack := t.stack } := by
  simp only [leave] at h
  split at h <;> cases h
  rfl

/-- A sprite that could be drawn replaces registers, the screen and the wish to show it. -/
theorem drawSprite_ok {s t : Snapshot} {x y n : Nibble} (h : s.drawSprite x y n = .ok t) :
    t = { s with registers := t.registers, screen := t.screen, redraw := true } := by
  simp only [drawSprite] at h
  split at h <;> cases h
  rfl

/-- Bytes that could be stored replace memory and nothing else. -/
theorem storeAtIndex_ok {s t : Snapshot} {bytes : List UInt8} (h : s.storeAtIndex bytes = .ok t) :
    t = { s with memory := t.memory } := by
  simp only [storeAtIndex] at h
  split at h <;> cases h
  rfl

/-- Registers that could be loaded replace registers and nothing else. -/
theorem loadRegisters_ok {s t : Snapshot} {x : Nibble} (h : s.loadRegisters x = .ok t) :
    t = { s with registers := t.registers } := by
  simp only [loadRegisters] at h
  split at h <;> cases h
  exact s.setRegistersFrom_eq 0 _

end Snapshot

open Snapshot in
/-- The state after an instruction, or the fault that stopped it, and the devices then. -/
def execute (around : Surroundings) (s : Snapshot) (d : Devices) :
    Instruction → Except Fault Snapshot × Devices
  | .sys _ => (.ok s.next, d)
  | .clear => (.ok { s.next with screen := .blank, redraw := true }, d)
  | .ret => (s.leave, d)
  | .jump target => (.ok { s with pc := target.word }, d)
  | .call target => (s.enter target, d)
  | .skipIfByte x kk => (.ok (s.skipIf (s.register x == kk)), d)
  | .skipUnlessByte x kk => (.ok (s.skipIf (s.register x != kk)), d)
  | .skipIfSame x y => (.ok (s.skipIf (s.register x == s.register y)), d)
  | .skipUnlessSame x y => (.ok (s.skipIf (s.register x != s.register y)), d)
  | .setByte x kk => (.ok (s.setRegister x kk).next, d)
  | .addByte x kk => (.ok (s.setRegister x (s.register x + kk)).next, d)
  | .copy x y => (.ok (s.setRegister x (s.register y)).next, d)
  | .or x y => (.ok (s.logic around.dialect x (s.register x ||| s.register y)).next, d)
  | .and x y => (.ok (s.logic around.dialect x (s.register x &&& s.register y)).next, d)
  | .xor x y => (.ok (s.logic around.dialect x (s.register x ^^^ s.register y)).next, d)
  | .add x y =>
    let a := s.register x
    let b := s.register y
    (.ok (s.setFlagged x (a + b) (flagOf (256 ≤ a.toNat + b.toNat))).next, d)
  | .sub x y =>
    let a := s.register x
    let b := s.register y
    (.ok (s.setFlagged x (a - b) (flagOf (b ≤ a))).next, d)
  | .subFrom x y =>
    let a := s.register x
    let b := s.register y
    (.ok (s.setFlagged x (b - a) (flagOf (a ≤ b))).next, d)
  | .shiftRight x y =>
    let source := s.shiftSource around.dialect x y
    (.ok (s.setFlagged x (source >>> 1) (source &&& 1)).next, d)
  | .shiftLeft x y =>
    let source := s.shiftSource around.dialect x y
    (.ok (s.setFlagged x (source <<< 1) (source >>> 7)).next, d)
  | .setIndex target => (.ok { s.next with index := target.word }, d)
  | .jumpPlus target =>
    (.ok { s with pc := target.word + (s.jumpOffset around.dialect target).toUInt16 }, d)
  | .random x kk =>
    (.ok (s.setRegister x (d.random.byte &&& kk)).next, { d with random := d.random.advance })
  | .draw x y n => ((s.drawSprite x y n).map next, d)
  | .skipIfKey x => (.ok (s.skipIf (around.keypad.isDown (keyOf (s.register x)))), d)
  | .skipUnlessKey x => (.ok (s.skipIf (!around.keypad.isDown (keyOf (s.register x)))), d)
  | .readDelay x => (.ok (s.setRegister x d.timers.delay).next, d)
  | .awaitKey x => (.ok { s.next with keyWait := some ⟨x, none⟩ }, d)
  | .setDelay x => (.ok s.next, { d with timers := d.timers.setDelay (s.register x) })
  | .setSound x => (.ok s.next, { d with timers := d.timers.setSound (s.register x) })
  | .addIndex x => (.ok { s.next with index := s.index + (s.register x).toUInt16 }, d)
  | .glyph x =>
    let digit := UInt16.ofNat (keyOf (s.register x)).val
    (.ok { s.next with index := Memory.fontStart + digit * Memory.glyphSize }, d)
  | .decimal x => ((s.storeAtIndex (decimalDigits (s.register x))).map next, d)
  | .store x =>
    ((s.storeAtIndex (s.registersTo x)).map fun t =>
      { t.next with index := s.indexAfterBlock around.dialect x }, d)
  | .load x =>
    ((s.loadRegisters x).map fun t =>
      { t.next with index := s.indexAfterBlock around.dialect x }, d)
  | .unknown op => (if around.strict then .error (.unknownOpcode op s.pc) else .ok s.next, d)

/-- A word outside the instruction set that could be passed over changes the place and nothing
else. -/
theorem execute_unknown_ok {around : Surroundings} {s t : Snapshot} {d : Devices} {op : Opcode}
    (h : (execute around s d (.unknown op)).1 = .ok t) : t = s.next := by
  simp only [execute] at h
  split at h <;> cases h
  rfl

end ChipEight
