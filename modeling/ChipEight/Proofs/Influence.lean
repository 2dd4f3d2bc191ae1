import ChipEight.Proofs.Redraw

/-! What an instruction looks at.

Besides the snapshot there is a keypad, a dialect, a strictness, a delay timer and a random
stream to look at, and an instruction looks at one of them at most: its *influence*, if it has
one (`Instruction.influence?`). `execute_of_same` is what that means: where this one is the
same, an instruction comes to the same, however much the rest differs. In the snapshot it
looks at everything but the wish to be shown (`execute_redraw`). What it makes of the timers
and of the random stream, in turn, is the same wherever the snapshot is (`execute_devices`). -/
namespace ChipEight

/-- What there is to look at besides the snapshot. Each choice of a dialect counts by itself. -/
inductive Influence where
  | keypad
  | strict
  | shiftReadsVy
  | blockMovesIndex
  | logicClearsFlag
  | jumpReadsVx
  | delay
  | random
deriving DecidableEq, Repr

/-- What an instruction looks at besides the snapshot, if it does. A register shifted onto itself
is the same register in every dialect, and so is the one that a jump below 0x100 adds. -/
def Instruction.influence? : Instruction → Option Influence
  | .skipIfKey _ | .skipUnlessKey _ => some .keypad
  | .unknown _ => some .strict
  | .shiftRight x y | .shiftLeft x y => if x = y then none else some .shiftReadsVy
  | .store _ | .load _ => some .blockMovesIndex
  | .or _ _ | .and _ _ | .xor _ _ => some .logicClearsFlag
  | .jumpPlus target => if target.val < 0x100 then none else some .jumpReadsVx
  | .readDelay _ => some .delay
  | .random _ _ => some .random
  | _ => none

/-- Whether an influence is the same in two places. -/
def Influence.Same (around : Surroundings) (d : Devices) (around' : Surroundings) (d' : Devices) :
    Influence → Prop
  | .keypad => around'.keypad = around.keypad
  | .strict => around'.strict = around.strict
  | .shiftReadsVy => around'.dialect.shiftReadsVy = around.dialect.shiftReadsVy
  | .blockMovesIndex => around'.dialect.blockMovesIndex = around.dialect.blockMovesIndex
  | .logicClearsFlag => around'.dialect.logicClearsFlag = around.dialect.logicClearsFlag
  | .jumpReadsVx => around'.dialect.jumpReadsVx = around.dialect.jumpReadsVx
  | .delay => d'.timers.delay = d.timers.delay
  | .random => d'.random = d.random

/-- A register shifted onto itself is the same in every dialect. -/
theorem Snapshot.shiftSource_self (s : Snapshot) (dialect : Dialect) (x : Nibble) :
    s.shiftSource dialect x x = s.register x := ite_self _

/-- A jump below 0x100 adds the same register in every dialect. -/
theorem Snapshot.jumpOffset_low (s : Snapshot) (dialect : Dialect) {target : Address}
    (h : target.val < 0x100) : s.jumpOffset dialect target = s.register zeroth := by
  have hplace : Nibble.ofNat (target.val / 256) = zeroth := by
    rw [Nat.div_eq_of_lt h]
    rfl
  rw [jumpOffset, hplace, ite_self]

variable {around around' : Surroundings} {d d' : Devices} {i : Instruction}

/-- **An instruction comes to the same wherever it reads the same.** -/
theorem execute_of_same (s : Snapshot)
    (same : ∀ influence, i.influence? = some influence → influence.Same around d around' d') :
    (execute around' s d' i).1 = (execute around s d i).1 := by
  cases i with
  | skipIfKey x | skipUnlessKey x =>
    have hkeypad : around'.keypad = around.keypad := same .keypad rfl
    simp only [execute, hkeypad]
  | unknown op =>
    have hstrict : around'.strict = around.strict := same .strict rfl
    simp only [execute, hstrict]
  | or x y | and x y | xor x y =>
    have hclears : around'.dialect.logicClearsFlag = around.dialect.logicClearsFlag :=
      same .logicClearsFlag rfl
    simp only [execute, Snapshot.logic, hclears]
  | shiftRight x y | shiftLeft x y =>
    by_cases hself : x = y
    · subst hself
      simp only [execute, Snapshot.shiftSource_self]
    · have hreads : around'.dialect.shiftReadsVy = around.dialect.shiftReadsVy :=
        same .shiftReadsVy (if_neg hself)
      simp only [execute, Snapshot.shiftSource, hreads]
  | jumpPlus target =>
    by_cases hlow : target.val < 0x100
    · simp only [execute, s.jumpOffset_low _ hlow]
    · have hreads : around'.dialect.jumpReadsVx = around.dialect.jumpReadsVx :=
        same .jumpReadsVx (if_neg hlow)
      simp only [execute, Snapshot.jumpOffset, hreads]
  | store x | load x =>
    have hmoves : around'.dialect.blockMovesIndex = around.dialect.blockMovesIndex :=
      same .blockMovesIndex rfl
    simp only [execute, Snapshot.indexAfterBlock, hmoves]
  | readDelay x =>
    have hdelay : d'.timers.delay = d.timers.delay := same .delay rfl
    simp only [execute, hdelay]
  | random x kk =>
    have hrandom : d'.random = d.random := same .random rfl
    simp only [execute, hrandom]
  | _ => rfl

/-- What an instruction makes of the timers and the random stream. -/
def Snapshot.devicesAfter (s : Snapshot) (d : Devices) : Instruction → Devices
  | .setDelay x => { d with timers := d.timers.setDelay (s.register x) }
  | .setSound x => { d with timers := d.timers.setSound (s.register x) }
  | .random _ _ => { d with random := d.random.advance }
  | _ => d

theorem execute_devices (around : Surroundings) (s : Snapshot) (d : Devices) (i : Instruction) :
    (execute around s d i).2 = s.devicesAfter d i := by
  cases i <;> rfl

/-- What became of the devices of an instruction is what it makes of them. -/
theorem eq_devicesAfter {s : Snapshot} {result : Except Fault Snapshot}
    (h : execute around s d i = (result, d')) :
    d' = s.devicesAfter d i := by
  rw [← execute_devices around, h]

/-- What an instruction makes of the random stream does not hang on the timers. -/
theorem Snapshot.random_devicesAfter (s : Snapshot) (d : Devices) (timers : Timers)
    (i : Instruction) :
    (s.devicesAfter { d with timers } i).random = (s.devicesAfter d i).random := by
  cases i <;> rfl

/-! ### The wish to be shown -/

namespace Snapshot

theorem skipIf_redraw (s : Snapshot) (redraw condition : Bool) :
    { s with redraw }.skipIf condition = { s.skipIf condition with redraw } := by
  cases condition <;> rfl

theorem logic_redraw (s : Snapshot) (redraw : Bool) (dialect : Dialect) (x : Nibble)
    (value : UInt8) :
    { s with redraw }.logic dialect x value = { s.logic dialect x value with redraw } := by
  simp only [logic]
  split <;> rfl

theorem drawSprite_redraw (s : Snapshot) (redraw : Bool) (x y n : Nibble) :
    { s with redraw }.drawSprite x y n = s.drawSprite x y n := by
  simp only [drawSprite]
  cases s.memory.block s.index n.val <;> rfl

theorem storeAtIndex_redraw (s : Snapshot) (redraw : Bool) (bytes : List UInt8) :
    { s with redraw }.storeAtIndex bytes =
      (s.storeAtIndex bytes).map fun t => { t with redraw } := by
  simp only [storeAtIndex]
  cases s.memory.writeBlock s.index bytes <;> rfl

theorem setRegistersFrom_redraw (s : Snapshot) (redraw : Bool) (start : Nat)
    (values : List UInt8) :
    { s with redraw }.setRegistersFrom start values =
      { s.setRegistersFrom start values with redraw } := by
  induction values generalizing s start with
  | nil => rfl
  | cons v rest ih =>
    exact ih { s with registers := s.registers.setIfInBounds start v } (start + 1)

theorem loadRegisters_redraw (s : Snapshot) (redraw : Bool) (x : Nibble) :
    { s with redraw }.loadRegisters x = (s.loadRegisters x).map fun t => { t with redraw } := by
  simp only [loadRegisters]
  cases s.memory.block s.index (x.val + 1) with
  | error fault => rfl
  | ok bytes => exact congrArg Except.ok (s.setRegistersFrom_redraw redraw 0 bytes)

end Snapshot

open Snapshot in
/-- **No instruction looks at the wish to be shown.** -/
theorem execute_redraw (around : Surroundings) (s : Snapshot) (d : Devices) (i : Instruction)
    (redraw : Bool) :
    (execute around { s with redraw } d i).1 =
      (execute around s d i).1.map fun t => { t with redraw := i.draws || redraw } := by
  cases i with
  | ret =>
    simp only [execute, leave]
    cases s.stack.pop <;> rfl
  | call target =>
    simp only [execute, enter]
    cases s.stack.push (s.pc + Opcode.size) <;> rfl
  | skipIfByte | skipUnlessByte | skipIfSame | skipUnlessSame | skipIfKey | skipUnlessKey =>
    exact congrArg Except.ok (s.skipIf_redraw redraw _)
  | or | and | xor =>
    exact congrArg (fun t => Except.ok (next t)) (s.logic_redraw redraw around.dialect _ _)
  | draw x y n =>
    simp only [execute, drawSprite_redraw]
    cases h : s.drawSprite x y n with
    | error fault => rfl
    | ok t =>
      rw [drawSprite_ok h]
      rfl
  | decimal x =>
    have hstored := s.storeAtIndex_redraw redraw (decimalDigits (s.register x))
    refine (congrArg (Except.map next) hstored).trans ?_
    simp only [execute]
    cases s.storeAtIndex (decimalDigits (s.register x)) <;> rfl
  | store x =>
    have hstored := s.storeAtIndex_redraw redraw (s.registersTo x)
    refine (congrArg (Except.map fun t =>
      { t.next with index := s.indexAfterBlock around.dialect x }) hstored).trans ?_
    simp only [execute]
    cases s.storeAtIndex (s.registersTo x) <;> rfl
  | load x =>
    simp only [execute, loadRegisters_redraw]
    cases s.loadRegisters x <;> rfl
  | unknown op =>
    simp only [execute]
    split <;> rfl
  | _ => rfl

end ChipEight
