import ChipEight.Machine.Execute

/-! What an instruction faults on.

An instruction faults on a block that does not lie inside memory, on a call stack that is full
or empty, or on being no instruction at all under strict settings. `Snapshot.fault?` says
which fault it is from the snapshot and the strictness alone, and `faultOf_execute` that nothing
else has a say in it: not the keypad, not the timers, not the random stream, and not the
dialect. -/
namespace ChipEight

/-- The fault that a result is, if it is one. -/
def faultOf {α : Type} : Except Fault α → Option Fault
  | .error fault => some fault
  | .ok _ => none

@[simp] theorem faultOf_map {α β : Type} (r : Except Fault α) (f : α → β) :
    faultOf (r.map f) = faultOf r := by
  cases r <;> rfl

theorem faultOf_eq_none {α : Type} {r : Except Fault α} : faultOf r = none ↔ ∃ a, r = .ok a := by
  cases r with
  | error fault => exact ⟨nofun, nofun⟩
  | ok a => exact ⟨fun _ => ⟨a, rfl⟩, fun _ => rfl⟩

theorem faultOf_eq_some {α : Type} {r : Except Fault α} {fault : Fault} :
    faultOf r = some fault ↔ r = .error fault := by
  cases r with
  | error other =>
    exact ⟨fun h => congrArg _ (Option.some.inj h), fun h => congrArg _ (Except.error.inj h)⟩
  | ok a => exact ⟨nofun, nofun⟩

theorem ok_of_map {α β : Type} {r : Except Fault α} {f : α → β} {b : β} (h : r.map f = .ok b) :
    ∃ a, r = .ok a ∧ f a = b := by
  cases r with
  | error fault => cases h
  | ok a => exact ⟨a, rfl, Except.ok.inj h⟩

namespace Memory

/-- The fault of a block that does not lie inside memory. -/
def blockFault? (address : UInt16) (length : Nat) : Option Fault :=
  if address.toNat + length ≤ 4096 then none else some (.outOfBounds (max address.toNat 4096))

theorem blockFault?_eq_none {address : UInt16} {length : Nat} :
    blockFault? address length = none ↔ address.toNat + length ≤ 4096 := by
  simp [blockFault?]

theorem blockFault?_eq_some {address : UInt16} {length : Nat} {fault : Fault} :
    blockFault? address length = some fault ↔
      4096 < address.toNat + length ∧ fault = .outOfBounds (max address.toNat 4096) := by
  simp [blockFault?, eq_comm]

theorem faultOf_checkBlock (address : UInt16) (length : Nat) :
    faultOf (checkBlock address length) = blockFault? address length := by
  simp only [checkBlock, blockFault?]
  split <;> rfl

theorem faultOf_block (m : Memory) (address : UInt16) (length : Nat) :
    faultOf (m.block address length) = blockFault? address length := by
  rw [← faultOf_checkBlock, block]
  cases checkBlock address length <;> rfl

theorem faultOf_writeBlock (m : Memory) (address : UInt16) (data : List UInt8) :
    faultOf (m.writeBlock address data) = blockFault? address data.length := by
  rw [← faultOf_checkBlock, writeBlock]
  cases checkBlock address data.length <;> rfl

theorem faultOf_opcode (m : Memory) (address : UInt16) :
    faultOf (m.opcode address) = blockFault? address 2 := by
  rw [← faultOf_checkBlock, opcode]
  cases checkBlock address 2 <;> rfl

end Memory

namespace Snapshot

/-- The fault that an instruction comes to, if it comes to one. -/
def fault? (s : Snapshot) (strict : Bool) : Instruction → Option Fault
  | .ret => if s.stack.depth.val = 0 then some (.stack .underflow s.pc) else none
  | .call _ => if s.stack.depth.val = 16 then some (.stack .overflow s.pc) else none
  | .draw _ _ n => Memory.blockFault? s.index n.val
  | .decimal _ => Memory.blockFault? s.index 3
  | .store x | .load x => Memory.blockFault? s.index (x.val + 1)
  | .unknown op => if strict then some (.unknownOpcode op s.pc) else none
  | _ => none

/-- The wish to be shown makes no difference. -/
theorem fault?_redraw (s : Snapshot) (redraw strict : Bool) (i : Instruction) :
    { s with redraw }.fault? strict i = s.fault? strict i := by
  cases i <;> rfl

theorem faultOf_leave (s : Snapshot) (strict : Bool) :
    faultOf s.leave = s.fault? strict .ret := by
  simp only [leave, fault?, CallStack.pop]
  by_cases h : 0 < s.stack.depth.val
  · rw [dif_pos h, if_neg (Nat.ne_of_gt h)]
    rfl
  · rw [dif_neg h, if_pos (Nat.eq_zero_of_not_pos h)]
    rfl

theorem faultOf_enter (s : Snapshot) (strict : Bool) (target : Address) :
    faultOf (s.enter target) = s.fault? strict (.call target) := by
  have hdepth := s.stack.depth.isLt
  simp only [enter, fault?, CallStack.push]
  by_cases h : s.stack.depth.val < 16
  · rw [dif_pos h, if_neg (by omega)]
    rfl
  · rw [dif_neg h, if_pos (by omega)]
    rfl

theorem faultOf_drawSprite (s : Snapshot) (x y n : Nibble) :
    faultOf (s.drawSprite x y n) = Memory.blockFault? s.index n.val := by
  rw [← s.memory.faultOf_block, drawSprite]
  cases s.memory.block s.index n.val <;> rfl

theorem faultOf_storeAtIndex (s : Snapshot) (bytes : List UInt8) :
    faultOf (s.storeAtIndex bytes) = Memory.blockFault? s.index bytes.length := by
  rw [← s.memory.faultOf_writeBlock, storeAtIndex]
  cases s.memory.writeBlock s.index bytes <;> rfl

theorem faultOf_loadRegisters (s : Snapshot) (x : Nibble) :
    faultOf (s.loadRegisters x) = Memory.blockFault? s.index (x.val + 1) := by
  rw [← s.memory.faultOf_block, loadRegisters]
  cases s.memory.block s.index (x.val + 1) <;> rfl

theorem length_registersTo (s : Snapshot) (x : Nibble) :
    (s.registersTo x).length = x.val + 1 := by
  have := x.lt
  simp only [registersTo, List.length_take, Vector.length_toList]
  omega

end Snapshot

/-- **The snapshot and the strictness decide which fault an instruction comes to.** -/
theorem faultOf_execute (around : Surroundings) (s : Snapshot) (d : Devices) (i : Instruction) :
    faultOf (execute around s d i).1 = s.fault? around.strict i := by
  cases i with
  | ret => exact s.faultOf_leave around.strict
  | call target => exact s.faultOf_enter around.strict target
  | draw x y n => exact (faultOf_map _ _).trans (s.faultOf_drawSprite x y n)
  | decimal x => exact (faultOf_map _ _).trans (s.faultOf_storeAtIndex _)
  | store x =>
    have hstored := s.faultOf_storeAtIndex (s.registersTo x)
    rw [Snapshot.length_registersTo] at hstored
    exact (faultOf_map _ _).trans hstored
  | load x => exact (faultOf_map _ _).trans (s.faultOf_loadRegisters x)
  | unknown op =>
    simp only [execute, Snapshot.fault?]
    split <;> rfl
  | _ => rfl

variable {around : Surroundings} {s : Snapshot} {d : Devices} {i : Instruction}

/-- Where an instruction faulted, the snapshot and the strictness say so. -/
theorem fault?_of_error {fault : Fault} (h : (execute around s d i).1 = .error fault) :
    s.fault? around.strict i = some fault := by
  rw [← faultOf_execute around s d i, h, faultOf]

/-- Where an instruction ran, nothing was against it. -/
theorem fault?_of_ok {next : Snapshot} (h : (execute around s d i).1 = .ok next) :
    s.fault? around.strict i = none := by
  rw [← faultOf_execute around s d i, h, faultOf]

/-- An instruction that nothing is against runs. -/
theorem execute_ok (around : Surroundings) (d : Devices) (h : s.fault? around.strict i = none) :
    ∃ next d', execute around s d i = (.ok next, d') := by
  rw [← faultOf_execute around s d i] at h
  obtain ⟨next, hnext⟩ := faultOf_eq_none.mp h
  exact ⟨next, (execute around s d i).2, Prod.ext hnext rfl⟩

end ChipEight
