import ChipEight.Machine.Execute

/-! Where instructions lead.

Of all that an instruction does to a snapshot, this is the part that decides what runs
next: the place of the program and the call stack. `execute_flow` names the six ways an
instruction can go on, with the instructions that go each of the uncommon ways; any other
goes on to the next instruction, or past it, and leaves the stack alone. -/
namespace ChipEight

/-- Whether an instruction goes on elsewhere than behind itself. -/
def Instruction.turns : Instruction → Bool
  | .ret | .jump _ | .jumpPlus _ | .call _ => true
  | _ => false

/-- The way from a snapshot by an instruction to a snapshot. -/
inductive Flow (s : Snapshot) : Instruction → Snapshot → Prop where
  /-- On to the next instruction. -/
  | on {i : Instruction} {t : Snapshot} : i.turns = false → t.stack = s.stack →
      t.pc = s.pc + Opcode.size → Flow s i t
  /-- Past the next instruction. -/
  | past {i : Instruction} {t : Snapshot} : i.turns = false → t.stack = s.stack →
      t.pc = s.pc + 2 * Opcode.size → Flow s i t
  /-- To an address. -/
  | jump (target : Address) {t : Snapshot} : t.stack = s.stack → t.pc = target.word →
      Flow s (.jump target) t
  /-- To an address plus a register. -/
  | jumpPlus (target : Address) (offset : UInt8) {t : Snapshot} : t.stack = s.stack →
      t.pc = target.word + offset.toUInt16 → Flow s (.jumpPlus target) t
  /-- Into a subroutine. -/
  | call (target : Address) {t : Snapshot} : s.stack.push (s.pc + Opcode.size) = .ok t.stack →
      t.pc = target.word → Flow s (.call target) t
  /-- Out of a subroutine. -/
  | ret {t : Snapshot} : s.stack.pop = .ok (t.pc, t.stack) → Flow s .ret t

namespace Flow

open Snapshot

theorem skipIf {i : Instruction} (hi : i.turns = false) (s : Snapshot) (condition : Bool) :
    Flow s i (s.skipIf condition) := by
  cases condition
  · exact .on hi rfl rfl
  · exact .past hi rfl rfl

theorem enter {s t : Snapshot} {target : Address} (h : s.enter target = .ok t) :
    Flow s (.call target) t := by
  simp only [Snapshot.enter] at h
  split at h
  · cases h
  · rename_i stack hpush
    cases h
    exact .call target hpush rfl

theorem leave {s t : Snapshot} (h : s.leave = .ok t) : Flow s .ret t := by
  simp only [Snapshot.leave] at h
  split at h
  · cases h
  · rename_i pc stack hpop
    cases h
    exact .ret hpop

/-- What goes on after a result that leaves the place and the stack alone. -/
theorem map_next {s t : Snapshot} {i : Instruction} {r : Except Fault Snapshot}
    (hi : i.turns = false) (kept : ∀ u, r = .ok u → u.stack = s.stack ∧ u.pc = s.pc)
    (f : Snapshot → Snapshot) (hf : ∀ u, (f u).stack = u.stack ∧ (f u).pc = u.pc + Opcode.size)
    (h : r.map f = .ok t) : Flow s i t := by
  cases r with
  | error fault => cases h
  | ok u =>
    cases h
    obtain ⟨hstack, hpc⟩ := kept u rfl
    exact .on hi (by rw [(hf u).1, hstack]) (by rw [(hf u).2, hpc])

end Flow

open Snapshot in
/-- An instruction that does not fault goes one of the six ways. -/
theorem execute_flow {around : Surroundings} {s t : Snapshot} {d : Devices} {i : Instruction}
    (h : (execute around s d i).1 = .ok t) : Flow s i t := by
  cases i with
  | ret => exact .leave h
  | call target => exact .enter h
  | jump target => cases h; exact .jump target rfl rfl
  | jumpPlus target => cases h; exact .jumpPlus target _ rfl rfl
  | skipIfByte | skipUnlessByte | skipIfSame | skipUnlessSame | skipIfKey | skipUnlessKey =>
    cases h
    exact .skipIf rfl s _
  | or | and | xor =>
    cases h
    exact .on rfl (by rw [stack_next, stack_logic]) (by rw [next, pc_logic])
  | draw x y n =>
    refine .map_next rfl (fun u hu => ?_) next (fun _ => ⟨rfl, rfl⟩) h
    rw [drawSprite_ok hu]
    exact ⟨rfl, rfl⟩
  | decimal x =>
    refine .map_next rfl (fun u hu => ?_) next (fun _ => ⟨rfl, rfl⟩) h
    rw [storeAtIndex_ok hu]
    exact ⟨rfl, rfl⟩
  | store x =>
    refine .map_next rfl (fun u hu => ?_)
      (fun u => {u.next with index := s.indexAfterBlock around.dialect x}) (fun _ => ⟨rfl, rfl⟩) h
    rw [storeAtIndex_ok hu]
    exact ⟨rfl, rfl⟩
  | load x =>
    refine .map_next rfl (fun u hu => ?_)
      (fun u => {u.next with index := s.indexAfterBlock around.dialect x}) (fun _ => ⟨rfl, rfl⟩) h
    rw [loadRegisters_ok hu]
    exact ⟨rfl, rfl⟩
  | unknown op =>
    obtain rfl := execute_unknown_ok h
    exact .on rfl rfl rfl
  | _ => cases h; exact .on rfl rfl rfl

end ChipEight
