import ChipEight.Isa.Encoding
import ChipEight.Proofs.Course
import ChipEight.Proofs.Faults

/-! When a cycle fails.

A cycle of a machine that waits for a key never fails. Any other cycle fails where the opcode
does not lie inside memory, and otherwise where the state refuses what the opcode asks for: a
return from nowhere, a seventeenth call, a word outside the instruction set under strict settings,
or a block from the index on that does not lie inside memory. `Machine.Fails` lists these ways to
fail, each with its fault, and `step_failures` says that there is no other and that none of them is
ever got away with. -/
namespace ChipEight

/-- The length of the block from the index on that an instruction reads or writes. -/
def Instruction.block? : Instruction → Option Nat
  | .draw _ _ n => some n.val
  | .decimal _ => some 3
  | .store x | .load x => some (x.val + 1)
  | _ => none

/-- What a state refuses to do for an opcode, with the fault that this is. -/
inductive Snapshot.Refuses (s : Snapshot) (strict : Bool) (op : Opcode) : Fault → Prop where
  /-- There is nowhere to return to. -/
  | underflow : op.decode = .ret → s.stack.toList = [] →
      Refuses s strict op (.stack .underflow s.pc)
  /-- There is no room for another return address. -/
  | overflow (target : Address) : op.decode = .call target → s.stack.toList.length = 16 →
      Refuses s strict op (.stack .overflow s.pc)
  /-- The word is outside the instruction set, and that is not tolerated. -/
  | unknown : op.decode = .unknown op → strict = true →
      Refuses s strict op (.unknownOpcode op s.pc)
  /-- The block from the index on does not lie inside memory. -/
  | block (length : Nat) : op.decode.block? = some length → 4096 < s.index.toNat + length →
      Refuses s strict op (.outOfBounds (max s.index.toNat 4096))

/-- The ways in which the next instruction of a machine can fail, with the fault that this is. -/
inductive Machine.Fails (m : Machine) : Fault → Prop where
  /-- The opcode does not lie inside memory. -/
  | strays : 4095 < m.snapshot.pc.toNat + 1 → Fails m (.outOfBounds (max m.snapshot.pc.toNat 4096))
  /-- The opcode asks for what the state refuses. -/
  | refused (op : Opcode) (fault : Fault) : m.snapshot.memory.opcode m.snapshot.pc = .ok op →
      m.snapshot.Refuses m.settings.strict op fault → Fails m fault

/-- The word that an opcode outside the instruction set keeps is its own. -/
theorem Opcode.eq_of_decode_unknown {op word : Opcode} (h : op.decode = .unknown word) :
    word = op := by
  rw [← op.encode_decode, h]
  rfl

namespace Snapshot

variable {s : Snapshot} {strict : Bool} {op : Opcode} {i : Instruction} {fault : Fault}

theorem toList_stack_eq_nil : s.stack.toList = [] ↔ s.stack.depth.val = 0 := by
  rw [← List.length_eq_zero_iff, CallStack.length_toList]

/-- Of an instruction with a block, the block decides whether it faults. -/
theorem fault?_of_block {length : Nat} (h : i.block? = some length) :
    s.fault? strict i = Memory.blockFault? s.index length := by
  cases i <;> cases h <;> rfl

/-- What a state refuses to do for an opcode is what the instruction comes to as a fault. -/
theorem refuses_iff : s.Refuses strict op fault ↔ s.fault? strict op.decode = some fault := by
  constructor
  · rintro (⟨hop, hempty⟩ | ⟨target, hop, hfull⟩ | ⟨hop, hstrict⟩ | ⟨length, hblock, houtside⟩)
    · rw [hop]
      exact if_pos (toList_stack_eq_nil.mp hempty)
    · rw [CallStack.length_toList] at hfull
      rw [hop]
      exact if_pos hfull
    · rw [hop]
      exact if_pos hstrict
    · rw [fault?_of_block hblock]
      exact Memory.blockFault?_eq_some.mpr ⟨houtside, rfl⟩
  · intro h
    cases hop : op.decode with
    | ret =>
      simp only [hop, fault?] at h
      split at h <;> cases h
      exact .underflow hop (toList_stack_eq_nil.mpr ‹_›)
    | call target =>
      simp only [hop, fault?] at h
      split at h <;> cases h
      exact .overflow target hop (s.stack.length_toList.trans ‹_›)
    | unknown word =>
      obtain rfl := Opcode.eq_of_decode_unknown hop
      simp only [hop, fault?] at h
      split at h <;> cases h
      exact .unknown hop ‹_›
    | draw | decimal | store | load =>
      obtain ⟨length, hblock⟩ : ∃ length, op.decode.block? = some length := by
        rw [hop]
        exact ⟨_, rfl⟩
      rw [fault?_of_block hblock] at h
      obtain ⟨houtside, rfl⟩ := Memory.blockFault?_eq_some.mp h
      exact .block length hblock houtside
    | _ =>
      rw [hop] at h
      cases h

/-- Where a block of registers lies inside memory, the index behind it is what it should be. -/
theorem toNat_indexAfterBlock {dialect : Dialect} {x : Nibble}
    (moves : dialect.blockMovesIndex = true) (fits : s.index.toNat + (x.val + 1) ≤ 4096) :
    (s.indexAfterBlock dialect x).toNat = s.index.toNat + x.val + 1 := by
  have hx := x.lt
  rw [indexAfterBlock, if_pos moves, UInt16.toNat_add, UInt16.toNat_ofNat']
  omega

end Snapshot

/-- Registers that could be stored or loaded leave the index where their block ends. -/
theorem execute_index_block {around : Surroundings} {s t : Snapshot} {d : Devices}
    {i : Instruction} {x : Nibble} (hi : i = .store x ∨ i = .load x)
    (h : (execute around s d i).1 = .ok t) : t.index = s.indexAfterBlock around.dialect x := by
  rcases hi with rfl | rfl <;> obtain ⟨u, -, rfl⟩ := ok_of_map h <;> rfl

namespace Machine

variable {m : Machine} {fault : Fault}

/-- A jump does not fault, so where an instruction does the machine does not stay at it. -/
theorem spins_of_fault? {i : Instruction}
    (h : m.snapshot.fault? m.settings.strict i = some fault) : m.spins i = false := by
  cases i with
  | jump => cases h
  | _ => rfl

theorem fails_of_error (h : m.step.result = .error fault) :
    m.snapshot.keyWait = none ∧ m.Fails fault := by
  have course := m.course_step
  generalize m.step = reply at course h
  cases course with
  | waits | spins | runs => cases h
  | strays _ awake hfetch =>
    cases h
    have hfault := m.snapshot.memory.faultOf_opcode m.snapshot.pc
    rw [hfetch] at hfault
    obtain ⟨houtside, rfl⟩ := Memory.blockFault?_eq_some.mp hfault.symm
    exact ⟨awake, .strays (by omega)⟩
  | faults op _ fetches _ hrun =>
    cases h
    have hfault := fault?_of_error (congrArg Prod.fst hrun)
    exact ⟨fetches.awake, .refused op fault fetches.opcode (Snapshot.refuses_iff.mpr hfault)⟩

theorem error_of_fails (awake : m.snapshot.keyWait = none) (h : m.Fails fault) :
    m.step.result = .error fault := by
  cases h with
  | strays houtside =>
    have hfault := (m.snapshot.memory.faultOf_opcode m.snapshot.pc).trans
      (Memory.blockFault?_eq_some.mpr ⟨by omega, rfl⟩)
    rw [(Course.strays _ awake (faultOf_eq_some.mp hfault)).eq_step]
  | refused op _ hfetch hrefuses =>
    have hfault := Snapshot.refuses_iff.mp hrefuses
    have hmoves := spins_of_fault? hfault
    have hran : (execute m.surroundings m.snapshot m.devices op.decode).1 = .error fault :=
      faultOf_eq_some.mp ((faultOf_execute m.surroundings _ _ _).trans hfault)
    rw [(Course.faults op fault ⟨awake, hfetch⟩ hmoves
      (Prod.ext hran (execute_fault_devices hran))).eq_step]

/-- A cycle that stored or loaded registers leaves the index behind them, if the dialect has it. -/
theorem toNat_index_step {i : Instruction} {x : Nibble} (hi : i = .store x ∨ i = .load x)
    (ran : m.step.result = .ok (.executed i)) (moves : m.settings.dialect.blockMovesIndex = true) :
    m.step.machine.snapshot.index.toNat = m.snapshot.index.toNat + x.val + 1 := by
  have course := m.course_step
  generalize m.step = reply at course ran ⊢
  cases course with
  | waits | strays | spins | faults => cases ran
  | runs op next d _ _ hrun =>
    have hop : op.decode = i := Outcome.executed.inj (Except.ok.inj ran)
    rw [hop] at hrun
    have hran := congrArg Prod.fst hrun
    have hblock : i.block? = some (x.val + 1) := by
      rcases hi with rfl | rfl <;> rfl
    have hfits := fault?_of_ok hran
    rw [Snapshot.fault?_of_block hblock] at hfits
    show next.index.toNat = _
    rw [execute_index_block hi hran]
    exact Snapshot.toNat_indexAfterBlock moves (Memory.blockFault?_eq_none.mp hfits)

/-- **When a cycle fails, and with which fault.** It fails if and only if the program does not wait
for a key and either the opcode does not lie inside memory or the state refuses what it asks
for; in every other case it comes to an outcome. An index that storing or loading registers
moves behind their block does not wrap. -/
theorem step_failures (m : Machine) :
    (∀ fault, m.step.result = .error fault ↔ m.snapshot.keyWait = none ∧ m.Fails fault) ∧
      ((∃ outcome, m.step.result = .ok outcome) ↔
        ¬(m.snapshot.keyWait = none ∧ ∃ fault, m.Fails fault)) ∧
      ∀ i x, m.step.result = .ok (.executed i) → (i = .store x ∨ i = .load x) →
        m.settings.dialect.blockMovesIndex = true →
          m.step.machine.snapshot.index.toNat = m.snapshot.index.toNat + x.val + 1 := by
  have hfails : ∀ fault, m.step.result = .error fault ↔
      m.snapshot.keyWait = none ∧ m.Fails fault :=
    fun fault => ⟨fails_of_error, fun h => error_of_fails h.1 h.2⟩
  refine ⟨hfails, ?_, fun i x ran hi moves => toNat_index_step hi ran moves⟩
  cases hresult : m.step.result with
  | error fault =>
    obtain ⟨awake, fails⟩ := fails_of_error hresult
    exact ⟨nofun, fun h => absurd ⟨awake, fault, fails⟩ h⟩
  | ok outcome =>
    refine ⟨fun _ ⟨awake, fault, fails⟩ => ?_, fun _ => ⟨outcome, rfl⟩⟩
    cases hresult.symm.trans (error_of_fails awake fails)

/-- Two registers fit into the last two bytes of memory, and the index goes behind them. Three do
not. -/
theorem step_failures_at_end :
    let settings : Settings := { Settings.standard with dialect := .cosmacVip }
    let m := (new settings default).session [.load [0xAF, 0xFE, 0xF1, 0x55], .step]
    let c := (new settings default).session [.load [0xAF, 0xFE, 0xF2, 0x55], .step]
    m.step.result = .ok (.executed (.store 1)) ∧ m.settings.dialect.blockMovesIndex = true ∧
      m.step.machine.snapshot.index.toNat = m.snapshot.index.toNat + 1 + 1 ∧
      c.step.result = .error (.outOfBounds 4096) ∧ c.Fails (.outOfBounds 4096) := by
  intro settings m c
  obtain ⟨ran, moves, failed⟩ : m.step.result = .ok (.executed (.store 1)) ∧
      m.settings.dialect.blockMovesIndex = true ∧ c.step.result = .error (.outOfBounds 4096) := by
    decide +kernel
  obtain ⟨-, -, hindex⟩ := step_failures m
  obtain ⟨hfails, -⟩ := step_failures c
  exact ⟨ran, moves, hindex _ 1 ran (.inl rfl) moves, failed, ((hfails _).mp failed).2⟩

end Machine
end ChipEight
