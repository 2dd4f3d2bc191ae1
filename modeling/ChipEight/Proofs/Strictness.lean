import ChipEight.Proofs.Twins
import ChipEight.Proofs.Undo

/-! Strict settings.

Strict settings and permissive ones differ in what they make of a word outside the instruction
set: under strict settings it is a fault, under permissive ones it is reported and passed over.
Nothing else depends on which of the two they are, so a machine and its strict twin, which is
the same machine under strict settings, do the same until the program comes to such a word, and
there the twin stops. `strict_until_unknown` says so for any operations that both are put to. -/
namespace ChipEight

/-! ### Words outside the instruction set -/

/-- Filling memory does not fault on a word outside the instruction set: it does not look at the
words. -/
theorem Memory.load_ne_unknown (m : Memory) (origin : UInt16) (program : List UInt8)
    (word : Opcode) (a : UInt16) : m.load origin program ≠ .error (.unknownOpcode word a) := by
  intro h
  simp only [load] at h
  split at h <;> cases h

theorem error_of_map {α β : Type} {r : Except Fault α} {f : α → β} {fault : Fault}
    (h : r.map f = .error fault) : r = .error fault := by
  cases r <;> cases h
  rfl

variable {around : Surroundings} {s : Snapshot} {d : Devices} {i : Instruction}

/-- Strictness makes no difference to an instruction of the set. -/
theorem execute_strict (known : ∀ word, i ≠ .unknown word) :
    execute { around with strict := true } s d i = execute around s d i := by
  cases i with
  | unknown word => exact absurd rfl (known word)
  | _ => rfl

theorem Memory.blockFault?_ne_unknown (address : UInt16) (length : Nat) (word : Opcode)
    (a : UInt16) : blockFault? address length ≠ some (.unknownOpcode word a) := by
  intro h
  obtain ⟨-, h⟩ := blockFault?_eq_some.mp h
  cases h

/-- Only under strict settings is a word outside the instruction set a fault. -/
theorem strict_of_unknownOpcode {word : Opcode} {a : UInt16}
    (h : (execute around s d i).1 = .error (.unknownOpcode word a)) : around.strict = true := by
  have hfault := fault?_of_error h
  cases i with
  | draw | decimal | store | load => exact absurd hfault (Memory.blockFault?_ne_unknown _ _ word a)
  | ret | call =>
    simp only [Snapshot.fault?] at hfault
    split at hfault <;> cases hfault
  | unknown => exact execute_fault_strict h
  | _ => cases hfault

namespace Machine

/-- The machine under strict settings. -/
def strictly (m : Machine) : Machine := { m with settings := { m.settings with strict := true } }

end Machine

/-- The same reply, from the machine under strict settings. -/
def Reply.strictly {α : Type} (r : Reply α) : Reply α := { r with machine := r.machine.strictly }

/-- The same visit, of the machine under strict settings. -/
def Visit.strictly (v : Visit) : Visit := { v with machine := v.machine.strictly }

namespace Machine

/-! ### Cycles -/

/-- A cycle that does not pass over a word outside the instruction set is the same under strict
settings. -/
theorem step_strictly {m : Machine} (permissive : m.settings.strict = false)
    (known : ∀ word, m.step.result ≠ .ok (.executed (.unknown word))) :
    m.strictly.step = m.step.strictly := by
  refine step_tuned (fun s => { s with strict := true }) rfl fun op fetches hmoves => ?_
  -- A permissive machine would have passed over the word, so it is an instruction of the set.
  have hknown : ∀ word, op.decode ≠ .unknown word := by
    intro word hword
    have hrun : execute m.surroundings m.snapshot m.devices op.decode =
        (.ok m.snapshot.next, m.devices) := by
      simp only [hword, execute, surroundings, permissive, Bool.false_eq_true, if_false]
    refine known word ?_
    rw [(Course.runs op _ _ fetches hmoves hrun).eq_step, hword]
  have hsame : execute { m.surroundings with strict := true } m.snapshot m.devices op.decode =
      execute m.surroundings m.snapshot m.devices op.decode := execute_strict hknown
  refine ⟨congrArg Prod.fst hsame, ?_⟩
  cases hop : op.decode with
  | unknown word => exact absurd hop (hknown word)
  | _ => rfl

/-- Where a cycle passes over a word outside the instruction set, strict settings stop the machine
as it is. -/
theorem step_strictly_unknown {m : Machine} {word : Opcode}
    (h : m.step.result = .ok (.executed (.unknown word))) :
    m.strictly.step.result = .error (.unknownOpcode word m.snapshot.pc) ∧
      m.strictly.step.machine = m.strictly := by
  have course := m.course_step
  generalize m.step = reply at course h
  cases course with
  | waits | strays | spins | faults => cases h
  | runs op next d fetches hmoves hrun =>
    have hop : op.decode = .unknown word := Outcome.executed.inj (Except.ok.inj h)
    have hfaults : execute m.strictly.surroundings m.snapshot m.devices op.decode =
        (.error (.unknownOpcode word m.snapshot.pc), m.devices) := by
      rw [hop]
      rfl
    rw [(Course.faults (m := m.strictly) op _
      ⟨fetches.awake, fetches.opcode⟩ hmoves hfaults).eq_step]
    exact ⟨rfl, rfl⟩

/-- Only a cycle under strict settings faults on a word outside the instruction set. -/
theorem step_unknownOpcode {m : Machine} {word : Opcode} {a : UInt16}
    (h : m.step.result = .error (.unknownOpcode word a)) : m.settings.strict = true := by
  have course := m.course_step
  generalize m.step = reply at course h
  cases course with
  | waits | spins | runs => cases h
  | strays fault _ hfetch =>
    cases h
    have hfault := m.snapshot.memory.faultOf_opcode m.snapshot.pc
    rw [hfetch] at hfault
    exact absurd hfault.symm (Memory.blockFault?_ne_unknown _ _ word a)
  | faults op fault _ _ hrun =>
    cases h
    have hfault : (execute m.surroundings m.snapshot m.devices op.decode).1 =
      .error (.unknownOpcode word a) := by rw [hrun]
    exact strict_of_unknownOpcode hfault

/-! ### Operations -/

theorem permissive_perform {m : Machine} (permissive : m.settings.strict = false)
    (operation : Operation) : (m.perform operation).machine.settings.strict = false := by
  rw [settings_perform]
  exact permissive

theorem load_ne_unknown (m : Machine) (program : List UInt8) (word : Opcode) (a : UInt16) :
    (m.load program).result ≠ .error (.unknownOpcode word a) := by
  intro h
  simp only [load] at h
  split at h
  · rename_i hload
    cases h
    exact Memory.load_ne_unknown _ _ _ word a hload
  · cases h

theorem loadFrom_ne_unknown (m : Machine) (source : Source) (word : Opcode) (a : UInt16) :
    (m.loadFrom source).result ≠ .error (.unknownOpcode word a) := by
  intro h
  simp only [loadFrom] at h
  split at h
  · cases h
  · exact m.load_ne_unknown _ word a h

theorem reset_ne_unknown (m : Machine) (word : Opcode) (a : UInt16) :
    m.reset.result ≠ .error (.unknownOpcode word a) := by
  intro h
  simp only [reset] at h
  split at h
  · rename_i hload
    cases h
    exact Memory.load_ne_unknown _ _ _ word a hload
  · cases h

/-- Only an operation under strict settings faults on a word outside the instruction set. -/
theorem perform_unknownOpcode {m : Machine} {operation : Operation} {word : Opcode} {a : UInt16}
    (h : (m.perform operation).result = .error (.unknownOpcode word a)) :
    m.settings.strict = true := by
  cases operation with
  | load program => exact absurd (error_of_map h) (m.load_ne_unknown program word a)
  | loadFrom source => exact absurd (error_of_map h) (m.loadFrom_ne_unknown source word a)
  | reset => exact absurd (error_of_map h) (m.reset_ne_unknown word a)
  | step => exact step_unknownOpcode (error_of_map h)
  | rewind | takeFrame | press | release | setKeypad | setDelay | setSound | tick => cases h

theorem answers_ne_unknown {m : Machine} (permissive : m.settings.strict = false)
    (operations : List Operation) (word : Opcode) (a : UInt16) :
    .error (.unknownOpcode word a) ∉ m.answers operations := by
  induction operations generalizing m with
  | nil => exact List.not_mem_nil
  | cons operation rest ih =>
    intro h
    rcases List.mem_cons.mp h with hfirst | hrest
    · have hstrict := perform_unknownOpcode hfirst.symm
      rw [permissive] at hstrict
      cases hstrict
    · exact ih (permissive_perform permissive operation) hrest

/-! ### Sessions -/

/-- Up to a word outside the instruction set, a session is the same under strict settings. -/
theorem session_strictly {m : Machine} (permissive : m.settings.strict = false)
    {operations : List Operation}
    (known : ∀ word, .ok (.stepped (.executed (.unknown word))) ∉ m.answers operations) :
    m.strictly.visits operations = (m.visits operations).map Visit.strictly ∧
      m.strictly.session operations = (m.session operations).strictly ∧
      m.strictly.answers operations = m.answers operations ∧
      m.strictly.saying operations = m.saying operations := by
  refine session_tuned (fun s => { s with strict := true }) fun c hc =>
    step_strictly ?_ fun word h => known word ?_
  · obtain ⟨first, _, _, rfl⟩ := exists_of_mem_cycles hc
    rw [settings_session]
    exact permissive
  · have hanswer := mem_answers_of_mem_cycles hc
    rwa [h] at hanswer

/-- **Strict settings are permissive ones up to the first word outside the instruction set.** Put a
permissive machine and its strict twin to the same operations. The permissive machine never
faults on such a word. As long as it has not passed over one, the twin answers and tells the
same and is, at every operation, the same machine but for the settings, so it has not faulted on
such a word either. And where the permissive machine then passes over one, the twin faults on
that word at that place, and stays as it is. -/
theorem strict_until_unknown (m : Machine) (permissive : m.settings.strict = false)
    (operations : List Operation) :
    (∀ word a, .error (.unknownOpcode word a) ∉ m.answers operations) ∧
      ((∀ word, .ok (.stepped (.executed (.unknown word))) ∉ m.answers operations) →
        m.strictly.answers operations = m.answers operations ∧
          m.strictly.saying operations = m.saying operations ∧
          m.strictly.visits operations = (m.visits operations).map Visit.strictly ∧
          m.strictly.session operations = (m.session operations).strictly ∧
          (∀ word a, .error (.unknownOpcode word a) ∉ m.strictly.answers operations) ∧
          ∀ word, (m.session operations).step.result = .ok (.executed (.unknown word)) →
            let twin := m.strictly.session operations
            twin.step.result = .error (.unknownOpcode word (m.session operations).snapshot.pc) ∧
              twin.step.machine = twin) := by
  refine ⟨answers_ne_unknown permissive operations, fun known => ?_⟩
  obtain ⟨hvisits, hsession, hanswers, hsaying⟩ := session_strictly permissive known
  refine ⟨hanswers, hsaying, hvisits, hsession, ?_, fun word passed => ?_⟩
  · rw [hanswers]
    exact answers_ne_unknown permissive operations
  · intro twin
    rw [show twin = (m.session operations).strictly from hsession]
    exact step_strictly_unknown passed

/-- A program with FFFF at its second place, which is come to for the first time after a cycle was
taken back and a key pressed. -/
theorem strict_until_unknown_second :
    let m := (new .standard default).session [.load [0x60, 0x07, 0xFF, 0xFF]]
    let operations : List Operation := [.step, .rewind, .press 3, .tick, .step]
    let twin := m.strictly.session operations
    m.settings.strict = false ∧
      (∀ word, .ok (.stepped (.executed (.unknown word))) ∉ m.answers operations) ∧
      m.strictly.answers operations = m.answers operations ∧
      twin = (m.session operations).strictly ∧
      (m.session operations).step.result = .ok (.executed (.unknown ⟨0xFFFF⟩)) ∧
      twin.step.result = .error (.unknownOpcode ⟨0xFFFF⟩ 0x202) ∧ twin.step.machine = twin := by
  intro m operations twin
  have h : m.settings.strict = false ∧
      m.answers operations = [.ok (.stepped (.executed (.setByte 0 7))), .ok (.rewound true),
        .ok .done, .ok .done, .ok (.stepped (.executed (.setByte 0 7)))] ∧
      (m.session operations).step.result = .ok (.executed (.unknown ⟨0xFFFF⟩)) ∧
      (m.session operations).snapshot.pc = 0x202 := by
    decide +kernel
  obtain ⟨permissive, hanswers, passed, hpc⟩ := h
  have known : ∀ word, .ok (.stepped (.executed (.unknown word))) ∉ m.answers operations := by
    rw [hanswers]
    simp
  obtain ⟨-, same⟩ := strict_until_unknown m permissive operations
  obtain ⟨sameAnswers, -, -, hsession, -, stops⟩ := same known
  obtain ⟨hfault, hkept⟩ := stops _ passed
  exact ⟨permissive, known, sameAnswers, hsession, passed, hpc ▸ hfault, hkept⟩

end Machine
end ChipEight
