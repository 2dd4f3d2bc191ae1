import ChipEight.Proofs.Attempt
import ChipEight.Proofs.Course
import ChipEight.Proofs.Flow

/-! Machines stay within bounds.

No operation checks where the program is before it counts on from there. `Bounded` is
what makes that sound, for the snapshot of a machine and for all it can go back to: how
far the program, the way back out of any subroutine, the depth of the stack and a wait
for a key can be from what the tables hold. `bounded_perform` keeps it over every
operation. `session_within_bounds` is the result: a session from a new machine could as
well be attempted, with no wrapping sum and no place outside a table to fall back on. -/
namespace ChipEight

/-! ### The bounds -/

/-- A snapshot whose program has not strayed too far. An instruction is fetched below the
end of memory; what adds to an address adds a byte, which gives the bound on `pc`. -/
structure Snapshot.Bounded (s : Snapshot) : Prop where
  pc_le : s.pc.toNat ≤ 0x10FE
  slot_le : ∀ address ∈ s.stack.slots, address.toNat ≤ 0x1000
  depth_le : s.stack.depth.val ≤ 16
  wait_lt : ∀ wait, s.keyWait = some wait →
    wait.register.val < 16 ∧ ∀ key, wait.pressed = some key → key.val < 16

/-- A machine that is within bounds now and wherever it can go back to. -/
structure Machine.Bounded (m : Machine) : Prop where
  snapshot : m.snapshot.Bounded
  history : ∀ s ∈ m.history.toList, s.Bounded

namespace CallStack

theorem mem_slots_push {s t : CallStack} {pushed address : UInt16} (h : s.push pushed = .ok t)
    (ha : address ∈ t.slots) : address ∈ s.slots ∨ address = pushed := by
  simp only [push] at h
  split at h
  · rename_i hdepth
    cases h
    exact @Vector.mem_or_eq_of_mem_set UInt16 16 s.slots _ _ _ hdepth ha
  · cases h

/-- A popped address stays in its slot. -/
theorem slots_pop {s t : CallStack} {address : UInt16} (h : s.pop = .ok (address, t)) :
    t.slots = s.slots ∧ address ∈ s.slots := by
  simp only [pop] at h
  split at h <;> cases h
  exact ⟨rfl, Vector.getElem_mem _⟩

end CallStack

namespace Snapshot

/-- What types bound already: registers, keys and the depth of the stack. -/
theorem bounded_iff (s : Snapshot) :
    s.Bounded ↔ s.pc.toNat ≤ 0x10FE ∧ ∀ address ∈ s.stack.slots, address.toNat ≤ 0x1000 := by
  refine ⟨fun h => ⟨h.pc_le, h.slot_le⟩, fun h => ⟨h.1, h.2, by omega, fun wait _ => ?_⟩⟩
  exact ⟨wait.register.lt, fun key _ => key.lt⟩

/-- Only the place of the program and the stack matter. -/
theorem Bounded.of_same {s t : Snapshot} (hs : s.Bounded) (hpc : t.pc = s.pc)
    (hstack : t.stack = s.stack) : t.Bounded := by
  rw [bounded_iff, hpc, hstack]
  exact s.bounded_iff.mp hs

/-- The snapshot right after a program was loaded. -/
theorem bounded_initial (memory : Memory) : Bounded {initial with memory} := by
  rw [bounded_iff]
  refine ⟨show initial.pc.toNat ≤ 0x10FE by decide, fun address ha => ?_⟩
  have : address = 0 := by simpa [initial, CallStack.empty, Vector.mem_replicate] using ha
  rw [this]
  decide

theorem word_le (target : Address) : target.word.toNat ≤ 0xFFF := by
  have := target.isLt
  rw [Address.word, UInt16.toNat_ofNat']
  omega

/-- The next snapshot is bounded if the instruction could be fetched. -/
theorem Bounded.of_flow {s t : Snapshot} {i : Instruction} (hs : s.Bounded)
    (fetched : s.pc.toNat + 2 ≤ 4096) (flow : Flow s i t) : t.Bounded := by
  have hsize : Opcode.size.toNat = 2 := rfl
  have hdouble : (2 * Opcode.size).toNat = 4 := rfl
  have hslots := hs.slot_le
  rw [bounded_iff]
  cases flow with
  | on _ hstack hpc =>
    rw [hstack, hpc, UInt16.toNat_add, hsize]
    exact ⟨by omega, hslots⟩
  | past _ hstack hpc =>
    rw [hstack, hpc, UInt16.toNat_add, hdouble]
    exact ⟨by omega, hslots⟩
  | jump target hstack hpc =>
    have := word_le target
    rw [hstack, hpc]
    exact ⟨by omega, hslots⟩
  | jumpPlus target offset hstack hpc =>
    have := word_le target
    have := offset.toNat_lt
    rw [hstack, hpc, UInt16.toNat_add, UInt8.toNat_toUInt16]
    exact ⟨by omega, hslots⟩
  | call target hpush hpc =>
    have := word_le target
    rw [hpc]
    refine ⟨by omega, fun address ha => ?_⟩
    rcases CallStack.mem_slots_push hpush ha with ha | rfl
    · exact hslots address ha
    · rw [UInt16.toNat_add, hsize]
      omega
  | ret hpop =>
    obtain ⟨hkept, hmem⟩ := CallStack.slots_pop hpop
    rw [hkept]
    exact ⟨Nat.le_trans (hslots _ hmem) (by decide), hslots⟩

end Snapshot

/-! ### Operations keep the bounds -/

namespace Machine

/-- Behind an instruction that could be fetched there is no wrapping yet. -/
theorem Fetches.toNat_behind {m : Machine} {op : Opcode} (h : m.Fetches op) :
    (m.snapshot.pc + Opcode.size).toNat = m.snapshot.pc.toNat + 2 := by
  have hfetched := Memory.opcode_ok h.opcode
  rw [UInt16.toNat_add, show Opcode.size.toNat = 2 from rfl]
  omega

theorem Bounded.reloads {m : Machine} (hm : m.Bounded) {reply : Reply Unit}
    (h : m.Reloads reply) : reply.machine.Bounded := by
  cases h with
  | refuses => exact hm
  | restarts memory => exact ⟨Snapshot.bounded_initial memory, fun s hs => by cases hs⟩

/-- A cycle of waiting touches neither the place of the program nor the stack. -/
theorem bounded_watchKeypad {m : Machine} (hm : m.Bounded) (wait : KeyWait) :
    (m.watchKeypad wait).Bounded := by
  obtain ⟨registers, keyWait, hwatched⟩ := m.watchKeypad_eq wait
  rw [hwatched]
  exact ⟨hm.snapshot.of_same rfl rfl, hm.history⟩

theorem bounded_step {m : Machine} (hm : m.Bounded) : m.step.machine.Bounded := by
  have course := m.course_step
  generalize m.step = reply at course ⊢
  cases course with
  | waits wait _ => exact bounded_watchKeypad hm wait
  | strays | faults => exact hm
  | spins => exact ⟨hm.snapshot, hm.history⟩
  | runs op next d fetches _ hrun =>
    have flow : Flow m.snapshot op.decode next := execute_flow (by rw [hrun])
    refine ⟨hm.snapshot.of_flow (Memory.opcode_ok fetches.opcode) flow, fun s hs => ?_⟩
    rcases History.mem_push hs with rfl | hs
    · exact hm.snapshot
    · exact hm.history s hs

/-- Where a machine can go back to is within bounds, and from there so is the rest. -/
theorem bounded_rewind {m : Machine} (hm : m.Bounded) : m.rewind.2.Bounded := by
  rcases m.rewind_cases with ⟨_, hr⟩ | ⟨s, rest, hview, hr⟩
  · rw [hr]
    exact hm
  · have hs := hm.history
    rw [hview, List.forall_mem_cons] at hs
    rw [hr]
    exact ⟨hs.1.of_same rfl rfl, hs.2⟩

theorem bounded_takeFrame {m : Machine} (hm : m.Bounded) : m.takeFrame.2.Bounded := by
  rw [takeFrame_eq]
  exact ⟨hm.snapshot.of_same rfl rfl, hm.history⟩

theorem bounded_perform (m : Machine) (operation : Operation) (hm : m.Bounded) :
    (m.perform operation).machine.Bounded := by
  cases operation with
  | load program => exact hm.reloads (m.reloads_load program)
  | loadFrom source => exact hm.reloads (m.reloads_loadFrom source)
  | reset => exact hm.reloads m.reloads_reset
  | step => exact bounded_step hm
  | rewind => exact bounded_rewind hm
  | takeFrame => exact bounded_takeFrame hm
  | press | release | setKeypad | setDelay | setSound | tick => exact ⟨hm.snapshot, hm.history⟩

theorem bounded_new (settings : Settings) (entropy : Random) : (new settings entropy).Bounded :=
  ⟨Snapshot.bounded_initial _, fun s hs => by simp [new] at hs⟩

/-! ### Attempts at operations -/

/-- The attempt at a cycle of waiting for a key. -/
def attemptWatch (m : Machine) (wait : KeyWait) : Option Machine :=
  match wait.pressed with
  | none => some (m.watchKeypad wait)
  | some key => do
    if ← m.keypad.isDown? key.val then return m
    else
      let stored ← m.snapshot.setRegister? wait.register.val (UInt8.ofNat key.val)
      return {m with snapshot := {stored with keyWait := none}}

/-- The attempt at acting on a fetched opcode. -/
def attemptDispatch (m : Machine) (op : Opcode) : Option (Reply Outcome) := do
  if m.spins op.decode then return m.dispatch op
  else
    let ran ← attempt m.surroundings m.snapshot m.devices op.decode
    let (noted, met) := m.report op op.decode
    let reply := noted.conclude op.decode ran
    return {reply with records := m.fetched op :: met ++ reply.records}

/-- The attempt at a cycle. -/
def attemptStep (m : Machine) : Option (Reply Outcome) := do
  match m.snapshot.keyWait with
  | some wait => return ⟨.ok .awaitingKey, ← m.attemptWatch wait, []⟩
  | none =>
    match ← m.snapshot.memory.opcode? m.snapshot.pc with
    | .error fault => return ⟨.error fault, m, []⟩
    | .ok op => m.attemptDispatch op

/-- The attempt at an operation: what it does to a table has to be possible first. -/
def attemptPerform (m : Machine) (operation : Operation) : Option (Reply Answer) := do
  match operation with
  | .step => return (← m.attemptStep).map .stepped
  | .press key | .release key =>
    let _ ← m.keypad.isDown? (key &&& 0xF).toNat
    return m.perform operation
  | .load program =>
    let _ ← Memory.initial.load? Memory.programStart program
    return m.perform operation
  | .loadFrom source =>
    match source.readAll with
    | .error _ => return m.perform operation
    | .ok program =>
      let _ ← Memory.initial.load? Memory.programStart program
      return m.perform operation
  | .reset =>
    let _ ← Memory.initial.load? Memory.programStart m.program
    return m.perform operation
  | .rewind | .takeFrame | .setKeypad _ | .setDelay _ | .setSound _ | .tick =>
    return m.perform operation

/-- The attempt at a sequence of operations, going on after those that fail. -/
def attemptSession (m : Machine) : List Operation → Option Machine
  | [] => some m
  | operation :: rest => do (← m.attemptPerform operation).machine.attemptSession rest

theorem attemptWatch_eq (m : Machine) (wait : KeyWait) :
    m.attemptWatch wait = some (m.watchKeypad wait) := by
  cases h : wait.pressed with
  | none => simp only [attemptWatch, h]
  | some key =>
    simp only [attemptWatch, watchKeypad, h, Keypad.isDown?_eq, Snapshot.setRegister?_eq,
      Option.bind_eq_bind, Option.bind_some, Option.pure_def]
    split <;> rfl

theorem attemptDispatch_eq {m : Machine} {op : Opcode} (h : m.Fetches op) :
    m.attemptDispatch op = some (m.dispatch op) := by
  have hran := attempt_eq_execute (Memory.opcode_ok h.opcode) m.surroundings m.devices op.decode
  simp only [attemptDispatch, hran, Option.bind_eq_bind, Option.bind_some, Option.pure_def]
  split
  · rfl
  · rename_i hspins
    simp only [dispatch, run, surroundings_report, snapshot_report, devices_report]
    rw [if_neg hspins]
    rfl

theorem attemptStep_eq (m : Machine) : m.attemptStep = some m.step := by
  cases hw : m.snapshot.keyWait with
  | some wait =>
    simp only [attemptStep, step, hw, attemptWatch_eq, Option.bind_eq_bind, Option.bind_some,
      Option.pure_def]
  | none =>
    cases hf : m.snapshot.memory.opcode m.snapshot.pc with
    | error fault =>
      simp only [attemptStep, step, hw, hf, Memory.opcode?_eq, Option.bind_eq_bind,
        Option.bind_some, Option.pure_def]
    | ok op =>
      simp only [attemptStep, step, hw, hf, Memory.opcode?_eq, attemptDispatch_eq ⟨hw, hf⟩,
        Option.bind_eq_bind, Option.bind_some]

theorem attemptPerform_eq (m : Machine) (operation : Operation) :
    m.attemptPerform operation = some (m.perform operation) := by
  cases operation with
  | step => simp only [attemptPerform, attemptStep_eq, Option.bind_eq_bind, Option.bind_some,
      Option.pure_def, perform]
  | loadFrom source =>
    cases h : source.readAll <;>
      simp only [attemptPerform, h, Memory.load?_eq, Option.bind_eq_bind, Option.bind_some,
        Option.pure_def]
  | _ => simp only [attemptPerform, Snapshot.low_nibble, Keypad.isDown?_eq, Memory.load?_eq,
      Option.bind_eq_bind, Option.bind_some, Option.pure_def]

theorem attemptSession_eq (m : Machine) (operations : List Operation) :
    m.attemptSession operations = some (m.session operations) := by
  induction operations generalizing m with
  | nil => rfl
  | cons operation rest ih =>
    simp only [attemptSession, attemptPerform_eq, Option.bind_eq_bind, Option.bind_some]
    exact ih _

/-- **Every session from a new machine stays within bounds**, whatever the settings, and
nothing in it depends on a sum that wraps or on a place that a table does not have. -/
theorem session_within_bounds (settings : Settings) (entropy : Random)
    (operations : List Operation) :
    (new settings entropy).attemptSession operations =
        some ((new settings entropy).session operations) ∧
      ((new settings entropy).session operations).Bounded :=
  ⟨attemptSession_eq _ operations,
    session_keeps bounded_perform (bounded_new settings entropy) operations⟩

end Machine
end ChipEight
