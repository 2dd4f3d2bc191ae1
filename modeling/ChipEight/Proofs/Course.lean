import Mathlib.Control.Monad.Basic
import ChipEight.Machine.Session

/-! The course of a cycle.

A cycle takes one of five courses: it watches the keypad, it finds no instruction to
fetch, it stays at a jump to itself, its instruction faults, or its instruction runs.
`course_step` says so once, with everything that is known on each course and the whole
reply it comes to, so that what a machine keeps from cycle to cycle is shown by these
five cases and never by opening `step` again. -/
namespace ChipEight

/-! ### Instructions that fault -/

/-- An instruction that faults leaves the devices alone. -/
theorem execute_fault_devices {around : Surroundings} {s : Snapshot} {d : Devices}
    {i : Instruction} {fault : Fault} (h : (execute around s d i).1 = .error fault) :
    (execute around s d i).2 = d := by
  cases i <;> first | rfl | cases h

/-- A word outside the instruction set that is tolerated does not fault. -/
theorem execute_fault_strict {around : Surroundings} {s : Snapshot} {d : Devices}
    {op : Opcode} {fault : Fault} (h : (execute around s d (.unknown op)).1 = .error fault) :
    around.strict = true := by
  simp only [execute] at h
  split at h
  · assumption
  · cases h

/-- Whether an operation tends to the keypad, the timers or the picture of a machine and leaves its
program to itself. -/
def Operation.tends : Operation → Bool
  | .takeFrame | .press _ | .release _ | .setKeypad _ | .setDelay _ | .setSound _ | .tick => true
  | .load _ | .loadFrom _ | .reset | .step | .rewind => false

namespace Machine

/-! ### What reporting leaves alone -/

theorem report_eq (m : Machine) (op : Opcode) (i : Instruction) :
    (m.report op i).1 = { m with reported := (m.report op i).1.reported } := by
  simp only [report]
  split <;> rfl

theorem report_of_not_skips {m : Machine} {i : Instruction} (op : Opcode)
    (h : m.skips i = false) : m.report op i = (m, []) := by
  simp [report, h]

theorem surroundings_report (m : Machine) (op : Opcode) (i : Instruction) :
    (m.report op i).1.surroundings = m.surroundings := by
  rw [report_eq]
  rfl

theorem snapshot_report (m : Machine) (op : Opcode) (i : Instruction) :
    (m.report op i).1.snapshot = m.snapshot := by
  rw [report_eq]

theorem devices_report (m : Machine) (op : Opcode) (i : Instruction) :
    (m.report op i).1.devices = m.devices := by
  rw [report_eq]
  rfl

theorem remark_report (m : Machine) (op : Opcode) (i j : Instruction) :
    (m.report op i).1.remark j = m.remark j := by
  rw [report_eq]
  cases j <;> rfl

/-- Only a tolerated word outside the instruction set is reported, and it does not fault. -/
theorem skips_of_fault {m : Machine} {d : Devices} {i : Instruction} {fault : Fault}
    (h : (execute m.surroundings m.snapshot d i).1 = .error fault) : m.skips i = false := by
  cases i with
  | unknown op => simp [skips, show m.settings.strict = true from execute_fault_strict h]
  | _ => rfl

/-! ### The five courses -/

/-- What is known of a machine whose program does not wait and whose next opcode is there. -/
structure Fetches (m : Machine) (op : Opcode) : Prop where
  awake : m.snapshot.keyWait = none
  opcode : m.snapshot.memory.opcode m.snapshot.pc = .ok op

/-- The record of a fetch. -/
def fetched (m : Machine) (op : Opcode) : Record :=
  .fetched m.snapshot.pc op m.snapshot.registers m.snapshot.index

/-- The machine after the cycle of an instruction that ran. -/
def after (m : Machine) (op : Opcode) (next : Snapshot) (d : Devices) : Machine :=
  { m with
    snapshot := next
    history := m.history.push m.settings.rewindDepth m.snapshot
    timers := d.timers
    random := d.random
    halted := false
    reported := (m.report op op.decode).1.reported }

theorem dispatch_of_spins {m : Machine} {op : Opcode} (h : m.spins op.decode = true) :
    m.dispatch op = ⟨.ok .halted, { m with halted := true },
      m.fetched op :: if m.halted then [] else [.halted m.snapshot.pc]⟩ := by
  simp only [dispatch, if_pos h]
  rfl

theorem dispatch_of_error {m : Machine} {op : Opcode} {fault : Fault} {d : Devices}
    (moves : m.spins op.decode = false)
    (h : execute m.surroundings m.snapshot m.devices op.decode = (.error fault, d)) :
    m.dispatch op = ⟨.error fault, m, m.fetched op :: m.remark op.decode⟩ := by
  have hfault : (execute m.surroundings m.snapshot m.devices op.decode).1 = .error fault := by
    rw [h]
  obtain rfl : m.devices = d := by
    rw [← execute_fault_devices hfault, h]
  simp only [dispatch, moves, Bool.false_eq_true, if_false,
    report_of_not_skips op (skips_of_fault hfault), run, conclude, h]
  rfl

theorem dispatch_of_ok {m : Machine} {op : Opcode} {next : Snapshot} {d : Devices}
    (moves : m.spins op.decode = false)
    (h : execute m.surroundings m.snapshot m.devices op.decode = (.ok next, d)) :
    m.dispatch op = ⟨.ok (.executed op.decode), m.after op next d,
      m.fetched op :: (m.report op op.decode).2 ++ m.remark op.decode⟩ := by
  simp only [dispatch, moves, Bool.false_eq_true, if_false, run, conclude, surroundings_report,
    snapshot_report, devices_report, remark_report, h, commit, withDevices]
  rw [report_eq]
  rfl

/-- The courses a cycle can take, each with the reply it comes to. -/
inductive Course (m : Machine) : Reply Outcome → Prop where
  /-- The program waits for a key. -/
  | waits (wait : KeyWait) : m.snapshot.keyWait = some wait →
      Course m ⟨.ok .awaitingKey, m.watchKeypad wait, []⟩
  /-- The program has run out of memory. -/
  | strays (fault : Fault) : m.snapshot.keyWait = none →
      m.snapshot.memory.opcode m.snapshot.pc = .error fault → Course m ⟨.error fault, m, []⟩
  /-- The program jumps to itself. -/
  | spins (op : Opcode) : m.Fetches op → m.spins op.decode = true →
      Course m ⟨.ok .halted, { m with halted := true },
        m.fetched op :: if m.halted then [] else [.halted m.snapshot.pc]⟩
  /-- The instruction faults. -/
  | faults (op : Opcode) (fault : Fault) : m.Fetches op → m.spins op.decode = false →
      execute m.surroundings m.snapshot m.devices op.decode = (.error fault, m.devices) →
      Course m ⟨.error fault, m, m.fetched op :: m.remark op.decode⟩
  /-- The instruction runs. -/
  | runs (op : Opcode) (next : Snapshot) (d : Devices) : m.Fetches op →
      m.spins op.decode = false →
      execute m.surroundings m.snapshot m.devices op.decode = (.ok next, d) →
      Course m ⟨.ok (.executed op.decode), m.after op next d,
        m.fetched op :: (m.report op op.decode).2 ++ m.remark op.decode⟩

theorem course_dispatch {m : Machine} {op : Opcode} (h : m.Fetches op) :
    Course m (m.dispatch op) := by
  cases hspins : m.spins op.decode with
  | true =>
    rw [dispatch_of_spins hspins]
    exact .spins op h hspins
  | false =>
    rcases hrun : execute m.surroundings m.snapshot m.devices op.decode with ⟨result, d⟩
    cases result with
    | error fault =>
      rw [dispatch_of_error hspins hrun]
      have hdevices := execute_fault_devices (congrArg Prod.fst hrun)
      rw [hrun] at hdevices
      exact .faults op fault h hspins (by rw [hrun, ← hdevices])
    | ok next =>
      rw [dispatch_of_ok hspins hrun]
      exact .runs op next d h hspins hrun

/-- A cycle takes one of the five courses. -/
theorem course_step (m : Machine) : Course m m.step := by
  simp only [step]
  split
  · exact .waits _ ‹_›
  · split
    · exact .strays _ ‹_› ‹_›
    · exact course_dispatch ⟨‹_›, ‹_›⟩

/-- A cycle comes to what the course that the machine can take comes to. -/
theorem Course.eq_step {m : Machine} {reply : Reply Outcome} (h : Course m reply) :
    m.step = reply := by
  cases h with
  | waits wait hwait => simp only [step, hwait]
  | strays fault awake hfetch => simp only [step, awake, hfetch]
  | spins op fetches hspins =>
    simp only [step, fetches.awake, fetches.opcode]
    exact dispatch_of_spins hspins
  | faults op fault fetches hmoves hrun =>
    simp only [step, fetches.awake, fetches.opcode]
    exact dispatch_of_error hmoves hrun
  | runs op next d fetches hmoves hrun =>
    simp only [step, fetches.awake, fetches.opcode]
    exact dispatch_of_ok hmoves hrun

/-! ### Loading -/

/-- Loading, in any of its three ways, is refused or starts the machine again. -/
inductive Reloads (m : Machine) : Reply Unit → Prop where
  | refuses (fault : Fault) : Reloads m ⟨.error fault, m, []⟩
  | restarts (memory : Memory) (program : List UInt8) (records : List Record) :
      Memory.initial.load Memory.programStart program = .ok memory →
      Reloads m ⟨.ok (), {m.restarted memory with program}, records⟩

theorem reloads_load (m : Machine) (program : List UInt8) : m.Reloads (m.load program) := by
  simp only [load]
  split
  · exact .refuses _
  · exact .restarts _ program _ ‹_›

theorem reloads_loadFrom (m : Machine) (source : Source) : m.Reloads (m.loadFrom source) := by
  simp only [loadFrom]
  split
  · exact .refuses _
  · exact m.reloads_load _

theorem reloads_reset (m : Machine) : m.Reloads m.reset := by
  simp only [reset]
  split
  · exact .refuses _
  · exact .restarts _ m.program _ ‹_›

/-! ### Going back and taking the picture -/

/-- Going back does so exactly where there is something to go back to. -/
theorem rewind_cases (m : Machine) :
    (m.history.toList = [] ∧ m.rewind = (false, m)) ∨
      ∃ s rest, m.history.toList = s :: rest.toList ∧
        m.rewind =
          (true, { m with
            snapshot := {s with redraw := true}
            history := rest
            halted := false }) := by
  cases hpop : m.history.pop? with
  | none => exact .inl ⟨History.pop?_eq_none.mp hpop, by simp only [rewind, hpop]⟩
  | some popped =>
    obtain ⟨s, rest⟩ := popped
    exact .inr ⟨s, rest, History.toList_of_pop? hpop, by simp only [rewind, hpop]⟩

/-- A picture that was taken is not to be shown again, and nothing else changes. -/
theorem takeFrame_eq (m : Machine) :
    m.takeFrame.2 = { m with snapshot := {m.snapshot with redraw := false} } := by
  simp only [takeFrame]
  split
  · rfl
  · rename_i h
    rw [← show m.snapshot.redraw = false by simpa using h]

/-! ### Tending to a machine -/

/-- From one machine to another nothing has changed but the keypad, the timers and the wish to be
shown. -/
def Tended (m m' : Machine) : Prop :=
  ∃ keypad timers redraw,
    m' = { m with keypad, timers, snapshot := { m.snapshot with redraw } }

theorem Tended.refl (m : Machine) : m.Tended m := ⟨m.keypad, m.timers, m.snapshot.redraw, rfl⟩

theorem Tended.trans {m m' m'' : Machine} (h : m.Tended m') (k : m'.Tended m'') :
    m.Tended m'' := by
  obtain ⟨_, _, _, rfl⟩ := h
  obtain ⟨keypad, timers, redraw, rfl⟩ := k
  exact ⟨keypad, timers, redraw, rfl⟩

theorem tended_perform (m : Machine) {operation : Operation} (h : operation.tends = true) :
    m.Tended (m.perform operation).machine := by
  cases operation with
  | load | loadFrom | reset | step | rewind => cases h
  | takeFrame =>
    show m.Tended m.takeFrame.2
    rw [takeFrame_eq]
    exact ⟨m.keypad, m.timers, false, rfl⟩
  | press | release | setKeypad | setDelay | setSound | tick =>
    exact ⟨_, _, m.snapshot.redraw, rfl⟩

theorem tended_session (m : Machine) {operations : List Operation}
    (h : ∀ operation ∈ operations, operation.tends = true) : m.Tended (m.session operations) := by
  induction operations generalizing m with
  | nil => exact .refl m
  | cons operation rest ih =>
    obtain ⟨hfirst, hrest⟩ := List.forall_mem_cons.mp h
    exact (m.tended_perform hfirst).trans (ih _ hrest)

/-! ### What every cycle does -/

/-- A cycle of waiting touches the registers and the wait, and nothing else. -/
theorem watchKeypad_eq (m : Machine) (wait : KeyWait) :
    ∃ registers keyWait,
      m.watchKeypad wait = { m with snapshot := { m.snapshot with registers, keyWait } } := by
  simp only [watchKeypad]
  split <;> split <;> exact ⟨_, _, rfl⟩

/-- No cycle changes the settings, the program or the keypad. -/
theorem step_fixed (m : Machine) :
    m.step.machine.settings = m.settings ∧ m.step.machine.program = m.program ∧
      m.step.machine.keypad = m.keypad := by
  have course := m.course_step
  generalize m.step = reply at course ⊢
  cases course with
  | waits wait _ =>
    obtain ⟨registers, keyWait, hwatched⟩ := m.watchKeypad_eq wait
    rw [hwatched]
    exact ⟨rfl, rfl, rfl⟩
  | _ => exact ⟨rfl, rfl, rfl⟩

/-- **A cycle that fails changes nothing**, whatever the settings, the state and the history:
neither the snapshot nor anything around it. -/
theorem step_failed_unchanged (m : Machine) (fault : Fault) (h : m.step.result = .error fault) :
    m.step.machine = m := by
  have course := m.course_step
  generalize m.step = reply at course h ⊢
  cases course with
  | waits | spins | runs => cases h
  | strays | faults => rfl

/-- Three registers do not fit into the last two bytes of memory. -/
theorem step_failed_unchanged_store :
    ((new .standard default).session [.load [0xAF, 0xFE, 0xF2, 0x55], .step]).step.result =
        .error (.outOfBounds 4096) ∧
      ((new .standard default).session [.load [0xAF, 0xFE, 0xF2, 0x55], .step]).step.machine =
        (new .standard default).session [.load [0xAF, 0xFE, 0xF2, 0x55], .step] := by
  have h : ((new .standard default).session
      [.load [0xAF, 0xFE, 0xF2, 0x55], .step]).step.result = .error (.outOfBounds 4096) := by
    decide +kernel
  exact ⟨h, step_failed_unchanged _ _ h⟩

end Machine
end ChipEight
