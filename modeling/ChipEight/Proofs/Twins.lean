import ChipEight.Proofs.Faults
import ChipEight.Proofs.Influence
import ChipEight.Proofs.Visits

/-! Twins.

Twins are machines that are in the same state amid different things: another keypad, other
timers, other settings. Little of that reaches a cycle. The keypad does while the program waits
for a key, the settings say how far the history goes, and an instruction looks at one thing at
most (`Instruction.influence?`). `step_amid` is the law of a cycle: where that little is the same,
so are the result, the records and the state. `session_tuned` is the law of a session under
changed settings: it is the same at every operation if its cycles are. -/
namespace ChipEight.Machine

variable {m : Machine} {keypad : Keypad} {timers : Timers} {settings : Settings}

/-- The machine amid another keypad, other timers and other settings. -/
def amid (m : Machine) (keypad : Keypad) (timers : Timers) (settings : Settings) : Machine :=
  { m with keypad, timers, settings }

/-- What the machine's cycle makes of other timers. -/
def timersAfter (m : Machine) (timers : Timers) : Timers :=
  match m.step.result with
  | .ok (.executed i) => (m.snapshot.devicesAfter ⟨timers, m.random⟩ i).timers
  | _ => timers

/-- An instruction at the machine's place comes to the same at another machine, and is passed over
by both or by neither. -/
structure Alike (m other : Machine) (i : Instruction) : Prop where
  result : (execute other.surroundings m.snapshot other.devices i).1 =
    (execute m.surroundings m.snapshot m.devices i).1
  skips : other.skips i = m.skips i

/-! ### Cycles -/

/-- What is said about an instruction hangs on whether it is passed over. -/
theorem remark_amid {i : Instruction}
    (h : (m.amid keypad timers settings).skips i = m.skips i) :
    (m.amid keypad timers settings).remark i = m.remark i := by
  cases i with
  | unknown op =>
    have hstrict : settings.strict = m.settings.strict := by simpa [skips, amid] using h
    simp only [remark, amid, hstrict]
  | _ => rfl

/-- What is reported hangs on it too. -/
theorem report_amid {op : Opcode} {i : Instruction}
    (h : (m.amid keypad timers settings).skips i = m.skips i) :
    (m.amid keypad timers settings).report op i =
      ((m.report op i).1.amid keypad timers settings, (m.report op i).2) := by
  rw [report, report, h]
  show (if m.skips i && !m.reported.contains m.snapshot.pc then _ else _) = _
  split <;> rfl

theorem watchKeypad_amid (m : Machine) (timers : Timers) (settings : Settings) (wait : KeyWait) :
    (m.amid m.keypad timers settings).watchKeypad wait =
      (m.watchKeypad wait).amid m.keypad timers settings := by
  cases hpressed : wait.pressed with
  | none => cases h : m.keypad.lowest? <;> simp only [watchKeypad, amid, hpressed, h]
  | some key => cases h : m.keypad.isDown key <;> simp [watchKeypad, amid, hpressed, h]

/-- A cycle that ran an instruction loaded the timers as the instruction does, and every other cycle
left them alone. -/
theorem timersAfter_self (m : Machine) : m.timersAfter m.timers = m.step.machine.timers := by
  have course := m.course_step
  unfold timersAfter
  generalize m.step = reply at course ⊢
  cases course with
  | waits wait =>
    obtain ⟨registers, keyWait, hwatched⟩ := m.watchKeypad_eq wait
    rw [hwatched]
  | strays | spins | faults => rfl
  | runs op next d _ _ hrun =>
    exact congrArg Devices.timers (eq_devicesAfter hrun).symm

/-- **The cycle of a twin.** Amid another keypad, other timers and other settings a machine takes
the same cycle if its program does not wait for a key or the keypad is the same, the history
goes as far, and its instruction comes to the same. -/
theorem step_amid (m : Machine) (depth : settings.rewindDepth = m.settings.rewindDepth)
    (pad : m.snapshot.keyWait = none ∨ keypad = m.keypad)
    (alike : ∀ op, m.Fetches op → m.spins op.decode = false →
      m.Alike (m.amid keypad timers settings) op.decode) :
    (m.amid keypad timers settings).step =
      { m.step with
        machine := m.step.machine.amid keypad (m.timersAfter timers) settings } := by
  have course := m.course_step
  unfold timersAfter
  generalize m.step = reply at course ⊢
  cases course with
  | waits wait hwait =>
    obtain hpad | rfl := pad
    · rw [hwait] at hpad
      cases hpad
    · rw [(Course.waits (m := m.amid m.keypad timers settings) wait hwait).eq_step,
        watchKeypad_amid]
  | strays fault awake hfetch =>
    exact (Course.strays (m := m.amid keypad timers settings) fault awake hfetch).eq_step
  | spins op fetches hspins =>
    exact (Course.spins (m := m.amid keypad timers settings) op
      ⟨fetches.awake, fetches.opcode⟩ hspins).eq_step
  | faults op fault fetches hmoves hrun =>
    obtain ⟨hresult, hskips⟩ := alike op fetches hmoves
    have hfault : (execute (m.amid keypad timers settings).surroundings m.snapshot
        (m.amid keypad timers settings).devices op.decode).1 = .error fault := by
      rw [hresult, hrun]
    rw [(Course.faults (m := m.amid keypad timers settings) op fault
      ⟨fetches.awake, fetches.opcode⟩ hmoves
      (Prod.ext hfault (execute_fault_devices hfault))).eq_step, remark_amid hskips]
    rfl
  | runs op next d fetches hmoves hrun =>
    obtain ⟨hresult, hskips⟩ := alike op fetches hmoves
    have hnext : (execute (m.amid keypad timers settings).surroundings m.snapshot
        (m.amid keypad timers settings).devices op.decode).1 = .ok next := by
      rw [hresult, hrun]
    have hrandom : d.random =
        (m.snapshot.devicesAfter (m.amid keypad timers settings).devices op.decode).random := by
      rw [eq_devicesAfter hrun]
      exact (m.snapshot.random_devicesAfter m.devices timers op.decode).symm
    rw [(Course.runs (m := m.amid keypad timers settings) op next _
      ⟨fetches.awake, fetches.opcode⟩ hmoves
      (Prod.ext hnext (execute_devices _ _ _ _))).eq_step, remark_amid hskips, report_amid hskips,
      after, report_amid hskips, after, amid, hrandom, depth]
    rfl

/-- With the same strictness, an instruction comes to the same at a twin if what it looks at, where
it runs, is the same. -/
theorem alike_amid (keypad : Keypad) (timers : Timers) (settings : Settings)
    (strict : settings.strict = m.settings.strict)
    (same : ∀ i influence, m.step.result = .ok (.executed i) → i.influence? = some influence →
      influence.Same m.surroundings m.devices (m.amid keypad timers settings).surroundings
        (m.amid keypad timers settings).devices)
    {op : Opcode} (fetches : m.Fetches op) (hmoves : m.spins op.decode = false) :
    m.Alike (m.amid keypad timers settings) op.decode := by
  refine ⟨?_, ?_⟩
  · rcases hrun : execute m.surroundings m.snapshot m.devices op.decode with ⟨result, d⟩
    cases result with
    | error fault =>
      have hfault := fault?_of_error (congrArg Prod.fst hrun)
      rw [← faultOf_eq_some, faultOf_execute]
      show m.snapshot.fault? settings.strict op.decode = some fault
      rw [strict]
      exact hfault
    | ok next =>
      have hran : m.step.result = .ok (.executed op.decode) := by
        rw [(Course.runs op next d fetches hmoves hrun).eq_step]
      rw [execute_of_same m.snapshot fun influence => same _ influence hran, hrun]
  · cases op.decode with
    | unknown word => exact congrArg (!·) strict
    | _ => rfl

/-! ### Operations -/

/-- The machine with its settings changed. -/
def tuned (m : Machine) (change : Settings → Settings) : Machine :=
  { m with settings := change m.settings }

end Machine

/-- The same reply, from the machine with its settings changed. -/
def Reply.tuned {α : Type} (r : Reply α) (change : Settings → Settings) : Reply α :=
  { r with machine := r.machine.tuned change }

/-- The same visit, of the machine with its settings changed. -/
def Visit.tuned (change : Settings → Settings) (v : Visit) : Visit :=
  { v with machine := v.machine.tuned change }

namespace Machine

variable {m : Machine} {change : Settings → Settings}

/-- Under changed settings a machine takes the same cycle if its history goes as far and its
instruction comes to the same. -/
theorem step_tuned (change : Settings → Settings)
    (depth : (change m.settings).rewindDepth = m.settings.rewindDepth)
    (alike : ∀ op, m.Fetches op → m.spins op.decode = false →
      m.Alike (m.tuned change) op.decode) :
    (m.tuned change).step = m.step.tuned change := by
  have htwin : (m.amid m.keypad m.timers (change m.settings)).step = _ :=
    m.step_amid depth (.inr rfl) alike
  rw [timersAfter_self] at htwin
  obtain ⟨hsettings, -, hkeypad⟩ := m.step_fixed
  refine htwin.trans ?_
  rw [amid, ← hsettings, ← hkeypad]
  rfl

theorem load_tuned (m : Machine) (change : Settings → Settings) (program : List UInt8) :
    (m.tuned change).load program = (m.load program).tuned change := by
  simp only [load]
  split <;> rfl

theorem loadFrom_tuned (m : Machine) (change : Settings → Settings) (source : Source) :
    (m.tuned change).loadFrom source = (m.loadFrom source).tuned change := by
  simp only [loadFrom]
  split
  · rfl
  · exact m.load_tuned change _

theorem reset_tuned (m : Machine) (change : Settings → Settings) :
    (m.tuned change).reset = m.reset.tuned change := by
  cases h : Memory.initial.load Memory.programStart m.program <;>
    simp only [reset, tuned, Reply.tuned, restarted, h]

theorem rewind_tuned (m : Machine) (change : Settings → Settings) :
    (m.tuned change).rewind = (m.rewind.1, m.rewind.2.tuned change) := by
  cases h : m.history.pop? <;> simp only [rewind, tuned, h]

theorem takeFrame_tuned (m : Machine) (change : Settings → Settings) :
    (m.tuned change).takeFrame = (m.takeFrame.1, m.takeFrame.2.tuned change) := by
  cases h : m.snapshot.redraw <;> simp [takeFrame, tuned, h]

/-- Only a cycle can tell under which settings it is taken. -/
theorem perform_tuned {operation : Operation}
    (same : operation = .step → (m.tuned change).step = m.step.tuned change) :
    (m.tuned change).perform operation = (m.perform operation).tuned change := by
  cases operation with
  | load program =>
    exact congrArg (Reply.map fun _ => Answer.done) (m.load_tuned change program)
  | loadFrom source =>
    exact congrArg (Reply.map fun _ => Answer.done) (m.loadFrom_tuned change source)
  | reset => exact congrArg (Reply.map fun _ => Answer.done) (m.reset_tuned change)
  | step => exact congrArg (Reply.map Answer.stepped) (same rfl)
  | rewind =>
    simp only [perform, rewind_tuned]
    rfl
  | takeFrame =>
    simp only [perform, takeFrame_tuned]
    rfl
  | press | release | setKeypad | setDelay | setSound | tick => rfl

/-! ### Sessions -/

/-- **The session of a twin.** Where the cycles that a session takes are the same under changed
settings, so is all the rest of it. -/
theorem session_tuned (change : Settings → Settings) {operations : List Operation}
    (same : ∀ c ∈ m.cycles operations, (c.tuned change).step = c.step.tuned change) :
    (m.tuned change).visits operations = (m.visits operations).map (Visit.tuned change) ∧
      (m.tuned change).session operations = (m.session operations).tuned change ∧
      (m.tuned change).answers operations = m.answers operations ∧
      (m.tuned change).saying operations = m.saying operations := by
  induction operations generalizing m with
  | nil => exact ⟨rfl, rfl, rfl, rfl⟩
  | cons operation rest ih =>
    have hfirst : (m.tuned change).perform operation = (m.perform operation).tuned change := by
      refine perform_tuned ?_
      rintro rfl
      exact same m (List.mem_cons_self ..)
    obtain ⟨hvisits, hsession, hanswers, hsaying⟩ :=
      ih fun c hc => same c (by
        rw [cycles_cons]
        exact List.mem_append_right _ hc)
    refine ⟨?_, ?_, ?_, ?_⟩
    · rw [visits, hfirst]
      exact congrArg (_ :: ·) hvisits
    · show ((m.tuned change).perform operation).machine.session rest = _
      rw [hfirst]
      exact hsession
    · show ((m.tuned change).perform operation).result ::
        ((m.tuned change).perform operation).machine.answers rest = _
      rw [hfirst]
      exact congrArg (_ :: ·) hanswers
    · show ((m.tuned change).perform operation).records ++
        ((m.tuned change).perform operation).machine.saying rest = _
      rw [hfirst]
      exact congrArg (_ ++ ·) hsaying

end Machine
end ChipEight
