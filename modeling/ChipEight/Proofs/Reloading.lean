import ChipEight.Proofs.Undo

/-! Loading a program, and starting it over.

A load is all or nothing: a program that fits is in the machine afterwards, on a machine that
is otherwise as good as new (`Started`), and anything else leaves the machine as it is. What a
machine remembers of a load is the program, and it remembers it until the next load that
succeeds (`program_session`). So a reset, which loads it once more, cannot fail, and leads
back to where the load led: `load_then_reset`. -/
namespace ChipEight

namespace Memory

/-- A program fits if it ends with memory at the latest. -/
theorem load_of_fits {program : List UInt8} (h : program.length ≤ 3584) :
    ∃ memory, initial.load programStart program = .ok memory := by
  have hstart : programStart.toNat = 512 := rfl
  exact ⟨_, if_pos (by omega)⟩

theorem load_of_too_large {program : List UInt8} (h : 3584 < program.length) :
    initial.load programStart program =
      .error (.programTooLarge program.length programStart 3584) := by
  have hstart : programStart.toNat = 512 := rfl
  exact if_neg (by omega)

end Memory

namespace Machine

/-! ### Machines at the start of a program -/

/-- A machine right after a program was loaded. -/
structure Started (m : Machine) (program : List UInt8) : Prop where
  snapshot : ∃ memory, Memory.initial.load Memory.programStart program = .ok memory ∧
    m.snapshot = { Snapshot.initial with memory }
  history : m.history = .empty
  keypad : m.keypad = .released
  timers : m.timers = .zero
  halted : m.halted = false
  reported : m.reported = []
  program : m.program = program

theorem started_restarted (m : Machine) {memory : Memory} {program : List UInt8}
    (h : Memory.initial.load Memory.programStart program = .ok memory) :
    { m.restarted memory with program }.Started program :=
  ⟨⟨memory, h, rfl⟩, rfl, rfl, rfl, rfl, rfl, rfl⟩

/-- Under the same settings, two machines at the start of a program differ in nothing but where
their random streams are. -/
theorem Started.eq {m m' : Machine} {program : List UInt8} (h : m.Started program)
    (h' : m'.Started program) (settings : m'.settings = m.settings) :
    m' = { m with random := m'.random } := by
  obtain ⟨memory, hload, hsnapshot⟩ := h.snapshot
  obtain ⟨memory', hload', hsnapshot'⟩ := h'.snapshot
  cases hload.symm.trans hload'
  cases m
  cases m'
  simp only [mk.injEq, true_and]
  exact ⟨hsnapshot'.trans hsnapshot.symm, h'.history.trans h.history.symm,
    h'.keypad.trans h.keypad.symm, h'.timers.trans h.timers.symm, settings,
    h'.program.trans h.program.symm, h'.halted.trans h.halted.symm,
    h'.reported.trans h.reported.symm⟩

/-! ### Loading -/

theorem load_of_fits (m : Machine) {program : List UInt8} (h : program.length ≤ 3584) :
    (m.load program).result = .ok () ∧ (m.load program).machine.Started program := by
  obtain ⟨memory, hload⟩ := Memory.load_of_fits h
  simp only [load, hload]
  exact ⟨trivial, m.started_restarted hload⟩

theorem load_of_too_large (m : Machine) {program : List UInt8} (h : 3584 < program.length) :
    m.load program =
      ⟨.error (.programTooLarge program.length Memory.programStart 3584), m, []⟩ := by
  simp only [load, Memory.load_of_too_large h]

theorem reset_of_fits {m : Machine} (h : m.program.length ≤ 3584) :
    m.reset.result = .ok () ∧ m.reset.machine.Started m.program ∧
      m.reset.machine.settings = m.settings ∧ m.reset.machine.random = m.random := by
  obtain ⟨memory, hload⟩ := Memory.load_of_fits h
  simp only [reset, hload]
  exact ⟨trivial, m.started_restarted hload, rfl, rfl⟩

/-- The program that an operation puts into the machine, if it does. -/
def installed? (m : Machine) (operation : Operation) : Option (List UInt8) :=
  match operation, (m.perform operation).result with
  | .load program, .ok _ => some program
  | .loadFrom source, .ok _ => some source.pieces.flatten
  | _, _ => none

/-- Whether one of a sequence of operations puts a program into the machine. -/
def installsIn (m : Machine) : List Operation → Bool
  | [] => false
  | operation :: rest =>
    (m.installed? operation).isSome || (m.perform operation).machine.installsIn rest

theorem loadFrom_of_failure (m : Machine) {source : Source} {cause : String}
    (h : source.failure = some cause) :
    m.loadFrom source = ⟨.error (.unreadable cause), m, []⟩ := by
  simp only [loadFrom, Source.readAll, h]

theorem loadFrom_of_whole (m : Machine) {source : Source} (h : source.failure = none) :
    m.loadFrom source = m.load source.pieces.flatten := by
  simp only [loadFrom, Source.readAll, h]

/-- A program that an operation puts into the machine fits, and the machine is at its start. -/
theorem started_of_installed {m : Machine} {operation : Operation} {program : List UInt8}
    (h : m.installed? operation = some program) :
    program.length ≤ 3584 ∧ (m.perform operation).machine.Started program := by
  have of_load {reply : Reply Unit} {answer : Answer} (hload : reply = m.load program)
      (hok : (reply.map fun _ => Answer.done).result = .ok answer) :
      program.length ≤ 3584 ∧ reply.machine.Started program := by
    subst hload
    by_cases hfits : program.length ≤ 3584
    · exact ⟨hfits, (m.load_of_fits hfits).2⟩
    · rw [m.load_of_too_large (Nat.lt_of_not_le hfits)] at hok
      cases hok
  unfold installed? at h
  split at h
  · cases h
    exact of_load rfl ‹_›
  · rename_i source answer hok
    cases h
    cases hfailure : source.failure with
    | none => exact of_load (m.loadFrom_of_whole hfailure) hok
    | some cause =>
      simp only [perform, m.loadFrom_of_failure hfailure] at hok
      cases hok
  · cases h

/-- Any other operation leaves the program that is to be started over as it is. -/
theorem program_of_kept {m : Machine} {operation : Operation}
    (h : m.installed? operation = none) : (m.perform operation).machine.program = m.program := by
  cases operation with
  | load program =>
    have reloads := m.reloads_load program
    simp only [installed?, perform] at h ⊢
    generalize m.load program = reply at reloads h ⊢
    cases reloads with
    | refuses => rfl
    | restarts => cases h
  | loadFrom source =>
    have reloads := m.reloads_loadFrom source
    simp only [installed?, perform] at h ⊢
    generalize m.loadFrom source = reply at reloads h ⊢
    cases reloads with
    | refuses => rfl
    | restarts => cases h
  | reset =>
    show m.reset.machine.program = m.program
    simp only [reset]
    split <;> rfl
  | step => exact m.step_fixed.2.1
  | rewind =>
    show m.rewind.2.program = m.program
    rcases m.rewind_cases with ⟨_, hr⟩ | ⟨s, rest, _, hr⟩ <;> rw [hr]
  | takeFrame =>
    show m.takeFrame.2.program = m.program
    rw [takeFrame_eq]
  | press | release | setKeypad | setDelay | setSound | tick => rfl

/-- **A machine remembers its program until another one is loaded.** -/
theorem program_session {m : Machine} {operations : List Operation}
    (h : m.installsIn operations = false) : (m.session operations).program = m.program := by
  induction operations generalizing m with
  | nil => rfl
  | cons operation rest ih =>
    rw [installsIn, Bool.or_eq_false_iff, Option.isSome_eq_false_iff,
      Option.isNone_iff_eq_none] at h
    exact (ih h.2).trans (program_of_kept h.1)

/-- **Loading is all or nothing, and a reset leads back to it.** On a machine after any session, a
program is loaded exactly if it fits into the 3584 bytes from its origin to the end of memory,
and one that comes from a source also has to be read to its end; otherwise the machine stays
as it is. Once one was loaded in either way, whatever is done then, as long as it does not
load another: a reset succeeds, and the machine is what it was right after the load,
everywhere but in its random stream. -/
theorem load_then_reset (settings : Settings) (entropy : Random) (operations : List Operation) :
    let m := (new settings entropy).session operations
    (∀ program, ((m.load program).result = .ok () ↔ program.length ≤ 3584) ∧
        ∀ fault, (m.load program).result = .error fault → (m.load program).machine = m ∧
          fault = .programTooLarge program.length Memory.programStart 3584) ∧
      (∀ source, ((m.loadFrom source).result = .ok () ↔
          source.failure = none ∧ source.pieces.flatten.length ≤ 3584) ∧
        ∀ fault, (m.loadFrom source).result = .error fault → (m.loadFrom source).machine = m ∧
          ((∃ cause, source.failure = some cause ∧ fault = .unreadable cause) ∨
            fault = .programTooLarge source.pieces.flatten.length Memory.programStart 3584)) ∧
      ∀ loading program, m.installed? loading = some program →
        let loaded := (m.perform loading).machine
        loaded.Started program ∧
          ∀ later, loaded.installsIn later = false →
            (loaded.session later).reset.result = .ok () ∧
              (loaded.session later).reset.machine =
                { loaded with random := (loaded.session later).random } := by
  intro m
  have loads (program : List UInt8) : ((m.load program).result = .ok () ↔ program.length ≤ 3584) ∧
      ∀ fault, (m.load program).result = .error fault → (m.load program).machine = m ∧
        fault = .programTooLarge program.length Memory.programStart 3584 := by
    by_cases hfits : program.length ≤ 3584
    · obtain ⟨hresult, -⟩ := m.load_of_fits hfits
      rw [hresult]
      exact ⟨iff_of_true rfl hfits, nofun⟩
    · rw [m.load_of_too_large (Nat.lt_of_not_le hfits)]
      exact ⟨iff_of_false nofun hfits, fun fault h => ⟨rfl, (Except.error.inj h).symm⟩⟩
  refine ⟨loads, fun source => ?_, fun loading program hinstalled => ?_⟩
  · cases hfailure : source.failure with
    | none =>
      obtain ⟨hresult, hfails⟩ := loads source.pieces.flatten
      rw [m.loadFrom_of_whole hfailure]
      exact ⟨hresult.trans (and_iff_right rfl).symm,
        fun fault h => (hfails fault h).imp_right .inr⟩
    | some cause =>
      rw [m.loadFrom_of_failure hfailure]
      exact ⟨iff_of_false nofun nofun,
        fun fault h => ⟨rfl, .inl ⟨cause, rfl, (Except.error.inj h).symm⟩⟩⟩
  · intro loaded
    obtain ⟨hfits, started⟩ := started_of_installed hinstalled
    refine ⟨started, fun later hkept => ?_⟩
    have hprogram : (loaded.session later).program = program :=
      (program_session hkept).trans started.program
    obtain ⟨hresult, restarted, hsettings, hrandom⟩ :=
      reset_of_fits (m := loaded.session later) (by rw [hprogram]; exact hfits)
    rw [hprogram] at restarted
    rw [← hrandom]
    exact ⟨hresult, started.eq restarted (hsettings.trans (loaded.settings_session later))⟩

/-- A program that came in two pieces stores into memory; then a program that does not fit and a
source that fails are tried, a key goes down and the tone on. A reset takes it all back. -/
theorem load_then_reset_stored :
    let source : Source := ⟨[[0x60, 0x07, 0xF0], [0x55]], none⟩
    let loaded := ((new .standard default).perform (.loadFrom source)).machine
    let later : List Operation := [.step, .step, .load (List.replicate 3585 0), .press 3,
      .loadFrom ⟨[[0x12, 0x00]], some "unplugged"⟩, .setSound 9]
    loaded.installsIn later = false ∧
      (loaded.session later).snapshot.memory.byteAt 0 = 7 ∧ loaded.snapshot.memory.byteAt 0 = 0 ∧
      (loaded.session later).reset.result = .ok () ∧
      (loaded.session later).reset.machine =
        { loaded with random := (loaded.session later).random } := by
  intro source loaded later
  have h : (new .standard default).installed? (.loadFrom source) =
        some [0x60, 0x07, 0xF0, 0x55] ∧
      loaded.installsIn later = false ∧
      (loaded.session later).snapshot.memory.byteAt 0 = 7 ∧
      loaded.snapshot.memory.byteAt 0 = 0 := by
    decide +kernel
  obtain ⟨installed, kept, stored, clear⟩ := h
  obtain ⟨-, -, undoes⟩ := load_then_reset .standard default []
  exact ⟨kept, stored, clear, (undoes (.loadFrom source) _ installed).2 later kept⟩

end Machine
end ChipEight
