import ChipEight.Proofs.Bounds
import ChipEight.Proofs.Failing
import ChipEight.Proofs.Halting
import ChipEight.Proofs.Undo

/-! What a machine warns of.

A word outside the instruction set that a tolerant machine passes over is worth a warning, but a
program in a loop would say it over and over. So a machine keeps the addresses it has warned of,
outside of the snapshot, and warns of each once. `metAfter` says which addresses there were words
to pass over at since a program was loaded; it is told by what the cycles came to, not by what the
machine keeps. That both are the same at all times (`Tallies.perform`) is what `session_warns` makes
of it: a cycle warns exactly where it passes over the first word at its address. -/
namespace ChipEight

/-- Whether a record is a warning. -/
def Record.warns (record : Record) : Bool := record.severity == .warn

namespace Machine

/-- The word outside the instruction set that a cycle passes over, if it does. -/
def passedOver? (m : Machine) : Option Opcode :=
  match m.step.result with
  | .ok (.executed (.unknown op)) => some op
  | _ => none

/-- What an operation makes of the addresses at which a machine has passed over a word. A cycle that
passes over one adds its own, and loading a program, if it succeeds, takes them all away. Going
back does not. -/
def metAfter (m : Machine) (met : List UInt16) (operation : Operation) : List UInt16 :=
  match operation, m.passedOver? with
  | .step, some _ => m.snapshot.pc :: met
  | _, _ => if m.reloads operation then [] else met

/-- What a sequence of operations makes of them. -/
def metAfterAll (m : Machine) (met : List UInt16) : List Operation → List UInt16
  | [] => met
  | operation :: rest => (m.perform operation).machine.metAfterAll (m.metAfter met operation) rest

/-! ### Cycles -/

/-- A cycle that passes over a word goes on behind it, and that is all it does besides what it keeps
of it. -/
structure PassesOver (m : Machine) (op : Opcode) : Prop where
  fetches : m.Fetches op
  decode : op.decode = .unknown op
  tolerant : m.settings.strict = false
  result : m.step.result = .ok (.executed (.unknown op))
  machine : m.step.machine = { m with
    snapshot := { m.snapshot with pc := m.snapshot.pc + 2 }
    history := m.history.push m.settings.rewindDepth m.snapshot
    halted := false
    reported := (m.report op (.unknown op)).1.reported }
  warnings : m.step.records.filter Record.warns = (m.report op (.unknown op)).2

/-- A tolerant machine passes over any word it fetches that is outside the instruction set. -/
theorem passesOver_of_fetches {m : Machine} {op : Opcode} (tolerant : m.settings.strict = false)
    (fetches : m.Fetches op) (unknown : op.decode = .unknown op) : m.PassesOver op := by
  have hmoves : m.spins op.decode = false := by
    rw [unknown]
    rfl
  have hrun : execute m.surroundings m.snapshot m.devices op.decode =
      (.ok m.snapshot.next, m.devices) := by
    simp only [unknown, execute, surroundings, tolerant, Bool.false_eq_true, if_false]
  have hstep := (Course.runs op _ _ fetches hmoves hrun).eq_step
  rw [unknown] at hstep
  refine ⟨fetches, unknown, tolerant, by rw [hstep], ?_, ?_⟩
  · rw [hstep, after, unknown]
    rfl
  · rw [hstep]
    simp only [report, remark, tolerant]
    split <;> rfl

/-- A cycle that passes over a word is one of a tolerant machine, and does nothing else. -/
theorem passesOver_of_passedOver {m : Machine} {op : Opcode} (h : m.passedOver? = some op) :
    m.PassesOver op := by
  have course := m.course_step
  unfold passedOver? at h
  generalize m.step = reply at course h
  cases course with
  | waits | strays | spins | faults => cases h
  | runs word next d fetches _ hrun =>
    have hword : word.decode = .unknown op := by
      split at h <;> cases h
      rename_i hresult
      exact Outcome.executed.inj (Except.ok.inj hresult)
    obtain rfl := Opcode.eq_of_decode_unknown hword
    refine passesOver_of_fetches (Bool.eq_false_iff.mpr fun strict => ?_) fetches hword
    simp [hword, execute, surroundings, strict] at hrun

/-- A strict machine passes over no word. -/
theorem passedOver?_of_strict {m : Machine} (strict : m.settings.strict = true) :
    m.passedOver? = none := by
  cases h : m.passedOver? with
  | none => rfl
  | some op =>
    have tolerant := (passesOver_of_passedOver h).tolerant
    rw [strict] at tolerant
    cases tolerant

/-- A cycle that does not pass over a word keeps nothing of any, and has nothing to warn of. -/
theorem quiet_step {m : Machine} (h : m.passedOver? = none) :
    m.step.machine.reported = m.reported ∧ m.step.records.filter Record.warns = [] := by
  have course := m.course_step
  unfold passedOver? at h
  generalize m.step = reply at course h ⊢
  cases course with
  | waits wait _ =>
    obtain ⟨registers, keyWait, hwatched⟩ := m.watchKeypad_eq wait
    rw [hwatched]
    exact ⟨rfl, rfl⟩
  | strays => exact ⟨rfl, rfl⟩
  | spins => exact ⟨rfl, by cases m.halted <;> rfl⟩
  | faults op fault _ _ hrun =>
    refine ⟨rfl, ?_⟩
    cases hop : op.decode with
    | unknown word =>
      have strict : m.settings.strict = true :=
        execute_fault_strict (congrArg Prod.fst (hop ▸ hrun))
      simp only [remark, strict]
      rfl
    | _ => rfl
  | runs op next d =>
    cases hop : op.decode with
    | unknown word =>
      rw [hop] at h
      cases h
    | _ => rw [after, hop, report_of_not_skips op rfl]; exact ⟨rfl, rfl⟩

/-! ### Operations -/

/-- Nothing but a cycle has anything to warn of, and unless it loads a program it keeps what was
kept. -/
theorem quiet_perform {m : Machine} {operation : Operation} (idle : operation ≠ .step) :
    (m.perform operation).machine.reported = (if m.reloads operation then [] else m.reported) ∧
      (m.perform operation).records.filter Record.warns = [] := by
  have of_load {reply : Reply Unit} (hr : m.Reloads reply)
      (h : m.perform operation = reply.map fun _ => .done)
      (ho : operation = .reset ∨ (∃ program, operation = .load program) ∨
        ∃ source, operation = .loadFrom source) :
      (m.perform operation).machine.reported =
        if m.reloads operation then [] else m.reported := by
    rw [reloads_eq_isOk h ho, h]
    cases hr <;> rfl
  cases operation with
  | step => exact absurd rfl idle
  | load program =>
    refine ⟨of_load (m.reloads_load program) rfl (.inr (.inl ⟨_, rfl⟩)), ?_⟩
    simp only [perform, Reply.map, load]
    split <;> rfl
  | loadFrom source =>
    refine ⟨of_load (m.reloads_loadFrom source) rfl (.inr (.inr ⟨_, rfl⟩)), ?_⟩
    simp only [perform, Reply.map, loadFrom, load]
    split
    · rfl
    · split <;> rfl
  | reset =>
    refine ⟨of_load m.reloads_reset rfl (.inl rfl), ?_⟩
    simp only [perform, Reply.map, reset]
    split <;> rfl
  | rewind =>
    refine ⟨?_, rfl⟩
    show m.rewind.2.reported = m.reported
    rcases m.rewind_cases with ⟨_, hr⟩ | ⟨s, rest, _, hr⟩ <;> rw [hr]
  | takeFrame =>
    refine ⟨?_, rfl⟩
    show m.takeFrame.2.reported = m.reported
    rw [takeFrame_eq]
  | press | release | setKeypad | setDelay | setSound | tick => exact ⟨rfl, rfl⟩

/-- A strict machine that keeps no address does not come to keep one. -/
theorem keepsNothing_perform (m : Machine) (operation : Operation)
    (h : m.settings.strict = true ∧ m.reported = []) :
    (m.perform operation).machine.settings.strict = true ∧
      (m.perform operation).machine.reported = [] := by
  obtain ⟨strict, hnone⟩ := h
  refine ⟨m.settings_perform operation ▸ strict, ?_⟩
  by_cases hcycle : operation = .step
  · subst hcycle
    exact (quiet_step (passedOver?_of_strict strict)).1.trans hnone
  · rw [(quiet_perform hcycle).1, hnone, ite_self]

/-- What a machine keeps is each of the addresses at which it has passed over a word, once. -/
structure Tallies (m : Machine) (met : List UInt16) : Prop where
  nodup : m.reported.Nodup
  mem_iff : ∀ address, address ∈ m.reported ↔ address ∈ met

/-- A machine that passes over a word keeps its address and warns of it, unless it has kept it. -/
theorem report_unknown {m : Machine} (op : Opcode) (tolerant : m.settings.strict = false) :
    (m.report op (.unknown op)).1.reported =
        (if m.snapshot.pc ∈ m.reported then m.reported else m.snapshot.pc :: m.reported) ∧
      (m.report op (.unknown op)).2 =
        if m.snapshot.pc ∈ m.reported then [] else [.metUnknown op m.snapshot.pc] := by
  by_cases h : m.snapshot.pc ∈ m.reported <;>
    simp [report, skips, tolerant, h]

/-- A cycle that passes over a word adds its address to what the machine keeps, and no other cycle
adds anything. -/
theorem Tallies.step {m : Machine} {met : List UInt16} (h : m.Tallies met) :
    m.step.machine.Tallies (m.metAfter met .step) := by
  cases hpassed : m.passedOver? with
  | none =>
    obtain ⟨hkept, -⟩ := quiet_step hpassed
    have hmet : m.metAfter met .step = met := by
      simp only [metAfter, hpassed]
      rfl
    rw [hmet]
    exact ⟨hkept ▸ h.nodup, hkept ▸ h.mem_iff⟩
  | some op =>
    have passes := passesOver_of_passedOver hpassed
    have hmet : m.metAfter met .step = m.snapshot.pc :: met := by
      simp only [metAfter, hpassed]
    have hkept : m.step.machine.reported = _ :=
      (congrArg reported passes.machine).trans (report_unknown op passes.tolerant).1
    rw [hmet]
    split at hkept
    · rename_i hknown
      refine ⟨hkept ▸ h.nodup, fun address => ?_⟩
      rw [hkept, List.mem_cons, h.mem_iff]
      exact ⟨.inr, fun hmem => hmem.elim (fun here => here ▸ (h.mem_iff _).mp hknown) id⟩
    · rename_i hnew
      refine ⟨hkept ▸ List.nodup_cons.mpr ⟨hnew, h.nodup⟩, fun address => ?_⟩
      rw [hkept, List.mem_cons, List.mem_cons, h.mem_iff]

/-- **What a machine keeps are the addresses at which it has passed over words**, whatever is done
to it. -/
theorem Tallies.perform {m : Machine} {met : List UInt16} (h : m.Tallies met)
    (operation : Operation) : (m.perform operation).machine.Tallies (m.metAfter met operation) := by
  by_cases hcycle : operation = .step
  · subst hcycle
    exact h.step
  · have hkept := (quiet_perform (m := m) hcycle).1
    have hmet : m.metAfter met operation = if m.reloads operation then [] else met := by
      cases operation with
      | step => exact absurd rfl hcycle
      | _ => rfl
    rw [hmet]
    cases hreloads : m.reloads operation <;> rw [hreloads] at hkept
    · exact ⟨hkept ▸ h.nodup, hkept ▸ h.mem_iff⟩
    · exact ⟨hkept ▸ List.nodup_nil, fun address => by rw [hkept]; rfl⟩

theorem Tallies.session {m : Machine} {met : List UInt16} (h : m.Tallies met)
    (operations : List Operation) :
    (m.session operations).Tallies (m.metAfterAll met operations) := by
  induction operations generalizing m met with
  | nil => exact h
  | cons operation rest ih => exact ih (h.perform operation)

/-- **A machine warns of a word outside the instruction set once per address.** After any session:
the addresses it keeps are those at which it has passed over a word since a program was last loaded,
or since it was new, each of them once. A cycle that passes over a word warns of it if it is the
first at its address, whatever the word, and nothing else that can be done to a machine gives a
warning. A tolerant machine passes over every such word that it comes to, which only takes the
program on to the next instruction. A strict machine passes over none, and keeps nothing. -/
theorem session_warns (settings : Settings) (entropy : Random) (operations : List Operation) :
    let m := (new settings entropy).session operations
    let met := (new settings entropy).metAfterAll [] operations
    (∀ address, address ∈ m.reported ↔ address ∈ met) ∧ m.reported.Nodup ∧
      (∀ op, m.passedOver? = some op → (m.perform .step).records.filter Record.warns =
        if m.snapshot.pc ∈ met then [] else [.metUnknown op m.snapshot.pc]) ∧
      (∀ operation, operation ≠ .step ∨ m.passedOver? = none →
        (m.perform operation).records.filter Record.warns = []) ∧
      (settings.strict = false → ∀ op, m.Fetches op → op.decode = .unknown op →
        m.passedOver? = some op ∧
          m.step.machine = { m with
            snapshot := { m.snapshot with pc := m.snapshot.pc + 2 }
            history := m.history.push m.settings.rewindDepth m.snapshot
            halted := false
            reported := m.step.machine.reported } ∧
          (m.snapshot.pc + 2).toNat = m.snapshot.pc.toNat + 2) ∧
      (settings.strict = true → m.passedOver? = none ∧ m.reported = [] ∧
        ∀ operation, (m.perform operation).records.filter Record.warns = []) := by
  intro m met
  have tallies : m.Tallies met :=
    Tallies.session (m := new settings entropy) ⟨List.nodup_nil, fun _ => Iff.rfl⟩ operations
  have hsettings : m.settings = settings := settings_session (new settings entropy) operations
  have quiet : ∀ operation, operation ≠ .step ∨ m.passedOver? = none →
      (m.perform operation).records.filter Record.warns = [] := by
    rintro operation (idle | hpassed)
    · exact (quiet_perform idle).2
    · by_cases hcycle : operation = .step
      · subst hcycle
        exact (quiet_step hpassed).2
      · exact (quiet_perform hcycle).2
  refine ⟨tallies.mem_iff, tallies.nodup, fun op hpassed => ?_, quiet, fun tolerant op fetches
    unknown => ?_, fun strict => ?_⟩
  · show m.step.records.filter Record.warns = _
    have passes := passesOver_of_passedOver hpassed
    rw [passes.warnings, (report_unknown op passes.tolerant).2]
    simp only [tallies.mem_iff]
  · have passes := passesOver_of_fetches (hsettings ▸ tolerant) fetches unknown
    refine ⟨by simp only [passedOver?, passes.result], ?_, fetches.toNat_behind⟩
    rw [passes.machine]
  · have nothing := session_keeps (m := new settings entropy) keepsNothing_perform ⟨strict, rfl⟩
      operations
    have hpassed : m.passedOver? = none := passedOver?_of_strict nothing.1
    exact ⟨hpassed, nothing.2, fun operation => quiet operation (.inr hpassed)⟩

/-- A program that writes the first byte of the word it comes to next and then jumps back to write
another. Going back and a load that fails do not make the machine warn again, and neither does the
other word. -/
theorem session_warns_rewritten :
    let start := new .standard default
    let program : List UInt8 :=
      [0x60, 0x50, 0xA2, 0x06, 0xF0, 0x55, 0x50, 0xFF, 0x60, 0x90, 0x12, 0x02]
    let first : List Operation := [.load program, .step, .step, .step]
    let again := first ++
      [.step, .rewind, .load (List.replicate 3585 0), .step, .step, .step, .step, .step]
    let m := start.session first
    let m' := start.session again
    m.passedOver? = some ⟨0x50FF⟩ ∧ m'.passedOver? = some ⟨0x90FF⟩ ∧
      (m.perform .step).records.filter Record.warns = [.metUnknown ⟨0x50FF⟩ 0x206] ∧
      (m'.perform .step).records.filter Record.warns = [] ∧
      m'.snapshot.pc = 0x206 ∧ 0x206 ∈ m'.reported := by
  intro start program first again
  have h : (start.session first).passedOver? = some ⟨0x50FF⟩ ∧
      (start.session again).passedOver? = some ⟨0x90FF⟩ ∧
      (start.session first).snapshot.pc = 0x206 ∧ (start.session again).snapshot.pc = 0x206 ∧
      start.metAfterAll [] first = [] ∧ start.metAfterAll [] again = [0x206, 0x206] := by
    decide +kernel
  obtain ⟨passes, passes', pc, pc', met, met'⟩ := h
  obtain ⟨-, -, warns, -⟩ := session_warns .standard default first
  obtain ⟨keeps', -, warns', -⟩ := session_warns .standard default again
  -- From here on the two are any machines, or else comparing terms would run their programs.
  generalize start.session first = m at passes pc warns ⊢
  generalize start.session again = m' at passes' pc' keeps' warns' ⊢
  refine ⟨passes, passes', ?_, ?_, pc', (keeps' 0x206).mpr (met' ▸ List.mem_cons_self ..)⟩
  · rw [warns _ passes, pc, met]
    rfl
  · rw [warns' _ passes', pc', met']
    rfl

end Machine
end ChipEight
