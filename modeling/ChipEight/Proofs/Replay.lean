import ChipEight.Proofs.Faults
import ChipEight.Proofs.Undo

/-! Going forward again.

A snapshot is *ready* for an instruction if that instruction is the next to run from it and
runs whatever the keypad, the timers and the random stream are by then (`Snapshot.Ready`).
Where an instruction ran once, it was ready to: what can be against it is in the snapshot and
in the settings. So everything a machine can go back to is ready, and after going back the
next cycle runs the instruction that was taken back: `session_ready`. -/
namespace ChipEight

/-! ### Snapshots that are ready -/

/-- A snapshot from which the next cycle runs an instruction, whatever is around it. -/
structure Snapshot.Ready (s : Snapshot) (settings : Settings) (i : Instruction) : Prop where
  awake : s.keyWait = none
  fetched : ∃ op, s.memory.opcode s.pc = .ok op ∧ op.decode = i
  moves : ∀ target, i = .jump target → target.word ≠ s.pc
  runs : ∀ keypad d, ∃ next d',
    execute ⟨keypad, settings.dialect, settings.strict⟩ s d i = (.ok next, d')

namespace Snapshot.Ready

variable {s : Snapshot} {settings : Settings} {i : Instruction}

/-- The wish to be shown makes a snapshot neither more nor less ready. -/
theorem of_redraw (h : s.Ready settings i) (redraw : Bool) :
    { s with redraw }.Ready settings i where
  awake := h.awake
  fetched := h.fetched
  moves := h.moves
  runs := fun keypad d => by
    obtain ⟨next, d', hrun⟩ := h.runs keypad d
    have hfault := fault?_of_ok (congrArg Prod.fst hrun)
    rw [← s.fault?_redraw redraw] at hfault
    exact execute_ok ⟨keypad, settings.dialect, settings.strict⟩ d hfault

end Snapshot.Ready

namespace Machine

/-- A machine at a ready snapshot runs the instruction. -/
theorem step_of_ready {m : Machine} {i : Instruction} (h : m.snapshot.Ready m.settings i) :
    m.step.result = .ok (.executed i) := by
  obtain ⟨op, hop, rfl⟩ := h.fetched
  have course := m.course_step
  generalize m.step = reply at course ⊢
  cases course with
  | waits wait hwait => cases h.awake.symm.trans hwait
  | strays fault _ hfetch => cases hop.symm.trans hfetch
  | spins op' fetches hspins =>
    cases hop.symm.trans fetches.opcode
    -- only a jump to this very place spins
    cases hi : op.decode with
    | jump target =>
      rw [hi] at hspins
      exact absurd (by simpa [spins] using hspins) (h.moves target hi)
    | _ => rw [hi] at hspins; cases hspins
  | faults op' fault fetches _ hrun =>
    cases hop.symm.trans fetches.opcode
    obtain ⟨next, d', hran⟩ := h.runs m.keypad m.devices
    cases hran.symm.trans hrun
  | runs op' next d fetches _ hrun =>
    cases hop.symm.trans fetches.opcode
    rfl

/-- Where an instruction ran, it was ready to. -/
theorem ready_of_executed {m : Machine} {i : Instruction}
    (h : m.step.result = .ok (.executed i)) : m.snapshot.Ready m.settings i := by
  have course := m.course_step
  generalize m.step = reply at course h
  cases course with
  | waits | strays | spins | faults => cases h
  | runs op next d fetches hspins hrun =>
    cases h
    refine ⟨fetches.awake, ⟨op, fetches.opcode, rfl⟩, fun target hjump hpc => ?_,
      fun keypad d' => ?_⟩
    · rw [hjump, spins, hpc, beq_self_eq_true] at hspins
      cases hspins
    · have hfault := fault?_of_ok (congrArg Prod.fst hrun)
      exact execute_ok ⟨keypad, m.settings.dialect, m.settings.strict⟩ d' hfault

/-! ### Instructions that ran and were not taken back -/

/-- An instruction that ran, and the snapshot it ran from. -/
structure Ran where
  before : Snapshot
  instruction : Instruction

/-- What an operation makes of the instructions that ran and were not taken back, the latest
first. -/
def ranAfter (m : Machine) (ran : List Ran) (operation : Operation) : List Ran :=
  match operation, (m.perform operation).result with
  | .step, .ok (.stepped (.executed i)) => ⟨m.snapshot, i⟩ :: ran
  | .rewind, .ok (.rewound true) => ran.tail
  | .load _, .ok _ | .loadFrom _, .ok _ | .reset, .ok _ => []
  | _, _ => ran

/-- What a sequence of operations makes of them. -/
def ranAfterAll (m : Machine) (ran : List Ran) : List Operation → List Ran
  | [] => ran
  | operation :: rest =>
    (m.perform operation).machine.ranAfterAll (m.ranAfter ran operation) rest

theorem result_step_of_perform {m : Machine} {outcome : Outcome}
    (h : (m.perform .step).result = .ok (.stepped outcome)) : m.step.result = .ok outcome := by
  simp only [perform, Reply.map] at h
  cases hstep : m.step.result with
  | error fault => rw [hstep] at h; cases h
  | ok other => rw [hstep] at h; cases h; rfl

/-- The snapshots they ran from are the past. -/
theorem map_before_ranAfter (m : Machine) (ran : List Ran) (operation : Operation) :
    (m.ranAfter ran operation).map Ran.before =
      m.pastAfter (ran.map Ran.before) operation := by
  unfold ranAfter pastAfter
  split <;> simp_all [List.map_tail]

theorem map_before_ranAfterAll (m : Machine) (ran : List Ran) (operations : List Operation) :
    (m.ranAfterAll ran operations).map Ran.before =
      m.pastAfterAll (ran.map Ran.before) operations := by
  induction operations generalizing m ran with
  | nil => rfl
  | cons operation rest ih =>
    simp only [ranAfterAll, pastAfterAll]
    rw [ih, map_before_ranAfter]

theorem ready_ranAfter {m : Machine} {ran : List Ran}
    (h : ∀ r ∈ ran, r.before.Ready m.settings r.instruction) (operation : Operation) :
    ∀ r ∈ m.ranAfter ran operation, r.before.Ready m.settings r.instruction := by
  unfold ranAfter
  split
  · rename_i i hresult
    exact List.forall_mem_cons.mpr ⟨ready_of_executed (result_step_of_perform hresult), h⟩
  · exact fun r hr => h r (List.mem_of_mem_tail hr)
  · exact List.forall_mem_nil _
  · exact List.forall_mem_nil _
  · exact List.forall_mem_nil _
  · exact h

/-- **Whatever ran and was not taken back is ready to run again.** -/
theorem ready_ranAfterAll {m : Machine} {ran : List Ran}
    (h : ∀ r ∈ ran, r.before.Ready m.settings r.instruction) (operations : List Operation) :
    ∀ r ∈ m.ranAfterAll ran operations, r.before.Ready m.settings r.instruction := by
  induction operations generalizing m ran with
  | nil => exact h
  | cons operation rest ih =>
    have hnext := ready_ranAfter h operation
    rw [← m.settings_perform operation] at hnext ⊢
    exact ih hnext

/-- What a machine can go back to is where the latest of these instructions ran from. -/
theorem toList_front_ran (settings : Settings) (entropy : Random)
    (operations : List Operation) :
    ((new settings entropy).session operations).history.toList <+:
      ((new settings entropy).ranAfterAll [] operations).map Ran.before := by
  rw [map_before_ranAfterAll]
  exact (prefix_pastAfterAll (m := new settings entropy) (Nat.zero_le _) List.prefix_rfl
    operations).1

/-- **After going back, the next cycle goes forward again.** After any session from a new machine,
every snapshot that can be gone back to is ready for an instruction. If there is one, going
back leads to where the latest instruction ran from that was not taken back; and whatever is
done then to the keypad and the timers, whoever takes the picture, and wherever the random
stream is by then, the next cycle runs that instruction. -/
theorem session_ready (settings : Settings) (entropy : Random) (operations : List Operation) :
    let m := (new settings entropy).session operations
    let ran := (new settings entropy).ranAfterAll [] operations
    (∀ s ∈ m.history.toList, ∃ i, s.Ready settings i) ∧
      (m.rewind.1 = true → ∃ r, ran.head? = some r ∧
        m.rewind.2.snapshot = { r.before with redraw := true } ∧
        r.before.Ready settings r.instruction ∧
        ∀ between : List Operation, (∀ operation ∈ between, operation.tends = true) →
          ∀ random, { m.rewind.2.session between with random }.step.result =
            .ok (.executed r.instruction)) := by
  intro m ran
  have hready : ∀ r ∈ ran, r.before.Ready settings r.instruction :=
    ready_ranAfterAll (m := new settings entropy) (List.forall_mem_nil _) operations
  have hfront : m.history.toList <+: ran.map Ran.before :=
    toList_front_ran settings entropy operations
  have hsettings : m.settings = settings := settings_session (new settings entropy) operations
  refine ⟨fun s hs => ?_, fun hback => ?_⟩
  · obtain ⟨r, hr, rfl⟩ := List.mem_map.mp (hfront.subset hs)
    exact ⟨r.instruction, hready r hr⟩
  · rcases m.rewind_cases with ⟨_, hrewind⟩ | ⟨s, rest, hview, hrewind⟩
    · rw [hrewind] at hback
      cases hback
    · rw [hview] at hfront
      obtain ⟨older, hpast⟩ := hfront
      obtain ⟨r, others, hran, rfl, -⟩ := List.map_eq_cons_iff.mp hpast.symm
      have hr : r.before.Ready settings r.instruction := by
        apply hready
        rw [hran]
        exact List.mem_cons_self
      refine ⟨r, by rw [hran, List.head?_cons], by rw [hrewind], hr, fun between tends random => ?_⟩
      obtain ⟨keypad, timers, redraw, htended⟩ := m.rewind.2.tended_session tends
      apply step_of_ready
      rw [htended, hrewind]
      show { r.before with redraw }.Ready m.settings r.instruction
      rw [hsettings]
      exact hr.of_redraw redraw

/-- A program that drew a byte, waited for a key and got it is taken back to where it was to begin
waiting. With another key down by then, it begins to wait again. -/
theorem session_ready_wait :
    let operations : List Operation := [.load [0xC1, 0x0F, 0xF0, 0x0A, 0x61, 0x05], .step, .step,
      .press 3, .step, .release 3, .step, .step, .rewind]
    let m := (new .standard default).session operations
    m.rewind.1 = true ∧
      (m.rewind.2.session [.press 7, .tick, .takeFrame]).step.result =
        .ok (.executed (.awaitKey 0)) := by
  intro operations m
  have hback : m.rewind.1 = true ∧
      ((new .standard default).ranAfterAll [] operations).head?.map Ran.instruction =
        some (.awaitKey 0) := by
    decide +kernel
  obtain ⟨r, hran, -, -, hforward⟩ := (session_ready .standard default operations).2 hback.1
  have hwaits : r.instruction = .awaitKey 0 := by
    have := hback.2
    rw [hran] at this
    exact Option.some.inj this
  have hnext := hforward [.press 7, .tick, .takeFrame] (by decide)
  rw [hwaits] at hnext
  refine ⟨hback.1, ?_⟩
  generalize m.rewind.2.session [.press 7, .tick, .takeFrame] = between at hnext ⊢
  exact hnext between.random

end Machine
end ChipEight
