import ChipEight.Proofs.Redraw
import ChipEight.Proofs.Visits

/-! Halting.

A program that has come to a jump to itself stays there, cycle after cycle, and the machine
notes that it does. The note is kept beside the snapshot, not in it, and is cleared wherever
the program might be led away from the jump: by an instruction that runs, by going back and by
loading, so it never outlives the jump (`noted_perform`). What is left, tending and
operations that come to nothing, does not lead the program away, so the machine *rests*: no
cycle changes anything any more, and there is nothing more to say (`Rests.session`). -/
namespace ChipEight

/-- Whether a record says that the program has halted. -/
def Record.tellsHalt : Record → Bool
  | .halted _ => true
  | _ => false

namespace Machine

/-! ### A program that jumps to itself -/

/-- A machine whose program is at a jump to itself. -/
def Stands (m : Machine) : Prop :=
  ∃ op, m.Fetches op ∧ m.spins op.decode = true

theorem Stands.jumps {m : Machine} (h : m.Stands) :
    m.snapshot.keyWait = none ∧ ∃ op target, m.snapshot.memory.opcode m.snapshot.pc = .ok op ∧
      op.decode = .jump target ∧ target.word = m.snapshot.pc := by
  obtain ⟨op, fetches, hspins⟩ := h
  refine ⟨fetches.awake, op, ?_⟩
  cases hop : op.decode with
  | jump target =>
    rw [hop] at hspins
    exact ⟨target, fetches.opcode, rfl, by simpa [spins] using hspins⟩
  | _ => rw [hop] at hspins; cases hspins

/-- Tending to a machine does not lead its program away. -/
theorem Stands.of_tended {m m' : Machine} (h : m.Stands) (tended : m.Tended m') : m'.Stands := by
  obtain ⟨_, _, _, rfl⟩ := tended
  obtain ⟨op, fetches, hspins⟩ := h
  exact ⟨op, ⟨fetches.awake, fetches.opcode⟩, hspins⟩

/-- A cycle at a jump to itself notes the halt, and says so if it was not noted before. -/
theorem Stands.step {m : Machine} (h : m.Stands) :
    m.step.result = .ok .halted ∧ m.step.machine = { m with halted := true } ∧
      m.step.records.filter Record.tellsHalt =
        if m.halted then [] else [.halted m.snapshot.pc] := by
  obtain ⟨op, fetches, hspins⟩ := h
  rw [(Course.spins op fetches hspins).eq_step]
  refine ⟨rfl, rfl, ?_⟩
  cases m.halted <;> rfl

theorem stands_of_step {m : Machine} (h : m.step.result = .ok .halted) : m.Stands := by
  have course := m.course_step
  generalize m.step = reply at course h
  cases course with
  | waits | strays | faults | runs => cases h
  | spins op fetches hspins => exact ⟨op, fetches, hspins⟩

/-! ### The note never outlives the jump -/

/-- What a machine has noted of a halt is true of it. -/
def Noted (m : Machine) : Prop := m.halted = true → m.Stands

theorem Noted.reloads {m : Machine} (h : m.Noted) {reply : Reply Unit} (hr : m.Reloads reply) :
    reply.machine.Noted := by
  cases hr with
  | refuses => exact h
  | restarts => exact nofun

theorem Noted.step {m : Machine} (h : m.Noted) : m.step.machine.Noted := by
  have course := m.course_step
  generalize m.step = reply at course ⊢
  cases course with
  | waits wait hwait =>
    -- a program that waits has not halted
    obtain ⟨registers, keyWait, hwatched⟩ := m.watchKeypad_eq wait
    rw [hwatched]
    intro halted
    obtain ⟨op, fetches, -⟩ := h halted
    cases fetches.awake.symm.trans hwait
  | strays | faults => exact h
  | spins op fetches hspins => exact fun _ => ⟨op, ⟨fetches.awake, fetches.opcode⟩, hspins⟩
  | runs => exact nofun

theorem Noted.rewind {m : Machine} (h : m.Noted) : m.rewind.2.Noted := by
  rcases m.rewind_cases with ⟨_, hr⟩ | ⟨s, rest, _, hr⟩ <;> rw [hr]
  · exact h
  · exact nofun

theorem Noted.tended {m m' : Machine} (h : m.Noted) (tended : m.Tended m') : m'.Noted := by
  intro halted
  refine Stands.of_tended (h ?_) tended
  obtain ⟨_, _, _, rfl⟩ := tended
  exact halted

theorem noted_perform (m : Machine) (operation : Operation) (h : m.Noted) :
    (m.perform operation).machine.Noted := by
  cases operation with
  | load program => exact h.reloads (m.reloads_load program)
  | loadFrom source => exact h.reloads (m.reloads_loadFrom source)
  | reset => exact h.reloads m.reloads_reset
  | step => exact h.step
  | rewind => exact h.rewind
  | takeFrame | press | release | setKeypad | setDelay | setSound | tick =>
    exact h.tended (m.tended_perform rfl)

/-! ### Machines that rest -/

/-- Whether an operation takes the program to another place without a cycle, by loading one or by
going back. -/
def displaces (m : Machine) : Operation → Bool
  | .rewind => m.rewind.1
  | operation => m.reloads operation

/-- A load that is refused has no effect and nothing to say. -/
theorem perform_of_refused {m : Machine} {operation : Operation} {reply : Reply Unit}
    (kept : m.reloads operation = false) (hr : m.Reloads reply)
    (h : m.perform operation = reply.map fun _ => .done)
    (ho : operation = .reset ∨ (∃ program, operation = .load program) ∨
      ∃ source, operation = .loadFrom source) :
    (m.perform operation).machine = m ∧ (m.perform operation).records = [] := by
  rw [reloads_eq_isOk h ho] at kept
  rw [h]
  cases hr with
  | refuses => exact ⟨rfl, rfl⟩
  | restarts => cases kept

/-- Apart from cycles, what does not take the program to another place tends to the machine or has
no effect, and it has nothing to say. -/
theorem perform_of_kept {m : Machine} {operation : Operation} (kept : m.displaces operation = false)
    (idle : operation ≠ .step) :
    (operation.tends = true ∨ (m.perform operation).machine = m) ∧
      (m.perform operation).records = [] := by
  cases operation with
  | load program =>
    exact (perform_of_refused kept (m.reloads_load program) rfl (.inr (.inl ⟨_, rfl⟩))).imp_left .inr
  | loadFrom source =>
    exact (perform_of_refused kept (m.reloads_loadFrom source) rfl
      (.inr (.inr ⟨_, rfl⟩))).imp_left .inr
  | reset => exact (perform_of_refused kept m.reloads_reset rfl (.inl rfl)).imp_left .inr
  | step => exact absurd rfl idle
  | rewind =>
    refine ⟨.inr ?_, rfl⟩
    show m.rewind.2 = m
    rcases m.rewind_cases with ⟨_, hr⟩ | ⟨s, rest, _, hr⟩
    · rw [hr]
    · rw [displaces, hr] at kept
      cases kept
  | takeFrame | press | release | setKeypad | setDelay | setSound | tick => exact ⟨.inl rfl, rfl⟩

/-- A machine that has come to a jump to itself and has noted it. -/
structure Rests (m : Machine) : Prop where
  stands : m.Stands
  halted : m.halted = true

/-- A cycle of a machine that rests changes nothing. -/
theorem Rests.step {m : Machine} (h : m.Rests) :
    m.step.result = .ok .halted ∧ m.step.machine = m ∧
      m.step.records.filter Record.tellsHalt = [] := by
  obtain ⟨hresult, hmachine, hrecords⟩ := h.stands.step
  refine ⟨hresult, hmachine.trans ?_, hrecords.trans (if_pos h.halted)⟩
  rw [← h.halted]

/-- A machine that rests does so after any operation that does not take the program to another
place, and only those that tend to it change it at all. -/
theorem Rests.perform {m : Machine} (h : m.Rests) {operation : Operation}
    (kept : m.displaces operation = false) :
    (m.perform operation).machine.Rests ∧
      (operation.tends = false → (m.perform operation).machine = m) ∧
      (m.perform operation).records.filter Record.tellsHalt = [] := by
  by_cases hcycle : operation = .step
  · subst hcycle
    obtain ⟨-, hmachine, hrecords⟩ := h.step
    refine ⟨?_, fun _ => hmachine, hrecords⟩
    rw [show (m.perform .step).machine = m from hmachine]
    exact h
  · obtain ⟨htends | hmachine, hrecords⟩ := perform_of_kept kept hcycle <;> rw [hrecords]
    · have tended := m.tended_perform htends
      refine ⟨⟨h.stands.of_tended tended, ?_⟩, fun hkeeps => ?_, rfl⟩
      · obtain ⟨_, _, _, hm⟩ := tended
        rw [hm]
        exact h.halted
      · rw [htends] at hkeeps
        cases hkeeps
    · rw [hmachine]
      exact ⟨h, fun _ => rfl, rfl⟩

/-- **A machine that rests does so for good.** -/
theorem Rests.session {m : Machine} (h : m.Rests) {later : List Operation}
    (kept : ∀ v ∈ m.visits later, v.machine.displaces v.operation = false) :
    (∀ c ∈ m.cycles later, c.step.result = .ok .halted ∧ c.step.machine = c) ∧
      m.session later = m.session (later.filter Operation.tends) ∧
      (m.saying later).filter Record.tellsHalt = [] := by
  induction later generalizing m with
  | nil => exact ⟨List.forall_mem_nil _, rfl, rfl⟩
  | cons operation rest ih =>
    obtain ⟨hfirst, hrest⟩ := List.forall_mem_cons.mp kept
    obtain ⟨rests, hunchanged, hrecords⟩ := h.perform hfirst
    obtain ⟨hcycles, hsession, hsaying⟩ := ih rests hrest
    refine ⟨?_, ?_, ?_⟩
    · cases operation with
      | step =>
        exact List.forall_mem_cons.mpr ⟨⟨h.step.1, h.step.2.1⟩, hcycles⟩
      | _ => exact hcycles
    · cases htends : operation.tends with
      | false =>
        rw [List.filter_cons_of_neg (by simp [htends])]
        exact hsession.trans (by rw [hunchanged htends])
      | true =>
        rw [List.filter_cons_of_pos htends]
        exact hsession
    · show ((m.perform operation).records ++ (m.perform operation).machine.saying rest).filter
        Record.tellsHalt = []
      rw [List.filter_append, hrecords, hsaying]
      rfl

/-- **Halting is for good, and it is said once.** On a machine after any session, a noted halt means
that no key is waited for and that the opcode at the program's place is a jump to that place. If
nothing was noted and a cycle halts, this note is all the cycle changes. Whatever is done then,
as long as no load succeeds and no cycle is taken back: every further cycle halts and changes
nothing, the machine is what it would be had only the keys, the timers and the picture been
tended to, and the halt is told by exactly one record, from the first cycle on. -/
theorem session_halts (settings : Settings) (entropy : Random) (operations : List Operation) :
    let m := (new settings entropy).session operations
    (m.halted = true → m.snapshot.keyWait = none ∧ ∃ op target,
        m.snapshot.memory.opcode m.snapshot.pc = .ok op ∧ op.decode = .jump target ∧
          target.word = m.snapshot.pc) ∧
      (m.halted = false → m.step.result = .ok .halted →
        let rested := { m with halted := true }
        m.step.machine = rested ∧
          ∀ later : List Operation,
            (∀ v ∈ rested.visits later, v.machine.displaces v.operation = false) →
              (∀ c ∈ rested.cycles later, c.step.result = .ok .halted ∧ c.step.machine = c) ∧
                rested.session later = rested.session (later.filter Operation.tends) ∧
                rested.Tended (rested.session later) ∧
                (m.saying (.step :: later)).filter Record.tellsHalt =
                  [.halted m.snapshot.pc]) := by
  intro m
  have noted : m.Noted :=
    session_keeps noted_perform (m := new settings entropy) (P := Noted) nofun operations
  refine ⟨fun halted => (noted halted).jumps, fun clear halts => ?_⟩
  intro rested
  have stands := stands_of_step halts
  obtain ⟨-, hmachine, hrecords⟩ := stands.step
  rw [clear] at hrecords
  have rests : rested.Rests := by
    obtain ⟨op, fetches, hspins⟩ := stands
    exact ⟨⟨op, ⟨fetches.awake, fetches.opcode⟩, hspins⟩, rfl⟩
  refine ⟨hmachine, fun later kept => ?_⟩
  obtain ⟨hcycles, hsession, hsaying⟩ := rests.session kept
  refine ⟨hcycles, hsession, ?_, ?_⟩
  · rw [hsession]
    exact rested.tended_session fun operation h => (List.mem_filter.mp h).2
  · show (m.step.records ++ m.step.machine.saying later).filter Record.tellsHalt = _
    rw [hmachine, List.filter_append, hrecords, hsaying]
    rfl

/-- A program that draws and then halts, on a machine that takes nothing back. The picture is taken
meanwhile, a program that does not fit is tried, and the delay timer runs. -/
theorem session_halts_drawn :
    let settings := { Settings.standard with rewindDepth := 0 }
    let m := (new settings default).session [.load [0xD0, 0x05, 0x12, 0x02], .step]
    let rested := { m with halted := true }
    let later : List Operation := [.step, .takeFrame, .setDelay 9, .rewind, .tick,
      .load (List.replicate 3585 0), .press 3, .step]
    m.halted = false ∧ m.step.result = .ok .halted ∧
      (∀ v ∈ rested.visits later, v.machine.displaces v.operation = false) ∧
      (rested.cycles later).length = 2 ∧
      (∀ c ∈ rested.cycles later, c.step.result = .ok .halted ∧ c.step.machine = c) ∧
      rested.session later = rested.session [.takeFrame, .setDelay 9, .tick, .press 3] ∧
      (m.saying (.step :: later)).filter Record.tellsHalt = [.halted 0x202] := by
  intro settings m rested later
  have h : m.halted = false ∧ m.step.result = .ok .halted ∧
      (∀ v ∈ rested.visits later, v.machine.displaces v.operation = false) ∧
      (rested.cycles later).length = 2 ∧ m.snapshot.pc = 0x202 := by
    decide +kernel
  obtain ⟨clear, halts, kept, twice, hpc⟩ := h
  obtain ⟨-, rests⟩ := session_halts settings default [.load [0xD0, 0x05, 0x12, 0x02], .step]
  obtain ⟨hcycles, hsession, -, hsaying⟩ := (rests clear halts).2 later kept
  exact ⟨clear, halts, kept, twice, hcycles, hsession, hpc ▸ hsaying⟩

end Machine
end ChipEight
