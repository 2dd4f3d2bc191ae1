import Mathlib.Data.List.Infix
import ChipEight.Proofs.Course

/-! Going back.

What a machine could go back to, were there room for all of it, is its *past*: the
snapshots before the instructions that ran and were not taken back, the latest first.
`pastAfter` says what an operation makes of a past. `toList_perform` is the law of the
history: an operation makes of it what it makes of a past, and cuts that off at the
depth. `session_undo` follows: after any session the history is the front of the whole
past, and going back leads to where the past says. -/
namespace ChipEight.Machine

/-! ### The past -/

/-- What an operation makes of a past. Nothing but a cycle that ran an instruction adds to
it, and nothing but going back takes from it, until a program is loaded. -/
def pastAfter (m : Machine) (past : List Snapshot) (operation : Operation) : List Snapshot :=
  match operation, (m.perform operation).result with
  | .step, .ok (.stepped (.executed _)) => m.snapshot :: past
  | .rewind, .ok (.rewound true) => past.tail
  | .load _, .ok _ | .loadFrom _, .ok _ | .reset, .ok _ => []
  | _, _ => past

/-- What a sequence of operations makes of a past. -/
def pastAfterAll (m : Machine) (past : List Snapshot) : List Operation → List Snapshot
  | [] => past
  | operation :: rest =>
    (m.perform operation).machine.pastAfterAll (m.pastAfter past operation) rest

/-- How many snapshots can be gone back to after an operation. -/
def heldAfter (m : Machine) (depth : Nat) (operation : Operation) : Nat :=
  match operation, (m.perform operation).result with
  | .step, .ok (.stepped (.executed _)) => min (m.history.size + 1) depth
  | .rewind, .ok (.rewound true) => m.history.size - 1
  | .load _, .ok _ | .loadFrom _, .ok _ | .reset, .ok _ => 0
  | _, _ => m.history.size

/-- Operations go together on a past and on the front of it. -/
theorem pastAfter_prefix (m : Machine) (operation : Operation) {held past : List Snapshot}
    (h : held <+: past) : m.pastAfter held operation <+: m.pastAfter past operation := by
  unfold pastAfter
  split
  · exact List.cons_prefix_cons.mpr ⟨rfl, h⟩
  · rw [← List.drop_one, ← List.drop_one]
    exact h.drop 1
  · exact List.prefix_rfl
  · exact List.prefix_rfl
  · exact List.prefix_rfl
  · exact h

/-! ### The settings stay -/

theorem Reloads.settings {m : Machine} {reply : Reply Unit} (h : m.Reloads reply) :
    reply.machine.settings = m.settings := by
  cases h <;> rfl

theorem settings_perform (m : Machine) (operation : Operation) :
    (m.perform operation).machine.settings = m.settings := by
  cases operation with
  | load program => exact (m.reloads_load program).settings
  | loadFrom source => exact (m.reloads_loadFrom source).settings
  | reset => exact m.reloads_reset.settings
  | step => exact m.step_fixed.1
  | rewind =>
    show m.rewind.2.settings = m.settings
    rcases m.rewind_cases with ⟨_, hr⟩ | ⟨s, rest, _, hr⟩ <;> rw [hr]
  | takeFrame =>
    show m.takeFrame.2.settings = m.settings
    rw [takeFrame_eq]
  | press | release | setKeypad | setDelay | setSound | tick => rfl

theorem settings_session (m : Machine) (operations : List Operation) :
    (m.session operations).settings = m.settings :=
  session_keeps (P := fun other => other.settings = m.settings)
    (fun other operation h => (other.settings_perform operation).trans h) rfl operations

/-! ### The history -/

/-- A machine that holds no more than its settings allow. -/
def Held (m : Machine) : Prop := m.history.size ≤ m.settings.rewindDepth

theorem Held.take {m : Machine} (h : m.Held) :
    m.history.toList.take m.settings.rewindDepth = m.history.toList := by
  apply List.take_of_length_le
  rw [History.length_toList]
  exact h

theorem toList_step {m : Machine} (h : m.Held) :
    m.step.machine.history.toList =
      (m.pastAfter m.history.toList .step).take m.settings.rewindDepth := by
  have course := m.course_step
  unfold pastAfter perform
  generalize m.step = reply at course ⊢
  cases course with
  | waits wait _ =>
    obtain ⟨registers, keyWait, hwatched⟩ := m.watchKeypad_eq wait
    rw [hwatched]
    exact h.take.symm
  | strays | spins | faults => exact h.take.symm
  | runs op next d => exact History.toList_push _ _ _ h

theorem Reloads.toList {m : Machine} (h : m.Held) {reply : Reply Unit} (hr : m.Reloads reply) :
    reply.machine.history.toList =
      (match reply.result with
        | .ok _ => []
        | .error _ => m.history.toList).take m.settings.rewindDepth := by
  cases hr with
  | refuses => exact h.take.symm
  | restarts => exact List.take_nil.symm

theorem pastAfter_reload (m : Machine) (past : List Snapshot) {operation : Operation}
    {reply : Reply Unit} (h : m.perform operation = reply.map fun _ => .done)
    (ho : operation = .reset ∨ (∃ program, operation = .load program) ∨
      ∃ source, operation = .loadFrom source) :
    m.pastAfter past operation =
      match reply.result with
      | .ok _ => []
      | .error _ => past := by
  obtain rfl | ⟨_, rfl⟩ | ⟨_, rfl⟩ := ho <;> simp only [pastAfter, h, Reply.map] <;>
    cases reply.result <;> rfl

/-- **The history is the past as far as the depth goes.** -/
theorem toList_perform {m : Machine} (h : m.Held) (operation : Operation) :
    (m.perform operation).machine.history.toList =
      (m.pastAfter m.history.toList operation).take m.settings.rewindDepth := by
  cases operation with
  | step => exact toList_step h
  | rewind =>
    rcases m.rewind_cases with ⟨_, hr⟩ | ⟨s, rest, hview, hr⟩
    · simp only [pastAfter, perform, answering, hr]
      exact h.take.symm
    · have hlength : rest.toList.length + 1 ≤ m.settings.rewindDepth := by
        rw [← List.length_cons (a := s), ← hview, History.length_toList]
        exact h
      simp only [pastAfter, perform, answering, hr, hview, List.tail_cons]
      exact (List.take_of_length_le (by omega)).symm
  | load program =>
    rw [m.pastAfter_reload _ rfl (.inr (.inl ⟨program, rfl⟩))]
    exact (m.reloads_load program).toList h
  | loadFrom source =>
    rw [m.pastAfter_reload _ rfl (.inr (.inr ⟨source, rfl⟩))]
    exact (m.reloads_loadFrom source).toList h
  | reset =>
    rw [m.pastAfter_reload _ rfl (.inl rfl)]
    exact m.reloads_reset.toList h
  | takeFrame =>
    show m.takeFrame.2.history.toList = m.history.toList.take m.settings.rewindDepth
    rw [takeFrame_eq]
    exact h.take.symm
  | press | release | setKeypad | setDelay | setSound | tick => exact h.take.symm

theorem Held.perform {m : Machine} (h : m.Held) (operation : Operation) :
    (m.perform operation).machine.Held := by
  unfold Held
  rw [settings_perform, ← History.length_toList, toList_perform h, List.length_take]
  exact Nat.min_le_left _ _

theorem size_perform {m : Machine} (h : m.Held) (operation : Operation) :
    (m.perform operation).machine.history.size =
      m.heldAfter m.settings.rewindDepth operation := by
  have hsize : m.history.size ≤ m.settings.rewindDepth := h
  rw [← History.length_toList, toList_perform h, List.length_take]
  unfold pastAfter heldAfter
  split
  · simp only [List.length_cons, History.length_toList]
    omega
  · simp only [List.length_tail, History.length_toList]
    omega
  · exact Nat.min_zero _
  · exact Nat.min_zero _
  · exact Nat.min_zero _
  · simp only [History.length_toList]
    omega

/-- The history is in front of the past, and stays there. -/
theorem prefix_pastAfterAll {m : Machine} (h : m.Held) {past : List Snapshot}
    (hp : m.history.toList <+: past) (operations : List Operation) :
    (m.session operations).history.toList <+: m.pastAfterAll past operations ∧
      (m.session operations).Held ∧ (m.session operations).settings = m.settings := by
  induction operations generalizing m past with
  | nil => exact ⟨hp, h, rfl⟩
  | cons operation rest ih =>
    have hnext : (m.perform operation).machine.history.toList <+: m.pastAfter past operation := by
      rw [toList_perform h]
      exact (List.take_prefix _ _).trans (m.pastAfter_prefix operation hp)
    have := ih (h.perform operation) hnext
    rw [settings_perform] at this
    exact this

/-- **A machine's history is a stack to go back by, cut off at a depth.** After any session
from a new machine it is the front of the past; an operation changes how much is held as
its kind and its success say; and going back succeeds where something is held, leads to
the top of the past with the picture to be shown again, and otherwise changes nothing. -/
theorem session_undo (settings : Settings) (entropy : Random) (operations : List Operation) :
    let m := (new settings entropy).session operations
    let past := (new settings entropy).pastAfterAll [] operations
    m.history.toList <+: past ∧
      (∀ operation, (m.perform operation).machine.history.size =
        m.heldAfter settings.rewindDepth operation) ∧
      (m.rewind.1 = true ↔ m.history.toList ≠ []) ∧
      (m.rewind.1 = true → ∃ s, past.head? = some s ∧
        m.rewind.2 = { m with
          snapshot := {s with redraw := true}
          history := m.rewind.2.history
          halted := false }) ∧
      (m.rewind.1 = false → m.rewind.2 = m) := by
  intro m past
  obtain ⟨hrecent, hheld, hsettings⟩ : m.history.toList <+: past ∧ m.Held ∧
      m.settings = settings :=
    prefix_pastAfterAll (Nat.zero_le _) List.prefix_rfl operations
  refine ⟨hrecent, fun operation => ?_, ?_⟩
  · rw [← hsettings]
    exact size_perform hheld operation
  · rcases m.rewind_cases with ⟨hempty, hr⟩ | ⟨s, rest, hview, hr⟩
    · rw [hr]
      exact ⟨⟨nofun, fun h => absurd hempty h⟩, nofun, fun _ => rfl⟩
    · rw [hr]
      refine ⟨⟨fun _ => by rw [hview]; exact List.cons_ne_nil s _, fun _ => rfl⟩,
        fun _ => ⟨s, ?_, rfl⟩, nofun⟩
      rw [hview] at hrecent
      obtain ⟨older, hpast⟩ := hrecent
      rw [← hpast]
      rfl

end ChipEight.Machine
