import Mathlib.Data.List.Forall2
import ChipEight.Proofs.Twins
import ChipEight.Proofs.Waiting

/-! What input makes no difference to.

Keys and timers are a machine's input, and few instructions listen to it: the two skips on a key,
the one that waits for a key, and the one that reads the delay timer. Machines are *akin* if they
differ in their keypads and timers at most, and akin machines stay akin as long as nothing listens.
`session_unheard` says so for any two sessions of equally many cycles, with whatever input in
between: cycle by cycle they come to the same. -/
namespace ChipEight

/-- Whether an operation is input: a change of the keypad or of the timers. -/
def Operation.isInput : Operation → Bool
  | .press _ | .release _ | .setKeypad _ | .setDelay _ | .setSound _ | .tick => true
  | _ => false

/-- Whether an instruction listens to input. -/
def Instruction.listens : Instruction → Bool
  | .skipIfKey _ | .skipUnlessKey _ | .awaitKey _ | .readDelay _ => true
  | _ => false

namespace Machine

/-- The machines differ in their keypads and timers at most. -/
def Akin (m other : Machine) : Prop := ∃ keypad timers, other = { m with keypad, timers }

theorem Akin.refl (m : Machine) : m.Akin m := ⟨m.keypad, m.timers, rfl⟩

theorem Akin.symm {m other : Machine} (h : m.Akin other) : other.Akin m := by
  obtain ⟨_, _, rfl⟩ := h
  exact ⟨m.keypad, m.timers, rfl⟩

theorem Akin.trans {m other third : Machine} (h : m.Akin other) (k : other.Akin third) :
    m.Akin third := by
  obtain ⟨_, _, rfl⟩ := h
  obtain ⟨keypad, timers, rfl⟩ := k
  exact ⟨keypad, timers, rfl⟩

/-! ### Input -/

theorem akin_perform (m : Machine) {operation : Operation} (input : operation.isInput = true) :
    m.Akin (m.perform operation).machine := by
  cases operation with
  | load | loadFrom | reset | step | rewind | takeFrame => cases input
  | press | release | setKeypad | setDelay | setSound | tick => exact ⟨_, _, rfl⟩

theorem cycles_input (m : Machine) {operation : Operation} (input : operation.isInput = true)
    (rest : List Operation) :
    m.cycles (operation :: rest) = (m.perform operation).machine.cycles rest := by
  cases operation with
  | step => cases input
  | _ => rfl

/-- Input alone takes no cycle and leads to a machine that is akin. -/
theorem akin_session (m : Machine) {operations : List Operation}
    (inputs : ∀ operation ∈ operations, operation.isInput = true) :
    m.cycles operations = [] ∧ m.Akin (m.session operations) := by
  induction operations generalizing m with
  | nil => exact ⟨rfl, .refl m⟩
  | cons operation rest ih =>
    obtain ⟨hfirst, hrest⟩ := List.forall_mem_cons.mp inputs
    obtain ⟨hcycles, hakin⟩ := ih (m.perform operation).machine hrest
    exact ⟨(m.cycles_input hfirst rest).trans hcycles, (m.akin_perform hfirst).trans hakin⟩

/-! ### Cycles -/

/-- Two machines take the same cycle: they are akin, the cycle comes to the same and says the same,
and they are akin after it. -/
structure SameCycle (m other : Machine) : Prop where
  before : m.Akin other
  result : other.step.result = m.step.result
  records : other.step.records = m.step.records
  after : m.step.machine.Akin other.step.machine

/-- An instruction that does not listen does not look at the keypad or the delay timer. -/
theorem same_of_deaf {m : Machine} {i : Instruction} (deaf : i.listens = false) (keypad : Keypad)
    (timers : Timers) {influence : Influence} (looks : i.influence? = some influence) :
    influence.Same m.surroundings m.devices (m.amid keypad timers m.settings).surroundings
      (m.amid keypad timers m.settings).devices := by
  cases influence with
  | keypad | delay =>
    cases i with
    | skipIfKey | skipUnlessKey | readDelay => cases deaf
    | shiftRight | shiftLeft | jumpPlus =>
      simp only [Instruction.influence?] at looks
      split at looks <;> cases looks
    | _ => cases looks
  | _ => rfl

/-- Akin machines take the same cycle if it does not listen. -/
theorem sameCycle_of_akin {m other : Machine} (akin : m.Akin other)
    (awake : m.snapshot.keyWait = none)
    (deaf : ∀ i, m.step.result = .ok (.executed i) → i.listens = false) :
    m.SameCycle other := by
  obtain ⟨keypad, timers, rfl⟩ := akin
  have htwin : (m.amid keypad timers m.settings).step = _ :=
    m.step_amid rfl (.inl awake) fun op fetches hmoves =>
      alike_amid keypad timers m.settings rfl
        (fun i _ ran => same_of_deaf (deaf i ran) keypad timers) fetches hmoves
  show m.SameCycle (m.amid keypad timers m.settings)
  refine ⟨⟨keypad, timers, rfl⟩, ?_, ?_, keypad, m.timersAfter timers, ?_⟩
  · rw [htwin]
  · rw [htwin]
  · rw [htwin, amid, ← m.step_fixed.1]

/-- A program that does not wait for a key does not begin to unless it listens. -/
theorem awake_step {m : Machine} (awake : m.snapshot.keyWait = none)
    (deaf : ∀ i, m.step.result = .ok (.executed i) → i.listens = false) :
    m.step.machine.snapshot.keyWait = none := by
  have course := m.course_step
  generalize m.step = reply at course deaf ⊢
  cases course with
  | waits wait hwait =>
    rw [awake] at hwait
    cases hwait
  | strays | spins | faults => exact awake
  | runs op next d _ _ hrun =>
    rcases execute_keyWait (congrArg Prod.fst hrun) with hkept | ⟨x, hop, -⟩
    · exact hkept.trans awake
    · have hlistens := deaf _ rfl
      rw [hop] at hlistens
      cases hlistens

/-! ### Sessions -/

/-- A session up to its first cycle: input, which leads to an akin machine, and that cycle. -/
theorem exists_first_cycle (m : Machine) {operations : List Operation}
    (fed : ∀ operation ∈ operations, operation = .step ∨ operation.isInput = true)
    (some_step : .step ∈ operations) :
    ∃ first rest, operations = first ++ .step :: rest ∧ first.count .step = 0 ∧
      m.cycles first = [] ∧ m.Akin (m.session first) := by
  obtain ⟨first, rest, rfl, hnone⟩ := List.eq_append_cons_of_mem some_step
  have hinputs : ∀ operation ∈ first, operation.isInput = true := by
    intro operation hmem
    refine (fed operation (List.mem_append_left _ hmem)).resolve_left ?_
    rintro rfl
    exact hnone hmem
  obtain ⟨hcycles, hakin⟩ := m.akin_session hinputs
  exact ⟨first, rest, rfl, List.count_eq_zero.mpr hnone, hcycles, hakin⟩

/-- From akin machines, whatever the input. -/
theorem sameCycles_of_akin {m other : Machine} (akin : m.Akin other)
    (awake : m.snapshot.keyWait = none) {operations operations' : List Operation}
    (fed : ∀ operation ∈ operations, operation = .step ∨ operation.isInput = true)
    (fed' : ∀ operation ∈ operations', operation = .step ∨ operation.isInput = true)
    (even : operations.count .step = operations'.count .step)
    (deaf : ∀ c ∈ m.cycles operations, ∀ i, c.step.result = .ok (.executed i) →
      i.listens = false) :
    List.Forall₂ SameCycle (m.cycles operations) (other.cycles operations') ∧
      (m.session operations).Akin (other.session operations') := by
  induction operations generalizing m other operations' with
  | nil =>
    have hinputs : ∀ operation ∈ operations', operation.isInput = true := by
      intro operation hmem
      refine (fed' operation hmem).resolve_left ?_
      rintro rfl
      exact List.count_eq_zero.mp even.symm hmem
    obtain ⟨hcycles, hakin⟩ := other.akin_session hinputs
    rw [hcycles]
    exact ⟨.nil, akin.trans hakin⟩
  | cons operation rest ih =>
    obtain ⟨hfirst, hrest⟩ := List.forall_mem_cons.mp fed
    obtain rfl | input := hfirst
    · -- the other session has a cycle left too, behind some input at most
      have hsome : .step ∈ operations' := by
        rw [← List.count_pos_iff, ← even, List.count_cons_self]
        exact Nat.succ_pos _
      obtain ⟨before, rest', rfl, hcount, hcycles, hakin⟩ :=
        other.exists_first_cycle fed' hsome
      have hdeaf := deaf m (List.mem_cons_self ..)
      have same := sameCycle_of_akin (akin.trans hakin) awake hdeaf
      have heven : rest.count .step = rest'.count .step := by
        simp only [List.count_append, List.count_cons_self, hcount] at even
        omega
      have hrest' : ∀ operation ∈ rest', operation = .step ∨ operation.isInput = true :=
        fun operation hmem =>
          fed' operation (List.mem_append_right _ (List.mem_cons_of_mem _ hmem))
      obtain ⟨hsames, hend⟩ := ih same.after (awake_step awake hdeaf) hrest hrest' heven
        fun c hc => deaf c (List.mem_cons_of_mem m hc)
      rw [cycles_append, hcycles, session_append]
      exact ⟨.cons same hsames, hend⟩
    · rw [cycles_input m input] at deaf ⊢
      obtain ⟨keypad, timers, hfed⟩ := m.akin_perform input
      refine ih (((m.akin_perform input).symm).trans akin) ?_ hrest fed' ?_ deaf
      · rw [hfed]
        exact awake
      · rw [← even, List.count_cons_of_ne]
        rintro rfl
        cases input

/-- **Input that is not listened to makes no difference.** Of two sessions of a machine that waits
for no key, both made of cycles and input and with equally many cycles, let no cycle of the first
run an instruction that listens. Then cycle by cycle both sessions come to the same, faults
included, say the same, and are in the same state before and after, with the same history and the
same random stream, whatever has become of the keypads and the timers. -/
theorem session_unheard (m : Machine) (awake : m.snapshot.keyWait = none)
    (operations operations' : List Operation)
    (fed : ∀ operation ∈ operations, operation = .step ∨ operation.isInput = true)
    (fed' : ∀ operation ∈ operations', operation = .step ∨ operation.isInput = true)
    (even : operations.count .step = operations'.count .step)
    (deaf : ∀ c ∈ m.cycles operations, ∀ i, c.step.result = .ok (.executed i) →
      i.listens = false) :
    List.Forall₂ SameCycle (m.cycles operations) (m.cycles operations') ∧
      (m.session operations).Akin (m.session operations') :=
  sameCycles_of_akin (.refl m) awake fed fed' even deaf

/-- A program that draws from the random stream, loads the delay timer, draws a sprite and then
returns from no subroutine, over and over. In the one session a key goes down and the timers tick
once, in the other they are loaded and tick at other times. -/
theorem session_unheard_fault :
    let m := (new { Settings.standard with seed := some 7 } default).session
      [.load [0xC0, 0xFF, 0xF0, 0x15, 0xD0, 0x05, 0x00, 0xEE]]
    let operations : List Operation :=
      [.step, .press 3, .step, .tick, .step, .step, .release 3, .step]
    let operations' : List Operation :=
      [.setKeypad (.press .released 9), .setDelay 200, .step, .step, .step, .tick, .tick, .step,
        .setSound 4, .step, .setDelay 1]
    m.snapshot.keyWait = none ∧
      (∀ operation ∈ operations, operation = .step ∨ operation.isInput = true) ∧
      (∀ operation ∈ operations', operation = .step ∨ operation.isInput = true) ∧
      operations.count .step = operations'.count .step ∧
      (∀ c ∈ m.cycles operations, ∀ i, c.step.result = .ok (.executed i) →
        i.listens = false) ∧
      (m.cycles operations).map (fun c => c.step.result) =
        [.ok (.executed (.random 0 0xFF)), .ok (.executed (.setDelay 0)),
          .ok (.executed (.draw 0 0 5)), .error (.stack .underflow 0x206),
          .error (.stack .underflow 0x206)] ∧
      List.Forall₂ SameCycle (m.cycles operations) (m.cycles operations') ∧
      (m.session operations).Akin (m.session operations') := by
  intro m operations operations'
  obtain ⟨awake, hresults⟩ : m.snapshot.keyWait = none ∧
      (m.cycles operations).map (fun c => c.step.result) =
        [.ok (.executed (.random 0 0xFF)), .ok (.executed (.setDelay 0)),
          .ok (.executed (.draw 0 0 5)), .error (.stack .underflow 0x206),
          .error (.stack .underflow 0x206)] := by
    decide +kernel
  have fed : ∀ operation ∈ operations, operation = .step ∨ operation.isInput = true := by
    decide
  have fed' : ∀ operation ∈ operations', operation = .step ∨ operation.isInput = true := by
    decide
  have even : operations.count .step = operations'.count .step := by decide
  have deaf : ∀ c ∈ m.cycles operations, ∀ i, c.step.result = .ok (.executed i) →
      i.listens = false := by
    intro c hc i ran
    have hmem := List.mem_map_of_mem (f := fun c => c.step.result) hc
    rw [hresults, ran] at hmem
    simp only [List.mem_cons, Except.ok.injEq, Outcome.executed.injEq, reduceCtorEq,
      List.not_mem_nil, or_false] at hmem
    rcases hmem with rfl | rfl | rfl <;> rfl
  obtain ⟨hsame, hend⟩ := session_unheard m awake operations operations' fed fed' even deaf
  exact ⟨awake, fed, fed', even, deaf, hresults, hsame, hend⟩

end Machine
end ChipEight
