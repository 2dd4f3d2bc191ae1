import Mathlib.Data.List.Basic
import Mathlib.Data.List.Induction
import ChipEight.Proofs.Bounds
import ChipEight.Proofs.Faults
import ChipEight.Proofs.Visits

/-! Waiting for a key.

A program that waits for a key looks at the keypad once a cycle. Nothing comes of it until a
cycle sees a key down; the lowest such key is noted, and from then on only that key counts. The
first cycle that sees it up again stores it, and the wait is over. `Gets` says how far a wait
has got by the keypads that its cycles saw, whatever they saw, and `awaited` that this is all
there is to it: until the wait is over every cycle waits, and the machine is what it were if
none of them had been taken, but for the wait and, in the end, for the register. -/
namespace ChipEight

namespace Keypad

theorem lowest?_eq_find? (k : Keypad) : k.lowest? = (List.finRange 16).find? k.isDown :=
  List.head?_filter

theorem lowest?_eq_none {k : Keypad} : k.lowest? = none ↔ ∀ key, k.isDown key = false := by
  simp [lowest?_eq_find?, List.find?_eq_none]

theorem of_lowest? {k : Keypad} {key : Nibble} (h : k.lowest? = some key) :
    k.isDown key = true ∧ ∀ other < key, k.isDown other = false := by
  rw [lowest?_eq_find?, List.find?_eq_some_iff_append] at h
  obtain ⟨hdown, below, above, hall, hbelow⟩ := h
  refine ⟨hdown, fun other hother => ?_⟩
  have hsorted := List.pairwise_lt_finRange 16
  have hmem := List.mem_finRange other
  rw [hall] at hsorted hmem
  rcases List.mem_append.mp hmem with hmem | hmem
  · simpa using hbelow other hmem
  · -- the keys from this one on are not below it
    rcases List.mem_cons.mp hmem with rfl | hmem
    · exact absurd hother (Fin.lt_irrefl _)
    · have habove := (List.pairwise_cons.mp (List.pairwise_append.mp hsorted).2.1).1 other hmem
      exact absurd hother (Fin.lt_asymm habove)

/-- The lowest key that is down is down, and no key below it is. -/
theorem lowest?_eq_some {k : Keypad} {key : Nibble} :
    k.lowest? = some key ↔ k.isDown key = true ∧ ∀ other < key, k.isDown other = false := by
  refine ⟨of_lowest?, fun ⟨hdown, hlowest⟩ => ?_⟩
  cases h : k.lowest? with
  | none => cases hdown.symm.trans (lowest?_eq_none.mp h key)
  | some found =>
    obtain ⟨hfound, hbelow⟩ := of_lowest? h
    rcases Nat.lt_trichotomy found.val key.val with hlt | heq | hgt
    · cases hfound.symm.trans (hlowest found hlt)
    · rw [Fin.ext heq]
    · cases hdown.symm.trans (hbelow key hgt)

end Keypad

/-- How far a wait for a key has got. -/
inductive Stage where
  /-- No key has been down. -/
  | idle
  /-- A key was noted and has been down ever since. -/
  | noted (key : Nibble)
  /-- The key that was noted is up again and was stored. -/
  | stored (key : Nibble)
deriving DecidableEq

/-- How far a wait has got once its cycles saw these keypads, as long as it was not over before the
last of them. -/
inductive Gets : List Keypad → Stage → Prop where
  | idle {before : List Keypad} : (∀ pad ∈ before, ∀ key, pad.isDown key = false) →
      Gets before .idle
  | noted {before after : List Keypad} {pad : Keypad} {key : Nibble} :
      (∀ pad ∈ before, ∀ key, pad.isDown key = false) →
      pad.isDown key = true → (∀ other < key, pad.isDown other = false) →
      (∀ pad ∈ after, pad.isDown key = true) → Gets (before ++ pad :: after) (.noted key)
  | stored {earlier : List Keypad} {pad : Keypad} {key : Nibble} :
      Gets earlier (.noted key) → pad.isDown key = false → Gets (earlier ++ [pad]) (.stored key)

namespace Stage

/-- Whether the wait is over. -/
def ended : Stage → Bool
  | .stored _ => true
  | _ => false

/-- How far it gets by one more cycle. -/
def look (pad : Keypad) : Stage → Stage
  | .idle =>
    match pad.lowest? with
    | none => .idle
    | some key => .noted key
  | .noted key => if pad.isDown key then .noted key else .stored key
  | .stored key => .stored key

end Stage

namespace Gets

/-- A wait that is not over gets further by one look at the keypad. -/
theorem look {seen : List Keypad} {stage : Stage} (h : Gets seen stage)
    (waits : stage.ended = false) (pad : Keypad) : Gets (seen ++ [pad]) (stage.look pad) := by
  cases h with
  | idle hbefore =>
    simp only [Stage.look]
    split
    · rename_i hnone
      exact .idle (List.forall_mem_append.mpr
        ⟨hbefore, List.forall_mem_singleton.mpr (Keypad.lowest?_eq_none.mp hnone)⟩)
    · rename_i key hsome
      obtain ⟨hdown, hlowest⟩ := Keypad.lowest?_eq_some.mp hsome
      exact .noted hbefore hdown hlowest (List.forall_mem_nil _)
  | @noted before after first key hbefore hdown hlowest hafter =>
    simp only [Stage.look]
    split
    · rename_i hstill
      rw [List.append_assoc, List.cons_append]
      exact .noted hbefore hdown hlowest
        (List.forall_mem_append.mpr ⟨hafter, List.forall_mem_singleton.mpr hstill⟩)
    · rename_i hlifted
      exact .stored (.noted hbefore hdown hlowest hafter) (by simpa using hlifted)
  | stored => cases waits

theorem of_nil {stage : Stage} (h : Gets [] stage) : stage = .idle := by
  generalize hall : [] = all at h
  cases h with
  | idle => rfl
  | noted => simp at hall
  | stored => simp at hall

/-- It got where it is by a look at the last keypad it saw, from where it was before. -/
theorem of_concat {seen : List Keypad} {pad : Keypad} {stage : Stage}
    (h : Gets (seen ++ [pad]) stage) :
    ∃ earlier, Gets seen earlier ∧ earlier.ended = false ∧ earlier.look pad = stage := by
  generalize hall : seen ++ [pad] = all at h
  cases h with
  | idle hup =>
    rw [← hall, List.forall_mem_append, List.forall_mem_singleton] at hup
    refine ⟨.idle, .idle hup.1, rfl, ?_⟩
    simp only [Stage.look, Keypad.lowest?_eq_none.mpr hup.2]
  | @noted before after first key hbefore hdown hlowest hafter =>
    rcases List.eq_nil_or_concat' after with rfl | ⟨held, last, rfl⟩
    · obtain ⟨rfl, hlast⟩ := List.append_inj' hall rfl
      cases hlast
      refine ⟨.idle, .idle hbefore, rfl, ?_⟩
      simp only [Stage.look, Keypad.lowest?_eq_some.mpr ⟨hdown, hlowest⟩]
    · rw [← List.cons_append, ← List.append_assoc] at hall
      obtain ⟨rfl, hlast⟩ := List.append_inj' hall rfl
      cases hlast
      rw [List.forall_mem_append, List.forall_mem_singleton] at hafter
      exact ⟨.noted key, .noted hbefore hdown hlowest hafter.1, rfl, if_pos hafter.2⟩
  | @stored earlier last key hnoted hlifted =>
    obtain ⟨rfl, hlast⟩ := List.append_inj' hall rfl
    cases hlast
    exact ⟨.noted key, hnoted, rfl, if_neg (by simp [hlifted])⟩

/-- Whatever the cycles see, the wait gets somewhere by it, or it is over before. -/
theorem somewhere (seen : List Keypad) :
    ∃ early stage, early <+: seen ∧ Gets early stage ∧ (stage.ended = false → early = seen) := by
  induction seen using List.reverseRecOn with
  | nil => exact ⟨[], .idle, List.prefix_rfl, .idle (List.forall_mem_nil _), fun _ => rfl⟩
  | append_singleton seen pad ih =>
    obtain ⟨early, stage, hprefix, hgets, hall⟩ := ih
    cases hended : stage.ended with
    | true =>
      exact ⟨early, stage, hprefix.trans (List.prefix_append _ _), hgets, fun hwaits => by
        rw [hwaits] at hended; cases hended⟩
    | false =>
      obtain rfl := hall hended
      exact ⟨_, _, List.prefix_rfl, hgets.look hended pad, fun _ => rfl⟩

end Gets

/-! ### Machines that wait -/

open Snapshot in
/-- Only one instruction begins to wait for a key, and it has seen none then. -/
theorem execute_keyWait {around : Surroundings} {s t : Snapshot} {d : Devices} {i : Instruction}
    (h : (execute around s d i).1 = .ok t) :
    t.keyWait = s.keyWait ∨ ∃ x, i = .awaitKey x ∧ t.keyWait = some ⟨x, none⟩ := by
  cases i with
  | awaitKey x =>
    cases h
    exact .inr ⟨x, rfl, rfl⟩
  | ret =>
    rw [leave_ok h]
    exact .inl rfl
  | call target =>
    rw [enter_ok h]
    exact .inl rfl
  | skipIfByte | skipUnlessByte | skipIfSame | skipUnlessSame | skipIfKey | skipUnlessKey =>
    cases h
    rw [skipIf_eq]
    exact .inl rfl
  | or | and | xor =>
    cases h
    rw [logic_eq]
    exact .inl rfl
  | draw x y n =>
    obtain ⟨u, hu, rfl⟩ := ok_of_map h
    rw [drawSprite_ok hu]
    exact .inl rfl
  | decimal | store =>
    obtain ⟨u, hu, rfl⟩ := ok_of_map h
    rw [storeAtIndex_ok hu]
    exact .inl rfl
  | load =>
    obtain ⟨u, hu, rfl⟩ := ok_of_map h
    rw [loadRegisters_ok hu]
    exact .inl rfl
  | unknown op =>
    obtain rfl := execute_unknown_ok h
    exact .inl rfl
  | _ => cases h; exact .inl rfl

/-- A snapshot with the wait for a key, which goes to a register, got this far. -/
def Snapshot.atStage (s : Snapshot) (x : Nibble) : Stage → Snapshot
  | .idle => { s with keyWait := some ⟨x, none⟩ }
  | .noted key => { s with keyWait := some ⟨x, some key⟩ }
  | .stored key => { s.setRegister x (UInt8.ofNat key.val) with keyWait := none }

namespace Machine

/-- A machine with the wait for a key got this far. -/
def atStage (m : Machine) (x : Nibble) (stage : Stage) : Machine :=
  { m with snapshot := m.snapshot.atStage x stage }

theorem Tended.keyWait_eq {m m' : Machine} (h : m.Tended m') :
    m'.snapshot.keyWait = m.snapshot.keyWait := by
  obtain ⟨_, _, _, rfl⟩ := h
  rfl

theorem Tended.pc_eq {m m' : Machine} (h : m.Tended m') : m'.snapshot.pc = m.snapshot.pc := by
  obtain ⟨_, _, _, rfl⟩ := h
  rfl

/-- Until the wait is over, a cycle is one look at the keypad. -/
theorem step_atStage (m : Machine) (x : Nibble) {stage : Stage} (waits : stage.ended = false) :
    (m.atStage x stage).step = ⟨.ok .awaitingKey, m.atStage x (stage.look m.keypad), []⟩ := by
  cases stage with
  | idle =>
    rw [(Course.waits (m := m.atStage x .idle) ⟨x, none⟩ rfl).eq_step]
    show (⟨_, match m.keypad.lowest? with | none => _ | some _ => _, _⟩ : Reply Outcome) = _
    simp only [Stage.look]
    cases m.keypad.lowest? <;> rfl
  | noted key =>
    rw [(Course.waits (m := m.atStage x (.noted key)) ⟨x, some key⟩ rfl).eq_step]
    show (⟨_, if m.keypad.isDown key then _ else _, _⟩ : Reply Outcome) = _
    simp only [Stage.look]
    cases m.keypad.isDown key <;> rfl
  | stored => cases waits

/-- What only tends to a machine does not touch the wait. -/
theorem perform_atStage (m : Machine) (x : Nibble) (stage : Stage) {operation : Operation}
    (tends : operation.tends = true) :
    ((m.atStage x stage).perform operation).machine =
      (m.perform operation).machine.atStage x stage := by
  cases operation with
  | load | loadFrom | reset | step | rewind => cases tends
  | takeFrame =>
    show (m.atStage x stage).takeFrame.2 = m.takeFrame.2.atStage x stage
    rw [takeFrame_eq, takeFrame_eq]
    cases stage <;> rfl
  | press | release | setKeypad | setDelay | setSound | tick => cases stage <;> rfl

/-- **A wait gets as far as what its cycles saw says.** Until it is over every cycle waits, and the
machine is what it would be had none of them been taken, but for the wait. -/
theorem session_atStage (m : Machine) (x : Nibble) {operations : List Operation}
    (onward : ∀ operation ∈ operations, operation = .step ∨ operation.tends = true)
    {stage : Stage} (gets : Gets (((m.atStage x .idle).cycles operations).map keypad) stage) :
    (∀ c ∈ (m.atStage x .idle).cycles operations, c.step.result = .ok .awaitingKey) ∧
      (m.atStage x .idle).session operations =
        (m.session (operations.filter Operation.tends)).atStage x stage := by
  induction operations using List.reverseRecOn generalizing stage with
  | nil =>
    obtain rfl := gets.of_nil
    exact ⟨List.forall_mem_nil _, rfl⟩
  | append_singleton before last ih =>
    rw [List.forall_mem_append, List.forall_mem_singleton] at onward
    rw [cycles_append, session_append, List.filter_append, session_append]
    rw [cycles_append, List.map_append] at gets
    rcases onward.2 with rfl | tends
    · -- a cycle looks at the keypad once more
      obtain ⟨earlier, hearlier, waits, rfl⟩ := gets.of_concat
      obtain ⟨hawaiting, hsession⟩ := ih onward.1 hearlier
      have hstep := step_atStage (m.session (before.filter Operation.tends)) x waits
      rw [hsession]
      refine ⟨List.forall_mem_append.mpr ⟨hawaiting, List.forall_mem_singleton.mpr ?_⟩, ?_⟩
      · rw [hstep]
      · show ((m.session (before.filter Operation.tends)).atStage x earlier).step.machine = _
        rw [hstep]
        rfl
    · -- anything else goes on beside the wait
      have hnone (other : Machine) : other.cycles [last] = [] := by
        cases last with
        | step => cases tends
        | _ => rfl
      rw [hnone, List.map_nil, List.append_nil] at gets
      obtain ⟨hawaiting, hsession⟩ := ih onward.1 gets
      rw [hnone, List.append_nil, hsession, List.filter_singleton, tends]
      exact ⟨hawaiting, perform_atStage _ x stage tends⟩

/-- A program that begins to wait has seen no key yet, and is behind the instruction already. -/
theorem atStage_of_began {m : Machine} {x : Nibble}
    (began : m.step.result = .ok (.executed (.awaitKey x))) :
    m.step.machine = m.step.machine.atStage x .idle ∧
      m.step.machine.snapshot.pc.toNat = m.snapshot.pc.toNat + 2 := by
  have course := m.course_step
  generalize m.step = reply at course began ⊢
  cases course with
  | waits | strays | spins | faults => cases began
  | runs op next d fetches _ hrun =>
    have hop : op.decode = .awaitKey x := Outcome.executed.inj (Except.ok.inj began)
    rw [hop] at hrun
    cases hrun
    exact ⟨rfl, fetches.toNat_behind⟩

/-- **A program that waits for a key gets the lowest one that goes down, when it comes up again.** A
cycle begins a wait, and from then on nothing is done but further cycles, keys, timers and taking
the picture. Whatever keypads the cycles see, the wait gets somewhere by them or is over before.
As long as it was not over before the last of them, every one of them waits, and the machine is
what it would be without them (`alone`), but for the wait: it is there, with the key that was
noted if one was, or it is over and the key is in its register. Once it is over, the next cycle
goes on behind the instruction that began it. -/
theorem awaited (m : Machine) (x : Nibble) (operations : List Operation)
    (began : m.step.result = .ok (.executed (.awaitKey x)))
    (onward : ∀ operation ∈ operations, operation = .step ∨ operation.tends = true) :
    let waiting := m.step.machine
    let seen := (waiting.cycles operations).map keypad
    let after := waiting.session operations
    let alone := waiting.session (operations.filter Operation.tends)
    (∃ early stage, early <+: seen ∧ Gets early stage ∧ (stage.ended = false → early = seen)) ∧
      ∀ stage, Gets seen stage →
        (∀ c ∈ waiting.cycles operations, c.step.result = .ok .awaitingKey) ∧
          after = alone.atStage x stage ∧
          (stage.ended = true → ∀ between : List Operation,
            (∀ operation ∈ between, operation.tends = true) →
              let next := after.session between
              next.snapshot.pc.toNat = m.snapshot.pc.toNat + 2 ∧
                next.step =
                  match next.snapshot.memory.opcode next.snapshot.pc with
                  | .error fault => ⟨.error fault, next, []⟩
                  | .ok op => next.dispatch op) := by
  intro waiting seen after alone
  obtain ⟨hwaiting, hpc⟩ := atStage_of_began began
  refine ⟨Gets.somewhere seen, fun stage gets => ?_⟩
  have got : Gets (((waiting.atStage x .idle).cycles operations).map keypad) stage := by
    rw [← hwaiting]
    exact gets
  obtain ⟨hawaiting, hafter⟩ := session_atStage waiting x onward got
  rw [← hwaiting] at hawaiting hafter
  refine ⟨hawaiting, hafter, fun hended between tends => ?_⟩
  intro next
  replace hafter : after = alone.atStage x stage := hafter
  have halone : waiting.Tended alone :=
    waiting.tended_session fun operation h => (List.mem_filter.mp h).2
  have hnext : after.Tended next := after.tended_session tends
  rw [hafter] at hnext
  have hawake : next.snapshot.keyWait = none := by
    rw [hnext.keyWait_eq]
    cases stage with
    | idle | noted => cases hended
    | stored => rfl
  have hplace : next.snapshot.pc = waiting.snapshot.pc := by
    rw [hnext.pc_eq, ← halone.pc_eq]
    cases stage <;> rfl
  refine ⟨by rw [hplace]; exact hpc, ?_⟩
  cases hop : next.snapshot.memory.opcode next.snapshot.pc <;> simp only [step, hawake, hop]

/-- With 9 and 4 down when the wait first sees a key, 4 is noted. That 9 comes up and 2 goes down
meanwhile makes no difference; once 4 is up, it is in register 5. -/
theorem awaited_lowest :
    let m := (new .standard default).session [.load [0xF5, 0x0A, 0x12, 0x00]]
    let operations : List Operation := [.step, .press 9, .press 4, .tick, .step, .release 9, .step,
      .press 2, .step, .release 4, .takeFrame, .step]
    let waiting := m.step.machine
    m.step.result = .ok (.executed (.awaitKey 5)) ∧
      (∀ operation ∈ operations, operation = .step ∨ operation.tends = true) ∧
      Gets ((waiting.cycles operations).map keypad) (.stored 4) ∧
      (waiting.session operations).snapshot.keyWait = none ∧
      (waiting.session operations).snapshot.register 5 = 4 ∧
      (waiting.session operations).snapshot.pc.toNat = 0x202 := by
  intro m operations waiting
  have h : m.step.result = .ok (.executed (.awaitKey 5)) ∧
      (∀ operation ∈ operations, operation = .step ∨ operation.tends = true) ∧
      (waiting.cycles operations).map keypad =
        ([.ofKeys []] ++ .ofKeys [9, 4] :: [.ofKeys [4], .ofKeys [2, 4]]) ++ [.ofKeys [2]] ∧
      m.snapshot.pc.toNat + 2 = 0x202 := by
    decide +kernel
  obtain ⟨began, onward, hseen, hbehind⟩ := h
  have gets : Gets ((waiting.cycles operations).map keypad) (.stored 4) := by
    rw [hseen]
    exact .stored (.noted (by decide) (by decide) (by decide) (by decide)) (by decide)
  obtain ⟨-, hafter, hnext⟩ := (awaited m 5 operations began onward).2 _ gets
  have hplace := (hnext rfl [] (List.forall_mem_nil _)).1
  rw [session_nil] at hplace
  refine ⟨began, onward, gets, ?_, ?_, hplace.trans hbehind⟩
  · rw [hafter]
    rfl
  · rw [hafter]
    exact (Snapshot.register_setRegister _ 5 5 4).trans (if_pos rfl)

end Machine
end ChipEight
