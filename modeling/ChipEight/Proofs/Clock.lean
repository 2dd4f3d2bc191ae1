import ChipEight.Proofs.Faults
import ChipEight.Proofs.Unnoticed

/-! The clock that counts emulated time.

A clock counts whole seconds in 64 bits, and a passage ends by `clockOverflow` where it
would have to count further. That does not happen on the way to a target that lies a
second within the clock's limit: no event is due more than a second after the one before
it, and no other part of a passage ends by that fault. -/
namespace ChipEight

/-! ### Events stay within the clock -/

/-- No cycle is longer than a second. -/
theorem Settings.cycle_le_second (s : Settings) : s.cycle ≤ Span.second := by
  have : 1000000000 / s.rate ≤ 1000000000 := Nat.div_le_self _ _
  simp only [cycle, Span.second]
  omega

namespace Timetable

@[simp] theorem cycle_advance (t : Timetable) : t.advance.cycle = t.cycle := by
  simp only [advance]
  split <;> rfl

/-- A clock can count to the next time of an event that is due a second before its limit. -/
theorem advance?_eq_some {t : Timetable} {target : Nat} (due : t.dueAt < target)
    (cycle : t.cycle ≤ Span.second) (fits : target + Span.second < Span.limit) :
    t.advance? = some t.advance := by
  have period : Timers.period ≤ Span.second := by decide
  simp only [dueAt] at due
  by_cases h : t.tickIsNext = true
  · simp only [if_pos h] at due
    simp only [advance?, advance, if_pos h, Span.add?]
    rw [if_pos (by omega), Option.map_some]
  · simp only [if_neg h] at due
    simp only [advance?, advance, if_neg h, Span.add?]
    rw [if_pos (by omega), Option.map_some]

end Timetable

/-! ### Faults of other kinds -/

/-- Whether a fault is of the kinds that an instruction can end by. -/
def Fault.ofInstruction : Fault → Bool
  | .outOfBounds _ | .stack _ _ | .unknownOpcode _ _ => true
  | _ => false

theorem ofInstruction_of_blockFault {address : UInt16} {length : Nat} {fault : Fault}
    (h : Memory.blockFault? address length = some fault) : fault.ofInstruction = true := by
  obtain ⟨-, rfl⟩ := Memory.blockFault?_eq_some.mp h
  rfl

theorem opcode_error {m : Memory} {address : UInt16} {fault : Fault}
    (h : m.opcode address = .error fault) : fault.ofInstruction = true := by
  apply ofInstruction_of_blockFault
  rw [← m.faultOf_opcode address, h, faultOf]

theorem execute_error {around : Surroundings} {s : Snapshot} {d : Devices} {i : Instruction}
    {fault : Fault} (h : (execute around s d i).1 = .error fault) :
    fault.ofInstruction = true := by
  have hfault := fault?_of_error h
  cases i with
  | draw | decimal | store | load => exact ofInstruction_of_blockFault hfault
  | ret | call | unknown =>
    simp only [Snapshot.fault?] at hfault
    split at hfault <;> cases hfault
    rfl
  | _ => cases hfault

/-- A cycle ends by no other fault than an instruction does. -/
theorem Machine.step_error {m : Machine} {fault : Fault} (h : m.step.result = .error fault) :
    fault.ofInstruction = true := by
  have course := m.course_step
  generalize m.step = reply at course h
  cases course with
  | waits | spins | runs => cases h
  | strays _ _ hopcode => cases h; exact opcode_error hopcode
  | faults op _ _ _ hrun => cases h; exact execute_error (by rw [hrun])

namespace Console

variable {D I A : Type} [Display D] [Audio A]

omit [Display D] in
theorem updateTone_error {c : Console D I A} {fault : Fault}
    (h : c.updateTone.1 = .error fault) : fault ≠ .clockOverflow := by
  simp only [updateTone] at h
  split at h
  · cases h
  · split at h <;> cases h
    intro hclock
    cases hclock

omit [Audio A] in
theorem showFrame_error {c : Console D I A} {fault : Fault}
    (h : c.showFrame.1 = .error fault) : fault ≠ .clockOverflow := by
  simp only [showFrame, present] at h
  split at h
  · cases h
  · rename_i picture machine _
    generalize (Display.present picture c.display).result = result at h
    cases result <;> cases h
    intro hclock
    cases hclock

theorem perform_error {c : Console D I A} {event : Event} {fault : Fault}
    (h : (c.perform event).1 = .error fault) : fault ≠ .clockOverflow := by
  cases event with
  | tick =>
    simp only [perform] at h
    split at h <;> cases h
    exact updateTone_error (by rw [‹updateTone _ = _›])
  | step =>
    simp only [perform] at h
    split at h
    · cases h
      rintro rfl
      cases Machine.step_error ‹_›
    · cases h
    · cases h
    · split at h <;> cases h
      rename_i hsettle
      simp only [settle] at hsettle
      split at hsettle
      · cases hsettle
        exact updateTone_error (by rw [‹updateTone _ = _›])
      · exact showFrame_error (by rw [hsettle])

/-- **No passage outruns the clock** on the way to a target a second within its limit. -/
theorem advanceTo_within_clock {target : Nat} {t : Timetable} {c : Console D I A} {p : Progress}
    (cycle : t.cycle ≤ Span.second) (fits : target + Span.second < Span.limit) :
    (advanceTo target t c p).1 ≠ .error .clockOverflow := by
  fun_induction advanceTo target t c p with
  | case1 t c p due hnone => rw [Timetable.advance?_eq_some due cycle fits] at hnone; cases hnone
  | case2 t c p due t' ht fault c' hperform =>
    intro h
    cases h
    exact perform_error (by rw [hperform]) rfl
  | case3 =>
    intro h
    cases h
  | case4 t c p due t' ht beat c' hperform goesOn ih =>
    apply ih
    rw [Timetable.eq_advance_of_advance? ht, Timetable.cycle_advance]
    exact cycle
  | case5 =>
    intro h
    cases h

theorem advance_within_clock {span : Nat} {c : Console D I A}
    (cycle : c.timetable.cycle ≤ Span.second)
    (fits : c.elapsed + span + Span.second < Span.limit) :
    (c.advance span).1 ≠ .error .clockOverflow := by
  have hadd : Span.add? c.elapsed span = some (c.elapsed + span) := if_pos (by omega)
  have hto := advanceTo_within_clock (c := c) (p := .none) cycle fits
  simp only [advance, hadd]
  split
  · rename_i hfault
    rw [hfault] at hto
    exact hto
  · split
    · rename_i hupdate
      intro h
      cases h
      exact updateTone_error (by rw [hupdate]) rfl
    · intro h
      cases h

end Console
end ChipEight
