import ChipEight.Proofs.Unnoticed

/-! The tone a console last told.

A console remembers what it last told its buzzer. `InTune` says that this is what the
sound timer asks for. Every event that succeeds keeps it: a tick and an instruction that
ran are followed by an update of the tone, and no other cycle touches the timers. -/
namespace ChipEight

/-- A cycle that ran no instruction leaves the timers alone. -/
theorem Machine.timers_step_of_idle {m : Machine} (h : ∀ i, m.step.result ≠ .ok (.executed i)) :
    m.step.machine.timers = m.timers := by
  have course := m.course_step
  generalize m.step = reply at course h ⊢
  cases course with
  | waits wait _ =>
    obtain ⟨registers, keyWait, hwatched⟩ := m.watchKeypad_eq wait
    rw [hwatched]
  | strays | spins | faults => rfl
  | runs op next d => exact absurd rfl (h op.decode)

namespace Console

variable {D I A : Type} [Display D] [Audio A]

/-- A console whose buzzer was last told what the sound timer asks for. -/
def InTune (c : Console D I A) : Prop := c.machine.timers.tone = c.tone

omit [Display D] in
/-- An update of the tone leads into tune. -/
theorem inTune_updateTone {c c' : Console D I A} (h : c.updateTone = (.ok (), c')) :
    c'.InTune := by
  by_cases hc : c.machine.timers.tone = c.tone
  · rw [updateTone_of_tone hc] at h
    cases h
    exact hc
  · have hmachine : c'.machine = c.machine := by
      have heq := c.updateTone_eq
      rw [h] at heq
      rw [show c' = _ from heq]
    rw [updateTone_of_change hc] at h
    split at h <;> cases h
    exact congrArg (fun m : Machine => m.timers.tone) hmachine

omit [Audio A] in
/-- Showing the picture changes neither the timers nor the tone. -/
theorem InTune.showFrame {c : Console D I A} (h : c.InTune) : c.showFrame.2.InTune := by
  rw [showFrame_eq, Machine.takeFrame_eq]
  exact h

theorem inTune_settle {c c' : Console D I A} (h : c.settle = (.ok (), c')) : c'.InTune := by
  simp only [settle] at h
  split at h
  · cases h
  · rename_i middle hupdate
    have hshown := (inTune_updateTone hupdate).showFrame
    rw [h] at hshown
    exact hshown

/-- **Every event that succeeds keeps a console in tune.** -/
theorem InTune.perform {c c' : Console D I A} {event : Event} {beat : Beat} (hc : c.InTune)
    (h : c.perform event = (.ok beat, c')) : c'.InTune := by
  cases event with
  | tick =>
    simp only [Console.perform] at h
    split at h <;> cases h
    exact inTune_updateTone ‹_›
  | step =>
    have idle (hidle : ∀ i, c.machine.step.result ≠ .ok (.executed i)) :
        ({ c with machine := c.machine.step.machine }.note c.machine.step.records).InTune := by
      show c.machine.step.machine.timers.tone = c.tone
      rw [Machine.timers_step_of_idle hidle]
      exact hc
    simp only [Console.perform] at h
    split at h
    · cases h
    · rename_i hresult
      cases h
      exact idle fun i hi => by cases hresult.symm.trans hi
    · rename_i hresult
      cases h
      exact idle fun i hi => by cases hresult.symm.trans hi
    · split at h <;> cases h
      exact inTune_settle ‹_›

theorem InTune.advanceTo {target : Nat} {t : Timetable} {c c' : Console D I A} {p q : Progress}
    (hc : c.InTune) (h : Console.advanceTo target t c p = (.ok q, c')) : c'.InTune := by
  fun_induction Console.advanceTo target t c p with
  | case1 => cases h
  | case2 => cases h
  | case3 t c p due t' ht beat c₁ hperform =>
    cases h
    exact InTune.perform (c := { c with timetable := t' }) hc hperform
  | case4 t c p due t' ht beat c₁ hperform goesOn ih =>
    exact ih (InTune.perform (c := { c with timetable := t' }) hc hperform) h
  | case5 =>
    cases h
    exact hc

/-- A span that passes ends in tune. -/
theorem inTune_advance {span : Nat} {c c' : Console D I A} {p : Progress}
    (h : c.advance span = (.ok p, c')) : c'.InTune := by
  simp only [Console.advance] at h
  split at h
  · cases h
  · split at h
    · cases h
    · split at h <;> cases h
      exact inTune_updateTone ‹_›

end Console
end ChipEight
