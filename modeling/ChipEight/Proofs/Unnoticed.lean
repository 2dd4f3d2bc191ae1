import ChipEight.Proofs.Passage

/-! What a passage of time does not notice.

`advanceTo` looks at a console's machine, its tone and its timetable, and calls its
peripherals. A change to anything else goes unnoticed: the same happens, the passage comes
to the same result, and it leads where it would have led, changed in the same way.
`Unnoticed` says what a change owes for that, and `Unnoticed.advanceTo` and
`Unnoticed.happenings` are proved once for all of them. One such change is the time that
has passed; another is who else is listening. -/
namespace ChipEight.Console

variable {D I A D' I' A' : Type} [Display D] [Audio A] [Display D'] [Audio A']

/-! ### The turns of the loop -/

section Turns

variable {target : Nat} {t t' : Timetable} {c c' : Console D I A} {p : Progress}

theorem advanceTo_of_le (h : target ≤ t.dueAt) : advanceTo target t c p = (.ok p, c) := by
  rw [advanceTo, dif_neg (Nat.not_lt.mpr h)]

theorem advanceTo_overflow (due : t.dueAt < target) (h : t.advance? = none) :
    advanceTo target t c p = (.error .clockOverflow, c) := by
  rw [advanceTo, dif_pos due]
  split
  · rfl
  · simp_all

theorem advanceTo_error {fault : Fault} (due : t.dueAt < target) (ht : t.advance? = some t')
    (h : { c with timetable := t' }.perform t.next = (.error fault, c')) :
    advanceTo target t c p = (.error fault, c') := by
  rw [advanceTo, dif_pos due]
  split <;> simp_all

theorem advanceTo_stop {beat : Beat} (due : t.dueAt < target) (ht : t.advance? = some t')
    (h : { c with timetable := t' }.perform t.next = (.ok beat, c'))
    (stops : c'.stopsAfter beat = true) :
    advanceTo target t c p = (.ok (p.count beat), c') := by
  rw [advanceTo, dif_pos due]
  split <;> simp_all

theorem advanceTo_next {beat : Beat} (due : t.dueAt < target) (ht : t.advance? = some t')
    (h : { c with timetable := t' }.perform t.next = (.ok beat, c'))
    (goesOn : c'.stopsAfter beat = false) :
    advanceTo target t c p = advanceTo target t' c' (p.count beat) := by
  rw [advanceTo, dif_pos due]
  split <;> simp_all

theorem happenings_of_le (h : target ≤ t.dueAt) : happenings target t c = [] := by
  rw [happenings, dif_neg (Nat.not_lt.mpr h)]

theorem happenings_overflow (due : t.dueAt < target) (h : t.advance? = none) :
    happenings target t c = [] := by
  rw [happenings, dif_pos due]
  split
  · rfl
  · simp_all

theorem happenings_error {fault : Fault} (due : t.dueAt < target) (ht : t.advance? = some t')
    (h : { c with timetable := t' }.perform t.next = (.error fault, c')) :
    happenings target t c = [⟨t.dueAt, t.next, .error fault⟩] := by
  rw [happenings, dif_pos due]
  split <;> simp_all

theorem happenings_stop {beat : Beat} (due : t.dueAt < target) (ht : t.advance? = some t')
    (h : { c with timetable := t' }.perform t.next = (.ok beat, c'))
    (stops : c'.stopsAfter beat = true) :
    happenings target t c = [⟨t.dueAt, t.next, .ok beat⟩] := by
  rw [happenings, dif_pos due]
  split <;> simp_all

theorem happenings_next {beat : Beat} (due : t.dueAt < target) (ht : t.advance? = some t')
    (h : { c with timetable := t' }.perform t.next = (.ok beat, c'))
    (goesOn : c'.stopsAfter beat = false) :
    happenings target t c = ⟨t.dueAt, t.next, .ok beat⟩ :: happenings target t' c' := by
  rw [happenings, dif_pos due]
  split <;> simp_all

theorem advance_overflow {span : Nat} (h : Span.add? c.elapsed span = none) :
    c.advance span = (.error .clockOverflow, c) := by
  simp only [advance, h]

theorem advance_of_add? {span : Nat} (h : Span.add? c.elapsed span = some target) :
    c.advance span =
      match advanceTo target c.timetable c .none with
      | (.error fault, c') => (.error fault, c')
      | (.ok progress, c') =>
        match { c' with elapsed := target }.updateTone with
        | (.error fault, c') => (.error fault, c')
        | (.ok (), c') => (.ok progress, c') := by
  rw [advance]
  split <;> rename_i hadd <;> cases h.symm.trans hadd
  rfl

end Turns

/-! ### Calls of the buzzer -/

/-- Turn the buzzer one of the two ways. -/
def tell (on : Bool) (c : Console D I A) : Except Fault Unit × Console D I A :=
  let response := Audio.setTone on c.audio
  (response.result.mapError .peripheral,
    { c with audio := response.peripheral }.note response.records)

omit [Display D] in
theorem updateTone_of_tone {c : Console D I A} (h : c.machine.timers.tone = c.tone) :
    c.updateTone = (.ok (), c) := by
  rw [updateTone, if_pos h]

omit [Display D] in
/-- A tone that changes is told, and once that is done it is what the buzzer was last told. -/
theorem updateTone_of_change {c : Console D I A} (h : c.machine.timers.tone ≠ c.tone) :
    c.updateTone =
      match c.tell c.machine.timers.tone with
      | (.error fault, c') => (.error fault, c')
      | (.ok (), c') => (.ok (), { c' with tone := c.machine.timers.tone }) := by
  simp only [updateTone, if_neg h, tell]
  cases (Audio.setTone c.machine.timers.tone c.audio).result <;> rfl

/-! ### Changes that go unnoticed -/

/-- A change to a console that no event notices. -/
structure Unnoticed (f : Console D I A → Console D' I' A') : Prop where
  machine : ∀ c, (f c).machine = c.machine
  tone : ∀ c, (f c).tone = c.tone
  setMachine : ∀ c m, f { c with machine := m } = { f c with machine := m }
  setTimetable : ∀ c t, f { c with timetable := t } = { f c with timetable := t }
  setTone : ∀ c on, f { c with tone := on } = { f c with tone := on }
  note : ∀ c records, f (c.note records) = (f c).note records
  present : ∀ c picture, (f c).present picture = (c.present picture).map id f
  tell : ∀ c on, (f c).tell on = (c.tell on).map id f

namespace Unnoticed

variable {f : Console D I A → Console D' I' A'} (h : Unnoticed f)
include h

theorem updateTone (c : Console D I A) : (f c).updateTone = c.updateTone.map id f := by
  by_cases hc : c.machine.timers.tone = c.tone
  · rw [updateTone_of_tone hc, updateTone_of_tone (by rw [h.machine, h.tone, hc])]
    rfl
  · rw [updateTone_of_change hc, updateTone_of_change (by rw [h.machine, h.tone]; exact hc),
      h.machine, h.tell]
    generalize c.tell c.machine.timers.tone = reply
    rcases reply with ⟨_ | _, c'⟩
    · rfl
    · exact congrArg (Prod.mk _) (h.setTone c' _).symm

theorem showFrame (c : Console D I A) : (f c).showFrame = c.showFrame.map id f := by
  simp only [Console.showFrame, h.machine]
  split
  · rfl
  · rw [← h.setMachine, h.present]

theorem settle (c : Console D I A) : (f c).settle = c.settle.map id f := by
  simp only [Console.settle, h.updateTone]
  rcases c.updateTone with ⟨_ | _, c⟩
  · rfl
  · exact h.showFrame c

theorem perform (c : Console D I A) (event : Event) :
    (f c).perform event = (c.perform event).map id f := by
  cases event with
  | tick =>
    simp only [Console.perform, h.machine, ← h.setMachine, h.updateTone]
    generalize { c with machine := c.machine.tickBy 1 }.updateTone = reply
    rcases reply with ⟨_ | _, c⟩ <;> rfl
  | step =>
    simp only [Console.perform, h.machine, ← h.setMachine, ← h.note]
    split
    · rfl
    · rfl
    · rfl
    · rw [h.settle]
      generalize ({ c with machine := c.machine.step.machine }.note c.machine.step.records).settle =
        reply
      rcases reply with ⟨_ | _, c⟩ <;> rfl

theorem perform_at (t : Timetable) (c : Console D I A) (event : Event) :
    { f c with timetable := t }.perform event =
      ({ c with timetable := t }.perform event).map id f := by
  rw [← h.setTimetable, h.perform]

theorem stopsAfter (c : Console D I A) (beat : Beat) :
    (f c).stopsAfter beat = c.stopsAfter beat := by
  rw [Console.stopsAfter, Console.stopsAfter, h.machine]

/-- **A passage does not notice.** -/
theorem advanceTo (target : Nat) (t : Timetable) (c : Console D I A) (p : Progress) :
    Console.advanceTo target t (f c) p = (Console.advanceTo target t c p).map id f := by
  fun_induction Console.advanceTo target t c p with
  | case1 t c p due hnone => exact advanceTo_overflow due hnone
  | case2 t c p due t' ht fault c' hperform =>
    exact advanceTo_error due ht (by rw [h.perform_at, hperform]; rfl)
  | case3 t c p due t' ht beat c' hperform stops =>
    exact advanceTo_stop due ht (by rw [h.perform_at, hperform]; rfl) (by rw [h.stopsAfter, stops])
  | case4 t c p due t' ht beat c' hperform goesOn ih =>
    rw [advanceTo_next due ht (by rw [h.perform_at, hperform]; rfl)
      (by rw [h.stopsAfter]; simpa using goesOn), ih]
  | case5 t c p due => exact advanceTo_of_le (Nat.le_of_not_lt due)

/-- What happens is not another. -/
theorem happenings (target : Nat) (t : Timetable) (c : Console D I A) :
    Console.happenings target t (f c) = Console.happenings target t c := by
  fun_induction Console.happenings target t c with
  | case1 t c due hnone => exact happenings_overflow due hnone
  | case2 t c due t' ht fault c' hperform =>
    exact happenings_error due ht (by rw [h.perform_at, hperform]; rfl)
  | case3 t c due t' ht beat c' hperform ih =>
    have hperform' : { f c with timetable := t' }.perform t.next = (.ok beat, f c') := by
      rw [h.perform_at, hperform]
      rfl
    by_cases stops : c'.stopsAfter beat = true
    · rw [happenings_stop due ht hperform' (by rw [h.stopsAfter, stops]), if_pos stops]
    · rw [happenings_next due ht hperform' (by rw [h.stopsAfter]; simpa using stops), ih,
        if_neg stops]
  | case4 t c due => exact happenings_of_le (Nat.le_of_not_lt due)

end Unnoticed

/-- No event notices how much time has passed. -/
theorem unnoticed_elapsed (elapsed : Nat) :
    Unnoticed fun c : Console D I A => { c with elapsed } where
  machine _ := rfl
  tone _ := rfl
  setMachine _ _ := rfl
  setTimetable _ _ := rfl
  setTone _ _ := rfl
  note _ _ := rfl
  present _ _ := rfl
  tell _ _ := rfl

end ChipEight.Console
