import ChipEight.Console.Faulty
import ChipEight.Proofs.Clock
import ChipEight.Proofs.Recording
import ChipEight.Proofs.Tone

/-! Slices of time.

A passage may be cut anywhere. `advanceTo_cut` says so of the events on the way to a
target: first those before the cut, then the rest, with nothing in between. A slice of
`advance` ends by one more update of the tone and by setting the time that has passed. In a
console in tune the first does nothing (`InTune.advanceTo`), and no event notices the
second (`unnoticed_elapsed`), so slices one after the other take the same course as one
span of the same length, `advanceAll_sliced`, whatever fails on the way. -/
namespace ChipEight

namespace Console

variable {D I A : Type}

/-! ### Ways that cannot be told apart -/

/-- Two ways through one stretch of time that cannot be told apart, but by how much of it has
passed when it ended early by a fault. -/
inductive SameCourse :
    Except Fault Progress × Console D I A → Except Fault Progress × Console D I A → Prop where
  | passes (p : Progress) (c : Console D I A) : SameCourse (.ok p, c) (.ok p, c)
  | fails (fault : Fault) (c : Console D I A) (elapsed : Nat) :
      SameCourse (.error fault, { c with elapsed }) (.error fault, c)

namespace SameCourse

theorem refl (x : Except Fault Progress × Console D I A) : SameCourse x x := by
  rcases x with ⟨fault | p, c⟩
  · exact .fails fault c c.elapsed
  · exact .passes p c

theorem trans {x y z : Except Fault Progress × Console D I A} (h : SameCourse x y)
    (k : SameCourse y z) : SameCourse x z := by
  cases h with
  | passes => exact k
  | fails fault c elapsed =>
    cases k with
    | fails _ c' => exact .fails fault c' elapsed

theorem map {x y : Except Fault Progress × Console D I A} (f : Progress → Progress)
    (h : SameCourse x y) : SameCourse (x.map (Except.map f) id) (y.map (Except.map f) id) := by
  cases h with
  | passes p c => exact .passes (f p) c
  | fails fault c elapsed => exact .fails fault c elapsed

/-- Nothing a peripheral holds tells the two ways apart. -/
theorem peripherals {x y : Except Fault Progress × Console D I A} (h : SameCourse x y) :
    x.2.display = y.2.display ∧ x.2.audio = y.2.audio := by
  cases h <;> exact ⟨rfl, rfl⟩

end SameCourse

variable [Display D] [Audio A]

/-! ### Cutting a passage -/

/-- What was counted before a passage is not looked at in it. -/
theorem advanceTo_add (target : Nat) (t : Timetable) (c : Console D I A) (p q : Progress) :
    advanceTo target t c (p.add q) = (advanceTo target t c q).map (Except.map p.add) id := by
  fun_induction advanceTo target t c q with
  | case1 t c q due hnone => exact advanceTo_overflow due hnone
  | case2 t c q due t' ht fault c' hperform => exact advanceTo_error due ht hperform
  | case3 t c q due t' ht beat c' hperform stops =>
    rw [advanceTo_stop due ht hperform stops, Progress.count_add]
    rfl
  | case4 t c q due t' ht beat c' hperform goesOn ih =>
    rw [advanceTo_next due ht hperform (by simpa using goesOn), Progress.count_add, ih]
  | case5 t c q due => exact advanceTo_of_le (Nat.le_of_not_lt due)

/-- Under settings by which nothing ends a passage early, its way to a target leads by any
instant before the target. -/
theorem advanceTo_cut {cut target : Nat} (hle : cut ≤ target) {t : Timetable}
    {c : Console D I A} {p : Progress} (ht : c.timetable = t)
    (endless : c.machine.settings.exitOnHalt = false) :
    advanceTo target t c p =
      match advanceTo cut t c p with
      | (.error fault, c') => (.error fault, c')
      | (.ok q, c') => advanceTo target c'.timetable c' q := by
  fun_induction advanceTo cut t c p with
  | case1 t c p due hnone => exact advanceTo_overflow (Nat.lt_of_lt_of_le due hle) hnone
  | case2 t c p due t' ht' fault c' hperform =>
    exact advanceTo_error (Nat.lt_of_lt_of_le due hle) ht' hperform
  | case3 t c p due t' ht' beat c' hperform stops =>
    simp only [stopsAfter, Bool.and_eq_true] at stops
    rw [(performed_perform hperform).machine, Machine.settings_undergo, endless] at stops
    exact absurd stops.2 Bool.false_ne_true
  | case4 t c p due t' ht' beat c' hperform goesOn ih =>
    have performed := performed_perform hperform
    rw [advanceTo_next (Nat.lt_of_lt_of_le due hle) ht' hperform (by simpa using goesOn)]
    refine ih performed.timetable ?_
    rw [performed.machine, Machine.settings_undergo]
    exact endless
  | case5 t c p due =>
    rw [← ht]

/-! ### Cutting a span -/

/-- In a console in tune, a span that passes is the passage to its end. -/
theorem InTune.advance_eq {c : Console D I A} (h : c.InTune) {span target : Nat}
    (hadd : Span.add? c.elapsed span = some target) :
    c.advance span =
      match Console.advanceTo target c.timetable c .none with
      | (.error fault, c') => (.error fault, c')
      | (.ok p, c') => (.ok p, { c' with elapsed := target }) := by
  rw [advance_of_add? hadd]
  rcases hto : Console.advanceTo target c.timetable c .none with ⟨_ | p, c'⟩
  · rfl
  · have htune : c'.InTune := h.advanceTo hto
    have hdone := updateTone_of_tone (c := { c' with elapsed := target }) htune
    simp only [hdone]

/-- A slice and a span after it take the course of one span as long as both. -/
theorem InTune.sameCourse_advance {c : Console D I A} (h : c.InTune)
    (endless : c.machine.settings.exitOnHalt = false) {a b : Nat}
    (fits : c.elapsed + a + b < Span.limit) :
    SameCourse
      (match c.advance a with
        | (.error fault, c') => (.error fault, c')
        | (.ok p, c') => (c'.advance b).map (Except.map p.add) id)
      (c.advance (a + b)) := by
  have hfirst : Span.add? c.elapsed a = some (c.elapsed + a) := if_pos (by omega)
  have hwhole : Span.add? c.elapsed (a + b) = some (c.elapsed + a + b) := by
    rw [Span.add?, if_pos (by omega), Nat.add_assoc]
  rw [h.advance_eq hfirst, h.advance_eq hwhole,
    advanceTo_cut (Nat.le_add_right _ b) rfl endless]
  rcases hto : Console.advanceTo (c.elapsed + a) c.timetable c .none with ⟨fault | p, c'⟩
  · exact .fails fault c' c'.elapsed
  · -- the rest of the way starts from a console that differs by the time that has passed
    have hrest : Span.add? { c' with elapsed := c.elapsed + a }.elapsed b =
        some (c.elapsed + a + b) := if_pos fits
    have htune : c'.InTune := h.advanceTo hto
    have hcount := advanceTo_add (c.elapsed + a + b) c'.timetable c' p .none
    rw [p.add_none] at hcount
    simp only [InTune.advance_eq (c := { c' with elapsed := c.elapsed + a }) htune hrest]
    rw [(unnoticed_elapsed (c.elapsed + a)).advanceTo, hcount]
    rcases Console.advanceTo (c.elapsed + a + b) c'.timetable c' .none with ⟨fault | q, c''⟩
    · exact .fails fault c'' (c.elapsed + a)
    · exact .passes _ _

/-- What happened in slices together is what happened in the first and in the others together. -/
theorem total_advanceAll_cons (first : Nat) (rest : List Nat) (c : Console D I A) :
    (c.advanceAll (first :: rest)).map (Except.map Progress.total) id =
      match c.advance first with
      | (.error fault, c') => (.error fault, c')
      | (.ok p, c') =>
        ((c'.advanceAll rest).map (Except.map Progress.total) id).map (Except.map p.add) id := by
  rw [advanceAll]
  rcases c.advance first with ⟨fault | p, c'⟩
  · rfl
  · simp only
    rcases c'.advanceAll rest with ⟨fault | ps, c''⟩ <;> rfl

/-- Slices one after the other take the course of one span as long as all of them. -/
theorem InTune.sameCourse_advanceAll {c : Console D I A} (h : c.InTune)
    (endless : c.machine.settings.exitOnHalt = false) (first : Nat) (rest : List Nat)
    (fits : c.elapsed + (first :: rest).sum < Span.limit) :
    SameCourse ((c.advanceAll (first :: rest)).map (Except.map Progress.total) id)
      (c.advance (first :: rest).sum) := by
  induction rest generalizing c first with
  | nil =>
    rw [total_advanceAll_cons, List.sum_singleton]
    rcases c.advance first with ⟨fault | p, c'⟩
    · exact .refl _
    · show SameCourse (.ok (p.add .none), c') (.ok p, c')
      rw [p.add_none]
      exact .refl _
  | cons second rest ih =>
    rw [List.sum_cons] at fits ⊢
    have htwo := h.sameCourse_advance (a := first) (b := (second :: rest).sum) endless (by omega)
    rw [total_advanceAll_cons]
    rcases hfirst : c.advance first with ⟨fault | p, c'⟩
    · rw [hfirst] at htwo
      exact htwo
    · rw [hfirst] at htwo
      obtain ⟨passed, helapsed⟩ := passed_advance hfirst fun k =>
        Bool.false_ne_true (endless.symm.trans k.2)
      have hrest := ih (inTune_advance hfirst) (by rw [passed.settings, endless]) second
        (by rw [helapsed]; omega)
      -- what was counted in the first slice is added on both sides
      exact (hrest.map p.add).trans htwo

/-- **Time may be sliced.** In a console in tune, under settings by which nothing ends a passage
early, spans one after the other come to what one span as long as all of them comes to: both
ways succeed and lead to one console, their progress adding up, or both end by one fault,
and consoles that differ in nothing but the time recorded as passed. The clock is not what
ends them as long as a second is left on it. On either way the display is handed the same
pictures and the buzzer told the same tones. -/
theorem advanceAll_sliced (c : Console D I A) (first : Nat) (rest : List Nat) (inTune : c.InTune)
    (endless : c.machine.settings.exitOnHalt = false) (cycle : c.timetable.cycle ≤ Span.second)
    (fits : c.elapsed + (first :: rest).sum + Span.second < Span.limit) :
    let slices := first :: rest
    SameCourse ((c.advanceAll slices).map (Except.map Progress.total) id) (c.advance slices.sum) ∧
      (c.advance slices.sum).1 ≠ .error .clockOverflow ∧
      (c.recorded.advanceAll slices).2.display.calls =
        (c.recorded.advance slices.sum).2.display.calls ∧
      (c.recorded.advanceAll slices).2.audio.calls =
        (c.recorded.advance slices.sum).2.audio.calls := by
  intro slices
  have hrecorded : SameCourse _ _ :=
    InTune.sameCourse_advanceAll (c := c.recorded) inTune endless first rest (by
      show c.elapsed + _ < _
      omega)
  obtain ⟨hdisplay, haudio⟩ := hrecorded.peripherals
  exact ⟨inTune.sameCourse_advanceAll endless first rest (by omega),
    advance_within_clock cycle fits, congrArg Recorder.calls hdisplay,
    congrArg Recorder.calls haudio⟩

/-- A program that sounds a tone and draws, stops the display from showing its second picture,
and is cut at a tick, within a cycle and twice at one instant. -/
theorem advanceAll_sliced_fading :
    let machine := ((Machine.new { Settings.standard with speed := 60 } default).load
      [0x60, 0x01, 0xF0, 0x18, 0xD0, 0x05, 0x12, 0x04]).machine
    let c : Console (FadingDisplay HeadlessDisplay) ScriptedInput SilentAudio :=
      new machine ⟨default, 0, some 2, "display lost"⟩ default default default
    c.InTune ∧
      (c.advanceAll [16666666, 0, 20000000, 100000000]).1 =
        .error (.peripheral "display lost") ∧
      SameCourse ((c.advanceAll [16666666, 0, 20000000, 100000000]).map
        (Except.map Progress.total) id) (c.advance 136666666) ∧
      (c.recorded.advanceAll [16666666, 0, 20000000, 100000000]).2.audio.calls =
        [true, false] := by
  intro machine c
  have inTune : c.machine.timers.tone = c.tone := by decide +kernel
  have sliced := advanceAll_sliced c 16666666 [0, 20000000, 100000000] inTune (by decide +kernel)
    (by decide +kernel) (by decide +kernel)
  exact ⟨inTune, by decide +kernel, sliced.1, by decide +kernel⟩

end Console
end ChipEight
