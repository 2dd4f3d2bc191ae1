import Mathlib.Tactic.Ring
import ChipEight.Proofs.Clock
import ChipEight.Proofs.Reliable

/-! The rates a console keeps.

A cycle and the period of the ticks are whole nanoseconds, so both are cut short where a
second is no multiple of the rate. What is cut off adds up: `ceilDiv_cut` counts the
events that a number of seconds has to spare for it. `advanceAll_rate` says so of a console
whose program is always busy, however its time is sliced: it keeps the rate of its
settings to the instruction exactly where that rate divides a second, and the rate of
the ticks for the first 416666 seconds. -/
namespace ChipEight

/-! ### What is cut off -/

/-- Cut a whole into equal parts and drop what is left over; as many parts as are made fit into
the whole, and more once what was dropped adds up. -/
theorem ceilDiv_cut {parts whole : Nat} (h : 0 < whole / parts) (n : Nat) :
    (n * whole) ⌈/⌉ (whole / parts) =
      n * parts + (n * (whole % parts)) ⌈/⌉ (whole / parts) := by
  have hwhole : n * whole = n * (whole % parts) + whole / parts * (n * parts) := by
    conv_lhs => rw [← Nat.mod_add_div whole parts]
    ring
  have hround : n * (whole % parts) + whole / parts * (n * parts) + whole / parts - 1 =
      n * (whole % parts) + whole / parts - 1 + whole / parts * (n * parts) := by omega
  rw [hwhole, Nat.ceilDiv_eq_add_pred_div, Nat.ceilDiv_eq_add_pred_div, hround,
    Nat.add_mul_div_left _ _ h, Nat.add_comm]

/-- Nothing adds up where nothing is dropped. -/
theorem ceilDiv_eq_zero_iff {a b : Nat} (hb : 0 < b) : a ⌈/⌉ b = 0 ↔ a = 0 := by
  rw [← Nat.le_zero, ceilDiv_le_iff_le_mul hb, Nat.mul_zero, Nat.le_zero]

/-! ### Programs that are always busy -/

namespace Machine

/-- Whether an event finds the program busy: a tick always does, and a cycle does if it runs an
instruction, so that the program neither halts nor waits nor fails. -/
def runs (m : Machine) : Event → Bool
  | .tick => true
  | .step =>
    match m.step.result with
    | .ok (.executed _) => true
    | _ => false

/-- Whether each of a sequence of events finds the program busy. -/
def busy (m : Machine) : List Event → Bool
  | [] => true
  | event :: rest => m.runs event && (m.undergo event).busy rest

theorem busy_append (m : Machine) (first second : List Event) :
    m.busy (first ++ second) = (m.busy first && (m.undergoAll first).busy second) := by
  induction first generalizing m with
  | nil => rfl
  | cons event rest ih =>
    rw [List.cons_append, busy, busy, ih, Bool.and_assoc]
    rfl

end Machine

namespace Timetable

/-- The kinds of the events before a target, in order. -/
def agenda (target : Nat) (t : Timetable) : List Event := (t.eventsBefore target).map (·.2)

theorem agenda_of_lt {target : Nat} {t : Timetable} (due : t.dueAt < target) :
    t.agenda target = t.next :: t.advance.agenda target := by
  rw [agenda, eventsBefore, dif_pos due]
  rfl

theorem agenda_of_le {target : Nat} {t : Timetable} (h : target ≤ t.dueAt) :
    t.agenda target = [] := by
  rw [agenda, eventsBefore_of_le h]
  rfl

theorem agenda_append {cut target : Nat} (h : cut ≤ target) (t : Timetable) :
    t.agenda target = t.agenda cut ++ (t.after cut).agenda target := by
  rw [agenda, eventsBefore_append h, List.map_append]
  rfl

theorem count_agenda (event : Event) (target : Nat) (t : Timetable) :
    (t.agenda target).count event = (instants event (t.eventsBefore target)).length := by
  rw [instants, List.length_map, ← List.countP_eq_length_filter, agenda, List.count,
    List.countP_map]
  congr 1

theorem count_step_start (cycle : Nat) (cycle_pos : 0 < cycle) (ticking : Bool) (target : Nat) :
    ((start cycle cycle_pos ticking).agenda target).count .step = target ⌈/⌉ cycle := by
  rw [count_agenda, instants_step]
  simp only [start, every_zero, List.length_map, List.length_range]

theorem count_tick_start (cycle : Nat) (cycle_pos : 0 < cycle) (target : Nat) :
    ((start cycle cycle_pos true).agenda target).count .tick = target ⌈/⌉ Timers.period - 1 := by
  have ticking : (start cycle cycle_pos true).ticking = true := rfl
  rw [count_agenda, instants_tick, if_pos ticking]
  simp only [start, every_period period_pos, List.length_map, List.length_range]

@[simp] theorem cycle_after (target : Nat) (t : Timetable) :
    (t.after target).cycle = t.cycle := by
  fun_induction after target t with
  | case1 t due ih => rw [ih, cycle_advance]
  | case2 => rfl

end Timetable

namespace Progress

/-- What happens if every one of a sequence of events finds the program busy. -/
def ofBusy (events : List Event) : Progress := ⟨events.count .step, events.count .tick, false⟩

theorem ofBusy_append (first second : List Event) :
    ofBusy (first ++ second) = (ofBusy first).add (ofBusy second) := by
  simp only [ofBusy, add, List.count_append, Bool.or_self]

end Progress

namespace Console

variable {D I A : Type} [Display D] [Audio A] [Display.Reliable D] [Audio.Reliable A]

/-- An event that finds the program busy happens, and nothing ends the passage after it. -/
theorem perform_busy {c : Console D I A} {event : Event} (busy : c.machine.runs event = true) :
    ∃ beat, (c.perform event).1 = .ok beat ∧ beat ≠ .halted ∧
      Progress.count .none beat = .ofBusy [event] := by
  have hresult := c.perform_reliable event
  cases event with
  | tick => exact ⟨.ticked, hresult, nofun, rfl⟩
  | step =>
    simp only [Machine.runs] at busy
    split at busy
    · rename_i hstep
      rw [hstep] at hresult
      exact ⟨.executed, hresult, nofun, rfl⟩
    · cases busy

/-- A passage through which the program is always busy gets to its target. -/
theorem advanceTo_busy {target : Nat} {t : Timetable} {c : Console D I A} (p : Progress)
    (busy : c.machine.busy (t.agenda target) = true) (cycle : t.cycle ≤ Span.second)
    (fits : target + Span.second < Span.limit) :
    (advanceTo target t c p).1 = .ok (p.add (.ofBusy (t.agenda target))) := by
  fun_induction Timetable.eventsBefore target t generalizing c p with
  | case1 t due ih =>
    rw [Timetable.agenda_of_lt due, Machine.busy, Bool.and_eq_true] at busy
    obtain ⟨beat, hresult, unhalted, hcount⟩ :=
      perform_busy (c := { c with timetable := t.advance }) busy.1
    have hperform : { c with timetable := t.advance }.perform t.next =
      (.ok beat, ({ c with timetable := t.advance }.perform t.next).2) := Prod.ext hresult rfl
    have goesOn (c : Console D I A) : c.stopsAfter beat = false := by
      simp [stopsAfter, unhalted]
    rw [advanceTo_next due (Timetable.advance?_eq_some due cycle fits) hperform (goesOn _), ih]
    · rw [Timetable.agenda_of_lt due, ← List.singleton_append, Progress.ofBusy_append,
        ← Progress.add_assoc, ← hcount, ← Progress.count_add, p.add_none]
    · rw [(performed_perform hperform).machine]
      exact busy.2
    · rw [Timetable.cycle_advance]
      exact cycle
  | case2 t due =>
    have hle := Nat.le_of_not_lt due
    rw [advanceTo_of_le hle, Timetable.agenda_of_le hle]
    exact congrArg Except.ok p.add_none.symm

/-- A span through which the program is always busy passes. -/
theorem advance_busy {span : Nat} {c : Console D I A}
    (busy : c.machine.busy (c.timetable.agenda (c.elapsed + span)) = true)
    (cycle : c.timetable.cycle ≤ Span.second)
    (fits : c.elapsed + span + Span.second < Span.limit) :
    (c.advance span).1 = .ok (.ofBusy (c.timetable.agenda (c.elapsed + span))) := by
  have hadd : Span.add? c.elapsed span = some (c.elapsed + span) := if_pos (by omega)
  have hto := advanceTo_busy (c := c) .none busy cycle fits
  rw [Progress.none_add] at hto
  rw [advance_of_add? hadd]
  split <;> rename_i hpassage <;> rw [hpassage] at hto
  · cases hto
  · rw [updateTone_reliable]
    exact hto

/-- Spans through which the program is always busy pass one after the other. -/
theorem advanceAll_busy (spans : List Nat) {c : Console D I A}
    (busy : c.machine.busy (c.timetable.agenda (c.elapsed + spans.sum)) = true)
    (ontime : c.elapsed ≤ c.timetable.dueAt) (cycle : c.timetable.cycle ≤ Span.second)
    (fits : c.elapsed + spans.sum + Span.second < Span.limit) :
    ∃ ps, (c.advanceAll spans).1 = .ok ps ∧
      Progress.total ps = .ofBusy (c.timetable.agenda (c.elapsed + spans.sum)) := by
  induction spans generalizing c with
  | nil => exact ⟨[], rfl, by rw [List.sum_nil, Nat.add_zero, Timetable.agenda_of_le ontime]; rfl⟩
  | cons span rest ih =>
    rw [List.sum_cons, ← Nat.add_assoc] at busy fits ⊢
    have hle : c.elapsed + span ≤ c.elapsed + span + rest.sum := Nat.le_add_right _ _
    rw [Timetable.agenda_append hle, Machine.busy_append, Bool.and_eq_true] at busy
    have hfirst : c.advance span =
        (.ok (.ofBusy (c.timetable.agenda (c.elapsed + span))), (c.advance span).2) :=
      Prod.ext (advance_busy busy.1 cycle (by omega)) rfl
    obtain ⟨passed, helapsed⟩ := passed_advance hfirst nofun
    have hagenda : (c.happeningsIn span).map Happening.event =
        c.timetable.agenda (c.elapsed + span) := by
      rw [Timetable.agenda, ← passed.entries, List.map_map]
      rfl
    obtain ⟨ps, hrest, htotal⟩ := ih (c := (c.advance span).2)
      (by rw [passed.machine, hagenda, passed.timetable, helapsed]; exact busy.2)
      (by rw [helapsed, passed.timetable]; exact Timetable.le_dueAt_after _ _)
      (by rw [passed.timetable, Timetable.cycle_after]; exact cycle)
      (by rw [helapsed]; exact fits)
    refine ⟨.ofBusy (c.timetable.agenda (c.elapsed + span)) :: ps, ?_, ?_⟩
    · rw [advanceAll, hfirst]
      simp only
      rcases hall : (c.advance span).2.advanceAll rest with ⟨fault | qs, c'⟩ <;>
        rw [hall] at hrest <;> cases hrest
      rfl
    · rw [Timetable.agenda_append hle, Progress.ofBusy_append]
      rw [passed.timetable, helapsed] at htotal
      rw [← htotal]
      rfl

omit [Display D] [Audio A] [Display.Reliable D] [Audio.Reliable A] in
/-- What a number of seconds comes to for a program that is always busy. -/
theorem ofBusy_seconds (machine : Machine) (display : D) (input : I) (audio : A)
    (journal : Journal) (seconds : Nat) (cooperative : machine.settings.timerMode = .cooperative)
    (rate : machine.settings.rate ≤ Span.second) :
    Progress.ofBusy ((new machine display input audio journal).timetable.agenda
        (seconds * Span.second)) =
      ⟨seconds * machine.settings.rate +
          (seconds * (Span.second % machine.settings.rate)) ⌈/⌉ machine.settings.cycle,
        seconds * Timers.frequency +
          (seconds * (Span.second % Timers.frequency)) ⌈/⌉ Timers.period - 1, false⟩ := by
  have hwhole : 0 < Span.second / machine.settings.rate :=
    Nat.div_pos rate machine.settings.rate_pos
  have hcycle : machine.settings.cycle = Span.second / machine.settings.rate :=
    Nat.max_eq_left hwhole
  have hticks : 0 < Span.second / Timers.frequency := by decide
  have hperiod : Timers.period = Span.second / Timers.frequency := rfl
  simp only [Progress.ofBusy, new, cooperative, beq_self_eq_true,
    Timetable.count_step_start, Timetable.count_tick_start, hcycle, hperiod, ceilDiv_cut hwhole,
    ceilDiv_cut hticks]

/-- **The rates a console keeps.** However a whole number of seconds is sliced, a program that is
always busy passes through it. It runs as many instructions as the settings name for that
time, and besides those that the time cut off the cycles has room for; the timers tick sixty
times a second, and besides as often as the time cut off the periods has room for, less the
one tick that there is not at the first instant. So the rate of the settings is kept exactly
where it divides a second, and the rate of the ticks for 416666 seconds. -/
theorem advanceAll_rate (machine : Machine) (display : D) (input : I) (audio : A)
    (journal : Journal) (seconds : Nat) (spans : List Nat)
    (cooperative : machine.settings.timerMode = .cooperative)
    (rate : machine.settings.rate ≤ Span.second) (whole : spans.sum = seconds * Span.second)
    (fits : spans.sum + Span.second < Span.limit)
    (busy : machine.busy ((new machine display input audio journal).timetable.agenda
      spans.sum) = true) :
    let settings := machine.settings
    ∃ ps, ((new machine display input audio journal).advanceAll spans).1 = .ok ps ∧
      (Progress.total ps).steps = seconds * settings.rate +
        (seconds * (Span.second % settings.rate)) ⌈/⌉ settings.cycle ∧
      (Progress.total ps).ticks = seconds * Timers.frequency +
        (seconds * (Span.second % Timers.frequency)) ⌈/⌉ Timers.period - 1 ∧
      ((Progress.total ps).steps = seconds * settings.rate ↔
        seconds = 0 ∨ settings.rate ∣ Span.second) ∧
      ((Progress.total ps).ticks = seconds * Timers.frequency ↔ seconds ≤ 416666) := by
  intro settings
  have hnew : (new machine display input audio journal : Console D I A).elapsed + spans.sum =
      spans.sum := Nat.zero_add _
  obtain ⟨ps, hps, htotal⟩ := advanceAll_busy spans
    (c := new machine display input audio journal) (by rw [hnew]; exact busy) (Nat.zero_le _)
    settings.cycle_le_second (by rw [hnew]; exact fits)
  rw [hnew, whole, ofBusy_seconds machine display input audio journal seconds cooperative rate]
    at htotal
  refine ⟨ps, hps, by rw [htotal], by rw [htotal], ?_, ?_⟩
  · rw [htotal, Nat.add_eq_left, ceilDiv_eq_zero_iff settings.cycle_pos, Nat.mul_eq_zero,
      Nat.dvd_iff_mod_eq_zero]
  · -- the first tick to spare has to make up for the one that is missing at the first instant
    have hspare : (seconds * (Span.second % Timers.frequency)) ⌈/⌉ Timers.period ≤ 1 ↔
        seconds ≤ 416666 := by
      rw [ceilDiv_le_iff_le_mul Timetable.period_pos]
      simp only [Span.second, Timers.frequency, Timers.period]
      omega
    have hzero : (seconds * (Span.second % Timers.frequency)) ⌈/⌉ Timers.period = 0 ↔
        seconds = 0 := by
      rw [ceilDiv_eq_zero_iff Timetable.period_pos]
      simp only [Span.second, Timers.frequency]
      omega
    rw [htotal]
    show seconds * 60 + _ - 1 = seconds * 60 ↔ _
    omega

/-- At three instructions a second, the third of a second that a cycle should take is cut to
333333333 nanoseconds, and the first second has room for a fourth instruction. -/
theorem advanceAll_rate_three :
    let machine := ((Machine.new { Settings.standard with speed := 3 } default).load
      [0x70, 0x01, 0x12, 0x00]).machine
    let c : Console HeadlessDisplay ScriptedInput SilentAudio :=
      new machine default default default default
    ∃ ps, (c.advanceAll [300000000, 0, 700000000]).1 = .ok ps ∧
      (Progress.total ps).steps = 4 ∧ (Progress.total ps).ticks = 60 := by
  intro machine c
  have busy : machine.busy (c.timetable.agenda [300000000, 0, 700000000].sum) = true := by
    decide +kernel
  obtain ⟨ps, hps, hsteps, hticks, -⟩ := advanceAll_rate machine default default default default 1
    [300000000, 0, 700000000] (by decide +kernel) (by decide +kernel) (by decide) (by decide) busy
  exact ⟨ps, hps, hsteps.trans (by decide +kernel), hticks.trans (by decide +kernel)⟩

/-- So the settings' instructions a second are not what a busy program gets of every second. -/
theorem rate_three_exceeded :
    ¬ ∀ (machine : Machine) (seconds : Nat) (spans : List Nat),
      1 ≤ machine.settings.speed → machine.settings.speed ≤ 100000 →
      machine.settings.timerMode = .cooperative → spans.sum = seconds * Span.second →
      let c : Console HeadlessDisplay ScriptedInput SilentAudio :=
        new machine default default default default
      machine.busy (c.timetable.agenda spans.sum) = true →
      ∀ ps, (c.advanceAll spans).1 = .ok ps →
        (Progress.total ps).steps = seconds * machine.settings.speed.toNat ∧
          (Progress.total ps).ticks = seconds * 60 := by
  intro kept
  let machine := ((Machine.new { Settings.standard with speed := 3 } default).load
    [0x70, 0x01, 0x12, 0x00]).machine
  let c : Console HeadlessDisplay ScriptedInput SilentAudio :=
    new machine default default default default
  have hresult : (c.advanceAll [Span.second]).1 = .ok [⟨4, 60, false⟩] := by decide +kernel
  have hsteps := (kept machine 1 [Span.second] (by decide +kernel) (by decide +kernel)
    (by decide +kernel) (by decide) (by decide +kernel) _ hresult).1
  have hspeed : machine.settings.speed.toNat = 3 := by decide +kernel
  rw [hspeed] at hsteps
  exact absurd hsteps (by decide)

end Console
end ChipEight
