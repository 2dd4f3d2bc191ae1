import ChipEight.Proofs.Clock
import ChipEight.Proofs.Slots
import ChipEight.Proofs.Told

/-! The turns of a passage.

A passage of time is a loop, and each of its turns lets one event happen. `Ends` says that such a
loop ends, after which turns and with which reply. It is no function of the loop: one that went on
for ever would have no end to tell of, nor would one that had to count past the clock. Every turn
takes the first event off what is left of the agenda (`Ends.isPrefix`), whether or not anything
comes of it, so there are at most as many turns as cycles and periods of the ticks begin on the
way. `advance_ends` says so of every console there can be. -/
namespace ChipEight

/-! ### How much is on an agenda -/

theorem length_every (period start target : Nat) :
    (every period start target).length = (target - start) ⌈/⌉ period := by
  rw [every, List.length_map, List.length_range]

/-- Whatever is on an agenda is a cycle or a tick. -/
theorem length_eq_instants (entries : List (Nat × Event)) :
    entries.length = (instants .step entries).length + (instants .tick entries).length := by
  induction entries with
  | nil => rfl
  | cons entry rest ih =>
    obtain ⟨instant, event⟩ := entry
    rw [instants_cons, instants_cons, List.length_cons, ih]
    cases event with
    | step => rw [if_pos rfl, if_neg nofun, List.length_cons, Nat.add_right_comm]
    | tick => rw [if_neg nofun, if_pos rfl, List.length_cons, Nat.add_assoc]

theorem length_instants_le (event : Event) {first entries : List (Nat × Event)}
    (h : first <+: entries) : (instants event first).length ≤ (instants event entries).length := by
  rw [instants, instants, List.length_map, List.length_map]
  exact (h.sublist.filter _).length_le

namespace Timetable

/-- What is on an agenda is due before its end. -/
theorem lt_of_mem_eventsBefore {target : Nat} {t : Timetable} {e : Nat × Event}
    (h : e ∈ t.eventsBefore target) : e.1 < target := by
  fun_induction eventsBefore target t with
  | case1 t due ih =>
    rcases List.mem_cons.mp h with rfl | h
    · exact due
    · exact ih h
  | case2 => cases h

end Timetable

namespace Console

variable {D I A : Type} [Display D] [Input I] [Audio A]

/-! ### Loops that end -/

/-- The loop of a passage ends: after these turns, each with the event it let happen and the instant
this was due at, it comes to this reply, and a clock could count to every instant it had to. -/
inductive Ends (target : Nat) : Console D I A → Progress → List (Nat × Event) →
    Except Fault Progress × Console D I A → Prop where
  /-- Nothing more is due before the target. -/
  | arrives {c : Console D I A} {p : Progress} (later : target ≤ c.timetable.dueAt) :
      Ends target c p [] (.ok p, c)
  /-- The event fails. -/
  | fails {c c' : Console D I A} {p : Progress} {t : Timetable} {fault : Fault}
      (due : c.timetable.dueAt < target) (counted : c.timetable.advance? = some t)
      (failed : { c with timetable := t }.perform c.timetable.next = (.error fault, c')) :
      Ends target c p [(c.timetable.dueAt, c.timetable.next)] (.error fault, c')
  /-- The event is the last that the settings allow. -/
  | stops {c c' : Console D I A} {p : Progress} {t : Timetable} {beat : Beat}
      (due : c.timetable.dueAt < target) (counted : c.timetable.advance? = some t)
      (performed : { c with timetable := t }.perform c.timetable.next = (.ok beat, c'))
      (last : c'.stopsAfter beat = true) :
      Ends target c p [(c.timetable.dueAt, c.timetable.next)] (.ok (p.count beat), c')
  /-- There is another turn. -/
  | goesOn {c c' : Console D I A} {p : Progress} {t : Timetable} {beat : Beat}
      {turns : List (Nat × Event)} {reply : Except Fault Progress × Console D I A}
      (due : c.timetable.dueAt < target) (counted : c.timetable.advance? = some t)
      (performed : { c with timetable := t }.perform c.timetable.next = (.ok beat, c'))
      (more : c'.stopsAfter beat = false) (rest : Ends target c' (p.count beat) turns reply) :
      Ends target c p ((c.timetable.dueAt, c.timetable.next) :: turns) reply

omit [Input I] in
/-- **Every loop ends** that is on the way to a target a second within the clock's limit. What
brings the end nearer is the timetable alone, since each turn moves it. -/
theorem ends_advanceTo {target : Nat} {t : Timetable} {c : Console D I A} (p : Progress)
    (ht : c.timetable = t) (cycle : t.cycle ≤ Span.second)
    (fits : target + Span.second < Span.limit) :
    ∃ turns, Ends target c p turns (advanceTo target t c p) := by
  fun_induction advanceTo target t c p with
  | case1 t c p due hnone =>
    rw [Timetable.advance?_eq_some due cycle fits] at hnone
    cases hnone
  | case2 t c p due t' hadvance fault c' hperform =>
    subst ht
    exact ⟨_, .fails due hadvance hperform⟩
  | case3 t c p due t' hadvance beat c' hperform stops =>
    subst ht
    exact ⟨_, .stops due hadvance hperform stops⟩
  | case4 t c p due t' hadvance beat c' hperform goesOn ih =>
    subst ht
    obtain ⟨turns, ends⟩ := ih (performed_perform hperform).timetable (by
      rw [Timetable.eq_advance_of_advance? hadvance, Timetable.cycle_advance]
      exact cycle)
    exact ⟨_, .goesOn due hadvance hperform (by simpa using goesOn) ends⟩
  | case5 t c p due =>
    subst ht
    exact ⟨_, .arrives (Nat.le_of_not_lt due)⟩

omit [Input I] in
/-- The turns of a loop are the front of its agenda. -/
theorem Ends.isPrefix {target : Nat} {c : Console D I A} {p : Progress}
    {turns : List (Nat × Event)} {reply : Except Fault Progress × Console D I A}
    (h : Ends target c p turns reply) : turns <+: c.timetable.eventsBefore target := by
  have agenda {t : Timetable} (due : t.dueAt < target) :
      t.eventsBefore target = (t.dueAt, t.next) :: t.advance.eventsBefore target := by
    rw [Timetable.eventsBefore, dif_pos due]
  induction h with
  | arrives => exact List.nil_prefix
  | fails due | stops due =>
    rw [agenda due]
    exact List.cons_prefix_cons.mpr ⟨rfl, List.nil_prefix⟩
  | goesOn due counted performed _ _ ih =>
    rw [(performed_perform performed).timetable, Timetable.eq_advance_of_advance? counted] at ih
    rw [agenda due]
    exact List.cons_prefix_cons.mpr ⟨rfl, ih⟩

/-! ### Every console there can be -/

/-- What a console may have become: it was put to activities, whatever came of them, and in between
its machine was handled in whatever way, or exchanged, but for who ticks the timers. -/
inductive Became (first : Console D I A) : Console D I A → Prop where
  | still : Became first first
  | engaged {c : Console D I A} (earlier : Became first c) (activity : Activity) :
      Became first (c.engage activity)
  | handled {c : Console D I A} (earlier : Became first c) (machine : Machine)
      (mode : machine.settings.timerMode = c.machine.settings.timerMode) :
      Became first { c with machine }

/-- Whatever becomes of a console, its timetable keeps to its cycle and to what is on it. -/
theorem Became.timetable {first c : Console D I A} (h : Became first c) :
    c.timetable.cycle = first.timetable.cycle ∧
      c.timetable.ticking = first.timetable.ticking := by
  induction h with
  | still => exact ⟨rfl, rfl⟩
  | handled _ _ _ ih => exact ih
  | @engaged c _ activity ih =>
    obtain ⟨deeds, did⟩ := did_engageAll c [activity]
    have moved : (c.engage activity).timetable = _ := did.timetable
    rw [moved]
    exact ih

/-- **Every passage of time ends, and within the clock.** Whatever the settings and the program, and
whatever has become of a console: a span that ends a second before the clock's limit passes in
finitely many turns. They are at most as many as cycles begin between the next instruction and the
end of the span and, if the console ticks the timers, as sixtieths of a second begin between the
next tick and that end. No instant that is counted to on the way is past what the clock can count,
nor is the end. The cycle is that of the settings, a second divided by a rate which is not zero, and
it is between a nanosecond and a second. -/
theorem advance_ends (machine : Machine) (display : D) (input : I) (audio : A) (journal : Journal)
    (c : Console D I A) (became : Became (new machine display input audio journal) c)
    (span : Nat) (fits : c.elapsed + span + Span.second < Span.limit) :
    let cycle := machine.settings.cycle
    let t := c.timetable
    let target := c.elapsed + span
    machine.settings.rate ≠ 0 ∧ t.cycle = cycle ∧ 1 ≤ cycle ∧ cycle ≤ Span.second ∧
      Span.add? c.elapsed span = some target ∧
      (∃ turns, Ends target c .none turns (advanceTo target t c .none) ∧
        turns.length = (instants .step turns).length + (instants .tick turns).length ∧
        (instants .step turns).length ≤ (target - t.stepAt) ⌈/⌉ cycle ∧
        (instants .tick turns).length ≤
          (if machine.settings.timerMode = .cooperative then (target - t.tickAt) ⌈/⌉ Timers.period
            else 0) ∧
        ∀ turn ∈ turns, turn.1 < target ∧ turn.1 + t.spacing turn.2 < Span.limit) ∧
      (c.advance span).1 ≠ .error .clockOverflow := by
  intro cycle t target
  obtain ⟨hcycle, hticking⟩ := became.timetable
  have hsecond : t.cycle ≤ Span.second := hcycle ▸ machine.settings.cycle_le_second
  obtain ⟨turns, ends⟩ := ends_advanceTo (c := c) .none rfl hsecond fits
  have front : turns <+: t.eventsBefore target := ends.isPrefix
  refine ⟨Nat.ne_of_gt machine.settings.rate_pos, hcycle, machine.settings.cycle_pos,
    machine.settings.cycle_le_second, if_pos (by omega),
    ⟨turns, ends, length_eq_instants turns, ?_, ?_, fun turn hturn => ?_⟩,
    advance_within_clock hsecond fits⟩
  · have hle := length_instants_le .step front
    rwa [Timetable.instants_step, length_every, show t.cycle = cycle from hcycle] at hle
  · have hle := length_instants_le .tick front
    rw [Timetable.instants_tick, hticking] at hle
    simp only [new, Timetable.start, beq_iff_eq] at hle
    split at hle <;> rename_i hmode
    · rwa [if_pos hmode, ← length_every]
    · rwa [if_neg hmode]
  · have hbefore := Timetable.lt_of_mem_eventsBefore (front.subset hturn)
    have hspacing : t.spacing turn.2 ≤ Span.second := by
      cases turn.2 with
      | step => exact hsecond
      | tick => exact (by decide : Timers.period ≤ Span.second)
    exact ⟨hbefore, by omega⟩

/-- A program that waits for a key that never comes, at more instructions a second than a second has
nanoseconds. -/
theorem advance_ends_waiting :
    let machine := ((Machine.new { Settings.standard with speed := 4294967295 } default).load
      [0xF0, 0x0A]).machine
    let first : Console HeadlessDisplay ScriptedInput SilentAudio :=
      new machine default default default default
    let c := { first.engage (.pass 2) with
      machine := (first.engage (.pass 2)).machine.setSound 9 }
    Became first c ∧ c.elapsed + 3 + Span.second < Span.limit ∧
      machine.settings.cycle = 1 ∧ c.machine.snapshot.keyWait = some ⟨0, none⟩ ∧
      (∃ turns, Ends 5 c .none turns (advanceTo 5 c.timetable c .none) ∧
        turns.length ≤ 3 ∧ ∀ turn ∈ turns, turn.1 < 5) ∧
      (c.advance 3).1 ≠ .error .clockOverflow := by
  intro machine first c
  have became : Became first c := .handled (.engaged .still (.pass 2)) _ rfl
  obtain ⟨elapsed, stepAt, tickAt, cycle, waits⟩ : c.elapsed = 2 ∧ c.timetable.stepAt = 2 ∧
      c.timetable.tickAt = Timers.period ∧ machine.settings.cycle = 1 ∧
        c.machine.snapshot.keyWait = some ⟨0, none⟩ := by
    decide +kernel
  have fits : c.elapsed + 3 + Span.second < Span.limit := by
    rw [elapsed]
    decide
  obtain ⟨-, -, -, -, -, ⟨turns, ends, all, steps, ticks, dueBefore⟩, counted⟩ :=
    advance_ends machine default default default default c became 3 fits
  rw [elapsed] at ends steps ticks dueBefore
  rw [stepAt, cycle] at steps
  rw [tickAt] at ticks
  have hsteps : (instants .step turns).length ≤ 3 := steps
  have hticks : (instants .tick turns).length ≤ 0 := ticks.trans (by decide +kernel)
  exact ⟨became, fits, cycle, waits,
    ⟨turns, ends, by omega, fun turn hturn => (dueBefore turn hturn).1⟩, counted⟩

end Console
end ChipEight
