import ChipEight.Console.Faulty
import ChipEight.Proofs.Unnoticed

/-! Slots.

Each event that a timetable has coming up is a slot, for one cycle or for one tick. A console
takes a slot before it lets the event happen, and does not give it back if something goes
wrong with the event, with the picture after it or with the tone. `Went` is what follows for
any passage of time, whether it gets to its end or is cut short: of what happened in it, each
event is one cycle or one tick of the machine and has the next slot of its kind. So passing
time again after a fault goes on at the slot after the last one taken: `passEach_slots`. -/
namespace ChipEight

namespace Timetable

/-! ### Slots -/

/-- The next slot for an event. -/
def slot (t : Timetable) : Event → Nat
  | .step => t.stepAt
  | .tick => t.tickAt

/-- The time from one slot for an event to the next. -/
def spacing (t : Timetable) : Event → Nat
  | .step => t.cycle
  | .tick => Timers.period

theorem dueAt_eq_slot (t : Timetable) : t.dueAt = t.slot t.next := by
  rcases t.due_cases with h | h <;> rw [h.dueAt, h.next] <;> rfl

/-- Taking the next event on moves its slot and leaves the other one. -/
theorem slot_advance (t : Timetable) (event : Event) :
    t.advance.slot event =
      if t.next = event then t.slot event + t.spacing event else t.slot event := by
  rcases t.due_cases with h | h <;> rw [h.advance, h.next] <;> cases event <;>
    simp only [slot, spacing, reduceCtorEq, if_true, if_false]

theorem spacing_advance (t : Timetable) (event : Event) :
    t.advance.spacing event = t.spacing event := by
  rcases t.due_cases with h | h <;> rw [h.advance] <;> cases event <;> rfl

theorem ticking_advance (t : Timetable) : t.advance.ticking = t.ticking := by
  rcases t.due_cases with h | h <;> rw [h.advance]

/-- From one timetable to another by taking its next events on, each in its slot. -/
inductive Took : Timetable → List (Nat × Event) → Timetable → Prop where
  | nothing (t : Timetable) : Took t [] t
  | next {t t' : Timetable} {entries : List (Nat × Event)} (rest : Took t.advance entries t') :
      Took t ((t.dueAt, t.next) :: entries) t'

namespace Took

variable {t t' t'' : Timetable} {entries first second : List (Nat × Event)}

theorem trans (h : Took t first t') (k : Took t' second t'') : Took t (first ++ second) t'' := by
  induction h with
  | nothing => exact k
  | next _ ih => exact .next (ih k)

theorem ticking (h : Took t entries t') : t'.ticking = t.ticking := by
  induction h with
  | nothing => rfl
  | next _ ih => rw [ih, ticking_advance]

/-- **No slot is skipped and none is taken twice.** -/
theorem instants_eq (h : Took t entries t') (event : Event) :
    instants event entries =
      List.range' (t.slot event) (instants event entries).length (t.spacing event) := by
  induction h with
  | nothing => rfl
  | @next t t' entries _ ih =>
    rw [slot_advance, spacing_advance] at ih
    rw [instants_cons]
    by_cases hnext : t.next = event
    · rw [if_pos hnext] at ih ⊢
      rw [List.length_cons, List.range'_succ, ← ih, dueAt_eq_slot, hnext]
    · rw [if_neg hnext] at ih ⊢
      exact ih

/-- The next slot is as many spacings on as slots were taken. -/
theorem slot_eq (h : Took t entries t') (event : Event) :
    t'.slot event = t.slot event + (instants event entries).length * t.spacing event := by
  induction h with
  | nothing =>
    rw [instants, List.filter_nil, List.map_nil, List.length_nil, Nat.zero_mul, Nat.add_zero]
  | @next t t' entries _ ih =>
    rw [slot_advance, spacing_advance] at ih
    rw [instants_cons]
    by_cases hnext : t.next = event
    · rw [if_pos hnext] at ih ⊢
      rw [ih, List.length_cons, Nat.succ_mul, Nat.add_assoc, Nat.add_comm (t.spacing event)]
    · rw [if_neg hnext] at ih ⊢
      exact ih

/-- The cycles of a timetable that began at instant zero. -/
theorem steps_of_start {cycle : Nat} {pos : 0 < cycle} {ticking : Bool}
    (h : Took (start cycle pos ticking) entries t') :
    instants .step entries = List.range' 0 (instants .step entries).length cycle ∧
      t'.stepAt = cycle * (instants .step entries).length := by
  have hslot : (start cycle pos ticking).slot .step = 0 := by rw [slot, start]
  have hspacing : (start cycle pos ticking).spacing .step = cycle := by rw [spacing, start]
  have hinstants := h.instants_eq .step
  have hnext := h.slot_eq .step
  rw [hslot, hspacing] at hinstants hnext
  rw [Nat.zero_add, Nat.mul_comm] at hnext
  exact ⟨hinstants, hnext⟩

/-- The ticks of a timetable that began at instant zero. -/
theorem ticks_of_start {cycle : Nat} {pos : 0 < cycle} {ticking : Bool}
    (h : Took (start cycle pos ticking) entries t') :
    instants .tick entries =
        List.range' Timers.period (instants .tick entries).length Timers.period ∧
      t'.tickAt = Timers.period * (1 + (instants .tick entries).length) := by
  have hslot : (start cycle pos ticking).slot .tick = Timers.period := by rw [slot, start]
  have hspacing : (start cycle pos ticking).spacing .tick = Timers.period := by rw [spacing]
  have hinstants := h.instants_eq .tick
  have hnext := h.slot_eq .tick
  rw [hslot, hspacing] at hinstants hnext
  rw [Nat.mul_add, Nat.mul_one, Nat.mul_comm]
  exact ⟨hinstants, hnext⟩

end Took

/-- Nothing is due after its slot. -/
theorem dueAt_le_slot (t : Timetable) (event : Event) (h : event = .tick → t.ticking = true) :
    t.dueAt ≤ t.slot event := by
  rcases t.due_cases with hdue | hdue
  · rw [hdue.dueAt]
    cases event with
    | tick => exact Nat.le_refl _
    | step => exact hdue.le
  · rw [hdue.dueAt]
    cases event with
    | tick => exact Nat.le_of_lt (hdue.lt (h rfl))
    | step => exact Nat.le_refl _

end Timetable

/-! ### What a machine went through -/

/-- From one machine to another by these events in order, each of which is one tick of the timers
or one cycle, whatever the cycle comes to. In between, the picture may be taken. -/
inductive Machine.Underwent : Machine → List Event → Machine → Prop where
  | nothing (m : Machine) : Underwent m [] m
  | tick {m m' : Machine} {events : List Event} (rest : Underwent (m.tickBy 1) events m') :
      Underwent m (.tick :: events) m'
  | step {m m' : Machine} {events : List Event} (rest : Underwent m.step.machine events m') :
      Underwent m (.step :: events) m'
  | taken {m m' : Machine} {events : List Event} (rest : Underwent m.takeFrame.2 events m') :
      Underwent m events m'

namespace Machine.Underwent

variable {m m' m'' : Machine} {first second : List Event}

theorem trans (h : m.Underwent first m') (k : m'.Underwent second m'') :
    m.Underwent (first ++ second) m'' := by
  induction h with
  | nothing => exact k
  | tick _ ih => exact .tick (ih k)
  | step _ ih => exact .step (ih k)
  | taken _ ih => exact .taken (ih k)

theorem settings (h : m.Underwent first m') : m'.settings = m.settings := by
  induction h with
  | nothing => rfl
  | tick _ ih => exact ih
  | @step m m' _ _ ih => exact ih.trans m.step_fixed.1
  | @taken m m' _ _ ih =>
    rw [ih, takeFrame_eq]

end Machine.Underwent

namespace Console

variable {D I A : Type} [Display D] [Input I] [Audio A]

/-- From one console to another by these happenings: its machine underwent their events, and its
timetable gave each of them the next slot. -/
structure Went (c : Console D I A) (hs : List Happening) (c' : Console D I A) : Prop where
  machine : c.machine.Underwent (hs.map Happening.event) c'.machine
  timetable : c.timetable.Took (hs.map Happening.entry) c'.timetable

namespace Went

omit [Display D] [Input I] [Audio A]

theorem nothing (c : Console D I A) : Went c [] c := ⟨.nothing _, .nothing _⟩

theorem trans {c c' c'' : Console D I A} {first second : List Happening} (h : Went c first c')
    (k : Went c' second c'') : Went c (first ++ second) c'' where
  machine := by
    rw [List.map_append]
    exact h.machine.trans k.machine
  timetable := by
    rw [List.map_append]
    exact h.timetable.trans k.timetable

end Went

omit [Display D] [Input I] in
/-- Telling the buzzer has to do with neither. -/
theorem updateTone_keeps (c : Console D I A) :
    c.updateTone.2.machine = c.machine ∧ c.updateTone.2.timetable = c.timetable := by
  rw [updateTone_eq]
  exact ⟨rfl, rfl⟩

omit [Input I] in
/-- What follows an instruction that ran takes the picture or does not get to it. -/
theorem underwent_settle (c : Console D I A) :
    c.machine.Underwent [] c.settle.2.machine ∧ c.settle.2.timetable = c.timetable := by
  have hkept := c.updateTone_keeps
  simp only [settle]
  generalize c.updateTone = reply at hkept ⊢
  obtain ⟨hmachine, htimetable⟩ := hkept
  rcases reply with ⟨_ | _, c'⟩
  · rw [← hmachine]
    exact ⟨.nothing _, htimetable⟩
  · simp only
    rw [showFrame_eq, ← hmachine]
    exact ⟨.taken (.nothing _), htimetable⟩

omit [Input I] in
/-- An event is one event to the machine, also where it fails. -/
theorem underwent_perform (c : Console D I A) (event : Event) :
    c.machine.Underwent [event] (c.perform event).2.machine ∧
      (c.perform event).2.timetable = c.timetable := by
  cases event with
  | tick =>
    have hkept := updateTone_keeps { c with machine := c.machine.tickBy 1 }
    simp only [perform]
    generalize updateTone { c with machine := c.machine.tickBy 1 } = reply at hkept ⊢
    obtain ⟨hmachine, htimetable⟩ := hkept
    have hticked : c.machine.Underwent [.tick] reply.2.machine := by
      rw [hmachine]
      exact .tick (.nothing _)
    rcases reply with ⟨_ | _, c'⟩ <;> exact ⟨hticked, htimetable⟩
  | step =>
    have hstepped : c.machine.Underwent [.step] c.machine.step.machine := .step (.nothing _)
    simp only [perform]
    split
    · exact ⟨hstepped, rfl⟩
    · exact ⟨hstepped, rfl⟩
    · exact ⟨hstepped, rfl⟩
    · have hsettled := underwent_settle
        ({ c with machine := c.machine.step.machine }.note c.machine.step.records)
      generalize settle
        ({ c with machine := c.machine.step.machine }.note c.machine.step.records) = reply
        at hsettled ⊢
      obtain ⟨hmachine, htimetable⟩ := hsettled
      rcases reply with ⟨_ | _, c'⟩ <;> exact ⟨hstepped.trans hmachine, htimetable⟩

omit [Input I] in
/-- **A passage of time takes slots in a row**, to its end or to a fault. -/
theorem went_advanceTo (target : Nat) (t : Timetable) (c : Console D I A) (p : Progress)
    (ht : c.timetable = t) : Went c (happenings target t c) (advanceTo target t c p).2 := by
  have event {t t' : Timetable} {c c' : Console D I A} {r result : Except Fault Beat}
      (ht : c.timetable = t) (hadvance : t.advance? = some t')
      (hperform : { c with timetable := t' }.perform t.next = (r, c')) :
      Went c [⟨t.dueAt, t.next, result⟩] c' := by
    have hevent := underwent_perform { c with timetable := t' } t.next
    rw [hperform] at hevent
    refine ⟨hevent.1, ?_⟩
    rw [ht, hevent.2, Timetable.eq_advance_of_advance? hadvance]
    exact .next (.nothing _)
  fun_induction advanceTo target t c p with
  | case1 t c p due hnone =>
    rw [happenings_overflow due hnone]
    exact .nothing c
  | case2 t c p due t' hadvance fault c' hperform =>
    rw [happenings_error due hadvance hperform]
    exact event ht hadvance hperform
  | case3 t c p due t' hadvance beat c' hperform stops =>
    rw [happenings_stop due hadvance hperform stops]
    exact event ht hadvance hperform
  | case4 t c p due t' hadvance beat c' hperform goesOn ih =>
    rw [happenings_next due hadvance hperform (by simpa using goesOn)]
    exact (event ht hadvance hperform).trans (ih (performed_perform hperform).timetable)
  | case5 t c p due =>
    rw [happenings_of_le (Nat.le_of_not_lt due)]
    exact .nothing c

omit [Input I] in
theorem went_advance (span : Nat) (c : Console D I A) :
    Went c (c.happeningsIn span) (c.advance span).2 := by
  rw [happeningsIn]
  cases hadd : Span.add? c.elapsed span with
  | none =>
    rw [advance_overflow hadd]
    exact .nothing c
  | some target =>
    have hto := went_advanceTo target c.timetable c .none rfl
    rw [advance_of_add? hadd]
    generalize advanceTo target c.timetable c .none = reply at hto ⊢
    rcases reply with ⟨_ | progress, c'⟩
    · exact hto
    · have hkept := updateTone_keeps { c' with elapsed := target }
      simp only
      generalize updateTone { c' with elapsed := target } = reply at hkept ⊢
      obtain ⟨hmachine, htimetable⟩ := hkept
      have hended : Went c _ reply.2 :=
        ⟨by rw [hmachine]; exact hto.machine, by rw [htimetable]; exact hto.timetable⟩
      rcases reply with ⟨_ | _, c''⟩ <;> exact hended

omit [Input I] in
/-- A span that passed leaves nothing overdue. -/
theorem ontime_advance {span : Nat} {c : Console D I A} {p : Progress}
    (h : (c.advance span).1 = .ok p)
    (unstopped : ¬(p.halted = true ∧ c.machine.settings.exitOnHalt = true)) :
    (c.advance span).2.elapsed ≤ (c.advance span).2.timetable.dueAt := by
  obtain ⟨passed, helapsed⟩ := passed_advance (Prod.ext h rfl) unstopped
  rw [helapsed, passed.timetable]
  exact Timetable.le_dueAt_after _ _

/-! ### Passing time again and again -/

/-- Let spans pass one after the other, going on after those that fail. -/
def passEach (spans : List Nat) (c : Console D I A) : Console D I A :=
  spans.foldl (fun c span => (c.advance span).2) c

omit [Input I] in
theorem went_passEach (spans : List Nat) (c : Console D I A) :
    Went c (c.happeningsAll spans) (c.passEach spans) := by
  induction spans generalizing c with
  | nil => exact .nothing c
  | cons span rest ih => exact (went_advance span c).trans (ih (c.advance span).2)

omit [Input I] in
/-- **A fault costs a slot and nothing else.** However a new console's time is cut into spans, and
whatever goes wrong in them: of all that happened, each event was one cycle or one tick of the
machine. The cycles have the instants from zero on, one every cycle of the settings, and the
ticks those from the first sixtieth of a second on; the next of either kind is due behind the
last. And a span that passes without a fault, and that no setting cuts short, leaves nothing
overdue. -/
theorem passEach_slots (machine : Machine) (display : D) (input : I) (audio : A)
    (journal : Journal) (spans : List Nat) :
    let c := new machine display input audio journal
    let c' := c.passEach spans
    let hs := c.happeningsAll spans
    let steps := hs.countP (·.event = .step)
    let ticks := hs.countP (·.event = .tick)
    machine.Underwent (hs.map Happening.event) c'.machine ∧
      instants .step (hs.map Happening.entry) = List.range' 0 steps machine.settings.cycle ∧
      instants .tick (hs.map Happening.entry) = List.range' Timers.period ticks Timers.period ∧
      c'.timetable.stepAt = machine.settings.cycle * steps ∧
      c'.timetable.tickAt = Timers.period * (1 + ticks) ∧
      ∀ span p, (c'.advance span).1 = .ok p →
        ¬(p.halted = true ∧ machine.settings.exitOnHalt = true) →
        (c'.advance span).2.elapsed ≤ (c'.advance span).2.timetable.stepAt ∧
          (machine.settings.timerMode = .cooperative →
            (c'.advance span).2.elapsed ≤ (c'.advance span).2.timetable.tickAt) := by
  intro c c' hs steps ticks
  have went : Went c hs c' := went_passEach spans c
  obtain ⟨hstepInstants, hstepAt⟩ := Timetable.Took.steps_of_start went.timetable
  obtain ⟨htickInstants, htickAt⟩ := Timetable.Took.ticks_of_start went.timetable
  have hsteps : (instants .step (hs.map Happening.entry)).length = steps := length_instants .step hs
  have hticks : (instants .tick (hs.map Happening.entry)).length = ticks := length_instants .tick hs
  rw [hsteps] at hstepInstants hstepAt
  rw [hticks] at htickInstants htickAt
  refine ⟨went.machine, hstepInstants, htickInstants, hstepAt, htickAt, ?_⟩
  intro span p hok unstopped
  have hsettings : c'.machine.settings = machine.settings := went.machine.settings
  rw [← hsettings] at unstopped
  have ontime := ontime_advance hok unstopped
  have hticking : (c'.advance span).2.timetable.ticking =
      (machine.settings.timerMode == .cooperative) :=
    (went.trans (went_advance span c')).timetable.ticking
  refine ⟨ontime.trans (Timetable.dueAt_le_slot _ .step nofun), fun cooperative => ?_⟩
  refine ontime.trans (Timetable.dueAt_le_slot _ .tick fun _ => ?_)
  rw [hticking]
  exact beq_iff_eq.mpr cooperative

/-- A buzzer that cannot be turned on makes a cycle fail, then a tick, and then the end of a
span; once the tone is over, there is a return to nowhere. The next span goes on from there. -/
theorem passEach_slots_stuck :
    let machine := ((Machine.new { Settings.standard with speed := 40 } default).load
      [0x60, 0x02, 0xF0, 0x18, 0x00, 0xEE]).machine
    let c : Console HeadlessDisplay ScriptedInput (StuckAudio SilentAudio) :=
      new machine default default ⟨default, some true, "audio device went away"⟩ default
    let c' := c.passEach [40000000, 40000000, 40000000, 9999999, 1000000]
    (c.advance 40000000).1 = .error (.peripheral "audio device went away") ∧
      c'.elapsed = 49999999 ∧
      c'.timetable.stepAt = 75000000 ∧ c'.timetable.tickAt = 66666664 ∧
      (c'.advance 1000000).1 = .ok ⟨0, 0, false⟩ ∧
      (c'.advance 1000000).2.elapsed ≤ (c'.advance 1000000).2.timetable.stepAt ∧
      (c'.advance 1000000).2.elapsed ≤ (c'.advance 1000000).2.timetable.tickAt := by
  intro machine c c'
  have h : (c.advance 40000000).1 = .error (.peripheral "audio device went away") ∧
      c'.elapsed = 49999999 ∧ c'.timetable.stepAt = 75000000 ∧ c'.timetable.tickAt = 66666664 ∧
      (c'.advance 1000000).1 = .ok ⟨0, 0, false⟩ := by
    decide +kernel
  obtain ⟨failed, elapsed, stepAt, tickAt, hok⟩ := h
  obtain ⟨-, -, -, -, -, ontime⟩ := passEach_slots machine (default : HeadlessDisplay)
    (default : ScriptedInput)
    (⟨default, some true, "audio device went away"⟩ : StuckAudio SilentAudio) default
    [40000000, 40000000, 40000000, 9999999, 1000000]
  obtain ⟨step, tick⟩ := ontime 1000000 ⟨0, 0, false⟩ hok (by decide)
  refine ⟨failed, elapsed, stepAt, tickAt, hok, ?_⟩
  simp only [c', c]
  exact ⟨step, tick rfl⟩

end Console
end ChipEight
