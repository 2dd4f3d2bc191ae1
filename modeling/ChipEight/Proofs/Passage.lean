import Mathlib.Control.Monad.Basic
import ChipEight.Console.Headless
import ChipEight.Console.Basic
import ChipEight.Proofs.Agenda
import ChipEight.Proofs.Course

/-! The passage of time on a console.

`happenings` is the record of a passage: every event the console lets happen, with the
instant it was due at and what it came to. `passed_advanceTo` compares it with the
timetable: as long as nothing fails and no setting ends the passage, what happens on the
way to a target is the timetable's agenda before it, each event once and in order, and
the machine is where these events lead it. Nothing about the program matters.

`advanceAll_onTime` is that for a console from its first instant on, over any spans. -/
namespace ChipEight

/-- The kind of event that comes to a beat. -/
def Beat.event : Beat → Event
  | .ticked => .tick
  | .executed | .waited | .halted => .step

/-- A machine after an event. A picture to be shown is taken after an instruction that ran,
and only then. -/
def Machine.undergo (m : Machine) : Event → Machine
  | .tick => m.tickBy 1
  | .step =>
    match m.step.result with
    | .ok (.executed _) => m.step.machine.takeFrame.2
    | _ => m.step.machine

theorem Machine.settings_undergo (m : Machine) (event : Event) :
    (m.undergo event).settings = m.settings := by
  cases event with
  | tick => rfl
  | step =>
    simp only [undergo]
    split
    · rw [takeFrame_eq]
      exact m.step_fixed.1
    · exact m.step_fixed.1

/-- A machine after events, one after the other. -/
def Machine.undergoAll (m : Machine) (events : List Event) : Machine :=
  events.foldl undergo m

theorem Machine.settings_undergoAll (m : Machine) (events : List Event) :
    (m.undergoAll events).settings = m.settings := by
  induction events generalizing m with
  | nil => rfl
  | cons event rest ih => exact (ih (m.undergo event)).trans (m.settings_undergo event)

/-- An event that was due, and what it came to. -/
structure Happening where
  instant : Nat
  event : Event
  result : Except Fault Beat

namespace Happening

/-- The event and its instant. -/
def entry (h : Happening) : Nat × Event := (h.instant, h.event)

/-- Whether an instruction ran. -/
def ran (h : Happening) : Bool :=
  match h.result with
  | .ok .executed => true
  | _ => false

/-- Whether the event came to what such an event can come to, and to no fault. -/
def Succeeds (h : Happening) : Prop := ∃ beat, h.result = .ok beat ∧ beat.event = h.event

end Happening

namespace Progress

/-- What happened in two passages together. -/
def add (p q : Progress) : Progress := ⟨p.steps + q.steps, p.ticks + q.ticks, p.halted || q.halted⟩

/-- What happened in passages together. -/
def total (ps : List Progress) : Progress := ps.foldr add none

theorem count_add (p q : Progress) (beat : Beat) : (p.add q).count beat = p.add (q.count beat) := by
  cases beat with
  | ticked => simp only [count, add, Nat.add_assoc]
  | executed => simp only [count, add, Nat.add_assoc]
  | waited => rfl
  | halted => simp only [count, add, Bool.or_true]

@[simp] theorem add_none (p : Progress) : p.add none = p := by
  simp only [add, none, Nat.add_zero, Bool.or_false]

@[simp] theorem none_add (p : Progress) : none.add p = p := by
  simp only [add, none, Nat.zero_add, Bool.false_or]

theorem add_assoc (p q r : Progress) : (p.add q).add r = p.add (q.add r) := by
  simp only [add, Nat.add_assoc, Bool.or_assoc]

end Progress

namespace Console

variable {D I A : Type} [Display D] [Input I] [Audio A]

/-! ### What each part of an event touches -/

omit [Display D] [Input I] in
theorem updateTone_eq (c : Console D I A) :
    c.updateTone.2 = { c with
      audio := c.updateTone.2.audio
      tone := c.updateTone.2.tone
      journal := c.updateTone.2.journal } := by
  simp only [updateTone]
  split
  · rfl
  · split <;> rfl

omit [Input I] [Audio A] in
theorem showFrame_eq (c : Console D I A) :
    c.showFrame.2 = { c with
      machine := c.machine.takeFrame.2
      display := c.showFrame.2.display
      journal := c.showFrame.2.journal } := by
  simp only [showFrame]
  split
  · rename_i machine htake
    have hmachine : machine = c.machine := by
      simp only [Machine.takeFrame] at htake
      split at htake <;> cases htake
      rfl
    rw [htake, hmachine]
  · rename_i htake
    rw [htake]
    rfl

omit [Input I] in
/-- An instruction that ran is settled by taking the picture, if all goes well. -/
theorem settle_ok {c c' : Console D I A} (h : c.settle = (.ok (), c')) :
    c'.machine = c.machine.takeFrame.2 ∧ c'.timetable = c.timetable := by
  have htone := c.updateTone_eq
  simp only [settle] at h
  split at h
  · cases h
  · rename_i middle hupdate
    rw [hupdate] at htone
    have hshow := middle.showFrame_eq
    rw [h] at hshow
    rw [show c' = _ from hshow, show middle = _ from htone]
    exact ⟨rfl, rfl⟩

/-- What a successful event does to a console. -/
structure Performed (c : Console D I A) (event : Event) (beat : Beat) (c' : Console D I A) :
    Prop where
  kind : beat.event = event
  machine : c'.machine = c.machine.undergo event
  timetable : c'.timetable = c.timetable

omit [Input I] in
theorem performed_perform {c c' : Console D I A} {event : Event} {beat : Beat}
    (h : c.perform event = (.ok beat, c')) : Performed c event beat c' := by
  cases event with
  | tick =>
    have htone := updateTone_eq { c with machine := c.machine.tickBy 1 }
    simp only [perform] at h
    split at h
    · cases h
    · rename_i hupdate
      cases h
      rw [hupdate] at htone
      rw [show c' = _ from htone]
      exact ⟨rfl, rfl, rfl⟩
  | step =>
    simp only [perform] at h
    split at h
    · cases h
    · rename_i hresult
      cases h
      exact ⟨rfl, by simp only [Machine.undergo, hresult, note], rfl⟩
    · rename_i hresult
      cases h
      exact ⟨rfl, by simp only [Machine.undergo, hresult, note], rfl⟩
    · rename_i hresult
      split at h
      · cases h
      · rename_i hsettle
        cases h
        obtain ⟨hmachine, htimetable⟩ := settle_ok hsettle
        exact ⟨rfl, by simp only [Machine.undergo, hresult, hmachine, note], htimetable⟩

/-! ### The record of a passage -/

/-- What happens on the way to a target, in order. An event that fails, or after which the
settings end the passage, is the last. -/
def happenings (target : Nat) (t : Timetable) (c : Console D I A) : List Happening :=
  if _ : t.dueAt < target then
    match _ : t.advance? with
    | none => []
    | some t' =>
      match { c with timetable := t' }.perform t.next with
      | (.error fault, _) => [⟨t.dueAt, t.next, .error fault⟩]
      | (.ok beat, c) =>
        ⟨t.dueAt, t.next, .ok beat⟩ ::
          if c.stopsAfter beat then [] else happenings target t' c
  else []
termination_by t.distance target
decreasing_by
  rw [Timetable.eq_advance_of_advance? ‹t.advance? = some t'›]
  exact Timetable.distance_advance ‹t.dueAt < target›

/-- What happens in a span, in order. -/
def happeningsIn (span : Nat) (c : Console D I A) : List Happening :=
  match Span.add? c.elapsed span with
  | none => []
  | some target => c.happenings target c.timetable

/-- A passage that got to a target, on which these things happened and the counts went from
one progress to another. -/
structure Passed (target : Nat) (c : Console D I A) (p : Progress) (hs : List Happening)
    (q : Progress) (c' : Console D I A) : Prop where
  entries : hs.map Happening.entry = c.timetable.eventsBefore target
  succeeds : ∀ h ∈ hs, h.Succeeds
  machine : c'.machine = c.machine.undergoAll (hs.map Happening.event)
  timetable : c'.timetable = c.timetable.after target
  steps : q.steps = p.steps + hs.countP Happening.ran
  ticks : q.ticks = p.ticks + hs.countP (·.event = .tick)

theorem steps_count (p : Progress) (beat : Beat) :
    (p.count beat).steps = p.steps + if beat = .executed then 1 else 0 := by
  cases beat <;> rfl

theorem ticks_count (p : Progress) (beat : Beat) :
    (p.count beat).ticks = p.ticks + if beat.event = .tick then 1 else 0 := by
  cases beat <;> rfl

omit [Input I] in
/-- A passage that succeeds and that no setting ends gets to its target. -/
theorem passed_advanceTo {target : Nat} {t : Timetable} {c c' : Console D I A} {p q : Progress}
    (h : advanceTo target t c p = (.ok q, c')) (ht : c.timetable = t)
    (unstopped : ¬(q.halted = true ∧ c.machine.settings.exitOnHalt = true)) :
    Passed target c p (happenings target t c) q c' := by
  fun_induction advanceTo target t c p with
  | case1 => cases h
  | case2 => cases h
  | case3 t c p due t' hadvance beat c₁ hperform hstop =>
    -- the settings ended the passage, and its progress says so
    cases h
    have hp := performed_perform hperform
    simp only [stopsAfter, Bool.and_eq_true, beq_iff_eq] at hstop
    obtain ⟨rfl, hexit⟩ := hstop
    rw [hp.machine, Machine.settings_undergo] at hexit
    exact absurd ⟨rfl, hexit⟩ unstopped
  | case4 t c p due t' hadvance beat c₁ hperform hstop ih =>
    have hp := performed_perform hperform
    have ht' := Timetable.eq_advance_of_advance? hadvance
    rw [hp.machine, Machine.settings_undergo] at ih
    replace ih := ih h hp.timetable unstopped
    have hfirst : happenings target t c =
        ⟨t.dueAt, t.next, .ok beat⟩ :: happenings target t' c₁ := by
      -- the record takes the branches that the passage took
      rw [happenings, dif_pos due]
      split
      · simp_all
      · simp_all
    have hagenda : c.timetable.eventsBefore target =
        (t.dueAt, t.next) :: c₁.timetable.eventsBefore target := by
      rw [ht, hp.timetable, Timetable.eventsBefore, dif_pos due, ht']
    rw [hfirst]
    refine ⟨?_, ?_, ?_, ?_, ?_, ?_⟩
    · rw [List.map_cons, ih.entries, hagenda]
      rfl
    · exact List.forall_mem_cons.mpr ⟨⟨beat, rfl, hp.kind⟩, ih.succeeds⟩
    · rw [ih.machine, hp.machine]
      rfl
    · rw [ih.timetable, hp.timetable, ht, Timetable.after.eq_def target t, dif_pos due, ht']
    · rw [ih.steps, steps_count, List.countP_cons]
      cases beat with
      | executed =>
        simp only [Happening.ran, if_true]
        omega
      | _ => simp [Happening.ran]
    · rw [ih.ticks, ticks_count, List.countP_cons, hp.kind]
      simp only [decide_eq_true_eq]
      omega
  | case5 t c p due =>
    cases h
    have hle : target ≤ c'.timetable.dueAt := ht ▸ Nat.le_of_not_lt due
    have hnone : happenings target t c' = [] := by rw [happenings, dif_neg due]
    rw [hnone]
    exact ⟨(Timetable.eventsBefore_of_le hle).symm, by simp, rfl,
      (Timetable.after_of_le hle).symm, rfl, rfl⟩

omit [Input I] in
/-- A span that passes without a fault, and that no setting cuts short, passes to its end. -/
theorem passed_advance {span : Nat} {c c' : Console D I A} {q : Progress}
    (h : c.advance span = (.ok q, c'))
    (unstopped : ¬(q.halted = true ∧ c.machine.settings.exitOnHalt = true)) :
    Passed (c.elapsed + span) c .none (c.happeningsIn span) q c' ∧
      c'.elapsed = c.elapsed + span := by
  simp only [advance] at h
  split at h
  · cases h
  · rename_i target hadd
    have htarget : target = c.elapsed + span := Span.eq_of_add? hadd
    split at h
    · cases h
    · rename_i progress middle hto
      have htone := updateTone_eq { middle with elapsed := target }
      split at h
      · cases h
      · rename_i hupdate
        cases h
        rw [hupdate] at htone
        have passed := passed_advanceTo hto rfl unstopped
        have hin : c.happeningsIn span = happenings target c.timetable c := by
          simp only [happeningsIn, hadd]
        rw [hin, ← htarget, show c' = _ from htone]
        exact ⟨{passed with}, rfl⟩

/-! ### Spans in a row -/

/-- Let spans pass one after the other. -/
def advanceAll : List Nat → Console D I A → Except Fault (List Progress) × Console D I A
  | [], c => (.ok [], c)
  | span :: rest, c =>
    match c.advance span with
    | (.error fault, c) => (.error fault, c)
    | (.ok p, c) =>
      match advanceAll rest c with
      | (.error fault, c) => (.error fault, c)
      | (.ok ps, c) => (.ok (p :: ps), c)

/-- What happens in spans one after the other. -/
def happeningsAll : List Nat → Console D I A → List Happening
  | [], _ => []
  | span :: rest, c => c.happeningsIn span ++ happeningsAll rest (c.advance span).2

omit [Display D] [Input I] [Audio A] in
/-- A passage that goes on from where another ended. -/
theorem Passed.trans {cut target : Nat} {c c₁ c' : Console D I A} {hs ks : List Happening}
    {p q : Progress} (h : Passed cut c .none hs p c₁) (k : Passed target c₁ .none ks q c')
    (hle : cut ≤ target) : Passed target c .none (hs ++ ks) (p.add q) c' where
  entries := by
    rw [List.map_append, h.entries, k.entries, h.timetable,
      Timetable.eventsBefore_append hle c.timetable]
  succeeds := List.forall_mem_append.mpr ⟨h.succeeds, k.succeeds⟩
  machine := by
    rw [k.machine, h.machine, List.map_append]
    exact List.foldl_append.symm
  timetable := by rw [k.timetable, h.timetable, Timetable.after_after hle]
  steps := by
    rw [List.countP_append, Progress.add, h.steps, k.steps]
    simp only [Progress.none, Nat.zero_add]
  ticks := by
    rw [List.countP_append, Progress.add, h.ticks, k.ticks]
    simp only [Progress.none, Nat.zero_add]

omit [Display D] [Input I] [Audio A] in
theorem Passed.settings {target : Nat} {c c' : Console D I A} {hs : List Happening}
    {p q : Progress} (h : Passed target c p hs q c') :
    c'.machine.settings = c.machine.settings := by
  rw [h.machine, Machine.settings_undergoAll]

omit [Input I] in
/-- Spans in a row are one passage to their end, as long as nothing was overdue. -/
theorem passed_advanceAll {spans : List Nat} {c c' : Console D I A} {ps : List Progress}
    (h : c.advanceAll spans = (.ok ps, c')) (ontime : c.elapsed ≤ c.timetable.dueAt)
    (unstopped : ∀ p ∈ ps, ¬(p.halted = true ∧ c.machine.settings.exitOnHalt = true)) :
    Passed (c.elapsed + spans.sum) c .none (c.happeningsAll spans) (.total ps) c' ∧
      c'.elapsed = c.elapsed + spans.sum := by
  induction spans generalizing c ps with
  | nil =>
    cases h
    exact ⟨⟨(Timetable.eventsBefore_of_le ontime).symm, by simp [happeningsAll], rfl,
      (Timetable.after_of_le ontime).symm, rfl, rfl⟩, rfl⟩
  | cons span rest ih =>
    simp only [advanceAll] at h
    split at h
    · cases h
    · rename_i p c₁ hfirst
      split at h
      · cases h
      · rename_i qs c₂ hrest
        cases h
        obtain ⟨hp, hqs⟩ := List.forall_mem_cons.mp unstopped
        obtain ⟨passed, helapsed⟩ := passed_advance hfirst hp
        -- what a span leaves for later is due no earlier than its end
        have ontime₁ : c₁.elapsed ≤ c₁.timetable.dueAt := by
          rw [helapsed, passed.timetable]
          exact Timetable.le_dueAt_after _ _
        rw [← passed.settings] at hqs
        obtain ⟨passed', helapsed'⟩ := ih hrest ontime₁ hqs
        rw [helapsed, Nat.add_assoc] at passed' helapsed'
        rw [List.sum_cons, happeningsAll, hfirst]
        exact ⟨passed.trans passed' (by omega), helapsed'⟩

/-- What happens to a console on time, before a total has passed: an instruction every cycle of
the settings from instant zero on, and, if the settings leave the ticks to the console, one
every sixtieth of a second but at instant zero. Nothing else happens, and nothing fails. -/
structure OnTime (settings : Settings) (total : Nat) (hs : List Happening) : Prop where
  inOrder : (hs.map Happening.entry).Pairwise Before
  steps : instants .step (hs.map Happening.entry) =
    (List.range (total ⌈/⌉ settings.cycle)).map (· * settings.cycle)
  ticks : instants .tick (hs.map Happening.entry) =
    if settings.timerMode = .cooperative then
      (List.range (total ⌈/⌉ Timers.period - 1)).map fun k => (k + 1) * Timers.period
    else []
  succeeds : ∀ h ∈ hs, h.Succeeds

theorem length_instants (event : Event) (hs : List Happening) :
    (instants event (hs.map Happening.entry)).length = hs.countP (·.event = event) := by
  rw [instants, List.length_map, ← List.countP_eq_length_filter, List.countP_map]
  rfl

/-- As many instructions are due as cycles begin. -/
theorem OnTime.countP_step {settings : Settings} {total : Nat} {hs : List Happening}
    (h : OnTime settings total hs) :
    hs.countP (·.event = .step) = total ⌈/⌉ settings.cycle := by
  rw [← length_instants, h.steps, List.length_map, List.length_range]

/-- As many ticks are due as sixtieths of a second begin, without the first. -/
theorem OnTime.countP_tick {settings : Settings} {total : Nat} {hs : List Happening}
    (h : OnTime settings total hs) :
    hs.countP (·.event = .tick) =
      if settings.timerMode = .cooperative then total ⌈/⌉ Timers.period - 1 else 0 := by
  rw [← length_instants, h.ticks]
  split
  · rw [List.length_map, List.length_range]
  · rfl

omit [Display D] [Input I] [Audio A] in
theorem Passed.onTime {machine : Machine} {display : D} {input : I} {audio : A}
    {journal : Journal} {total : Nat} {p q : Progress} {hs : List Happening} {c' : Console D I A}
    (h : Passed total (new machine display input audio journal) p hs q c') :
    OnTime machine.settings total hs where
  inOrder := h.entries ▸ Timetable.pairwise_eventsBefore total _
  steps := by
    rw [h.entries, Timetable.instants_step]
    exact every_zero machine.settings.cycle total
  ticks := by
    rw [h.entries, Timetable.instants_tick]
    simp only [new, Timetable.start, beq_iff_eq, every_period Timetable.period_pos]
  succeeds := h.succeeds

omit [Input I] in
/-- **What happens on a console is what falls due, on time.** However its time is sliced into
spans and whatever the program does, as long as nothing fails and no setting ends a span:
every instruction and every tick that is due before the end happens at its instant, in
order, and nothing else happens to the machine. -/
theorem advanceAll_onTime (machine : Machine) (display : D) (input : I) (audio : A)
    (journal : Journal) (spans : List Nat) (ps : List Progress)
    (h : ((new machine display input audio journal).advanceAll spans).1 = .ok ps)
    (unstopped : ∀ p ∈ ps, ¬(p.halted = true ∧ machine.settings.exitOnHalt = true)) :
    let c := new machine display input audio journal
    let hs := c.happeningsAll spans
    OnTime machine.settings spans.sum hs ∧
      hs.countP (·.event = .step) = spans.sum ⌈/⌉ machine.settings.cycle ∧
      hs.countP (·.event = .tick) =
        (if machine.settings.timerMode = .cooperative then spans.sum ⌈/⌉ Timers.period - 1
          else 0) ∧
      (Progress.total ps).steps = hs.countP Happening.ran ∧
      (Progress.total ps).ticks = hs.countP (·.event = .tick) ∧
      (c.advanceAll spans).2.machine = machine.undergoAll (hs.map Happening.event) ∧
      (c.advanceAll spans).2.elapsed = spans.sum := by
  intro c hs
  obtain ⟨passed, helapsed⟩ := passed_advanceAll (Prod.ext h rfl) (Nat.zero_le _) unstopped
  rw [show c.elapsed + spans.sum = spans.sum from Nat.zero_add _] at passed helapsed
  have onTime : OnTime machine.settings spans.sum hs := passed.onTime
  exact ⟨onTime, onTime.countP_step, onTime.countP_tick, passed.steps.trans (Nat.zero_add _),
    passed.ticks.trans (Nat.zero_add _), passed.machine, helapsed⟩

/-- A tick and an instruction that fall due together: the tick comes first. -/
theorem advanceAll_onTime_tie :
    let machine := Machine.new {Settings.standard with speed := 60} default
    let c : Console HeadlessDisplay ScriptedInput SilentAudio :=
      new machine default default default default
    (c.advanceAll [16666666, 1]).1 = .ok [⟨1, 0, false⟩, ⟨1, 1, false⟩] ∧
      OnTime machine.settings [16666666, 1].sum (c.happeningsAll [16666666, 1]) ∧
      (c.happeningsAll [16666666, 1]).map Happening.entry =
        [(0, .step), (16666666, .tick), (16666666, .step)] := by
  intro machine c
  have h : (c.advanceAll [16666666, 1]).1 = .ok [⟨1, 0, false⟩, ⟨1, 1, false⟩] := by
    decide +kernel
  have unstopped : ∀ p ∈ [(⟨1, 0, false⟩ : Progress), ⟨1, 1, false⟩],
      ¬(p.halted = true ∧ machine.settings.exitOnHalt = true) := by
    decide
  exact ⟨h, (advanceAll_onTime machine _ _ _ _ _ _ h unstopped).1, by decide +kernel⟩

end Console
end ChipEight
