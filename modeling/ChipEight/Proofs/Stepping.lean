import ChipEight.Proofs.Clock
import ChipEight.Proofs.Deeds
import ChipEight.Proofs.Frames
import ChipEight.Proofs.Reliable
import ChipEight.Proofs.Slots

/-! The cycles that are taken while time passes.

`cyclesTo` are the machines whose cycles a passage of time takes, in order. Which they are is
decided by the events alone (`cyclesTo_eq_stepped`), so what is true of them can be shown for a
machine to which events happen, with no console around it.

A console that has come through nothing but successes (`Reached`) has its next cycle due less than
one cycle after the time that has passed. So a passage that is as long as a cycle takes one, if
nothing but the machine can fail and the clock can count that far: `step_mem_happeningsIn`. -/
namespace ChipEight

namespace Machine

/-- The machines whose cycles are taken where events happen to a machine, one after the other. -/
def stepped (m : Machine) : List Event → List Machine
  | [] => []
  | .tick :: rest => (m.undergo .tick).stepped rest
  | .step :: rest => m :: (m.undergo .step).stepped rest

/-- The machine, if the event is its cycle. -/
def cycleOf (m : Machine) : Event → List Machine
  | .tick => []
  | .step => [m]

theorem stepped_cons (m : Machine) (event : Event) (rest : List Event) :
    m.stepped (event :: rest) = m.cycleOf event ++ (m.undergo event).stepped rest := by
  cases event <;> rfl

/-- What every event keeps is so at every cycle. -/
theorem stepped_keeps {P : Machine → Prop} (kept : ∀ m event, P m → P (m.undergo event))
    {m : Machine} (holds : P m) (events : List Event) : ∀ c ∈ m.stepped events, P c := by
  induction events generalizing m with
  | nil => exact List.forall_mem_nil _
  | cons event rest ih =>
    have hrest := ih (kept m event holds)
    cases event with
    | tick => exact hrest
    | step => exact List.forall_mem_cons.mpr ⟨holds, hrest⟩

/-- Up to the first cycle only the timers move. -/
theorem exists_stepped (m : Machine) {events : List Event} (h : .step ∈ events) :
    ∃ timers after, m.stepped events =
      { m with timers } :: (({ m with timers } : Machine).undergo .step).stepped after := by
  induction events generalizing m with
  | nil => cases h
  | cons event rest ih =>
    cases event with
    | step => exact ⟨m.timers, rest, rfl⟩
    | tick =>
      obtain ⟨timers, after, hstepped⟩ := ih (m.tickBy 1) (by simpa using h)
      exact ⟨timers, after, hstepped⟩

end Machine

namespace Console

variable {D I A : Type} [Display D] [Audio A]

/-- The machines whose cycles are taken on the way to a target, in order. -/
def cyclesTo (target : Nat) (t : Timetable) (c : Console D I A) : List Machine :=
  if _ : t.dueAt < target then
    match _ : t.advance? with
    | none => []
    | some t' =>
      match { c with timetable := t' }.perform t.next with
      | (.error _, _) => c.machine.cycleOf t.next
      | (.ok beat, c') =>
        c.machine.cycleOf t.next ++
          if c'.stopsAfter beat then [] else cyclesTo target t' c'
  else []
termination_by t.distance target
decreasing_by
  rw [Timetable.eq_advance_of_advance? ‹t.advance? = some t'›]
  exact Timetable.distance_advance ‹t.dueAt < target›

/-- The machines whose cycles a span of time takes, in order. -/
def cyclesIn (span : Nat) (c : Console D I A) : List Machine :=
  match Span.add? c.elapsed span with
  | none => []
  | some target => c.cyclesTo target c.timetable

/-- **The events decide which cycles are taken.** -/
theorem cyclesTo_eq_stepped (target : Nat) (t : Timetable) (c : Console D I A) :
    cyclesTo target t c = c.machine.stepped ((happenings target t c).map Happening.event) := by
  fun_induction cyclesTo target t c with
  | case1 t c due hnone =>
    rw [happenings_overflow due hnone]
    rfl
  | case2 t c due t' ht fault c' hperform =>
    rw [happenings_error due ht hperform, List.map_singleton, Machine.stepped_cons]
    exact (List.append_nil _).symm
  | case3 t c due t' ht beat c' hperform ih =>
    by_cases stops : c'.stopsAfter beat = true
    · rw [happenings_stop due ht hperform stops, List.map_singleton, Machine.stepped_cons,
        if_pos stops]
      rfl
    · rw [happenings_next due ht hperform (by simpa using stops), List.map_cons,
        Machine.stepped_cons, if_neg stops, ih, (performed_perform hperform).machine]
  | case4 t c due =>
    rw [happenings_of_le (Nat.le_of_not_lt due)]
    rfl

theorem cyclesIn_eq_stepped (span : Nat) (c : Console D I A) :
    c.cyclesIn span = c.machine.stepped ((c.happeningsIn span).map Happening.event) := by
  rw [cyclesIn, happeningsIn]
  cases Span.add? c.elapsed span with
  | none => rfl
  | some target => exact cyclesTo_eq_stepped target c.timetable c

/-! ### A passage takes the cycles that are due -/

section Reliable

variable [Display.Reliable D] [Audio.Reliable A]

/-- On the way to a target behind the next cycle a cycle is taken, or the clock is outrun. -/
theorem step_mem_happenings {target : Nat} {t : Timetable} {c : Console D I A} {p : Progress}
    (due : t.stepAt < target) :
    .step ∈ (happenings target t c).map Happening.event ∨
      (advanceTo target t c p).1 = .error .clockOverflow := by
  fun_induction advanceTo target t c p with
  | case1 => exact .inr rfl
  | case2 t c p hdue t' ht fault c' hperform =>
    rw [happenings_error hdue ht hperform]
    have hresult := perform_reliable { c with timetable := t' } t.next
    cases hnext : t.next with
    | step => exact .inl (List.mem_singleton_self _)
    | tick =>
      rw [hperform, hnext] at hresult
      cases hresult
  | case3 t c p hdue t' ht beat c' hperform stops =>
    rw [happenings_stop hdue ht hperform stops]
    have hkind := (performed_perform hperform).kind
    simp only [stopsAfter, Bool.and_eq_true, beq_iff_eq] at stops
    rw [← hkind, stops.1]
    exact .inl (List.mem_singleton_self _)
  | case4 t c p hdue t' ht beat c' hperform goesOn ih =>
    rw [happenings_next hdue ht hperform (by simpa using goesOn), List.map_cons]
    cases hnext : t.next with
    | step => exact .inl (List.mem_cons_self ..)
    | tick =>
      have hslot := t.slot_advance .step
      rw [hnext, ← Timetable.eq_advance_of_advance? ht] at hslot
      have hsame : t'.stepAt = t.stepAt := hslot
      exact (ih (hsame ▸ due)).imp_left (List.mem_cons_of_mem _)
  | case5 t c p hdue =>
    have hslot : t.dueAt ≤ t.stepAt := t.dueAt_le_slot .step (by simp)
    omega

theorem step_mem_happeningsIn {span : Nat} {c : Console D I A}
    (due : c.timetable.stepAt < c.elapsed + span) :
    .step ∈ (c.happeningsIn span).map Happening.event ∨
      (c.advance span).1 = .error .clockOverflow := by
  rw [happeningsIn]
  cases hadd : Span.add? c.elapsed span with
  | none =>
    rw [advance_overflow hadd]
    exact .inr rfl
  | some target =>
    rw [← Span.eq_of_add? hadd] at due
    refine (step_mem_happenings (p := .none) due).imp_right fun hover => ?_
    rw [advance_of_add? hadd]
    generalize advanceTo target c.timetable c .none = reply at hover ⊢
    rcases reply with ⟨fault | q, c'⟩ <;> cases hover
    rfl

/-! ### A passage over which the program waits -/

/-- An event of a machine whose cycle waits. -/
theorem perform_waiting {c : Console D I A} {event : Event}
    (waits : ∀ m ∈ c.machine.cycleOf event, m.step.result = .ok .awaitingKey) :
    (c.perform event).1 = .ok .ticked ∨ (c.perform event).1 = .ok .waited := by
  rw [perform_reliable]
  cases event with
  | tick => exact .inl rfl
  | step =>
    rw [waits c.machine (List.mem_singleton_self _)]
    exact .inr rfl

/-- While every cycle waits, nothing stops a passage but the clock. -/
theorem advanceTo_waiting {target : Nat} {t : Timetable} {c : Console D I A} {p : Progress}
    (waits : ∀ m ∈ cyclesTo target t c, m.step.result = .ok .awaitingKey) :
    (advanceTo target t c p).1 = .error .clockOverflow ∨
      ∃ q, (advanceTo target t c p).1 = .ok q ∧ q.halted = p.halted := by
  rw [cyclesTo_eq_stepped] at waits
  fun_induction advanceTo target t c p with
  | case1 => exact .inl rfl
  | case2 t c p due t' ht fault c' hperform =>
    rw [happenings_error due ht hperform, List.map_singleton, Machine.stepped_cons,
      List.forall_mem_append] at waits
    rcases perform_waiting (c := { c with timetable := t' }) waits.1 with h | h <;>
      rw [hperform] at h <;> cases h
  | case3 t c p due t' ht beat c' hperform stops =>
    rw [happenings_stop due ht hperform stops, List.map_singleton, Machine.stepped_cons,
      List.forall_mem_append] at waits
    rcases perform_waiting (c := { c with timetable := t' }) waits.1 with h | h <;>
      rw [hperform] at h <;> cases h <;> cases stops
  | case4 t c p due t' ht beat c' hperform goesOn ih =>
    rw [happenings_next due ht hperform (by simpa using goesOn), List.map_cons,
      Machine.stepped_cons, List.forall_mem_append] at waits
    have hmachine := (performed_perform hperform).machine
    have hcount : (p.count beat).halted = p.halted := by
      rcases perform_waiting (c := { c with timetable := t' }) waits.1 with h | h <;>
        rw [hperform] at h <;> cases h <;> rfl
    rw [← hcount]
    refine ih ?_
    rw [hmachine]
    exact waits.2
  | case5 t c p due => exact .inr ⟨p, rfl, rfl⟩

theorem advance_waiting {span : Nat} {c : Console D I A}
    (waits : ∀ m ∈ c.cyclesIn span, m.step.result = .ok .awaitingKey) :
    (c.advance span).1 = .error .clockOverflow ∨
      ∃ q, (c.advance span).1 = .ok q ∧ q.halted = false := by
  rw [cyclesIn] at waits
  cases hadd : Span.add? c.elapsed span with
  | none =>
    rw [advance_overflow hadd]
    exact .inl rfl
  | some target =>
    rw [hadd] at waits
    have hto := advanceTo_waiting (p := .none) waits
    rw [advance_of_add? hadd]
    generalize advanceTo target c.timetable c .none = reply at hto ⊢
    rcases reply with ⟨fault | q, c'⟩
    · exact hto.imp id fun ⟨_, h, _⟩ => nomatch h
    · simp only
      rw [updateTone_reliable]
      exact hto.imp nofun id

end Reliable

/-- The clock is outrun only within a second of its limit. -/
theorem late_of_overflow {span : Nat} {c : Console D I A}
    (cycle : c.timetable.cycle ≤ Span.second)
    (h : (c.advance span).1 = .error .clockOverflow) :
    Span.limit ≤ c.elapsed + span + Span.second :=
  Nat.le_of_not_lt fun fits => advance_within_clock cycle fits h

/-! ### The next cycle is never far ahead -/

/-- Taking an event before a target leaves the next cycle less than a cycle behind the target. -/
theorem stepAt_advance_lt {t : Timetable} {target : Nat} (due : t.dueAt < target)
    (ahead : t.stepAt < target + t.cycle) : t.advance.stepAt < target + t.cycle := by
  have hslot : t.advance.stepAt = if t.next = .step then t.stepAt + t.cycle else t.stepAt :=
    t.slot_advance .step
  have hdue := t.dueAt_eq_slot
  rw [hslot]
  split
  · rename_i hnext
    rw [hnext] at hdue
    have hstep : t.dueAt = t.stepAt := hdue
    omega
  · exact ahead

theorem stepAt_advanceTo {target : Nat} {t : Timetable} {c : Console D I A} {p : Progress}
    (ht : c.timetable = t) (ahead : t.stepAt < target + t.cycle) :
    (advanceTo target t c p).2.timetable.stepAt < target + t.cycle ∧
      (advanceTo target t c p).2.timetable.cycle = t.cycle := by
  have event {t t' : Timetable} {c c' : Console D I A} {r : Except Fault Beat}
      (due : t.dueAt < target) (ahead : t.stepAt < target + t.cycle)
      (hadvance : t.advance? = some t')
      (hperform : { c with timetable := t' }.perform t.next = (r, c')) :
      c'.timetable = t' ∧ t'.stepAt < target + t.cycle ∧ t'.cycle = t.cycle := by
    have hkept := (underwent_perform { c with timetable := t' } t.next).2
    rw [hperform] at hkept
    obtain rfl := Timetable.eq_advance_of_advance? hadvance
    exact ⟨hkept, stepAt_advance_lt due ahead, t.cycle_advance⟩
  fun_induction advanceTo target t c p with
  | case1 t c p due hnone =>
    rw [ht]
    exact ⟨ahead, rfl⟩
  | case2 t c p due t' hadvance fault c' hperform =>
    obtain ⟨hkept, hahead, hcycle⟩ := event due ahead hadvance hperform
    rw [hkept]
    exact ⟨hahead, hcycle⟩
  | case3 t c p due t' hadvance beat c' hperform stops =>
    obtain ⟨hkept, hahead, hcycle⟩ := event due ahead hadvance hperform
    rw [hkept]
    exact ⟨hahead, hcycle⟩
  | case4 t c p due t' hadvance beat c' hperform goesOn ih =>
    obtain ⟨hkept, hahead, hcycle⟩ := event due ahead hadvance hperform
    rw [← hcycle] at hahead ⊢
    exact ih hkept hahead
  | case5 t c p due =>
    rw [ht]
    exact ⟨ahead, rfl⟩

/-- The next cycle is due less than one cycle after the time that has passed. -/
def Ahead (c : Console D I A) : Prop := c.timetable.stepAt < c.elapsed + c.timetable.cycle

/-- A span that passes without a fault keeps the next cycle near. -/
theorem Ahead.advance {span : Nat} {c c' : Console D I A} {p : Progress} (h : c.Ahead)
    (ok : c.advance span = (.ok p, c')) : c'.Ahead := by
  cases hadd : Span.add? c.elapsed span with
  | none =>
    rw [advance_overflow hadd] at ok
    cases ok
  | some target =>
    have htarget := Span.eq_of_add? hadd
    have ahead : c.timetable.stepAt < target + c.timetable.cycle := by
      have hnear : c.timetable.stepAt < c.elapsed + c.timetable.cycle := h
      omega
    have hto := stepAt_advanceTo (p := .none) rfl ahead
    rw [advance_of_add? hadd] at ok
    generalize advanceTo target c.timetable c .none = reply at hto ok
    rcases reply with ⟨fault | q, c₁⟩
    · cases ok
    · have htone := updateTone_eq { c₁ with elapsed := target }
      simp only at ok
      split at ok <;> rename_i hupdate <;> cases ok
      rw [hupdate] at htone
      rw [Ahead, show c' = _ from htone, hto.2]
      exact hto.1

/-! ### Consoles that nothing went wrong with -/

variable [Input I]

/-- From one console to another by spans and frames that end well, and by runs that begin well,
however they are ended. -/
inductive Reached (c₀ : Console D I A) : Console D I A → Prop where
  | refl : Reached c₀ c₀
  | advance {c c' : Console D I A} {span : Nat} {p : Progress} (earlier : Reached c₀ c)
      (ok : c.advance span = (.ok p, c')) : Reached c₀ c'
  | frame {c c' : Console D I A} {gap : Gap} {standing : Standing} (earlier : Reached c₀ c)
      (ok : c.frame gap = (.ok standing, c')) : Reached c₀ c'
  | start {c c' : Console D I A} {threadFailure : Option String} (earlier : Reached c₀ c)
      (ok : c.start threadFailure = (.ok (), c')) : Reached c₀ c'
  | finish {c : Console D I A} (ticks : Nat) (result : Except Fault Unit)
      (earlier : Reached c₀ c) : Reached c₀ (c.finish ticks result).2

theorem Reached.of_frame {c₀ c : Console D I A} {gap : Gap} {standing : Standing}
    (earlier : Reached c₀ c) (ok : (c.frame gap).1 = .ok standing) :
    Reached c₀ (c.frame gap).2 :=
  earlier.frame (Prod.ext ok rfl)

/-- A frame that ends well keeps the next cycle near. -/
theorem Ahead.frame {gap : Gap} {c c' : Console D I A} {standing : Standing} (h : c.Ahead)
    (ok : c.frame gap = (.ok standing, c')) : c'.Ahead := by
  have hpolled : (c.polled gap).Ahead := by
    obtain ⟨keypad, journal, hpolled⟩ := c.polled_eq gap
    rw [hpolled]
    exact h
  have hobey := obey_of_frame ok
  cases hwish : c.wish with
  | quit =>
    rw [hwish] at hobey
    cases hobey
    exact hpolled
  | rewind =>
    have went := (wentBack_frame ok hwish).1
    rw [Ahead, went.timetable, went.elapsed]
    exact h
  | run | fastForward =>
    obtain ⟨p, hadvance, -⟩ := advance_of_frame ok (by rw [hwish]; nofun) (by rw [hwish]; nofun)
    exact hpolled.advance hadvance

theorem Reached.ahead {c₀ c : Console D I A} (h : Reached c₀ c) (first : c₀.Ahead) :
    c.Ahead := by
  induction h with
  | refl => exact first
  | advance _ ok ih => exact ih.advance ok
  | frame _ ok ih => exact ih.frame ok
  | start _ ok ih =>
    obtain ⟨-, helapsed, htimetable⟩ := start_keeps ok
    rw [Ahead, helapsed, htimetable]
    exact ih
  | @finish c ticks result _ ih =>
    have wound := c.woundUp_finish ticks result
    rw [Ahead, wound.elapsed, wound.timetable]
    exact ih

theorem Reached.did {c₀ c : Console D I A} (h : Reached c₀ c) : ∃ deeds, Did c₀ deeds c := by
  induction h with
  | refl => exact ⟨_, .nothing _⟩
  | @advance c c' span p _ ok ih =>
    obtain ⟨first, hfirst⟩ := ih
    obtain ⟨second, hsecond, -⟩ := c.does_advance span
    rw [ok] at hsecond
    exact ⟨_, hfirst.trans hsecond⟩
  | @frame c c' gap standing _ ok ih =>
    obtain ⟨first, hfirst⟩ := ih
    obtain ⟨second, hsecond, -⟩ := c.does_frame gap
    rw [ok] at hsecond
    exact ⟨_, hfirst.trans hsecond⟩
  | @start c c' threadFailure _ ok ih =>
    obtain ⟨first, hfirst⟩ := ih
    obtain ⟨second, hsecond, -⟩ := c.does_start threadFailure
    rw [ok] at hsecond
    exact ⟨_, hfirst.trans hsecond⟩
  | @finish c ticks result _ ih =>
    obtain ⟨first, hfirst⟩ := ih
    exact ⟨_, hfirst.trans (c.did_finish ticks result)⟩

/-- No deed changes the settings. -/
theorem Did.settings {c c' : Console D I A} {deeds : List Deed} (h : Did c deeds c') :
    c'.machine.settings = c.machine.settings := by
  induction h with
  | nothing => rfl
  | @aside c _ _ _ change _ ih =>
    refine ih.trans ?_
    cases change <;> rfl
  | @deed c _ _ act _ _ ih =>
    refine ih.trans ?_
    cases act with
    | step => exact c.machine.step_fixed.1
    | poll =>
      obtain ⟨_, _, h⟩ := c.act_poll
      rw [h]
    | tell on =>
      obtain ⟨_, _, _, h⟩ := c.act_tell on
      rw [h]
    | refresh picture => exact congrArg (·.settings) c.machine.takeFrame_eq
    | back =>
      simp only [act]
      rw [(c.machine.wentBack_rewindBy c.machine.settings.cyclesPerFrame).around]
    | startTicker failure =>
      obtain ⟨_, h⟩ := c.act_startTicker failure
      rw [h]
    | letGo ticks =>
      simp only [act, letGo]
      cases c.ticker <;> rfl
    | tick | present | hush | others | overrun => rfl

/-- The timetable of a new console goes by the cycle of its machine's settings for good. -/
theorem Reached.cycle {machine : Machine} {display : D} {input : I} {audio : A} {journal : Journal}
    {c : Console D I A} (h : Reached (new machine display input audio journal) c) :
    c.timetable.cycle = c.machine.settings.cycle := by
  obtain ⟨deeds, did⟩ := h.did
  rw [did.timetable, did.settings]
  rfl

omit [Display D] [Audio A] [Input I] in
theorem ahead_new (machine : Machine) (display : D) (input : I) (audio : A) (journal : Journal) :
    (new machine display input audio journal).Ahead := by
  show 0 < 0 + machine.settings.cycle
  have := machine.settings.cycle_pos
  omega

/-! ### The input waits for the next reading -/

omit [Input I] in
/-- No event notices the input. -/
theorem unnoticed_input (input : I) : Unnoticed fun c : Console D I A => { c with input } where
  machine _ := rfl
  tone _ := rfl
  setMachine _ _ := rfl
  setTimetable _ _ := rfl
  setTone _ _ := rfl
  note _ _ := rfl
  present _ _ := rfl
  tell _ _ := rfl

omit [Input I] in
theorem input_advance (span : Nat) (c : Console D I A) : (c.advance span).2.input = c.input := by
  cases hadd : Span.add? c.elapsed span with
  | none => rw [advance_overflow hadd]
  | some target =>
    -- With the input put back the passage is the same, so the input is what was put back.
    have hsame : advanceTo target c.timetable c .none =
        (advanceTo target c.timetable c .none).map id fun c' => { c' with input := c.input } :=
      (unnoticed_input c.input).advanceTo target c.timetable c .none
    have hinput : (advanceTo target c.timetable c .none).2.input = c.input :=
      congrArg (fun reply => reply.2.input) hsame
    rw [advance_of_add? hadd]
    generalize advanceTo target c.timetable c .none = reply at hinput ⊢
    rcases reply with ⟨fault | p, c'⟩
    · exact hinput
    · have htone := updateTone_eq { c' with elapsed := target }
      have hkept : { c' with elapsed := target }.updateTone.2.input = c.input :=
        (congrArg Console.input htone).trans hinput
      simp only
      generalize { c' with elapsed := target }.updateTone = reply at hkept ⊢
      rcases reply with ⟨_ | _, c''⟩ <;> exact hkept

end Console
end ChipEight
