import Mathlib.Algebra.Order.Floor.Div
import Mathlib.Data.Nat.Basic
import ChipEight.Console.Timetable

/-! The agenda of a timetable.

A timetable merges two endless rows of instants, one for instructions and one for ticks.
`eventsBefore` is the part of the merged row that lies before a target. Three facts fix
it: the instants of either kind are those of its own row (`instants_step`,
`instants_tick`), the whole is in order with the tick first where two fall together
(`pairwise_eventsBefore`), and it may be cut at any instant (`eventsBefore_append`). The
timetable after it has moved by the number of its instructions and of its ticks
(`after_eq_moved`). -/
namespace ChipEight

/-! ### Rows of instants -/

/-- The instants from a start on, one each period, before a target. -/
def every (period start target : Nat) : List Nat :=
  (List.range ((target - start) ⌈/⌉ period)).map fun k => start + k * period

theorem every_of_le {period start target : Nat} (h : target ≤ start) :
    every period start target = [] := by
  simp [every, Nat.sub_eq_zero_of_le h]

/-- The row begins at its start and goes on a period later. -/
theorem every_of_lt {period start target : Nat} (hp : 0 < period) (h : start < target) :
    every period start target = start :: every period (start + period) target := by
  have hceil : (target - start) ⌈/⌉ period = (target - (start + period)) ⌈/⌉ period + 1 := by
    rw [Nat.ceilDiv_eq_add_pred_div, Nat.ceilDiv_eq_add_pred_div, ← Nat.add_div_right _ hp]
    by_cases hle : start + period ≤ target
    · congr 1
      omega
    · rw [Nat.div_eq_of_lt_le (k := 1) (by omega) (by omega),
        Nat.div_eq_of_lt_le (k := 1) (by omega) (by omega)]
  rw [every, hceil, List.range_succ_eq_map, List.map_cons, List.map_map, Nat.zero_mul,
    Nat.add_zero]
  congr 1
  apply List.map_congr_left
  intro k _
  simp only [Function.comp, Nat.succ_mul]
  omega

theorem le_of_mem_every {period start target instant : Nat}
    (h : instant ∈ every period start target) : start ≤ instant := by
  simp only [every, List.mem_map] at h
  obtain ⟨k, _, rfl⟩ := h
  exact Nat.le_add_right _ _

/-- The row that begins at zero. -/
theorem every_zero (period target : Nat) :
    every period 0 target = (List.range (target ⌈/⌉ period)).map (· * period) := by
  simp [every]

/-- The row that begins after one period. -/
theorem every_period {period : Nat} (hp : 0 < period) (target : Nat) :
    every period period target =
      (List.range (target ⌈/⌉ period - 1)).map fun k => (k + 1) * period := by
  have hceil : (target - period) ⌈/⌉ period = target ⌈/⌉ period - 1 := by
    rw [Nat.ceilDiv_eq_add_pred_div, Nat.ceilDiv_eq_add_pred_div]
    by_cases hle : target ≤ period
    · have hone : (target + period - 1) / period ≤ 1 :=
        Nat.lt_succ_iff.mp (Nat.div_lt_of_lt_mul (by omega))
      rw [Nat.div_eq_of_lt (by omega)]
      omega
    · rw [show target + period - 1 = target - period + period - 1 + period by omega,
        Nat.add_div_right _ hp]
      rfl
  rw [every, hceil]
  apply List.map_congr_left
  intro k _
  rw [Nat.succ_mul, Nat.add_comm]

/-! ### Events in order -/

/-- The order of events: by instant, and the tick first. -/
def Before (a b : Nat × Event) : Prop :=
  a.1 < b.1 ∨ a.1 = b.1 ∧ a.2 = .tick ∧ b.2 = .step

/-- The instants of the events of one kind. -/
def instants (event : Event) (events : List (Nat × Event)) : List Nat :=
  (events.filter (·.2 = event)).map (·.1)

theorem mem_instants {event : Event} {events : List (Nat × Event)} {instant : Nat} :
    instant ∈ instants event events ↔ (instant, event) ∈ events := by
  simp [instants]

theorem instants_cons (event : Event) (e : Nat × Event) (events : List (Nat × Event)) :
    instants event (e :: events) =
      if e.2 = event then e.1 :: instants event events else instants event events := by
  simp only [instants, List.filter_cons, decide_eq_true_eq]
  split <;> rfl

namespace Timetable

/-- The timetable once all events before a target are over. -/
def after (target : Nat) (t : Timetable) : Timetable :=
  if _ : t.dueAt < target then after target t.advance else t
termination_by t.distance target
decreasing_by exact distance_advance ‹_›

theorem le_dueAt_after (target : Nat) (t : Timetable) : target ≤ (t.after target).dueAt := by
  fun_induction after target t with
  | case1 t due ih => exact ih
  | case2 t due => exact Nat.le_of_not_lt due

theorem after_of_le {target : Nat} {t : Timetable} (h : target ≤ t.dueAt) : t.after target = t := by
  rw [after, dif_neg (Nat.not_lt.mpr h)]

theorem eventsBefore_of_le {target : Nat} {t : Timetable} (h : target ≤ t.dueAt) :
    t.eventsBefore target = [] := by
  rw [eventsBefore, dif_neg (Nat.not_lt.mpr h)]

theorem after_after {cut target : Nat} (h : cut ≤ target) (t : Timetable) :
    (t.after cut).after target = t.after target := by
  fun_induction after cut t with
  | case1 t due ih => rw [ih, after.eq_def target t, dif_pos (Nat.lt_of_lt_of_le due h)]
  | case2 => rfl

/-- The next event is a tick, on time for a tick, and no instruction is due before it. -/
structure TickDue (t : Timetable) : Prop where
  ticking : t.ticking = true
  le : t.tickAt ≤ t.stepAt
  next : t.next = .tick
  dueAt : t.dueAt = t.tickAt
  advance : t.advance = {t with tickAt := t.tickAt + Timers.period}

/-- The next event is an instruction, on time for one, and no tick is due until after it. -/
structure StepDue (t : Timetable) : Prop where
  lt : t.ticking = true → t.stepAt < t.tickAt
  next : t.next = .step
  dueAt : t.dueAt = t.stepAt
  advance : t.advance = {t with stepAt := t.stepAt + t.cycle}

theorem due_cases (t : Timetable) : t.TickDue ∨ t.StepDue := by
  cases h : t.tickIsNext with
  | true =>
    have hparts : t.ticking = true ∧ t.tickAt ≤ t.stepAt := by
      simpa [tickIsNext] using h
    exact .inl ⟨hparts.1, hparts.2, by simp [Timetable.next, h], by simp [Timetable.dueAt, h],
      by simp [Timetable.advance, h]⟩
  | false =>
    refine .inr ⟨fun ht => ?_, by simp [Timetable.next, h], by simp [Timetable.dueAt, h],
      by simp [Timetable.advance, h]⟩
    simpa [tickIsNext, ht] using h

/-- The instructions before a target are those of their own row. -/
theorem instants_step (target : Nat) (t : Timetable) :
    instants .step (t.eventsBefore target) = every t.cycle t.stepAt target := by
  fun_induction eventsBefore target t with
  | case1 t due ih =>
    rcases t.due_cases with h | h
    · rw [h.advance] at ih
      simpa [instants, h.next, h.advance] using ih
    · rw [h.dueAt] at due
      rw [h.advance] at ih
      rw [every_of_lt t.cycle_pos due, ← ih]
      simp [instants, h.next, h.dueAt, h.advance]
  | case2 t due =>
    rw [every_of_le]
    · rfl
    · rcases t.due_cases with h | h <;> rw [h.dueAt] at due
      · have := h.le
        omega
      · omega

/-- The ticks before a target are those of their own row, if there are to be any. -/
theorem instants_tick (target : Nat) (t : Timetable) :
    instants .tick (t.eventsBefore target) =
      if t.ticking then every Timers.period t.tickAt target else [] := by
  fun_induction eventsBefore target t with
  | case1 t due ih =>
    rcases t.due_cases with h | h
    · rw [h.dueAt] at due
      rw [h.advance] at ih
      rw [if_pos h.ticking] at ih ⊢
      rw [every_of_lt period_pos due, ← ih]
      simp [instants, h.next, h.dueAt, h.advance]
    · rw [h.advance] at ih
      simpa [instants, h.next, h.advance] using ih
  | case2 t due =>
    split
    · rw [every_of_le]
      · rfl
      · rename_i hticking
        rcases t.due_cases with h | h <;> rw [h.dueAt] at due
        · omega
        · have := h.lt hticking
          omega
    · rfl

/-- Nothing on an agenda is earlier than the timetable has it. -/
theorem le_of_mem_eventsBefore {target : Nat} {t : Timetable} {e : Nat × Event}
    (h : e ∈ t.eventsBefore target) :
    (e.2 = .step ∧ t.stepAt ≤ e.1) ∨ (e.2 = .tick ∧ t.ticking = true ∧ t.tickAt ≤ e.1) := by
  obtain ⟨instant, event⟩ := e
  have hmem := mem_instants.mpr h
  cases event with
  | step =>
    rw [instants_step] at hmem
    exact .inl ⟨rfl, le_of_mem_every hmem⟩
  | tick =>
    rw [instants_tick] at hmem
    split at hmem
    · exact .inr ⟨rfl, ‹_›, le_of_mem_every hmem⟩
    · cases hmem

/-- An agenda is in order. -/
theorem pairwise_eventsBefore (target : Nat) (t : Timetable) :
    (t.eventsBefore target).Pairwise Before := by
  fun_induction eventsBefore target t with
  | case1 t due ih =>
    refine List.pairwise_cons.mpr ⟨fun e he => ?_, ih⟩
    have hlater := le_of_mem_eventsBefore he
    have := t.cycle_pos
    have := period_pos
    rcases t.due_cases with h | h
    · -- after a tick: instructions from the same instant on, and ticks a period later
      have := h.le
      rw [h.advance] at hlater
      rw [h.next, h.dueAt]
      rcases hlater with ⟨hstep, hle⟩ | ⟨_, _, hle⟩
      · rcases Nat.lt_or_eq_of_le (Nat.le_trans this hle) with hlt | heq
        · exact .inl hlt
        · exact .inr ⟨heq, rfl, hstep⟩
      · exact .inl (by simp only at hle ⊢; omega)
    · -- after an instruction: everything is later
      rw [h.advance] at hlater
      rw [h.next, h.dueAt]
      rcases hlater with ⟨_, hle⟩ | ⟨_, hticking, hle⟩
      · exact .inl (by simp only at hle ⊢; omega)
      · have := h.lt hticking
        exact .inl (by simp only at hle ⊢; omega)
  | case2 => exact .nil

/-- An agenda may be cut at any instant. -/
theorem eventsBefore_append {cut target : Nat} (h : cut ≤ target) (t : Timetable) :
    t.eventsBefore target = t.eventsBefore cut ++ (t.after cut).eventsBefore target := by
  fun_induction eventsBefore cut t with
  | case1 t due ih =>
    rw [eventsBefore, dif_pos (Nat.lt_of_lt_of_le due h), ih, after.eq_def cut t, dif_pos due]
    rfl
  | case2 t due =>
    rw [after, dif_neg due]
    rfl

/-! ### How far a timetable moves -/

/-- The timetable a number of instructions and a number of ticks later. -/
def moved (steps ticks : Nat) (t : Timetable) : Timetable :=
  { t with stepAt := t.stepAt + steps * t.cycle, tickAt := t.tickAt + ticks * Timers.period }

@[simp] theorem moved_zero (t : Timetable) : t.moved 0 0 = t := by
  simp only [moved, Nat.zero_mul, Nat.add_zero]

theorem moved_moved (t : Timetable) (steps ticks steps' ticks' : Nat) :
    (t.moved steps ticks).moved steps' ticks' = t.moved (steps + steps') (ticks + ticks') := by
  simp only [moved, Nat.add_mul, Nat.add_assoc]

/-- A timetable says how far it has moved. -/
theorem moved_inj {t : Timetable} {steps ticks steps' ticks' : Nat}
    (h : t.moved steps ticks = t.moved steps' ticks') : steps = steps' ∧ ticks = ticks' := by
  simp only [moved, mk.injEq, true_and, Nat.add_left_cancel_iff] at h
  exact ⟨Nat.eq_of_mul_eq_mul_right t.cycle_pos h.1, Nat.eq_of_mul_eq_mul_right period_pos h.2⟩

theorem StepDue.moved {t : Timetable} (h : t.StepDue) : t.advance = t.moved 1 0 := by
  rw [h.advance, Timetable.moved, Nat.one_mul, Nat.zero_mul, Nat.add_zero]

theorem TickDue.moved {t : Timetable} (h : t.TickDue) : t.advance = t.moved 0 1 := by
  have hadvance := h.advance
  rw [Timetable.moved]
  -- the period is a large number, and is best kept out of the arithmetic
  generalize Timers.period = period at hadvance ⊢
  rw [hadvance, Nat.one_mul, Nat.zero_mul, Nat.add_zero]

/-- A timetable moves by what is on its agenda. -/
theorem after_eq_moved (target : Nat) (t : Timetable) :
    t.after target = t.moved (instants .step (t.eventsBefore target)).length
      (instants .tick (t.eventsBefore target)).length := by
  fun_induction eventsBefore target t with
  | case1 t due ih =>
    rw [after, dif_pos due, ih, instants_cons, instants_cons]
    generalize instants .step (t.advance.eventsBefore target) = steps
    generalize instants .tick (t.advance.eventsBefore target) = ticks
    rcases t.due_cases with h | h
    · rw [h.next, if_neg (by nofun), if_pos rfl, List.length_cons, h.moved, moved_moved,
        Nat.zero_add, Nat.add_comm]
    · rw [h.next, if_pos rfl, if_neg (by nofun), List.length_cons, h.moved, moved_moved,
        Nat.zero_add, Nat.add_comm]
  | case2 t due =>
    rw [after, dif_neg due]
    exact t.moved_zero.symm

end Timetable
end ChipEight
