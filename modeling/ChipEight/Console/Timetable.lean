import ChipEight.Hardware.Timers

/-! Timetables: when the next instruction and the next timer tick fall due.

Instants and spans are whole nanoseconds of emulated time since a console was made.
Instructions are due every `cycle` from instant zero on, ticks every `Timers.period`
from the end of the first period on. Of two events due at one instant the tick comes
first. What is due does not depend on what the machine does, so the events before a
target instant are fixed, and there are finitely many. -/
namespace ChipEight

namespace Span

/-- The nanoseconds in a second. -/
def second : Nat := 1000000000

/-- What no clock can count: whole seconds must fit into 64 bits. -/
def limit : Nat := 18446744073709551616 * second

/-- The span of two together, if a clock can count it. -/
def add? (a b : Nat) : Option Nat := if a + b < limit then some (a + b) else none

theorem eq_of_add? {a b sum : Nat} (h : add? a b = some sum) : sum = a + b := by
  simp only [add?] at h
  split at h <;> cases h
  rfl

end Span

/-- The two kinds of events. -/
inductive Event where
  | tick
  | step
deriving DecidableEq, Repr

/-- When the next events fall due. -/
structure Timetable where
  cycle : Nat
  cycle_pos : 0 < cycle
  /-- Whether ticks are on the timetable at all. -/
  ticking : Bool
  stepAt : Nat
  tickAt : Nat
deriving DecidableEq

namespace Timetable

theorem period_pos : 0 < Timers.period := by decide

/-- The timetable at instant zero. -/
def start (cycle : Nat) (cycle_pos : 0 < cycle) (ticking : Bool) : Timetable :=
  ⟨cycle, cycle_pos, ticking, 0, Timers.period⟩

/-- Whether the next event is a tick. -/
def tickIsNext (t : Timetable) : Bool := t.ticking && t.tickAt ≤ t.stepAt

/-- The next event. -/
def next (t : Timetable) : Event := if t.tickIsNext then .tick else .step

/-- The instant of the next event. -/
def dueAt (t : Timetable) : Nat := if t.tickIsNext then t.tickAt else t.stepAt

/-- The timetable once the next event is over. -/
def advance (t : Timetable) : Timetable :=
  if t.tickIsNext then { t with tickAt := t.tickAt + Timers.period }
  else { t with stepAt := t.stepAt + t.cycle }

/-- The timetable once the next event is over, if a clock can count to its next time. -/
def advance? (t : Timetable) : Option Timetable :=
  if t.tickIsNext then
    (Span.add? t.tickAt Timers.period).map fun instant => { t with tickAt := instant }
  else (Span.add? t.stepAt t.cycle).map fun instant => { t with stepAt := instant }

/-- How far the next events are from a target. -/
def distance (t : Timetable) (target : Nat) : Nat := (target - t.stepAt) + (target - t.tickAt)

theorem eq_advance_of_advance? {t t' : Timetable} (h : t.advance? = some t') : t' = t.advance := by
  simp only [advance?, Span.add?] at h
  simp only [advance]
  split at h <;> split at h <;> simp_all

/-- Every event before a target brings the target nearer. -/
theorem distance_advance {t : Timetable} {target : Nat} (due : t.dueAt < target) :
    t.advance.distance target < t.distance target := by
  have hp := period_pos
  have hc := t.cycle_pos
  simp only [dueAt] at due
  by_cases h : t.tickIsNext = true
  · rw [if_pos h] at due
    simp only [advance, if_pos h, distance]
    omega
  · rw [if_neg h] at due
    simp only [advance, if_neg h, distance]
    omega

/-- The events before a target, in order, each with its instant. -/
def eventsBefore (target : Nat) (t : Timetable) : List (Nat × Event) :=
  if _ : t.dueAt < target then (t.dueAt, t.next) :: eventsBefore target t.advance else []
termination_by t.distance target
decreasing_by exact distance_advance ‹_›

end Timetable
end ChipEight
