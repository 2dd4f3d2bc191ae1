import ChipEight.Machine.Session

/-! What a session comes by.

A session leads from machine to machine. Its *visits* are those machines, each with the
operation that is done there, and so with the reply it gets: what a session answers and what
it has to say is read off them, and so are the machines whose cycles it takes. -/
namespace ChipEight

/-- A machine that a session comes by, and the operation that is done there. -/
structure Visit where
  machine : Machine
  operation : Operation

namespace Visit

/-- What the operation comes to. -/
def reply (v : Visit) : Reply Answer := v.machine.perform v.operation

/-- The machine, if it is its cycle that is taken. -/
def cycle? (v : Visit) : Option Machine :=
  match v.operation with
  | .step => some v.machine
  | _ => none

end Visit

namespace Machine

/-- The machines that a session comes by, in order. -/
def visits (m : Machine) : List Operation → List Visit
  | [] => []
  | operation :: rest => ⟨m, operation⟩ :: (m.perform operation).machine.visits rest

/-- What a session answers, operation by operation. -/
def answers (m : Machine) (operations : List Operation) : List (Except Fault Answer) :=
  (m.visits operations).map fun v => v.reply.result

/-- What a session has to say. -/
def saying (m : Machine) (operations : List Operation) : List Record :=
  (m.visits operations).flatMap fun v => v.reply.records

/-- The machines whose cycles a session takes. -/
def cycles (m : Machine) (operations : List Operation) : List Machine :=
  (m.visits operations).filterMap Visit.cycle?

theorem session_nil (m : Machine) : m.session [] = m := rfl

theorem visits_append (m : Machine) (first second : List Operation) :
    m.visits (first ++ second) = m.visits first ++ (m.session first).visits second := by
  induction first generalizing m with
  | nil => rfl
  | cons operation rest ih => exact congrArg (⟨m, operation⟩ :: ·) (ih _)

theorem answers_append (m : Machine) (first second : List Operation) :
    m.answers (first ++ second) = m.answers first ++ (m.session first).answers second := by
  simp only [answers, visits_append, List.map_append]

theorem cycles_append (m : Machine) (first second : List Operation) :
    m.cycles (first ++ second) = m.cycles first ++ (m.session first).cycles second := by
  simp only [cycles, visits_append, List.filterMap_append]

theorem cycles_cons (m : Machine) (operation : Operation) (rest : List Operation) :
    m.cycles (operation :: rest) =
      (Visit.cycle? ⟨m, operation⟩).toList ++ (m.perform operation).machine.cycles rest := by
  cases operation <;> rfl

/-- A session takes its cycles where some first part of it leads. -/
theorem exists_of_mem_cycles {m c : Machine} {operations : List Operation}
    (h : c ∈ m.cycles operations) :
    ∃ first rest, operations = first ++ .step :: rest ∧ c = m.session first := by
  induction operations generalizing m with
  | nil => cases h
  | cons operation rest ih =>
    rw [cycles_cons, List.mem_append] at h
    obtain hhere | hrest := h
    · cases operation with
      | step => exact ⟨[], rest, rfl, List.mem_singleton.mp hhere⟩
      | _ => cases hhere
    · obtain ⟨first, last, rfl, rfl⟩ := ih hrest
      exact ⟨operation :: first, last, rfl, rfl⟩

/-- What the cycles of a session come to is among its answers. -/
theorem mem_answers_of_mem_cycles {m c : Machine} {operations : List Operation}
    (h : c ∈ m.cycles operations) : c.step.result.map .stepped ∈ m.answers operations := by
  obtain ⟨⟨here, operation⟩, hvisit, hcycle⟩ := List.mem_filterMap.mp h
  cases operation with
  | step =>
    obtain rfl : here = c := Option.some.inj hcycle
    exact List.mem_map.mpr ⟨_, hvisit, rfl⟩
  | _ => cases hcycle

end Machine
end ChipEight
