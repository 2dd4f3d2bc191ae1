import ChipEight.Machine.Cycle

/-! Sessions: a machine under a sequence of operations.

An `Operation` is anything a holder of a machine can do to it. A session goes on
after an operation that fails, as a holder may, so every machine there can be is
one that some session from a new machine leads to. -/
namespace ChipEight

/-- Anything a holder of a machine can do to it. -/
inductive Operation where
  | load (program : List UInt8)
  | loadFrom (source : Source)
  | reset
  | step
  | rewind
  | takeFrame
  | press (key : UInt8)
  | release (key : UInt8)
  | setKeypad (keypad : Keypad)
  | setDelay (value : UInt8)
  | setSound (value : UInt8)
  | tick
deriving DecidableEq

/-- What a successful operation answers. -/
inductive Answer where
  /-- Nothing but that it is done. -/
  | done
  /-- What the cycle did. -/
  | stepped (outcome : Outcome)
  /-- Whether there was a cycle to take back. -/
  | rewound (back : Bool)
  /-- The picture, if it was to be shown. -/
  | frame (picture : Option Screen)
deriving DecidableEq

/-- A reply with its result replaced where it is a success. -/
def Reply.map {α β : Type} (f : α → β) (r : Reply α) : Reply β :=
  ⟨r.result.map f, r.machine, r.records⟩

namespace Machine

/-- An answer that cannot fail and has nothing to say. -/
def answering (m : Machine) (answer : Answer) : Reply Answer := ⟨.ok answer, m, []⟩

/-- Do one operation. -/
def perform (m : Machine) : Operation → Reply Answer
  | .load program => (m.load program).map fun _ => .done
  | .loadFrom source => (m.loadFrom source).map fun _ => .done
  | .reset => m.reset.map fun _ => .done
  | .step => m.step.map .stepped
  | .rewind => m.rewind.2.answering (.rewound m.rewind.1)
  | .takeFrame => m.takeFrame.2.answering (.frame m.takeFrame.1)
  | .press key => (m.press key).answering .done
  | .release key => (m.release key).answering .done
  | .setKeypad keypad => (m.setKeypad keypad).answering .done
  | .setDelay value => (m.setDelay value).answering .done
  | .setSound value => (m.setSound value).answering .done
  | .tick => (m.tickBy 1).answering .done

/-- The machine after a sequence of operations, whether they succeed or not. -/
def session (m : Machine) (operations : List Operation) : Machine :=
  operations.foldl (fun m operation => (m.perform operation).machine) m

theorem session_append (m : Machine) (first second : List Operation) :
    m.session (first ++ second) = (m.session first).session second := by
  simp [session, List.foldl_append]

/-- What every operation keeps holds after any session it held before. -/
theorem session_keeps {P : Machine → Prop}
    (kept : ∀ m operation, P m → P (m.perform operation).machine) {m : Machine} (holds : P m)
    (operations : List Operation) : P (m.session operations) := by
  induction operations generalizing m with
  | nil => exact holds
  | cons operation rest ih => exact ih (kept m operation holds)

end Machine
end ChipEight
