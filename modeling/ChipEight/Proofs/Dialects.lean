import ChipEight.Proofs.Twins
import ChipEight.Proofs.Undo

/-! Dialects.

Two dialects disagree on some of four families of instructions: shifts of one register into
another, blocks of registers, logical operations, and computed jumps to 0x100 or above. Speaking
the one or the other makes no difference to a machine until it runs an instruction of a family
on which the two disagree. `dialects_agree` says so for any operations, and that a register
shifted onto itself and a computed jump below 0x100 are the same in every dialect. -/
namespace ChipEight

/-- Whether an instruction is of a family on which two dialects disagree. -/
def Instruction.divides (one other : Dialect) : Instruction → Bool
  | .shiftRight x y | .shiftLeft x y => x != y && one.shiftReadsVy != other.shiftReadsVy
  | .store _ | .load _ => one.blockMovesIndex != other.blockMovesIndex
  | .or _ _ | .and _ _ | .xor _ _ => one.logicClearsFlag != other.logicClearsFlag
  | .jumpPlus target => 0x100 ≤ target.val && one.jumpReadsVx != other.jumpReadsVx
  | _ => false

/-- The instructions of the divided families that all dialects agree on: shifts of a register onto
itself, and computed jumps below 0x100. -/
inductive Instruction.Common : Instruction → Prop where
  | shiftRight (x : Nibble) : Common (.shiftRight x x)
  | shiftLeft (x : Nibble) : Common (.shiftLeft x x)
  | jumpPlus (target : Address) : target.val < 0x100 → Common (.jumpPlus target)

theorem Instruction.Common.not_divides {i : Instruction} (h : i.Common) (one other : Dialect) :
    i.divides one other = false := by
  cases h with
  | shiftRight | shiftLeft => simp [divides]
  | jumpPlus target low => simp [divides, Nat.not_le_of_lt low]

/-- Speaking another dialect, with all else as it was. -/
def Settings.speaking (dialect : Dialect) (s : Settings) : Settings := { s with dialect }

namespace Machine

/-- The machine speaking another dialect. -/
def speaking (m : Machine) (dialect : Dialect) : Machine := m.tuned (.speaking dialect)

variable {m : Machine} {dialect : Dialect} {i : Instruction}

/-- What an instruction looks at is the same in both dialects, unless it divides them. -/
theorem same_of_not_divides (agreed : i.divides m.settings.dialect dialect = false)
    {influence : Influence} (h : i.influence? = some influence) :
    influence.Same m.surroundings m.devices (m.speaking dialect).surroundings
      (m.speaking dialect).devices := by
  cases i with
  | shiftRight x y | shiftLeft x y =>
    by_cases hself : x = y
    · rw [Instruction.influence?, if_pos hself] at h
      cases h
    · rw [Instruction.influence?, if_neg hself] at h
      cases h
      have hreads : m.settings.dialect.shiftReadsVy = dialect.shiftReadsVy := by
        simpa [Instruction.divides, hself] using agreed
      exact hreads.symm
  | jumpPlus target =>
    by_cases hlow : target.val < 0x100
    · rw [Instruction.influence?, if_pos hlow] at h
      cases h
    · rw [Instruction.influence?, if_neg hlow] at h
      cases h
      have hreads : m.settings.dialect.jumpReadsVx = dialect.jumpReadsVx := by
        simpa [Instruction.divides, Nat.le_of_not_lt hlow] using agreed
      exact hreads.symm
  | store | load | or | and | xor =>
    cases h
    exact (bne_eq_false_iff_eq.mp agreed).symm
  | skipIfKey | skipUnlessKey | unknown | readDelay | random =>
    cases h
    rfl
  | _ => cases h

/-- A cycle is the same in both dialects, unless it runs an instruction that divides them. -/
theorem step_speaking (agreed : ∀ i, m.step.result = .ok (.executed i) →
      i.divides m.settings.dialect dialect = false) :
    (m.speaking dialect).step = m.step.tuned (.speaking dialect) := by
  refine step_tuned (.speaking dialect) rfl fun op fetches hmoves => ?_
  exact alike_amid m.keypad m.timers (m.settings.speaking dialect) rfl
    (fun i _ ran => same_of_not_divides (agreed i ran)) fetches hmoves

/-- A session is the same in both dialects, unless it runs an instruction that divides them. -/
theorem session_speaking {operations : List Operation}
    (agreed : ∀ i, .ok (.stepped (.executed i)) ∈ m.answers operations →
      i.divides m.settings.dialect dialect = false) :
    (m.speaking dialect).visits operations =
        (m.visits operations).map (Visit.tuned (.speaking dialect)) ∧
      (m.speaking dialect).session operations = (m.session operations).speaking dialect ∧
      (m.speaking dialect).answers operations = m.answers operations ∧
      (m.speaking dialect).saying operations = m.saying operations := by
  refine session_tuned _ fun c hc => step_speaking fun i ran => ?_
  have hanswer := mem_answers_of_mem_cycles hc
  rw [ran] at hanswer
  obtain ⟨first, _, _, rfl⟩ := exists_of_mem_cycles hc
  rw [settings_session]
  exact agreed i hanswer

/-- **Dialects agree but where they are divided.** Put two machines that differ in their dialects to
the same operations. As long as the one has not run an instruction of a family on which the
dialects disagree, both answer and tell the same and are, at every operation, the same machine
but for the dialect. A register shifted onto itself and a computed jump below 0x100 run the same
in every dialect. -/
theorem dialects_agree (m : Machine) (dialect : Dialect) :
    (∀ operations : List Operation,
      (∀ i, .ok (.stepped (.executed i)) ∈ m.answers operations →
        i.divides m.settings.dialect dialect = false) →
      (m.speaking dialect).answers operations = m.answers operations ∧
        (m.speaking dialect).saying operations = m.saying operations ∧
        (m.speaking dialect).visits operations =
          (m.visits operations).map (Visit.tuned (.speaking dialect)) ∧
        (m.speaking dialect).session operations = (m.session operations).speaking dialect) ∧
      ∀ i : Instruction, i.Common → m.step.result = .ok (.executed i) →
        (m.speaking dialect).step = m.step.tuned (.speaking dialect) := by
  refine ⟨fun operations agreed => ?_, fun i common ran => step_speaking fun j ranj => ?_⟩
  · obtain ⟨hvisits, hsession, hanswers, hsaying⟩ := session_speaking agreed
    exact ⟨hanswers, hsaying, hvisits, hsession⟩
  · rw [ran] at ranj
    cases ranj
    exact common.not_divides _ _

/-- V3 is shifted onto itself, B0FF leads to 0x1FE, and registers are stored, which both dialects do
alike; the second has its own way with everything else. -/
theorem dialects_agree_common :
    let m := (new .standard default).session
      [.load [0x60, 0xFF, 0x83, 0x36, 0xA3, 0x00, 0xF1, 0x55, 0xB0, 0xFF]]
    let dialect : Dialect := ⟨true, false, true, true⟩
    let operations : List Operation :=
      [.step, .step, .press 3, .step, .step, .tick, .rewind, .takeFrame, .step, .step, .step]
    (∀ i, .ok (.stepped (.executed i)) ∈ m.answers operations →
        i.divides m.settings.dialect dialect = false) ∧
      (m.speaking dialect).answers operations = m.answers operations ∧
      (m.speaking dialect).session operations = (m.session operations).speaking dialect ∧
      let c := m.session [.step]
      Instruction.Common (.shiftRight 3 3) ∧
      c.step.result = .ok (.executed (.shiftRight 3 3)) ∧
      (c.speaking dialect).step = c.step.tuned (.speaking dialect) := by
  intro m dialect operations
  obtain ⟨ran, hanswers⟩ :
      (m.session [.step]).step.result = .ok (.executed (.shiftRight 3 3)) ∧
      m.answers operations =
        [.ok (.stepped (.executed (.setByte 0 0xFF))),
          .ok (.stepped (.executed (.shiftRight 3 3))), .ok .done,
          .ok (.stepped (.executed (.setIndex 0x300))), .ok (.stepped (.executed (.store 1))),
          .ok .done, .ok (.rewound true), .ok (.frame (some .blank)),
          .ok (.stepped (.executed (.store 1))), .ok (.stepped (.executed (.jumpPlus 0x0FF))),
          .ok (.stepped (.executed (.sys 0)))] := by
    decide +kernel
  have agreed : ∀ i, .ok (.stepped (.executed i)) ∈ m.answers operations →
      i.divides m.settings.dialect dialect = false := by
    intro i hi
    rw [hanswers] at hi
    simp only [List.mem_cons, Except.ok.injEq, Answer.stepped.injEq, Outcome.executed.injEq,
      reduceCtorEq, false_or, List.not_mem_nil, or_false] at hi
    rcases hi with rfl | rfl | rfl | rfl | rfl | rfl | rfl <;> rfl
  obtain ⟨same, -⟩ := dialects_agree m dialect
  obtain ⟨sameAnswers, -, -, hsession⟩ := same operations agreed
  obtain ⟨-, common⟩ := dialects_agree (m.session [.step]) dialect
  exact ⟨agreed, sameAnswers, hsession, .shiftRight 3, ran, common _ (.shiftRight 3) ran⟩

end Machine
end ChipEight
