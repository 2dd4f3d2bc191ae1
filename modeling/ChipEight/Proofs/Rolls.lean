import Mathlib.Logic.Function.Iterate
import ChipEight.Proofs.Influence
import ChipEight.Proofs.Visits

/-! What a machine draws from its random stream.

A machine *rolls* if its cycle runs the instruction that draws a byte. The random stream stands
outside the snapshot, so going back does not take a roll back, and outside what loading and
resetting put back to its start. So the stream after a session is the stream it began with,
advanced once for each roll, whatever else was done (`random_session`), and `rolls_accounted`
says which word of a seed's stream each roll has got. -/
namespace ChipEight

namespace Machine

/-- Whether the machine's cycle runs the instruction that draws from the random stream. -/
def rolls (m : Machine) : Bool :=
  match m.step.result with
  | .ok (.executed (.random _ _)) => true
  | _ => false

/-- The machines whose cycles draw from the random stream in a session. -/
def rolling (m : Machine) (operations : List Operation) : List Machine :=
  (m.cycles operations).filter rolls

/-! ### The stream -/

/-- A cycle advances the random stream if it rolls. -/
theorem random_step (m : Machine) :
    m.step.machine.random = if m.rolls then m.random.advance else m.random := by
  have course := m.course_step
  unfold rolls
  generalize m.step = reply at course ⊢
  cases course with
  | waits wait =>
    obtain ⟨registers, keyWait, hwatched⟩ := m.watchKeypad_eq wait
    rw [hwatched]
    rfl
  | strays | spins | faults => rfl
  | runs op next d _ _ hrun =>
    show d.random = _
    rw [eq_devicesAfter hrun]
    cases op.decode <;> rfl

theorem Reloads.random {m : Machine} {reply : Reply Unit} (h : m.Reloads reply) :
    reply.machine.random = m.random := by
  cases h <;> rfl

/-- What an operation means to the random stream: it is a cycle that rolls, and advances the stream,
or it leaves the stream alone. -/
theorem rolls_or_keeps (m : Machine) (operation : Operation) :
    (operation = .step ∧ m.rolls = true ∧
        (m.perform operation).machine.random = m.random.advance ∧
        ∀ rest, m.rolling (operation :: rest) = m :: (m.perform operation).machine.rolling rest) ∨
      ((m.perform operation).machine.random = m.random ∧
        ∀ rest, m.rolling (operation :: rest) = (m.perform operation).machine.rolling rest) := by
  cases operation with
  | load program => exact .inr ⟨(m.reloads_load program).random, fun _ => rfl⟩
  | loadFrom source => exact .inr ⟨(m.reloads_loadFrom source).random, fun _ => rfl⟩
  | reset => exact .inr ⟨m.reloads_reset.random, fun _ => rfl⟩
  | step =>
    have hrandom : (m.perform .step).machine.random = _ := m.random_step
    cases hrolls : m.rolls with
    | true =>
      rw [hrolls] at hrandom
      exact .inl ⟨rfl, rfl, hrandom, fun _ => List.filter_cons_of_pos hrolls⟩
    | false =>
      rw [hrolls] at hrandom
      exact .inr ⟨hrandom, fun _ => List.filter_cons_of_neg (Bool.not_eq_true _ ▸ hrolls)⟩
  | rewind =>
    refine .inr ⟨?_, fun _ => rfl⟩
    show m.rewind.2.random = m.random
    rcases m.rewind_cases with ⟨_, hr⟩ | ⟨s, rest, _, hr⟩ <;> rw [hr]
  | takeFrame =>
    refine .inr ⟨?_, fun _ => rfl⟩
    show m.takeFrame.2.random = m.random
    rw [takeFrame_eq]
  | press | release | setKeypad | setDelay | setSound | tick => exact .inr ⟨rfl, fun _ => rfl⟩

/-- **A session advances the random stream once for each roll.** -/
theorem random_session (m : Machine) (operations : List Operation) :
    (m.session operations).random =
      Random.advance^[(m.rolling operations).length] m.random := by
  induction operations generalizing m with
  | nil => rfl
  | cons operation rest ih =>
    refine (ih (m.perform operation).machine).trans ?_
    rcases m.rolls_or_keeps operation with ⟨-, -, hrandom, hrolling⟩ | ⟨hrandom, hrolling⟩
    · rw [hrandom, hrolling, List.length_cons, Function.iterate_succ_apply]
    · rw [hrandom, hrolling]

/-! ### The rolls -/

/-- A session rolls for the `j`-th time, counted from zero, where a first part of it leads that has
rolled `j` times. -/
theorem exists_of_rolling {m c : Machine} {operations : List Operation} {j : Nat}
    (h : (m.rolling operations)[j]? = some c) :
    ∃ first rest, operations = first ++ .step :: rest ∧ c = m.session first ∧ c.rolls = true ∧
      (m.rolling first).length = j := by
  induction operations generalizing m j with
  | nil => cases h
  | cons operation rest ih =>
    rcases m.rolls_or_keeps operation with ⟨rfl, hrolls, -, hrolling⟩ | ⟨-, hrolling⟩
    · rw [hrolling] at h
      cases j with
      | zero =>
        obtain rfl : m = c := Option.some.inj h
        exact ⟨[], rest, rfl, rfl, hrolls, rfl⟩
      | succ j =>
        obtain ⟨first, after, rfl, hc, hcrolls, hlength⟩ := ih h
        refine ⟨.step :: first, after, rfl, hc, hcrolls, ?_⟩
        rw [hrolling, List.length_cons, hlength]
    · rw [hrolling] at h
      obtain ⟨first, after, rfl, hc, hcrolls, hlength⟩ := ih h
      refine ⟨operation :: first, after, rfl, hc, hcrolls, ?_⟩
      rw [hrolling, hlength]

/-- What a roll puts into its register. -/
theorem register_of_roll {m : Machine} {x : Nibble} {kk : UInt8}
    (h : m.step.result = .ok (.executed (.random x kk))) :
    m.step.machine.snapshot.register x = (m.random.output >>> 32).toUInt8 &&& kk := by
  have course := m.course_step
  generalize m.step = reply at course h ⊢
  cases course with
  | waits | strays | spins | faults => cases h
  | runs op next d _ _ hrun =>
    have hop : op.decode = .random x kk := Outcome.executed.inj (Except.ok.inj h)
    rw [hop] at hrun
    cases hrun
    exact (m.snapshot.register_setRegister x x _).trans (if_pos rfl)

/-- A cycle that rolls has run a random instruction. -/
theorem rolls_iff (m : Machine) :
    m.rolls = true ↔ ∃ x kk, m.step.result = .ok (.executed (.random x kk)) := by
  unfold rolls
  constructor
  · intro h
    split at h
    · exact ⟨_, _, ‹_›⟩
    · cases h
  · rintro ⟨x, kk, h⟩
    rw [h]

/-- The stream of a machine with a seed begins where the seed's stream does. -/
theorem random_new (settings : Settings) (seed : UInt64) (entropy : Random) :
    (new { settings with seed := some seed } entropy).random = Random.ofSeed seed := by
  -- How a seed is spread makes no difference here, and it is much to unfold.
  have hspread (spread : UInt64 → Random) : ((some seed).map spread).getD entropy = spread seed :=
    rfl
  exact hspread Random.ofSeed

/-- **Every roll is accounted for.** After any operations, failed ones included, the random stream
of a machine with a seed is the seed's stream, advanced once for each cycle since the machine was
made that ran a random instruction, taken back or not. And the `j`-th of these cycles, counted
from zero, puts bits 32 to 39 of the stream's `j`-th word into its register, under its mask. -/
theorem rolls_accounted (settings : Settings) (seed : UInt64) (entropy : Random)
    (operations : List Operation) :
    let m := new { settings with seed := some seed } entropy
    (m.session operations).random =
        Random.advance^[(m.rolling operations).length] (Random.ofSeed seed) ∧
      ∀ (j : Nat) (c : Machine), (m.rolling operations)[j]? = some c →
        ∃ x kk, c.step.result = .ok (.executed (.random x kk)) ∧
          c.random = Random.advance^[j] (Random.ofSeed seed) ∧
          c.step.machine.snapshot.register x =
            ((Random.advance^[j] (Random.ofSeed seed)).output >>> 32).toUInt8 &&& kk := by
  intro m
  have hrandom (first : List Operation) : (m.session first).random =
      Random.advance^[(m.rolling first).length] (Random.ofSeed seed) := by
    rw [random_session, random_new]
  refine ⟨hrandom operations, fun j c h => ?_⟩
  obtain ⟨first, rest, -, rfl, hrolls, rfl⟩ := exists_of_rolling h
  obtain ⟨x, kk, ran⟩ := (rolls_iff _).mp hrolls
  have hword := register_of_roll ran
  rw [hrandom] at hword
  exact ⟨x, kk, ran, hrandom first, hword⟩

/-- The second roll is taken back and taken again. A program that could not be read and a return
from no subroutine come to nothing, and the reset leaves the stream where it is. -/
theorem rolls_accounted_retaken :
    let m := new { Settings.standard with seed := some 7 } default
    let operations : List Operation :=
      [.load [0xC0, 0xFF, 0xC1, 0x0F, 0x00, 0xEE], .step, .step, .rewind,
        .loadFrom ⟨[], some "gone"⟩, .step, .tick, .step, .reset, .step]
    m.answers (operations.take 8) =
        [.ok .done, .ok (.stepped (.executed (.random 0 0xFF))),
          .ok (.stepped (.executed (.random 1 0x0F))), .ok (.rewound true),
          .error (.unreadable "gone"), .ok (.stepped (.executed (.random 1 0x0F))), .ok .done,
          .error (.stack .underflow 0x204)] ∧
      (m.session operations).random = Random.advance^[4] (Random.ofSeed 7) ∧
      ∃ c, (m.rolling operations)[2]? = some c ∧
        c.step.result = .ok (.executed (.random 1 0x0F)) ∧
        c.step.machine.snapshot.register 1 =
          ((Random.advance^[2] (Random.ofSeed 7)).output >>> 32).toUInt8 &&& 0x0F := by
  intro m operations
  obtain ⟨hrandom, hwords⟩ := rolls_accounted .standard 7 default operations
  obtain ⟨hanswers, hlength, hthird⟩ :
      m.answers (operations.take 8) =
        [.ok .done, .ok (.stepped (.executed (.random 0 0xFF))),
          .ok (.stepped (.executed (.random 1 0x0F))), .ok (.rewound true),
          .error (.unreadable "gone"), .ok (.stepped (.executed (.random 1 0x0F))), .ok .done,
          .error (.stack .underflow 0x204)] ∧
      (m.rolling operations).length = 4 ∧
      (m.rolling operations)[2]?.map (fun c => c.step.result) =
        some (.ok (.executed (.random 1 0x0F))) := by
    decide +kernel
  obtain ⟨c, hc, ran⟩ := Option.map_eq_some_iff.mp hthird
  obtain ⟨x, kk, ran', -, hword⟩ := hwords 2 c hc
  rw [ran] at ran'
  cases ran'
  exact ⟨hanswers, hlength ▸ hrandom, c, hc, ran, hword⟩

end Machine
end ChipEight
