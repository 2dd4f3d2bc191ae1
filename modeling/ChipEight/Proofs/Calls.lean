import Mathlib.Data.List.Basic
import ChipEight.Proofs.Bounds

/-! Calls and returns.

A call puts its return address last on the stack, a return takes the last one off, and nothing
else a program does touches the stack (`turn_step`). So as long as a subroutine has not
returned, the addresses that were there before it was called and its own lie undisturbed
below whatever it calls itself (`Inside`), and the cycle that first brings the stack back to
where it was is the return that belongs to the call: `call_returns`. -/
namespace ChipEight.Machine

/-- Where the subroutines that a machine is in return to, the latest call last. -/
def returns (m : Machine) : List UInt16 := m.snapshot.stack.toList

theorem length_returns (m : Machine) : m.returns.length = m.snapshot.stack.depth.val :=
  m.snapshot.stack.length_toList

/-! ### What a cycle does to the stack -/

/-- A cycle leaves the stack alone, calls or returns. -/
inductive Turn (m : Machine) (reply : Reply Outcome) : Prop where
  | keeps : (∀ target, reply.result ≠ .ok (.executed (.call target))) →
      reply.machine.returns = m.returns → Turn m reply
  | calls (target : Address) : reply.result = .ok (.executed (.call target)) →
      reply.machine.returns = m.returns ++ [m.snapshot.pc + Opcode.size] → Turn m reply
  | leaves : reply.result = .ok (.executed .ret) →
      m.returns = reply.machine.returns ++ [reply.machine.snapshot.pc] → Turn m reply

theorem turn_step (m : Machine) : m.Turn m.step := by
  have course := m.course_step
  generalize m.step = reply at course ⊢
  cases course with
  | waits wait _ =>
    obtain ⟨registers, keyWait, hwatched⟩ := m.watchKeypad_eq wait
    rw [hwatched]
    exact .keeps (fun _ => nofun) rfl
  | strays | spins | faults => exact .keeps (fun _ => nofun) rfl
  | runs op next d _ _ hrun =>
    have flow : Flow m.snapshot op.decode next := execute_flow (by rw [hrun])
    generalize op.decode = i at flow
    cases flow with
    | on hturns hstack _ | past hturns hstack _ =>
      refine .keeps (fun target hcall => ?_) (congrArg CallStack.toList hstack)
      cases hcall
      cases hturns
    | jump target hstack _ => exact .keeps (fun _ => nofun) (congrArg CallStack.toList hstack)
    | jumpPlus target _ hstack _ => exact .keeps (fun _ => nofun) (congrArg CallStack.toList hstack)
    | call target hpush _ => exact .calls target rfl (CallStack.toList_push hpush)
    | ret hpop => exact .leaves rfl (CallStack.toList_pop hpop)

/-- A call was fetched below the end of memory, so its return address does not wrap. -/
theorem pc_of_called {m : Machine} {target : Address}
    (h : m.step.result = .ok (.executed (.call target))) :
    (m.snapshot.pc + Opcode.size).toNat = m.snapshot.pc.toNat + 2 := by
  have course := m.course_step
  generalize m.step = reply at course h
  cases course with
  | waits | strays | spins | faults => cases h
  | runs op next d fetches => exact fetches.toNat_behind

/-! ### Inside a subroutine -/

/-- A machine in a subroutine that is to return to an address, with these others below. -/
def Inside (below : List UInt16) (back : UInt16) (m : Machine) : Prop :=
  below ++ [back] <+: m.returns

/-- A machine that has just returned from it. -/
structure Left (below : List UInt16) (back : UInt16) (m : Machine) : Prop where
  returns : m.returns = below
  pc : m.snapshot.pc = back

variable {below : List UInt16} {back : UInt16} {m : Machine}

/-- The stack is deeper in a subroutine than before its call. -/
theorem Inside.depth_ne (h : m.Inside below back) : m.snapshot.stack.depth.val ≠ below.length := by
  have hlength := h.length_le
  rw [List.length_append, List.length_singleton, length_returns] at hlength
  omega

/-- A cycle stays in a subroutine, whatever it calls or returns from, or is its return. -/
theorem Inside.step (h : m.Inside below back) :
    m.step.machine.Inside below back ∨
      m.step.result = .ok (.executed .ret) ∧ m.step.machine.Left below back := by
  cases m.turn_step with
  | keeps _ hkept =>
    left
    rw [Inside, hkept]
    exact h
  | calls target _ hcalled =>
    left
    rw [Inside, hcalled]
    exact h.trans (List.prefix_append _ _)
  | leaves hret hleft =>
    rw [Inside, hleft, List.prefix_concat_iff] at h
    rcases h with heq | hinner
    · -- the address taken off is the subroutine's own
      obtain ⟨hbelow, hback⟩ := List.append_inj' heq rfl
      exact .inr ⟨hret, hbelow.symm, (List.singleton_inj.mp hback).symm⟩
    · exact .inl hinner

/-- An operation that only tends to the machine does not lead out of a subroutine either. -/
theorem Inside.perform (h : m.Inside below back) {operation : Operation}
    (onward : operation = .step ∨ operation.tends = true) :
    (m.perform operation).machine.Inside below back ∨
      operation = .step ∧ m.step.result = .ok (.executed .ret) ∧
        m.step.machine.Left below back := by
  rcases onward with rfl | htends
  · exact h.step.imp_right fun hleft => ⟨rfl, hleft⟩
  · obtain ⟨_, _, _, htended⟩ := m.tended_perform htends
    left
    rw [htended]
    exact h

/-- **A subroutine is left only by coming back to the depth of its call.** -/
theorem Inside.session (h : m.Inside below back) {operations : List Operation}
    (onward : ∀ operation ∈ operations, operation = .step ∨ operation.tends = true)
    (deeper : ∀ k ≤ operations.length,
      (m.session (operations.take k)).snapshot.stack.depth.val ≠ below.length) :
    (m.session operations).Inside below back := by
  induction operations generalizing m with
  | nil => exact h
  | cons operation rest ih =>
    obtain ⟨hfirst, hrest⟩ := List.forall_mem_cons.mp onward
    have hnext : (m.perform operation).machine.Inside below back := by
      refine (h.perform hfirst).resolve_right fun ⟨hstep, _, hleft⟩ => ?_
      have hdepth := deeper 1 (Nat.le_add_left 1 _)
      rw [← length_returns, hstep] at hdepth
      exact hdepth (congrArg List.length hleft.returns)
    exact ih hnext hrest fun k hk => deeper (k + 1) (Nat.succ_le_succ hk)

/-- **Calls and returns match.** A cycle calls a subroutine, and from then on nothing is done but
further cycles, keys, timers and taking the picture. Until the stack is first as deep again as
before the call, what was on it and the way back lie below everything else. The operation
that brings it there is a cycle that returns: the program goes on behind the call, and what is
on the stack is what was there before it. -/
theorem call_returns (m : Machine) (target : Address) (operations : List Operation)
    (called : m.step.result = .ok (.executed (.call target)))
    (onward : ∀ operation ∈ operations, operation = .step ∨ operation.tends = true)
    (deeper : ∀ k < operations.length,
      (m.step.machine.session (operations.take k)).snapshot.stack.depth ≠ m.snapshot.stack.depth)
    (level : (m.step.machine.session operations).snapshot.stack.depth = m.snapshot.stack.depth) :
    let after := m.step.machine.session operations
    (∀ k < operations.length, m.snapshot.stack.toList ++ [m.snapshot.pc + Opcode.size] <+:
        (m.step.machine.session (operations.take k)).snapshot.stack.toList) ∧
      (∃ before, operations = before ++ [.step] ∧
        (m.step.machine.session before).step.result = .ok (.executed .ret)) ∧
      after.snapshot.pc.toNat = m.snapshot.pc.toNat + 2 ∧
      after.snapshot.stack.toList = m.snapshot.stack.toList := by
  intro after
  have entered : m.step.machine.Inside m.returns (m.snapshot.pc + Opcode.size) := by
    cases m.turn_step with
    | keeps huncalled => exact absurd called (huncalled target)
    | calls _ _ hcalled => exact ⟨[], by rw [List.append_nil, hcalled]⟩
    | leaves hret => cases hret.symm.trans called
  have inside (k : Nat) (hk : k < operations.length) :
      (m.step.machine.session (operations.take k)).Inside m.returns
        (m.snapshot.pc + Opcode.size) := by
    refine entered.session (fun operation ho => onward operation (List.mem_of_mem_take ho))
      fun j hj hdepth => deeper (min j k) (by omega) (Fin.ext ?_)
    rw [List.take_take] at hdepth
    exact hdepth.trans m.length_returns
  have hlevel : after.snapshot.stack.depth.val = m.returns.length :=
    (congrArg Fin.val level).trans m.length_returns.symm
  rcases List.eq_nil_or_concat' operations with rfl | ⟨before, last, rfl⟩
  · exact absurd hlevel entered.depth_ne
  · have hbefore := inside before.length (by simp)
    rw [List.take_left] at hbefore
    have hafter : after = ((m.step.machine.session before).perform last).machine :=
      m.step.machine.session_append before [last]
    rcases hbefore.perform (onward last (by simp)) with hstill | ⟨rfl, hret, hleft⟩
    · rw [← hafter] at hstill
      exact absurd hlevel hstill.depth_ne
    · refine ⟨inside, ⟨before, rfl, hret⟩, ?_, ?_⟩
      · rw [hafter]
        exact (congrArg UInt16.toNat hleft.pc).trans (pc_of_called called)
      · rw [hafter]
        exact hleft.returns

/-- A subroutine at 0x206 that calls another one at 0x20A, with a key going down meanwhile: the
program goes on at 0x202, behind the call at 0x200. -/
theorem call_returns_nested :
    let program :=
      [0x22, 0x06, 0x12, 0x02, 0x00, 0x00, 0x22, 0x0A, 0x00, 0xEE, 0x61, 0x05, 0x00, 0xEE]
    let m := (new .standard default).session [.load program]
    let operations : List Operation := [.step, .press 4, .step, .step, .tick, .step]
    m.step.result = .ok (.executed (.call 0x206)) ∧
      (∀ operation ∈ operations, operation = .step ∨ operation.tends = true) ∧
      (∀ k < operations.length, (m.step.machine.session (operations.take k)).snapshot.stack.depth ≠
        m.snapshot.stack.depth) ∧
      (m.step.machine.session operations).snapshot.stack.depth = m.snapshot.stack.depth ∧
      (m.step.machine.session operations).snapshot.pc.toNat = m.snapshot.pc.toNat + 2 ∧
      m.snapshot.pc.toNat = 0x200 := by
  intro program m operations
  have h : m.step.result = .ok (.executed (.call 0x206)) ∧
      (∀ operation ∈ operations, operation = .step ∨ operation.tends = true) ∧
      (∀ k < operations.length, (m.step.machine.session (operations.take k)).snapshot.stack.depth ≠
        m.snapshot.stack.depth) ∧
      (m.step.machine.session operations).snapshot.stack.depth = m.snapshot.stack.depth := by
    decide +kernel
  obtain ⟨called, onward, deeper, level⟩ := h
  exact ⟨called, onward, deeper, level,
    (call_returns m 0x206 operations called onward deeper level).2.2.1, rfl⟩

end ChipEight.Machine
