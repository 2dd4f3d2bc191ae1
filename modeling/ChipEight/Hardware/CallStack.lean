import ChipEight.Fault

/-! The call stack: sixteen slots for return addresses.

Only the slots below the stack's depth are live. A popped address stays in its
slot until a push overwrites it, so two stacks with the same live addresses need
not be equal; `toList` is what calls and returns can see. -/
namespace ChipEight

/-- Return addresses, the latest last. -/
structure CallStack where
  slots : Vector UInt16 16
  depth : Fin 17
deriving DecidableEq

namespace CallStack

/-- The number of slots. -/
def capacity : Nat := 16

/-- No calls, and nothing left over from earlier ones. -/
def empty : CallStack := ⟨Vector.replicate 16 0, 0⟩

instance : Inhabited CallStack := ⟨empty⟩

/-- Whether there is nothing to return to. -/
def isEmpty (s : CallStack) : Bool := s.depth.val == 0

/-- The live addresses, the earliest call first. -/
def toList (s : CallStack) : List UInt16 := s.slots.toList.take s.depth.val

/-- The stack after a call. -/
def push (s : CallStack) (address : UInt16) : Except StackFault CallStack :=
  if h : s.depth.val < 16 then
    .ok ⟨s.slots.set s.depth.val address, ⟨s.depth.val + 1, by omega⟩⟩
  else .error .overflow

/-- The stack after a return, and where the return goes. -/
def pop (s : CallStack) : Except StackFault (UInt16 × CallStack) :=
  if h : 0 < s.depth.val then
    .ok (s.slots[s.depth.val - 1], ⟨s.slots, ⟨s.depth.val - 1, by omega⟩⟩)
  else .error .underflow

/-- Where a return would go. -/
def peek? (s : CallStack) : Option UInt16 :=
  if h : 0 < s.depth.val then some (s.slots[s.depth.val - 1]) else none

@[simp] theorem length_toList (s : CallStack) : s.toList.length = s.depth.val := by
  have := s.depth.isLt
  simp only [toList, List.length_take, Vector.length_toList]
  omega

@[simp] theorem toList_empty : empty.toList = [] := rfl

/-- A call puts its return address last. -/
theorem toList_push {s t : CallStack} {address : UInt16} (h : s.push address = .ok t) :
    t.toList = s.toList ++ [address] := by
  simp only [push] at h
  split at h
  · rename_i hd
    cases h
    simp only [toList, Vector.toList_set]
    rw [List.take_set, List.take_succ_eq_append_getElem (by simpa using hd),
      List.set_append_right _ _ (by simp only [List.length_take, Vector.length_toList]; omega)]
    simp [List.length_take, Nat.min_eq_left (Nat.le_of_lt hd)]
  · cases h

/-- A return takes the last return address. -/
theorem toList_pop {s t : CallStack} {address : UInt16} (h : s.pop = .ok (address, t)) :
    s.toList = t.toList ++ [address] := by
  simp only [pop] at h
  split at h
  · rename_i hd
    have := s.depth.isLt
    have hl : s.depth.val - 1 < s.slots.toList.length := by
      simp only [Vector.length_toList]
      omega
    cases h
    simp only [toList]
    rw [← Vector.getElem_toList hl, ← List.take_succ_eq_append_getElem hl]
    congr 1
    omega
  · cases h

end CallStack
end ChipEight
