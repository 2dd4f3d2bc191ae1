import ChipEight.Machine.Snapshot

/-! History: the snapshots that can still be gone back to.

A history is a stack that forgets: it holds at most a given number of snapshots and
drops the oldest for a new one. Only its first `size` entries count. What lies behind
them has been dropped already and is cut off once there is as much of it again as
the history may hold, so that pushing costs no more for a deep history. `toList`
is what counts. -/
namespace ChipEight

/-- Snapshots, the latest first, of which the first `size` count. -/
structure History where
  saved : List Snapshot
  size : Nat
  size_le : size ≤ saved.length
  /-- How many entries may still be added before what does not count is cut off. -/
  slack : Nat

namespace History

/-- Nothing to go back to. -/
def empty : History := ⟨[], 0, Nat.le_refl 0, 0⟩

instance : Inhabited History := ⟨empty⟩

/-- The snapshots that can be gone back to, the latest first. -/
def toList (h : History) : List Snapshot := h.saved.take h.size

/-- The history of at most `depth` snapshots after one more. -/
def push (depth : Nat) (s : Snapshot) (h : History) : History :=
  if depth = 0 then h
  else if h.size < depth then
    { saved := s :: h.saved
      size := h.size + 1
      size_le := by have := h.size_le; simp only [List.length_cons]; omega
      slack := h.slack }
  else if 0 < h.slack then
    { saved := s :: h.saved
      size := h.size
      size_le := by have := h.size_le; simp only [List.length_cons]; omega
      slack := h.slack - 1 }
  else
    { saved := s :: h.saved.take (h.size - 1)
      size := h.size
      size_le := by
        have := h.size_le
        simp only [List.length_cons, List.length_take]
        omega
      slack := depth }

/-- The latest snapshot, and the history before it. -/
def pop? (h : History) : Option (Snapshot × History) :=
  match hs : h.saved, hn : h.size with
  | s :: rest, n + 1 =>
    some (s,
      { saved := rest
        size := n
        size_le := by have := h.size_le; simp only [hs, hn, List.length_cons] at this; omega
        slack := h.slack })
  | _, _ => none

@[simp] theorem length_toList (h : History) : h.toList.length = h.size := by
  simp only [toList, List.length_take]
  exact Nat.min_eq_left h.size_le

@[simp] theorem toList_empty : empty.toList = [] := rfl

/-- Pushing puts a snapshot in front and drops what no longer fits. -/
theorem toList_push (depth : Nat) (s : Snapshot) (h : History) (bounded : h.size ≤ depth) :
    (h.push depth s).toList = (s :: h.toList).take depth := by
  simp only [push]
  split
  · obtain rfl : depth = 0 := by assumption
    simp [toList, Nat.le_zero.mp bounded]
  · obtain ⟨n, rfl⟩ : ∃ n, depth = n + 1 := ⟨depth - 1, by omega⟩
    split
    · simp only [toList, List.take_succ_cons, List.take_take]
      rw [Nat.min_eq_right (by omega)]
    · obtain hn : h.size = n + 1 := by omega
      split <;> simp [toList, hn, List.take_take]

/-- Popping takes the first snapshot off. -/
theorem toList_pop? (h : History) :
    h.pop?.map (fun p => p.1 :: p.2.toList) = if h.toList = [] then none else some h.toList := by
  obtain ⟨saved, size, size_le, slack⟩ := h
  match saved, size with
  | [], 0 => rfl
  | [], n + 1 => simp at size_le
  | s :: rest, 0 => rfl
  | s :: rest, n + 1 => simp [pop?, toList]

/-- A history with something to go back to gives its first snapshot and keeps the rest. -/
theorem toList_of_pop? {h rest : History} {s : Snapshot} (hp : h.pop? = some (s, rest)) :
    h.toList = s :: rest.toList := by
  have hview := h.toList_pop?
  rw [hp, Option.map_some] at hview
  split at hview
  · cases hview
  · exact (Option.some.inj hview).symm

theorem pop?_eq_none {h : History} : h.pop? = none ↔ h.toList = [] := by
  have hview := h.toList_pop?
  constructor
  · intro hp
    rw [hp, Option.map_none] at hview
    split at hview
    · assumption
    · cases hview
  · intro he
    rw [if_pos he] at hview
    exact Option.map_eq_none_iff.mp hview

/-- Whatever is in a history after a push was pushed or was there before. -/
theorem mem_push {depth : Nat} {s t : Snapshot} {h : History}
    (ht : t ∈ (h.push depth s).toList) : t = s ∨ t ∈ h.toList := by
  have of_cons {saved : List Snapshot} (ht : t ∈ (s :: saved).take h.size) :
      t = s ∨ t ∈ saved.take h.size := by
    generalize h.size = size at ht ⊢
    cases size with
    | zero => cases ht
    | succ n =>
      rw [List.take_succ_cons, List.mem_cons] at ht
      exact ht.imp_right fun ht => List.take_subset_take_left saved (Nat.le_succ n) ht
  simp only [push] at ht
  split at ht
  · exact .inr ht
  · split at ht
    · simpa only [toList, List.take_succ_cons, List.mem_cons] using ht
    · split at ht
      · exact of_cons ht
      · exact (of_cons ht).imp_right fun ht =>
          List.take_subset_take_left _ (Nat.sub_le _ _)
            (by simpa [List.take_take] using ht)

end History
end ChipEight
