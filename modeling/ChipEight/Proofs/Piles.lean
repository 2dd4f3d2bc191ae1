import Mathlib.Logic.Basic
import ChipEight.Hardware.CallStack

/-! The call stack as a pile.

Whoever uses a call stack sees a pile of at most sixteen addresses: what is put on it comes off
again, the latest first, until there is nothing left. `Pile.serve` says so without slots or
depths, and `Piles.serve` that a stack answers as the pile of its live addresses does. Below the
stack is a `Rack`, the slots and a byte that counts those in use, changed in place; nothing in it
keeps the count within the slots. `Bears.serve` says that it stays there all the same, and that the
stack is what the rack bears. `served_as_pile` puts the three together for any requests, one after
another. -/
namespace ChipEight

/-! ### Requests -/

/-- What is asked of a call stack. -/
inductive StackRequest where
  | push (address : UInt16)
  | pop
  | peek
deriving DecidableEq

/-- What comes of a request. -/
inductive StackAnswer where
  /-- It is done, and gives this address, if any. -/
  | gave (address : Option UInt16)
  /-- It cannot be done. -/
  | fault (fault : StackFault)
  /-- Nothing: a slot was asked for that there is not. -/
  | strayed
deriving DecidableEq

namespace StackRequest

/-- Serve requests one after another, whatever comes of each. -/
def serveAll {σ : Type} (serve : σ → StackRequest → StackAnswer × σ) (s : σ) :
    List StackRequest → List StackAnswer × σ
  | [] => ([], s)
  | request :: rest =>
    let (answer, s) := serve s request
    let (answers, s) := serveAll serve s rest
    (answer :: answers, s)

/-- Where each request is served alike, so are all of them. -/
theorem serveAll_alike {σ τ : Type} {serve : σ → StackRequest → StackAnswer × σ}
    {serve' : τ → StackRequest → StackAnswer × τ} {Alike : σ → τ → Prop}
    (step : ∀ s t, Alike s t → ∀ request, (serve s request).1 = (serve' t request).1 ∧
      Alike (serve s request).2 (serve' t request).2)
    {s : σ} {t : τ} (alike : Alike s t) (requests : List StackRequest) :
    (serveAll serve s requests).1 = (serveAll serve' t requests).1 ∧
      Alike (serveAll serve s requests).2 (serveAll serve' t requests).2 := by
  induction requests generalizing s t with
  | nil => exact ⟨rfl, alike⟩
  | cons request rest ih =>
    obtain ⟨hanswer, hnext⟩ := step s t alike request
    obtain ⟨hanswers, hlast⟩ := ih hnext
    refine ⟨?_, hlast⟩
    simp only [serveAll, hanswer, hanswers]

end StackRequest

/-! ### Piles -/

namespace Pile

/-- Serve a request on a pile of at most sixteen addresses, the latest first. -/
def serve (pile : List UInt16) : StackRequest → StackAnswer × List UInt16
  | .push address =>
    if pile.length = 16 then (.fault .overflow, pile) else (.gave none, address :: pile)
  | .pop =>
    match pile with
    | [] => (.fault .underflow, [])
    | latest :: rest => (.gave (some latest), rest)
  | .peek => (.gave pile.head?, pile)

theorem serve_ne_strayed (pile : List UInt16) (request : StackRequest) :
    (serve pile request).1 ≠ .strayed := by
  cases request with
  | push address =>
    rw [serve]
    split <;> nofun
  | pop => cases pile <;> nofun
  | peek => nofun

theorem strayed_not_mem (pile : List UInt16) (requests : List StackRequest) :
    .strayed ∉ (StackRequest.serveAll serve pile requests).1 := by
  induction requests generalizing pile with
  | nil => exact List.not_mem_nil
  | cons request rest ih =>
    exact List.mem_cons.not.mpr (not_or.mpr ⟨(serve_ne_strayed pile request).symm, ih _⟩)

end Pile

/-! ### Stacks -/

namespace CallStack

/-- Serve a request. A fault comes with no other stack, so the one there was stays. -/
def serve (s : CallStack) : StackRequest → StackAnswer × CallStack
  | .push address =>
    match s.push address with
    | .error fault => (.fault fault, s)
    | .ok t => (.gave none, t)
  | .pop =>
    match s.pop with
    | .error fault => (.fault fault, s)
    | .ok (address, t) => (.gave (some address), t)
  | .peek => (.gave s.peek?, s)

theorem push_eq_error {s : CallStack} {address : UInt16} {fault : StackFault} :
    s.push address = .error fault ↔ fault = .overflow ∧ s.toList.length = 16 := by
  have := s.depth.isLt
  rw [length_toList, push]
  split <;> rename_i room
  · constructor
    · intro h
      cases h
    · rintro ⟨-, full⟩
      omega
  · rw [Except.error.injEq, eq_comm (a := StackFault.overflow), and_iff_left (by omega)]

theorem pop_eq_error {s : CallStack} {fault : StackFault} :
    s.pop = .error fault ↔ fault = .underflow ∧ s.toList = [] := by
  rw [← List.length_eq_zero_iff, length_toList, pop]
  split <;> rename_i called
  · constructor
    · intro h
      cases h
    · rintro ⟨-, hempty⟩
      omega
  · rw [Except.error.injEq, eq_comm (a := StackFault.underflow), and_iff_left (by omega)]

/-- A return would go where the latest call is to return to. -/
theorem peek?_eq_getLast? (s : CallStack) : s.peek? = s.toList.getLast? := by
  unfold peek?
  split <;> rename_i called
  · have hpop : s.pop = .ok (s.slots[s.depth.val - 1], ⟨s.slots, ⟨s.depth.val - 1, by omega⟩⟩) :=
      dif_pos called
    rw [toList_pop hpop, List.getLast?_concat]
  · have hempty : s.toList = [] := List.length_eq_zero_iff.mp (by rw [length_toList]; omega)
    rw [hempty]
    rfl

/-- The live addresses of a stack are this pile. -/
def Piles (s : CallStack) (pile : List UInt16) : Prop := s.toList = pile.reverse

theorem Piles.length_eq {s : CallStack} {pile : List UInt16} (h : s.Piles pile) :
    s.toList.length = pile.length := by rw [h, List.length_reverse]

/-- **A stack serves a request as its pile does.** -/
theorem Piles.serve {s : CallStack} {pile : List UInt16} (h : s.Piles pile)
    (request : StackRequest) :
    (s.serve request).1 = (Pile.serve pile request).1 ∧
      (s.serve request).2.Piles (Pile.serve pile request).2 := by
  cases request with
  | push address =>
    simp only [CallStack.serve, Pile.serve]
    cases hpush : s.push address with
    | error fault =>
      obtain ⟨rfl, full⟩ := push_eq_error.mp hpush
      rw [if_pos (h.length_eq.symm.trans full)]
      exact ⟨rfl, h⟩
    | ok t =>
      have room : pile.length ≠ 16 := fun full => by
        rw [push_eq_error.mpr ⟨rfl, h.length_eq.trans full⟩] at hpush
        cases hpush
      rw [if_neg room]
      exact ⟨rfl, by rw [Piles, toList_push hpush, h, List.reverse_cons]⟩
  | pop =>
    simp only [CallStack.serve]
    cases hpop : s.pop with
    | error fault =>
      obtain ⟨rfl, hempty⟩ := pop_eq_error.mp hpop
      obtain rfl : pile = [] := List.reverse_eq_nil_iff.mp (h.symm.trans hempty)
      exact ⟨rfl, h⟩
    | ok taken =>
      obtain ⟨address, t⟩ := taken
      cases pile with
      | nil =>
        rw [pop_eq_error.mpr ⟨rfl, h⟩] at hpop
        cases hpop
      | cons latest rest =>
        rw [Piles, toList_pop hpop, List.reverse_cons] at h
        obtain ⟨hrest, hlatest⟩ := List.append_inj' h rfl
        cases hlatest
        exact ⟨rfl, hrest⟩
  | peek =>
    simp only [CallStack.serve, Pile.serve]
    rw [peek?_eq_getLast?, h, List.getLast?_reverse]
    exact ⟨rfl, h⟩

/-- A fault leaves everything as it was. -/
theorem serve_of_fault {s : CallStack} {request : StackRequest} {fault : StackFault}
    (h : (s.serve request).1 = .fault fault) : (s.serve request).2 = s := by
  cases request with
  | push address =>
    simp only [serve] at h ⊢
    cases hpush : s.push address with
    | error => rfl
    | ok =>
      rw [hpush] at h
      cases h
  | pop =>
    simp only [serve] at h ⊢
    cases hpop : s.pop with
    | error => rfl
    | ok =>
      rw [hpop] at h
      cases h
  | peek => rfl

end CallStack

/-! ### Racks -/

/-- Slots for addresses, and a count of those in use that may be any byte. -/
structure Rack where
  slots : Vector UInt16 16
  used : UInt8
deriving DecidableEq

namespace Rack

/-- No slot in use, and nothing in any of them. -/
def empty : Rack := ⟨Vector.replicate 16 0, 0⟩

/-- The address in a slot. -/
def read (r : Rack) (slot : UInt8) : StackAnswer :=
  match r.slots[slot.toNat]? with
  | some address => .gave (some address)
  | none => .strayed

/-- Serve a request in place. An address is put into the first slot that is not in use before the
count goes up; the count goes down before an address is taken, which stays in its slot. -/
def serve (r : Rack) : StackRequest → StackAnswer × Rack
  | .push address =>
    match r.slots[r.used.toNat]? with
    | none => (.fault .overflow, r)
    | some _ =>
      let r := { r with slots := r.slots.setIfInBounds r.used.toNat address }
      (.gave none, { r with used := r.used + 1 })
  | .pop =>
    if r.used = 0 then (.fault .underflow, r)
    else
      let r := { r with used := r.used - 1 }
      (r.read r.used, r)
  | .peek => (if r.used = 0 then .gave none else r.read (r.used - 1), r)

/-- The slots of a stack, those out of use too, and its depth as the count. -/
structure Bears (r : Rack) (s : CallStack) : Prop where
  slots : r.slots = s.slots
  used : r.used.toNat = s.depth.val

variable {r : Rack} {s : CallStack}

theorem Bears.used_eq_zero_iff (h : r.Bears s) : r.used = 0 ↔ s.depth.val = 0 := by
  rw [← UInt8.toNat_inj, h.used]
  rfl

/-- The slot below the count is there, and it has the address on top. -/
theorem Bears.top (h : r.Bears s) (called : 0 < s.depth.val) :
    (r.used - 1).toNat = s.depth.val - 1 ∧ r.read (r.used - 1) = .gave s.peek? := by
  have htop : (r.used - 1).toNat = s.depth.val - 1 := by
    rw [UInt8.toNat_sub_of_le _ _ (by rw [UInt8.le_iff_toNat_le, h.used]; exact called), h.used]
    rfl
  have hslot : r.slots[s.depth.val - 1]? = some s.slots[s.depth.val - 1] := by
    rw [h.slots, Vector.getElem?_eq_getElem]
  refine ⟨htop, ?_⟩
  rw [CallStack.peek?, dif_pos called]
  simp only [read, htop, hslot]

/-- **A rack serves a request as the stack does that it bears.** -/
theorem Bears.serve (h : r.Bears s) (request : StackRequest) :
    (r.serve request).1 = (s.serve request).1 ∧ (r.serve request).2.Bears (s.serve request).2 := by
  cases request with
  | push address =>
    simp only [Rack.serve, CallStack.serve, CallStack.push, h.used]
    split <;> rename_i hslot
    · have full : 16 ≤ s.depth.val := by simpa using hslot
      rw [dif_neg (Nat.not_lt_of_le full)]
      exact ⟨rfl, h⟩
    · have room : s.depth.val < 16 := (Vector.getElem?_eq_some_iff.mp hslot).1
      have hset : s.slots.setIfInBounds s.depth.val address = s.slots.set s.depth.val address := by
        simp [Vector.set, Vector.setIfInBounds, Array.setIfInBounds, room]
      have hcount : (r.used + 1).toNat = s.depth.val + 1 := by
        rw [UInt8.toNat_add, h.used]
        exact Nat.mod_eq_of_lt (Nat.lt_of_le_of_lt room (by decide))
      rw [dif_pos room, h.slots, hset]
      exact ⟨rfl, rfl, hcount⟩
  | pop =>
    simp only [Rack.serve, CallStack.serve, CallStack.pop]
    split <;> rename_i hzero
    · rw [dif_neg (by rw [h.used_eq_zero_iff.mp hzero]; decide)]
      exact ⟨rfl, h⟩
    · have called := Nat.pos_of_ne_zero (h.used_eq_zero_iff.not.mp hzero)
      obtain ⟨hcount, hread⟩ := h.top called
      rw [CallStack.peek?, dif_pos called] at hread
      rw [dif_pos called]
      exact ⟨hread, h.slots, hcount⟩
  | peek =>
    refine ⟨?_, h⟩
    simp only [Rack.serve, CallStack.serve]
    split <;> rename_i hzero
    · rw [CallStack.peek?, dif_neg (by rw [h.used_eq_zero_iff.mp hzero]; decide)]
    · exact (h.top (Nat.pos_of_ne_zero (h.used_eq_zero_iff.not.mp hzero))).2

/-- A fault comes before anything is changed. -/
theorem serve_of_fault {request : StackRequest} {fault : StackFault}
    (h : (r.serve request).1 = .fault fault) : (r.serve request).2 = r := by
  cases request with
  | push address =>
    simp only [serve] at h ⊢
    split at h
    · rfl
    · cases h
  | pop =>
    simp only [serve] at h ⊢
    split at h
    · rename_i hzero
      rw [if_pos hzero]
    · rw [read] at h
      split at h <;> cases h
  | peek => rfl

end Rack

open StackRequest in
/-- **A call stack is a pile of at most sixteen addresses** to all who use it. Whatever requests are
served from an empty stack on, the answers are those of the pile, and so are the depth and the
address on top. A call is refused exactly at sixteen addresses and a return exactly at none. The
rack below answers the same, never asks for a slot that there is not and never counts beyond
sixteen. A fault leaves the stack and the rack just as they were, to the last slot. -/
theorem CallStack.served_as_pile (requests : List StackRequest) :
    let answers := (serveAll CallStack.serve .empty requests).1
    let s := (serveAll CallStack.serve .empty requests).2
    let pile := (serveAll Pile.serve [] requests).2
    let rack := (serveAll Rack.serve .empty requests).2
    (answers = (serveAll Pile.serve [] requests).1 ∧ s.toList = pile.reverse ∧
        pile.length ≤ 16) ∧
      (s.depth.val = pile.length ∧ s.isEmpty = pile.isEmpty ∧ s.peek? = pile.head?) ∧
      (∀ address fault, s.push address = .error fault ↔ fault = .overflow ∧ pile.length = 16) ∧
      (∀ fault, s.pop = .error fault ↔ fault = .underflow ∧ pile = []) ∧
      (∀ request fault, (s.serve request).1 = .fault fault → (s.serve request).2 = s) ∧
      (answers = (serveAll Rack.serve .empty requests).1 ∧ .strayed ∉ answers) ∧
      (rack.slots = s.slots ∧ rack.used.toNat = s.depth.val ∧ rack.used ≤ 16) ∧
      ∀ request fault, (rack.serve request).1 = .fault fault → (rack.serve request).2 = rack := by
  intro answers s pile rack
  obtain ⟨hanswers, piles⟩ := serveAll_alike (fun _ _ => Piles.serve)
    (show CallStack.empty.Piles [] from rfl) requests
  obtain ⟨hrack, bears⟩ := serveAll_alike (fun _ _ => Rack.Bears.serve)
    (show Rack.empty.Bears .empty from ⟨rfl, rfl⟩) requests
  have hlength : pile.length = s.depth.val := piles.length_eq.symm.trans s.length_toList
  have hle : s.depth.val ≤ 16 := Nat.le_of_lt_succ s.depth.isLt
  have hempty : s.toList = [] ↔ pile = [] := by rw [piles, List.reverse_eq_nil_iff]
  refine ⟨⟨hanswers, piles, hlength ▸ hle⟩, ⟨hlength.symm, ?_, ?_⟩, fun address fault => ?_,
    fun fault => ?_, fun request fault => serve_of_fault, ⟨hrack.symm, ?_⟩,
    ⟨bears.slots, bears.used, ?_⟩, fun request fault => Rack.serve_of_fault⟩
  · rw [isEmpty, ← hlength]
    cases pile <;> rfl
  · rw [peek?_eq_getLast?, piles, List.getLast?_reverse]
  · rw [push_eq_error, piles.length_eq]
  · rw [pop_eq_error, hempty]
  · show .strayed ∉ (serveAll CallStack.serve .empty requests).1
    rw [hanswers]
    exact Pile.strayed_not_mem [] requests
  · rw [UInt8.le_iff_toNat_le]
    exact Nat.le_trans (Nat.le_of_eq bears.used) hle

/-- Sixteen calls and one too many, and a return that leaves its address in its slot. -/
theorem CallStack.served_as_pile_full :
    let calls := (List.range 16).map fun k => StackRequest.push (UInt16.ofNat (k + 1))
    let s := (StackRequest.serveAll CallStack.serve .empty calls).2
    s.push 0xFFF = .error .overflow ∧ s.serve (.push 0xFFF) = (.fault .overflow, s) ∧
      (s.serve .pop).1 = .gave (some 16) ∧ (s.serve .pop).2.slots = s.slots := by
  intro calls s
  obtain ⟨hanswers, -, hpush, -, hkept, -⟩ := served_as_pile calls
  have full : s.push 0xFFF = .error .overflow := (hpush 0xFFF .overflow).mpr ⟨rfl, by decide⟩
  have hfault : (s.serve (.push 0xFFF)).1 = .fault .overflow := by
    rw [serve, full]
  exact ⟨full, Prod.ext hfault (hkept _ _ hfault), by decide, by decide⟩

end ChipEight
