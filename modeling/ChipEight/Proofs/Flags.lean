import ChipEight.Proofs.Confines

/-! Register arithmetic and its flag.

Sums, differences and shifts put a result into a register and a flag into the flag register, and
the operands, the register of the result and the flag register may be one and the same. Both
operands are read before either is written, and the flag is written last: `Flagged` says what
that leaves in the registers. `execute_flagged` gives the result and the flag of the five
instructions as whole numbers, whichever registers they name. -/
namespace ChipEight

/-! ### Bytes as numbers -/

namespace Byte

theorem toNat_add (a b : UInt8) : ((a + b).toNat : Int) = (a.toNat + b.toNat) % 256 := by
  rw [UInt8.toNat_add]
  omega

theorem toNat_sub (a b : UInt8) : ((a - b).toNat : Int) = (a.toNat - b.toNat) % 256 := by
  have ha := a.toNat_lt
  have hb := b.toNat_lt
  rw [UInt8.toNat_sub]
  omega

/-- Shifting right by one halves, and the bit shifted out is what is left over. -/
theorem half (a : UInt8) :
    ((a >>> 1).toNat : Int) = a.toNat / 2 ∧ ((a &&& 1).toNat : Int) = a.toNat % 2 := by
  have hshifted : (a >>> 1).toNat = a.toNat / 2 := by
    rw [UInt8.toNat_shiftRight]
    exact Nat.shiftRight_eq_div_pow _ 1
  have hmasked : (a &&& 1).toNat = a.toNat % 2 := by
    rw [UInt8.toNat_and]
    exact Nat.and_one_is_mod _
  omega

/-- Shifting left by one doubles, and the bit shifted out is what a byte does not hold. -/
theorem double (a : UInt8) :
    ((a <<< 1).toNat : Int) = 2 * a.toNat % 256 ∧ ((a >>> 7).toNat : Int) = a.toNat / 128 := by
  have hshifted : (a <<< 1).toNat = a.toNat * 2 % 256 := by
    rw [UInt8.toNat_shiftLeft]
    exact congrArg (· % 256) (Nat.shiftLeft_eq _ 1)
  have htop : (a >>> 7).toNat = a.toNat / 128 := by
    rw [UInt8.toNat_shiftRight]
    exact Nat.shiftRight_eq_div_pow _ 7
  omega

end Byte

namespace Snapshot

theorem toNat_flagOf (condition : Prop) [Decidable condition] :
    ((flagOf condition).toNat : Int) = if condition then 1 else 0 := by
  by_cases h : condition <;> simp [flagOf, h]

/-- A shift shifts the second register or the first in place, as is the dialect's way. -/
theorem toNat_shiftSource (s : Snapshot) (dialect : Dialect) (x y : Nibble) :
    ((s.shiftSource dialect x y).toNat : Int) =
      if dialect.shiftReadsVy then ((s.register y).toNat : Int) else (s.register x).toNat := by
  rw [shiftSource]
  split <;> rfl

end Snapshot

open Snapshot

/-- What a result and a flag leave in the registers, the flag where both go to one place. The other
registers are as they were. -/
structure Flagged (s : Snapshot) (x : Nibble) (result raised : Int) (t : Snapshot) : Prop where
  raised : (t.register flag).toNat = raised
  result : x ≠ flag → (t.register x).toNat = result
  others : ∀ z, z ≠ x → z ≠ flag → t.register z = s.register z

theorem flagged_setFlagged (s : Snapshot) (x : Nibble) (value raised : UInt8) :
    Flagged s x value.toNat raised.toNat (s.setFlagged x value raised).next := by
  refine ⟨?_, fun apart => ?_, fun z hx hflag => register_setFlagged (by simp [hx, hflag])⟩
  · show (((s.setFlagged x value raised).register flag).toNat : Int) = _
    rw [setFlagged, register_setRegister, if_pos rfl]
  · show (((s.setFlagged x value raised).register x).toNat : Int) = _
    rw [setFlagged, register_setRegister, if_neg apart, register_setRegister, if_pos rfl]

/-- An instruction runs, and leaves a result and a flag in the registers. -/
def Calculates (around : Surroundings) (s : Snapshot) (d : Devices) (i : Instruction) (x : Nibble)
    (result raised : Int) : Prop :=
  ∃ t, execute around s d i = (.ok t, d) ∧ Flagged s x result raised t

/-- An instruction that puts a byte and a flag into the registers calculates the two. -/
theorem calculates_of_setFlagged {around : Surroundings} {s : Snapshot} {d : Devices}
    {i : Instruction} {x : Nibble} {value raised : UInt8} {result flagged : Int}
    (ran : execute around s d i = (.ok (s.setFlagged x value raised).next, d))
    (hvalue : (value.toNat : Int) = result) (hraised : (raised.toNat : Int) = flagged) :
    Calculates around s d i x result flagged := by
  subst hvalue hraised
  exact ⟨_, ran, flagged_setFlagged s x value raised⟩

/-- **The result and the flag of register arithmetic**, for any two registers, one or both of which
may be the flag register itself. The flag of a sum is its carry; the flag of a difference is that
nothing had to be borrowed; the flag of a shift is the bit that was shifted out. -/
theorem execute_flagged (around : Surroundings) (s : Snapshot) (d : Devices) (x y : Nibble) :
    let a : Int := (s.register x).toNat
    let b : Int := (s.register y).toNat
    let source := if around.dialect.shiftReadsVy then b else a
    Calculates around s d (.add x y) x ((a + b) % 256) (if 256 ≤ a + b then 1 else 0) ∧
      Calculates around s d (.sub x y) x ((a - b) % 256) (if b ≤ a then 1 else 0) ∧
      Calculates around s d (.subFrom x y) x ((b - a) % 256) (if a ≤ b then 1 else 0) ∧
      Calculates around s d (.shiftRight x y) x (source / 2) (source % 2) ∧
      Calculates around s d (.shiftLeft x y) x (2 * source % 256) (source / 128) := by
  intro a b source
  have hsource : ((s.shiftSource around.dialect x y).toNat : Int) = source :=
    s.toNat_shiftSource around.dialect x y
  obtain ⟨hhalf, hlow⟩ := Byte.half (s.shiftSource around.dialect x y)
  obtain ⟨hdouble, hhigh⟩ := Byte.double (s.shiftSource around.dialect x y)
  rw [hsource] at hhalf hlow hdouble hhigh
  have hle : ∀ u v : UInt8, (u ≤ v) = ((u.toNat : Int) ≤ v.toNat) := by
    intro u v
    rw [UInt8.le_iff_toNat_le, Int.ofNat_le]
  refine ⟨calculates_of_setFlagged rfl (Byte.toNat_add _ _) ?_,
    calculates_of_setFlagged rfl (Byte.toNat_sub _ _) ?_,
    calculates_of_setFlagged rfl (Byte.toNat_sub _ _) ?_,
    calculates_of_setFlagged rfl hhalf hlow, calculates_of_setFlagged rfl hdouble hhigh⟩
  · rw [toNat_flagOf]
    refine if_congr ?_ rfl rfl
    omega
  · rw [toNat_flagOf]
    simp only [hle, a, b]
  · rw [toNat_flagOf]
    simp only [hle, a, b]

end ChipEight
