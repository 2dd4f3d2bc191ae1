import Mathlib.Algebra.BigOperators.Fin
import Mathlib.Data.Finset.SymmDiff
import ChipEight.Hardware.Screen

/-! The screen as a set of lit places.

A screen packs its rows into words. What it shows is the set of places that are lit (`lit`): two
screens that light the same places are the same (`eq_of_lit`), and counting the bits of the words
counts these places (`litPixels_eq_card`). -/
namespace ChipEight.Screen

/-- A place on the screen: its column and its row. -/
abbrev Place := Fin 64 × Fin 32

/-- The places that are lit. -/
def lit (s : Screen) : Finset Place := Finset.univ.filter fun p => s.pixel p.1 p.2 = true

@[simp] theorem mem_lit {s : Screen} {p : Place} : p ∈ s.lit ↔ s.pixel p.1 p.2 = true := by
  simp [lit]

/-- Rows wrap. -/
theorem row_congr (s : Screen) {y z : Nat} (h : y % 32 = z % 32) : s.row y = s.row z := by
  simp only [row, h]

theorem pixel_place (s : Screen) (p : Place) : s.pixel p.1 p.2 = (s.row p.2).getMsbD p.1 := by
  rw [pixel, Nat.mod_eq_of_lt p.1.isLt]

/-- Screens that light the same places are the same. -/
theorem eq_of_lit {s t : Screen} (h : s.lit = t.lit) : s = t := by
  obtain ⟨rows⟩ := s
  obtain ⟨rows'⟩ := t
  refine congrArg mk (Vector.ext fun y hy => BitVec.eq_of_getMsbD_eq fun x hx => ?_)
  have hplace := Finset.ext_iff.mp h (⟨x, hx⟩, ⟨y, hy⟩)
  rw [mem_lit, mem_lit, ← Bool.eq_iff_iff, pixel_place, pixel_place] at hplace
  simpa [row, Nat.mod_eq_of_lt hy] using hplace

/-- A row lights something if one of its columns is lit. -/
theorem bne_zero_iff {bits : BitVec 64} :
    (bits != 0) = true ↔ ∃ x : Fin 64, bits.getMsbD x = true := by
  rw [bne_iff_ne]
  constructor
  · intro hbits
    by_contra hdark
    refine hbits (BitVec.eq_of_getMsbD_eq fun x hx => ?_)
    rw [Bool.eq_false_of_not_eq_true fun hlit => hdark ⟨⟨x, hx⟩, hlit⟩]
    exact BitVec.getMsbD_zero.symm
  · rintro ⟨x, hlit⟩ rfl
    exact absurd hlit (by simp)

/-! ### Counting -/

/-- Counting bits from the right of a row counts the columns that are lit. -/
theorem litInRow_eq_card (bits : BitVec 64) :
    litInRow bits = (Finset.univ.filter fun x : Fin 64 => bits.getMsbD x = true).card := by
  have hcount : litInRow bits = ((Finset.range 64).filter fun i => bits.getLsbD i = true).card := by
    rw [litInRow, List.countP_eq_length_filter,
      ← List.toFinset_card_of_nodup (List.nodup_range.filter _), List.toFinset_filter,
      List.toFinset_range]
  -- the bit in the place of a column is counted from the other end
  have hrev : ∀ x : Fin 64, bits.getMsbD x = bits.getLsbD x.rev := fun x => by
    rw [BitVec.getMsbD_eq_getLsbD, decide_eq_true x.isLt, Bool.true_and, Fin.val_rev,
      Nat.sub_sub, Nat.add_comm]
  calc litInRow bits = ∑ x : Fin 64, if bits.getLsbD x then 1 else 0 := by
        rw [hcount, Finset.card_filter, ← Fin.sum_univ_eq_sum_range]
    _ = ∑ x : Fin 64, if bits.getMsbD x then 1 else 0 := by
        rw [← Equiv.sum_comp Fin.revPerm]
        simp only [hrev, Fin.revPerm_apply]
    _ = _ := (Finset.card_filter _ _).symm

theorem toList_rows (s : Screen) : s.rows.toList = List.ofFn fun y : Fin 32 => s.row y := by
  refine List.ext_getElem (by simp) fun y hy _ => ?_
  have hy' : y < 32 := by simpa using hy
  rw [List.getElem_ofFn, Vector.getElem_toList]
  simp only [row, Nat.mod_eq_of_lt hy']

/-- The number of lit pixels is that of the places that are lit. -/
theorem litPixels_eq_card (s : Screen) : s.litPixels = s.lit.card := by
  have hrows : s.litPixels = (s.rows.toList.map litInRow).sum := by
    rw [litPixels, List.sum_eq_foldr, List.foldr_map]
  calc s.litPixels = ∑ y : Fin 32, litInRow (s.row y) := by
        rw [hrows, toList_rows, List.map_ofFn, List.sum_ofFn]
        rfl
    _ = ∑ y : Fin 32, ∑ x : Fin 64, if s.pixel x y then 1 else 0 := by
        refine Finset.sum_congr rfl fun y _ => ?_
        rw [litInRow_eq_card, Finset.card_filter]
        exact Finset.sum_congr rfl fun x _ => by rw [s.pixel_place (x, y)]
    _ = s.lit.card := by
        rw [lit, Finset.card_filter, Fintype.sum_prod_type_right]

-- whoever opened the set now would be listing every place there is
attribute [irreducible] lit

open scoped symmDiff in
/-- Turning places over loses those that were lit and gains those that were not. -/
theorem card_turned (lit turned : Finset Place) :
    (lit ∆ turned).card + 2 * (lit ∩ turned).card = lit.card + turned.card := by
  have hlost := Finset.card_sdiff_add_card_inter lit turned
  have hgained := Finset.card_sdiff_add_card_inter turned lit
  rw [Finset.inter_comm] at hgained
  have hsplit : (lit ∆ turned).card = (lit \ turned).card + (turned \ lit).card :=
    Finset.card_union_of_disjoint disjoint_sdiff_sdiff
  omega

end ChipEight.Screen
