import ChipEight.Proofs.Pixels

/-! Sprites as sets of places.

A sprite is put on the screen a row at a time, each row rotated to its column and then laid over a
word of the screen. Here it is a set of places, those that its set bits fall on around the edges
(`covered`), and drawing it is a symmetric difference with the lit places: `lit_xorSprite` for
what is shown, `darkens_xorSprite` for what is reported. Rows of a sprite that is no taller than the
screen fall on different rows (`disjoint_covered`), which is why one row does not see what another
has drawn and why no two bits share a place (`card_covered`). -/
namespace ChipEight

open scoped symmDiff

namespace Screen

/-! ### The places a sprite covers -/

/-- The set bits of a sprite: the row of each and its column, from the top left corner. -/
def setBits (rows : List UInt8) : Finset (Nat × Nat) :=
  (Finset.range rows.length ×ˢ Finset.range 8).filter fun b =>
    (rows.getD b.1 0).toNat.testBit (7 - b.2) = true

/-- The place that a bit falls on if the sprite is put at some coordinates. -/
def spot (x y : Nat) (b : Nat × Nat) : Place := (Fin.ofNat 64 (x + b.2), Fin.ofNat 32 (y + b.1))

/-- The places that the set bits of a sprite fall on. -/
def covered (x y : Nat) (rows : List UInt8) : Finset Place := (setBits rows).image (spot x y)

variable {x y : Nat} {bits : UInt8} {rows rest : List UInt8} {p : Place}

theorem mem_setBits {b : Nat × Nat} : b ∈ setBits rows ↔
    b.1 < rows.length ∧ b.2 < 8 ∧ (rows.getD b.1 0).toNat.testBit (7 - b.2) = true := by
  simp [setBits, and_assoc]

theorem mem_covered : p ∈ covered x y rows ↔ ∃ r < rows.length, ∃ c < 8,
    p.1.val = (x + c) % 64 ∧ p.2.val = (y + r) % 32 ∧
      (rows.getD r 0).toNat.testBit (7 - c) = true := by
  simp only [covered, Finset.mem_image, mem_setBits, Prod.exists, spot, Prod.ext_iff, Fin.ext_iff,
    Fin.val_ofNat]
  constructor
  · rintro ⟨r, c, ⟨hr, hc, hset⟩, hx, hy⟩
    exact ⟨r, hr, c, hc, hx.symm, hy.symm, hset⟩
  · rintro ⟨r, hr, c, hc, hx, hy, hset⟩
    exact ⟨r, c, ⟨hr, hc, hset⟩, hx.symm, hy.symm⟩

/-- The first row of a sprite covers places in one row, and the other rows cover what they cover one
row further down. -/
theorem covered_cons (x y : Nat) (bits : UInt8) (rest : List UInt8) :
    covered x y (bits :: rest) = covered x y [bits] ∪ covered x (y + 1) rest := by
  ext p
  simp only [Finset.mem_union, mem_covered]
  constructor
  · rintro ⟨_ | r, hr, c, hc, hx, hy, hset⟩
    · exact .inl ⟨0, Nat.one_pos, c, hc, hx, hy, hset⟩
    · exact .inr ⟨r, Nat.lt_of_succ_lt_succ hr, c, hc, hx, by omega, hset⟩
  · rintro (⟨r, hr, c, hc, hx, hy, hset⟩ | ⟨r, hr, c, hc, hx, hy, hset⟩)
    · obtain rfl : r = 0 := Nat.lt_one_iff.mp hr
      exact ⟨0, Nat.succ_pos _, c, hc, hx, hy, hset⟩
    · exact ⟨r + 1, Nat.succ_lt_succ hr, c, hc, hx, by omega, hset⟩

/-- Less than a screen of rows further down does not come round to the first row. -/
theorem disjoint_covered (short : rest.length < 32) :
    Disjoint (covered x y [bits]) (covered x (y + 1) rest) := by
  refine Finset.disjoint_left.mpr fun p hfirst hrest => ?_
  obtain ⟨r, hr, _, _, _, hy, _⟩ := mem_covered.mp hfirst
  obtain ⟨r', hr', _, _, _, hy', _⟩ := mem_covered.mp hrest
  rw [List.length_singleton] at hr
  omega

/-- Bits of a sprite that is no taller than the screen fall on places of their own. -/
theorem card_covered (short : rows.length ≤ 32) :
    (covered x y rows).card = (setBits rows).card := by
  refine Finset.card_image_of_injOn fun b hb b' hb' h => ?_
  obtain ⟨hr, hc, -⟩ := mem_setBits.mp hb
  obtain ⟨hr', hc', -⟩ := mem_setBits.mp hb'
  simp only [spot, Prod.ext_iff, Fin.ext_iff, Fin.val_ofNat] at h
  exact Prod.ext (by omega) (by omega)

/-! ### Drawing one row -/

/-- A column of a rotated row shows the bit that the rotation put there, if it is one of eight. -/
theorem getMsbD_spriteRow (x : Nat) (bits : UInt8) (i : Fin 64) : (spriteRow x bits).getMsbD i =
    (decide ((i + 64 - x % 64) % 64 < 8) && bits.toNat.testBit (7 - (i + 64 - x % 64) % 64)) := by
  have hread : (spriteRow x bits).getMsbD i =
      (bits.toBitVec ++ 0#56).getMsbD ((i + 64 - x % 64) % 64) := by
    rw [spriteRow, BitVec.getMsbD_rotateRight, decide_eq_true i.isLt, Bool.true_and, Nat.mod_mod]
    split
    · congr 1
      omega
    · congr 1
      omega
  rw [hread, BitVec.getMsbD_append]
  split
  · rename_i hpast
    rw [BitVec.getMsbD_zero, decide_eq_false (Nat.not_lt.mpr hpast), Bool.false_and]
  · rw [BitVec.getMsbD_eq_getLsbD, ← BitVec.testBit_toNat, UInt8.toNat_toBitVec]

/-- A sprite row covers, in its row of the screen, the columns that it lights. -/
theorem mem_covered_row : p ∈ covered x y [bits] ↔
    p.2.val = y % 32 ∧ (spriteRow x bits).getMsbD p.1 = true := by
  have hcolumn := p.1.isLt
  rw [mem_covered, getMsbD_spriteRow, Bool.and_eq_true, decide_eq_true_eq]
  constructor
  · rintro ⟨r, hr, c, hc, hx, hy, hset⟩
    obtain rfl : r = 0 := Nat.lt_one_iff.mp hr
    obtain rfl : (p.1 + 64 - x % 64) % 64 = c := by omega
    exact ⟨hy, hc, hset⟩
  · rintro ⟨hy, hc, hset⟩
    exact ⟨0, Nat.one_pos, _, hc, by omega, hy, hset⟩

/-- A row turns over the places it covers. -/
theorem pixel_xorRow (s : Screen) (x y : Nat) (bits : UInt8) (p : Place) :
    (s.xorRow x y bits).2.pixel p.1 p.2 =
      (s.pixel p.1 p.2 ^^ decide (p ∈ covered x y [bits])) := by
  have hsame : p.2.val % 32 = p.2.val := Nat.mod_eq_of_lt p.2.isLt
  rw [pixel_place, pixel_place, xorRow, row_setRow]
  by_cases hy : p.2.val % 32 = y % 32
  · have hp : p ∈ covered x y [bits] ↔ (spriteRow x bits).getMsbD p.1 = true :=
      mem_covered_row.trans (and_iff_right (hsame.symm.trans hy))
    simp only [if_pos hy, BitVec.getMsbD_xor, s.row_congr hy, hp, Bool.decide_eq_true]
  · have hp : p ∉ covered x y [bits] := fun h => hy (hsame.trans (mem_covered_row.mp h).1)
    rw [if_neg hy, decide_eq_false hp, Bool.xor_false]

/-- What is lit with a row drawn. -/
theorem lit_xorRow (s : Screen) (x y : Nat) (bits : UInt8) :
    (s.xorRow x y bits).2.lit = s.lit ∆ covered x y [bits] := by
  ext p
  rw [mem_lit, pixel_xorRow, Finset.mem_symmDiff, mem_lit]
  by_cases hp : p ∈ covered x y [bits] <;> simp [hp]

/-- A row darkens a lit pixel where it covers one. -/
theorem darkens_xorRow (s : Screen) (x y : Nat) (bits : UInt8) :
    (s.xorRow x y bits).1 = true ↔ ¬Disjoint s.lit (covered x y [bits]) := by
  rw [xorRow, bne_zero_iff, Finset.not_disjoint_iff]
  simp only [BitVec.getMsbD_and, Bool.and_eq_true, mem_lit, pixel_place, mem_covered_row]
  constructor
  · rintro ⟨column, hlit, hset⟩
    refine ⟨(column, Fin.ofNat 32 y), ?_, rfl, hset⟩
    show (s.row (y % 32)).getMsbD column = true
    rwa [s.row_congr (Nat.mod_mod y 32)]
  · rintro ⟨p, hlit, hy, hset⟩
    refine ⟨p.1, ?_, hset⟩
    rwa [s.row_congr (show y % 32 = p.2.val % 32 by omega)]

/-! ### Drawing a sprite -/

/-- **A sprite is drawn by turning over the places it covers.** -/
theorem lit_xorSprite (s : Screen) (x y : Nat) (short : rows.length ≤ 32) :
    (s.xorSprite x y rows).2.lit = s.lit ∆ covered x y rows := by
  induction rows generalizing s y with
  | nil =>
    have hnone : covered x y [] = ⊥ := rfl
    rw [hnone, symmDiff_bot, xorSprite]
  | cons bits rest ih =>
    rw [List.length_cons] at short
    rw [xorSprite, covered_cons x y bits rest]
    show ((s.xorRow x y bits).2.xorSprite x (y + 1) rest).2.lit = _
    rw [ih _ _ (by omega), lit_xorRow, symmDiff_assoc,
      (disjoint_covered (Nat.lt_of_succ_le short)).symmDiff_eq_sup, Finset.sup_eq_union]

/-- A sprite darkens a lit pixel where it covers one: what its rows draw is not in their own way. -/
theorem darkens_xorSprite (s : Screen) (x y : Nat) (short : rows.length ≤ 32) :
    (s.xorSprite x y rows).1 = true ↔ ¬Disjoint s.lit (covered x y rows) := by
  induction rows generalizing s y with
  | nil => simp [xorSprite, covered, setBits]
  | cons bits rest ih =>
    rw [List.length_cons] at short
    have hapart : Disjoint (covered x y [bits]) (covered x (y + 1) rest) :=
      disjoint_covered (Nat.lt_of_succ_le short)
    -- turning over places above leaves those the other rows cover as they were
    have hothers : Disjoint (s.lit ∆ covered x y [bits]) (covered x (y + 1) rest) ↔
        Disjoint s.lit (covered x (y + 1) rest) := by
      rw [disjoint_iff, disjoint_iff, inf_symmDiff_distrib_right, hapart.eq_bot, symmDiff_bot]
    show ((s.xorRow x y bits).1 || ((s.xorRow x y bits).2.xorSprite x (y + 1) rest).1) = true ↔ _
    rw [Bool.or_eq_true, darkens_xorRow, ih _ _ (by omega), lit_xorRow, hothers,
      covered_cons x y bits rest, Finset.disjoint_union_right, not_and_or]

end Screen
end ChipEight
