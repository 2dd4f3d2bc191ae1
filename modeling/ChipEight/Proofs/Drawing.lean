import ChipEight.Proofs.Blocks
import ChipEight.Proofs.Sprites

/-! Drawing a sprite.

The instruction that draws takes its rows from the index on and its corner from two registers, and
`Inks` says in these terms which places it covers: the place is so many columns and rows from the
corner, around the edges, and the bit of that row and column is set. `execute_drawn` says what the
instruction leaves behind (`Drawn`), and the two results read off it: `execute_draw`, that it draws
pixel by pixel, and `execute_draw_twice`, that drawing again takes it back, with what each of the
two flags says and how many pixels are lit in between. -/
namespace ChipEight

open scoped symmDiff
open Screen (Place)

namespace Snapshot

/-- The rows of the sprite that is drawn: the bytes from the index on. -/
def sprite (s : Snapshot) (n : Nibble) : List UInt8 :=
  (List.range' s.index.toNat n.val).map s.memory.byteAt

/-- Whether a set bit of the sprite that is drawn falls on a place, around the edges either way. -/
def Inks (s : Snapshot) (x y n : Nibble) (p : Place) : Prop :=
  ∃ r < n.val, ∃ c < 8, p.1.val = ((s.register x).toNat + c) % 64 ∧
    p.2.val = ((s.register y).toNat + r) % 32 ∧
      (s.memory.byteAt (s.index.toNat + r)).toNat.testBit (7 - c) = true

instance (s : Snapshot) (x y n : Nibble) : DecidablePred (s.Inks x y n) := fun p =>
  inferInstanceAs (Decidable (∃ r < n.val, ∃ c < 8, p.1.val = ((s.register x).toNat + c) % 64 ∧
    p.2.val = ((s.register y).toNat + r) % 32 ∧
      (s.memory.byteAt (s.index.toNat + r)).toNat.testBit (7 - c) = true))

/-- The places that the sprite covers. -/
def inked (s : Snapshot) (x y n : Nibble) : Finset Place :=
  Screen.covered (s.register x).toNat (s.register y).toNat (s.sprite n)

/-- What drawing a sprite leaves behind: the places it covers are turned over, the flag says whether
one of them was lit, and the rest is as it was. -/
structure Drawn (s : Snapshot) (x y n : Nibble) (t : Snapshot) : Prop where
  lit : t.screen.lit = s.screen.lit ∆ s.inked x y n
  flag : t.register flag = if ∃ p, s.Inks x y n p ∧ s.screen.pixel p.1 p.2 = true then 1 else 0
  registers : ∀ z, z ≠ Snapshot.flag → t.register z = s.register z
  memory : t.memory = s.memory
  index : t.index = s.index
  stack : t.stack = s.stack

variable {s t : Snapshot} {x y n : Nibble} {p : Place}

theorem length_sprite (s : Snapshot) (n : Nibble) : (s.sprite n).length = n.val := by
  simp [sprite]

theorem short_sprite (s : Snapshot) (n : Nibble) : (s.sprite n).length ≤ 32 := by
  have hn := n.lt
  rw [length_sprite]
  omega

theorem mem_inked : p ∈ s.inked x y n ↔ s.Inks x y n p := by
  rw [inked, Screen.mem_covered, length_sprite, Inks]
  refine exists_congr fun r => and_congr_right fun hr => ?_
  have hbyte : (s.sprite n).getD r 0 = s.memory.byteAt (s.index.toNat + r) := by
    simp [sprite, List.getD_eq_getElem?_getD, hr]
  rw [hbyte]

/-- A sprite meets something where it covers a lit place. -/
theorem not_disjoint_inked (screen : Screen) : ¬Disjoint screen.lit (s.inked x y n) ↔
    ∃ p, s.Inks x y n p ∧ screen.pixel p.1 p.2 = true := by
  simp only [Finset.not_disjoint_iff, Screen.mem_lit, mem_inked, and_comm]

/-- A sprite that lies inside memory is drawn. -/
theorem execute_drawn (around : Surroundings) (d : Devices) (x y : Nibble)
    (fits : s.index.toNat + n.val ≤ 4096) :
    ∃ t, execute around s d (.draw x y n) = (.ok t, d) ∧ s.Drawn x y n t := by
  have hblock : s.memory.block s.index n.val = .ok (s.sprite n) := s.memory.block_of_fits fits
  have hlit := s.screen.lit_xorSprite (s.register x).toNat (s.register y).toNat (s.short_sprite n)
  have hdarkens :=
    (s.screen.darkens_xorSprite (s.register x).toNat (s.register y).toNat (s.short_sprite n)).trans
      (s.not_disjoint_inked s.screen)
  rcases hdrawn : s.screen.xorSprite (s.register x).toNat (s.register y).toNat (s.sprite n) with
    ⟨darkened, screen⟩
  rw [hdrawn] at hlit hdarkens
  refine ⟨next { s.setRegister flag (flagOf darkened) with screen, redraw := true }, ?_, hlit, ?_,
    fun z hz => (s.register_setRegister flag z _).trans (if_neg hz), rfl, rfl, rfl⟩
  · simp only [execute, drawSprite, hblock, hdrawn]
    rfl
  · refine ((s.register_setRegister flag flag _).trans (if_pos rfl)).trans ?_
    simp only [flagOf, hdarkens]

namespace Drawn

/-- A pixel is turned over if the sprite inks it. -/
theorem pixel (h : s.Drawn x y n t) (p : Place) :
    t.screen.pixel p.1 p.2 = (s.screen.pixel p.1 p.2 ^^ decide (s.Inks x y n p)) := by
  have hp := Finset.ext_iff.mp h.lit p
  rw [Finset.mem_symmDiff, Screen.mem_lit, Screen.mem_lit, mem_inked] at hp
  rw [Bool.eq_iff_iff, hp]
  by_cases hinks : s.Inks x y n p <;> simp [hinks]

/-- The same sprite goes to the same place again, unless the flag was one of its coordinates. -/
theorem inked_eq (h : s.Drawn x y n t) (hx : x ≠ Snapshot.flag) (hy : y ≠ Snapshot.flag) :
    t.inked x y n = s.inked x y n := by
  rw [inked, inked, sprite, sprite, h.registers x hx, h.registers y hy, h.memory, h.index]

theorem inks_iff (h : s.Drawn x y n t) (hx : x ≠ Snapshot.flag) (hy : y ≠ Snapshot.flag) :
    t.Inks x y n p ↔ s.Inks x y n p := by
  rw [← mem_inked, h.inked_eq hx hy, mem_inked]

/-- Drawing loses the lit pixels that the sprite covers, and gains the others it covers. -/
theorem litPixels_add (h : s.Drawn x y n t) :
    t.screen.litPixels + 2 * (s.screen.lit.filter (s.Inks x y n)).card =
      s.screen.litPixels + (Screen.setBits (s.sprite n)).card := by
  have hmet : s.screen.lit.filter (s.Inks x y n) = s.screen.lit ∩ s.inked x y n := by
    ext p
    rw [Finset.mem_filter, Finset.mem_inter, mem_inked]
  rw [Screen.litPixels_eq_card, Screen.litPixels_eq_card, h.lit, hmet, Screen.card_turned, inked,
    Screen.card_covered (s.short_sprite n)]

end Drawn

end Snapshot

open Snapshot

/-- **Drawing is drawing pixel by pixel.** A pixel is turned over if a set bit of one of the rows
from the index on falls on it, counted from the coordinates in the two registers and around the
edges. The flag says whether a lit pixel went dark; of the registers it is the only one that
changes, and memory, the index and the stack do not. -/
theorem execute_draw (around : Surroundings) (s : Snapshot) (d : Devices) (x y n : Nibble)
    (fits : s.index.toNat + n.val ≤ 4096) :
    ∃ t, execute around s d (.draw x y n) = (.ok t, d) ∧
      (∀ p : Place,
        t.screen.pixel p.1 p.2 = (s.screen.pixel p.1 p.2 ^^ decide (s.Inks x y n p))) ∧
      (t.register flag =
        if ∃ p : Place, s.screen.pixel p.1 p.2 = true ∧ t.screen.pixel p.1 p.2 = false then 1
        else 0) ∧
      t.memory = s.memory ∧ t.index = s.index ∧ t.stack = s.stack ∧
      ∀ z, z ≠ flag → t.register z = s.register z := by
  obtain ⟨t, hran, hdrawn⟩ := execute_drawn around d x y fits
  refine ⟨t, hran, hdrawn.pixel, ?_, hdrawn.memory, hdrawn.index, hdrawn.stack, hdrawn.registers⟩
  rw [hdrawn.flag]
  refine if_congr (exists_congr fun p => ?_) rfl rfl
  rw [hdrawn.pixel p]
  cases s.screen.pixel p.1 p.2 <;> simp

/-- Two rows of four pixels are drawn across the lower right corner, by a flag register that holds
62 and is overwritten; the one lit pixel goes dark. -/
theorem execute_draw_corner :
    let around : Surroundings := ⟨.released, .chip48, true⟩
    let d : Devices := ⟨⟨5, 7⟩, default⟩
    let s : Snapshot := { initial with
      registers := ((Vector.replicate 16 0).set 15 62).set 1 31
      memory := ⟨Vector.replicate 4096 0xF0⟩
      index := 0xFFE
      screen := Screen.blank.setPixel 63 31 true }
    s.index.toNat + (2 : Nibble).val ≤ 4096 ∧
      ∃ t, execute around s d (.draw 15 1 2) = (.ok t, d) ∧ t.screen.pixel 63 31 = false ∧
        t.screen.pixel 1 0 = true ∧ t.screen.pixel 2 0 = false ∧ t.register flag = 1 ∧
        t.register 1 = 31 ∧ t.memory = s.memory := by
  intro around d s
  have hfits : s.index.toNat + (2 : Nibble).val ≤ 4096 := by decide
  have hlit : s.screen.pixel 63 31 = true := by decide +kernel
  obtain ⟨hmeets, hwraps, hends⟩ :
      s.Inks 15 1 2 (63, 31) ∧ s.Inks 15 1 2 (1, 0) ∧ ¬s.Inks 15 1 2 (2, 0) := by
    decide +kernel
  obtain ⟨t, hran, hpixel, hflag, hmemory, -, -, hothers⟩ := execute_draw around s d 15 1 2 hfits
  have hdark : t.screen.pixel 63 31 = false :=
    (hpixel (63, 31)).trans (by rw [decide_eq_true hmeets]; exact congrArg (· ^^ true) hlit)
  refine ⟨hfits, t, hran, hdark, (hpixel (1, 0)).trans ?_, (hpixel (2, 0)).trans ?_,
    hflag.trans (if_pos ⟨(63, 31), hlit, hdark⟩), hothers 1 (by decide), hmemory⟩
  · rw [decide_eq_true hwraps]
    decide +kernel
  · rw [decide_eq_false hends]
    decide +kernel

/-- **Drawing a sprite twice takes it back.** The first flag says whether the sprite covered a lit
pixel and the second whether it covered a dark one. The first drawing lights the dark pixels that
the bits of the sprite cover and darkens the lit ones. -/
theorem execute_draw_twice (around around' : Surroundings) (s : Snapshot) (d d' : Devices)
    (x y n : Nibble) (hx : x ≠ flag) (hy : y ≠ flag) (fits : s.index.toNat + n.val ≤ 4096) :
    ∃ t u, execute around s d (.draw x y n) = (.ok t, d) ∧
      execute around' t d' (.draw x y n) = (.ok u, d') ∧ u.screen = s.screen ∧
      (t.register flag =
        if ∃ p : Place, s.Inks x y n p ∧ s.screen.pixel p.1 p.2 = true then 1 else 0) ∧
      (u.register flag =
        if ∃ p : Place, s.Inks x y n p ∧ s.screen.pixel p.1 p.2 = false then 1 else 0) ∧
      t.screen.litPixels + 2 * (s.screen.lit.filter (s.Inks x y n)).card =
        s.screen.litPixels + (Screen.setBits (s.sprite n)).card := by
  obtain ⟨t, hran, hdrawn⟩ := execute_drawn around d x y fits
  obtain ⟨u, hran', hdrawn'⟩ := execute_drawn around' d' x y (hdrawn.index ▸ fits)
  have hinked := hdrawn.inked_eq hx hy
  refine ⟨t, u, hran, hran', ?_, hdrawn.flag, ?_, hdrawn.litPixels_add⟩
  · refine Screen.eq_of_lit ?_
    rw [hdrawn'.lit, hdrawn.lit, hinked, symmDiff_symmDiff_cancel_right]
  · rw [hdrawn'.flag]
    refine if_congr (exists_congr fun p => ?_) rfl rfl
    rw [hdrawn.inks_iff hx hy, hdrawn.pixel p]
    refine and_congr_right fun hinks => ?_
    simp [hinks]

/-- Five rows of four pixels are drawn across the lower right corner where one of them is lit, and
taken back: nineteen are lit in between. -/
theorem execute_draw_twice_corner :
    let around : Surroundings := ⟨.released, .chip48, true⟩
    let d : Devices := ⟨⟨5, 7⟩, default⟩
    let s : Snapshot := { initial with
      registers := ((Vector.replicate 16 0).set 0 62).set 1 31
      memory := ⟨Vector.replicate 4096 0xF0⟩
      index := 0
      screen := Screen.blank.setPixel 63 31 true }
    (0 : Nibble) ≠ flag ∧ (1 : Nibble) ≠ flag ∧ s.index.toNat + (5 : Nibble).val ≤ 4096 ∧
      ∃ t u, execute around s d (.draw 0 1 5) = (.ok t, d) ∧
        execute around t d (.draw 0 1 5) = (.ok u, d) ∧ u.screen = s.screen ∧
        t.register flag = 1 ∧ u.register flag = 1 ∧ t.screen.litPixels = 19 := by
  intro around d s
  have hx : (0 : Nibble) ≠ flag := by decide
  have hy : (1 : Nibble) ≠ flag := by decide
  have hfits : s.index.toNat + (5 : Nibble).val ≤ 4096 := by decide
  have hone : s.screen.litPixels = 1 := by decide +kernel
  obtain ⟨hlit, hdark⟩ : s.screen.pixel 63 31 = true ∧ s.screen.pixel 1 0 = false := by
    decide +kernel
  obtain ⟨hmeets, hwraps, hbits⟩ : s.Inks 0 1 5 (63, 31) ∧ s.Inks 0 1 5 (1, 0) ∧
      (Screen.setBits (s.sprite 5)).card = 20 := by
    decide +kernel
  -- the sprite meets the one lit pixel, and no more than there are
  have hsome : 0 < (s.screen.lit.filter (s.Inks 0 1 5)).card :=
    Finset.card_pos.mpr ⟨(63, 31), Finset.mem_filter.mpr ⟨Screen.mem_lit.mpr hlit, hmeets⟩⟩
  have hfew : (s.screen.lit.filter (s.Inks 0 1 5)).card ≤ s.screen.litPixels := by
    rw [Screen.litPixels_eq_card]
    exact Finset.card_filter_le _ _
  obtain ⟨t, u, hran, hran', hback, hflag, hflag', hcount⟩ :=
    execute_draw_twice around around s d d 0 1 5 hx hy hfits
  exact ⟨hx, hy, hfits, t, u, hran, hran', hback, hflag.trans (if_pos ⟨(63, 31), hmeets, hlit⟩),
    hflag'.trans (if_pos ⟨(1, 0), hwraps, hdark⟩), by omega⟩

end ChipEight
