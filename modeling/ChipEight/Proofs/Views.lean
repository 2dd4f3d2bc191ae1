import ChipEight.Desktop.Window
import ChipEight.Proofs.Pixels

/-! The ways to look at a screen.

A screen is looked at place by place (`Screen.pixel`), all at once (`Screen.pixels`), by the number
of pixels it lights (`Screen.litPixels`) and through the window (`Screen.texture`). Each of them
reads the words of the rows in its own way: the first picks a bit, the second lists the bits of a
word from the left, the third counts them from the right, and the fourth repeats what the second
says. `views_agree` says that they show one picture, at any coordinates, and that the picture is all
there is to a screen. -/
namespace ChipEight

/-- Joining lists of one length makes a list as long as they are together. -/
theorem length_flatMap_of_length {α β : Type} {k : Nat} {f : α → List β}
    (even : ∀ a, (f a).length = k) (l : List α) : (l.flatMap f).length = k * l.length := by
  simp [List.length_flatMap, even, Nat.mul_comm]

/-- Joining lists of one length puts entry `i` of list `n` at `k * n + i`. -/
theorem getElem?_flatMap_of_length {α β : Type} {k : Nat} {l : List α} {f : α → List β}
    (even : ∀ a, (f a).length = k) (n : Nat) {i : Nat} (hi : i < k) :
    (l.flatMap f)[k * n + i]? = l[n]?.bind fun a => (f a)[i]? := by
  induction l generalizing n with
  | nil => rfl
  | cons a rest ih =>
    rw [List.flatMap_cons]
    cases n with
    | zero =>
      rw [Nat.mul_zero, Nat.zero_add, List.getElem?_append_left (even a ▸ hi)]
      rfl
    | succ n =>
      have hbehind : (f a).length ≤ k * (n + 1) + i := by
        rw [even, Nat.mul_succ]
        omega
      have hskip : k * (n + 1) + i - (f a).length = k * n + i := by
        rw [even, Nat.mul_succ]
        omega
      rw [List.getElem?_append_right hbehind, hskip, ih n]
      rfl

namespace Screen

/-! ### One place -/

/-- A pixel is a bit of its row, the leftmost one the highest. -/
theorem pixel_eq_testBit (s : Screen) (x y : Nat) :
    s.pixel x y = (s.row y).toNat.testBit (63 - x % 64) := by
  have hx : x % 64 < 64 := Nat.mod_lt _ (by decide)
  rw [pixel, BitVec.getMsbD_eq_getLsbD, decide_eq_true hx, Bool.true_and, BitVec.testBit_toNat]

/-- Coordinates wrap. -/
theorem pixel_congr (s : Screen) {x x' y y' : Nat} (hx : x % 64 = x' % 64) (hy : y % 32 = y' % 32) :
    s.pixel x y = s.pixel x' y' := by
  rw [pixel, pixel, hx, s.row_congr hy]

/-- Screens that agree at every place are the same. -/
theorem eq_of_pixel {s t : Screen} (h : ∀ x < 64, ∀ y < 32, s.pixel x y = t.pixel x y) : s = t :=
  eq_of_lit (Finset.ext fun p => by rw [mem_lit, mem_lit, h _ p.1.isLt _ p.2.isLt])

/-! ### All places -/

/-- The bits of a row from the left are its bits from the right, backwards. -/
theorem map_getMsbD (bits : BitVec 64) :
    (List.range 64).map bits.getMsbD = ((List.range 64).map bits.getLsbD).reverse := by
  refine List.ext_getElem (by simp) fun x hx _ => ?_
  have hx' : x < 64 := by simpa using hx
  simp [BitVec.getMsbD_eq_getLsbD, hx']

theorem length_pixels (s : Screen) : s.pixels.length = 2048 := by
  rw [pixels, length_flatMap_of_length fun bits => by rw [List.length_map, List.length_range],
    Vector.length_toList]

/-- The pixels are listed row by row. -/
theorem getElem?_pixels (s : Screen) {x y : Nat} (hx : x < 64) (hy : y < 32) :
    s.pixels[64 * y + x]? = some (s.pixel x y) := by
  have hrow : s.rows.toList[y]? = some (s.row y) := by
    simp [row, Nat.mod_eq_of_lt hy, hy]
  rw [pixels, getElem?_flatMap_of_length (fun bits => by simp) y hx, hrow, pixel,
    Nat.mod_eq_of_lt hx]
  simp [hx]

/-- As many pixels are lit as there are lit ones in the list. -/
theorem litPixels_eq_count (s : Screen) : s.litPixels = s.pixels.count true := by
  have hrow (bits : BitVec 64) :
      ((List.range 64).map bits.getMsbD).count true = litInRow bits := by
    rw [map_getMsbD, List.count_reverse, List.count_eq_countP, List.countP_map]
    exact List.countP_congr fun i _ => by simp
  rw [pixels, List.count_flatMap, litPixels, List.sum_eq_foldr, List.foldr_map]
  simp only [Function.comp_apply, hrow]

/-! ### The window -/

theorem length_texture (s : Screen) : s.texture.length = 6144 := by
  rw [texture, length_flatMap_of_length fun lit => List.length_replicate, length_pixels]

/-- A texture repeats each pixel three times, as a byte. -/
theorem getElem?_texture (s : Screen) {x y c : Nat} (hx : x < 64) (hy : y < 32) (hc : c < 3) :
    s.texture[3 * (64 * y + x) + c]? = some (if s.pixel x y then 255 else 0) := by
  rw [texture, getElem?_flatMap_of_length (fun lit => List.length_replicate) _ hc,
    s.getElem?_pixels hx hy]
  exact List.getElem?_replicate_of_lt hc

/-- A texture tells which screen it shows. -/
theorem texture_injective {s t : Screen} (h : s.texture = t.texture) : s = t := by
  refine eq_of_pixel fun x hx y hy => ?_
  have hbyte : some (if s.pixel x y then (255 : UInt8) else 0) =
      some (if t.pixel x y then 255 else 0) := by
    rw [← s.getElem?_texture hx hy (c := 0) (by decide), h, t.getElem?_texture hx hy (by decide)]
  cases hs : s.pixel x y <;> cases ht : t.pixel x y <;> simp [hs, ht] at hbyte ⊢

/-- **All ways to look at a screen show the same picture.** A pixel is one bit of its row, counted
from the left, and its coordinates wrap. The list has 64 pixels for each of the 32 rows, each at its
place, and as many lit ones as are counted. The texture has three bytes for each of them, all 255 or
all 0 as it is lit or dark, and no other screen has that texture. Setting a pixel sets it in every
place that wraps to it and changes no other. -/
theorem views_agree (s : Screen) :
    (∀ x y, s.pixel x y = (s.row y).toNat.testBit (63 - x % 64) ∧
      s.pixel (x + 64) y = s.pixel x y ∧ s.pixel x (y + 32) = s.pixel x y) ∧
    (s.pixels.length = 2048 ∧ s.litPixels = s.pixels.count true ∧
      ∀ x < 64, ∀ y < 32, s.pixels[64 * y + x]? = some (s.pixel x y)) ∧
    (∀ x y lit px py, (s.setPixel x y lit).pixel px py =
      if px % 64 = x % 64 ∧ py % 32 = y % 32 then lit else s.pixel px py) ∧
    (s.texture.length = 6144 ∧ ∀ x < 64, ∀ y < 32, ∀ c < 3,
      s.texture[3 * (64 * y + x) + c]? = some (if s.pixel x y then 255 else 0)) ∧
    ∀ t : Screen, t.texture = s.texture → t = s := by
  refine ⟨fun x y => ⟨s.pixel_eq_testBit x y, s.pixel_congr (Nat.add_mod_right x 64) rfl,
    s.pixel_congr rfl (Nat.add_mod_right y 32)⟩, ⟨s.length_pixels, s.litPixels_eq_count, ?_⟩,
    s.pixel_setPixel, ⟨s.length_texture, ?_⟩, fun t => texture_injective⟩
  · exact fun x hx y hy => s.getElem?_pixels hx hy
  · exact fun x hx y hy c hc => s.getElem?_texture hx hy hc

/-- One pixel that is set beyond both edges, and the one that mirrors it. -/
theorem views_agree_beyond :
    let s := blank.setPixel 67 33 true
    s.pixel 3 1 = true ∧ s.pixel 60 1 = false ∧ (s.row 1).toNat.testBit 60 = true ∧
      s.pixels[67]? = some true ∧ s.pixels[124]? = some false ∧ s.pixels.count true = 1 ∧
      s.texture[203]? = some 255 ∧ s.texture[374]? = some 0 := by
  intro s
  obtain ⟨-, -, sets, -, -⟩ := views_agree blank
  obtain ⟨places, ⟨-, counted, listed⟩, -, ⟨-, shown⟩, -⟩ := views_agree s
  have lit : s.pixel 3 1 = true := sets 67 33 true 3 1
  have dark : s.pixel 60 1 = false := (sets 67 33 true 60 1).trans (by decide)
  refine ⟨lit, dark, (places 3 1).1 ▸ lit, (listed 3 (by decide) 1 (by decide)).trans (by rw [lit]),
    (listed 60 (by decide) 1 (by decide)).trans (by rw [dark]), counted ▸ by decide +kernel,
    (shown 3 (by decide) 1 (by decide) 2 (by decide)).trans (by rw [lit]; rfl),
    (shown 60 (by decide) 1 (by decide) 2 (by decide)).trans (by rw [dark]; rfl)⟩

end Screen
end ChipEight
