/-! The screen: 64 by 32 pixels, each lit or dark.

A row is one 64-bit word with the leftmost pixel in the most significant bit, so a
sprite row is drawn by one rotation and one exclusive or, and wrapping around the
right edge is what a rotation does. Coordinates of any size wrap. -/
namespace ChipEight

/-- A picture. -/
structure Screen where
  rows : Vector (BitVec 64) 32
deriving DecidableEq

namespace Screen

/-- Pixels in a row. -/
def width : Nat := 64

/-- Rows. -/
def height : Nat := 32

/-- The dark screen. -/
def blank : Screen := ⟨Vector.replicate 32 0⟩

instance : Inhabited Screen := ⟨blank⟩

/-- The row at a height. -/
def row (s : Screen) (y : Nat) : BitVec 64 := s.rows[y % 32]

/-- The screen with one row replaced. -/
def setRow (s : Screen) (y : Nat) (bits : BitVec 64) : Screen :=
  ⟨s.rows.set (y % 32) bits⟩

/-- Whether a pixel is lit. -/
def pixel (s : Screen) (x y : Nat) : Bool := (s.row y).getMsbD (x % 64)

/-- The row in which only one pixel is lit. -/
def dot (x : Nat) : BitVec 64 := 1#64 <<< (63 - x % 64)

/-- The screen with one pixel lit or darkened. -/
def setPixel (s : Screen) (x y : Nat) (lit : Bool) : Screen :=
  s.setRow y (if lit then s.row y ||| dot x else s.row y &&& ~~~(dot x))

/-- The row in which eight pixels show a byte, the first of them at `x`. -/
def spriteRow (x : Nat) (bits : UInt8) : BitVec 64 :=
  (bits.toBitVec ++ 0#56).rotateRight (x % 64)

/-- The screen with a sprite row drawn over it, and whether that darkened a lit pixel. -/
def xorRow (s : Screen) (x y : Nat) (bits : UInt8) : Bool × Screen :=
  (s.row y &&& spriteRow x bits != 0, s.setRow y (s.row y ^^^ spriteRow x bits))

/-- The screen with a sprite drawn over it downwards from `y`, and whether any row of it
darkened a lit pixel. -/
def xorSprite (s : Screen) (x y : Nat) : List UInt8 → Bool × Screen
  | [] => (false, s)
  | bits :: rest =>
    let first := s.xorRow x y bits
    let others := first.2.xorSprite x (y + 1) rest
    (first.1 || others.1, others.2)

/-- Every pixel, row by row from the top, each row from the left. -/
def pixels (s : Screen) : List Bool :=
  s.rows.toList.flatMap fun bits => (List.range 64).map bits.getMsbD

/-- The number of lit pixels of a row. -/
def litInRow (bits : BitVec 64) : Nat := (List.range 64).countP bits.getLsbD

/-- The number of lit pixels. -/
def litPixels (s : Screen) : Nat := s.rows.toList.foldr (fun bits lit => litInRow bits + lit) 0

theorem row_setRow (s : Screen) (y z : Nat) (bits : BitVec 64) :
    (s.setRow y bits).row z = if z % 32 = y % 32 then bits else s.row z := by
  simp only [row, setRow, Vector.getElem_set, eq_comm]

/-- Only the pixel named is lit in its row. -/
theorem getMsbD_dot (x i : Nat) : (dot x).getMsbD i = decide (i = x % 64) := by
  simp only [dot, BitVec.getMsbD_shiftLeft, BitVec.getMsbD_one]
  simp
  omega

/-- Setting a pixel sets that pixel and leaves the others alone. -/
theorem pixel_setPixel (s : Screen) (x y : Nat) (lit : Bool) (px py : Nat) :
    (s.setPixel x y lit).pixel px py =
      if px % 64 = x % 64 ∧ py % 32 = y % 32 then lit else s.pixel px py := by
  have hx : px % 64 < 64 := Nat.mod_lt _ (by decide)
  simp only [pixel, setPixel, row_setRow]
  cases lit <;> by_cases h : py % 32 = y % 32 <;> by_cases hp : px % 64 = x % 64 <;>
    simp_all [getMsbD_dot, row]

end Screen
end ChipEight
