/-! Hexadecimal numerals, as listings, journals and faults print them.

A numeral has upper-case digits and at least a given width; a wider number takes
as many digits as it needs, so no numeral ever drops a digit. -/
namespace ChipEight.Numeral

/-- The digit of a number below sixteen. -/
def digit (d : Nat) : Char :=
  if d < 10 then Char.ofNat (48 + d) else Char.ofNat (55 + d)

/-- The low `width` digits of a number, most significant first. -/
def digits : Nat → Nat → List Char
  | 0, _ => []
  | width + 1, n => digits width (n / 16) ++ [digit (n % 16)]

/-- How many digits a number needs; zero needs one. -/
def needed (n : Nat) : Nat := n.log2 / 4 + 1

/-- A number in at least `width` digits. -/
def hex (width n : Nat) : String :=
  String.ofList (digits (max width (needed n)) n)

/-- A number in at least `width` digits behind the mark `0x`. -/
def marked (width n : Nat) : String := "0x" ++ hex width n

/-- Text filled up with blanks on the right to at least `width` characters. -/
def filled (width : Nat) (text : String) : String :=
  text ++ String.ofList (List.replicate (width - text.length) ' ')

@[simp] theorem length_digits (width n : Nat) : (digits width n).length = width := by
  induction width generalizing n with
  | zero => rfl
  | succ width ih => simp [digits, ih]

end ChipEight.Numeral
