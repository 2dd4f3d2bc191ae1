import ChipEight.Isa.Instruction

/-! Listings: instructions in assembler notation.

Registers are written `V0` to `VF`, addresses with at least three hexadecimal
digits, bytes with at least two, and a sprite's height in decimal. A word outside
the instruction set is written as it stands behind `???`. -/
namespace ChipEight

namespace Listing

/-- A register. -/
def register (x : Nibble) : String := "V" ++ Numeral.hex 1 x.val

/-- A byte of immediate data. -/
def byte (kk : UInt8) : String := Numeral.marked 2 kk.toNat

/-- An address, which may reach past the end of memory. -/
def address (a : Nat) : String := Numeral.marked 3 a

/-- An operation and its operands. -/
def line (operation : String) (operands : List String) : String :=
  operation ++ " " ++ String.intercalate ", " operands

end Listing

open Listing in
/-- The line of a listing that stands for an instruction. -/
def Instruction.mnemonic : Instruction → String
  | .sys a => line "SYS" [address a.val]
  | .clear => "CLS"
  | .ret => "RET"
  | .jump a => line "JP" [address a.val]
  | .call a => line "CALL" [address a.val]
  | .skipIfByte x kk => line "SE" [register x, byte kk]
  | .skipUnlessByte x kk => line "SNE" [register x, byte kk]
  | .skipIfSame x y => line "SE" [register x, register y]
  | .skipUnlessSame x y => line "SNE" [register x, register y]
  | .setByte x kk => line "LD" [register x, byte kk]
  | .addByte x kk => line "ADD" [register x, byte kk]
  | .copy x y => line "LD" [register x, register y]
  | .or x y => line "OR" [register x, register y]
  | .and x y => line "AND" [register x, register y]
  | .xor x y => line "XOR" [register x, register y]
  | .add x y => line "ADD" [register x, register y]
  | .sub x y => line "SUB" [register x, register y]
  | .shiftRight x y => line "SHR" [register x, register y]
  | .subFrom x y => line "SUBN" [register x, register y]
  | .shiftLeft x y => line "SHL" [register x, register y]
  | .setIndex a => line "LD" ["I", address a.val]
  | .jumpPlus a => line "JP" ["V0", address a.val]
  | .random x kk => line "RND" [register x, byte kk]
  | .draw x y n => line "DRW" [register x, register y, toString n.val]
  | .skipIfKey x => line "SKP" [register x]
  | .skipUnlessKey x => line "SKNP" [register x]
  | .readDelay x => line "LD" [register x, "DT"]
  | .awaitKey x => line "LD" [register x, "K"]
  | .setDelay x => line "LD" ["DT", register x]
  | .setSound x => line "LD" ["ST", register x]
  | .addIndex x => line "ADD" ["I", register x]
  | .glyph x => line "LD" ["F", register x]
  | .decimal x => line "LD" ["B", register x]
  | .store x => line "LD" ["[I]", register x]
  | .load x => line "LD" [register x, "[I]"]
  | .unknown op => "??? " ++ op.text

/-- The words of a program text, big-endian; a last odd byte is left out. -/
def Opcode.ofProgram : List UInt8 → List Opcode
  | high :: low :: rest => .ofBytes high low :: ofProgram rest
  | _ => []

/-- The listing of a program text, one line a word. -/
def listing (program : List UInt8) : List String :=
  (Opcode.ofProgram program).map fun op => op.decode.mnemonic

end ChipEight
