import ChipEight.Isa.Instruction

/-! Forms: instructions written out with their fields named.

Where a listing is for reading programs, a form is for reading decoders: the
shape's name, then every field with its name, all numbers in decimal. -/
namespace ChipEight

namespace Form

/-- A shape and its named fields. -/
def write (shape : String) (fields : List (String × Nat)) : String :=
  let written := fields.map fun f => f.1 ++ ": " ++ toString f.2
  shape ++ " \x7b " ++ String.intercalate ", " written ++ " \x7d"

/-- A shape with an address. -/
def ofAddress (shape : String) (a : Address) : String := write shape [("addr", a.val)]

/-- A shape with one register. -/
def ofRegister (shape : String) (x : Nibble) : String := write shape [("x", x.val)]

/-- A shape with a register and a byte. -/
def ofByte (shape : String) (x : Nibble) (kk : UInt8) : String :=
  write shape [("x", x.val), ("kk", kk.toNat)]

/-- A shape with two registers. -/
def ofRegisters (shape : String) (x y : Nibble) : String :=
  write shape [("x", x.val), ("y", y.val)]

end Form

open Form in
/-- An instruction with its fields named. -/
def Instruction.form : Instruction → String
  | .sys a => ofAddress "Sys" a
  | .clear => "Cls"
  | .ret => "Ret"
  | .jump a => ofAddress "Jp" a
  | .call a => ofAddress "Call" a
  | .skipIfByte x kk => ofByte "SeByte" x kk
  | .skipUnlessByte x kk => ofByte "SneByte" x kk
  | .skipIfSame x y => ofRegisters "SeReg" x y
  | .skipUnlessSame x y => ofRegisters "SneReg" x y
  | .setByte x kk => ofByte "LdByte" x kk
  | .addByte x kk => ofByte "AddByte" x kk
  | .copy x y => ofRegisters "LdReg" x y
  | .or x y => ofRegisters "Or" x y
  | .and x y => ofRegisters "And" x y
  | .xor x y => ofRegisters "Xor" x y
  | .add x y => ofRegisters "AddReg" x y
  | .sub x y => ofRegisters "Sub" x y
  | .shiftRight x y => ofRegisters "Shr" x y
  | .subFrom x y => ofRegisters "Subn" x y
  | .shiftLeft x y => ofRegisters "Shl" x y
  | .setIndex a => ofAddress "LdI" a
  | .jumpPlus a => ofAddress "JpV0" a
  | .random x kk => ofByte "Rnd" x kk
  | .draw x y n => write "Drw" [("x", x.val), ("y", y.val), ("n", n.val)]
  | .skipIfKey x => ofRegister "Skp" x
  | .skipUnlessKey x => ofRegister "Sknp" x
  | .readDelay x => ofRegister "LdVxDt" x
  | .awaitKey x => ofRegister "LdVxK" x
  | .setDelay x => ofRegister "LdDtVx" x
  | .setSound x => ofRegister "LdStVx" x
  | .addIndex x => ofRegister "AddI" x
  | .glyph x => ofRegister "LdF" x
  | .decimal x => ofRegister "LdB" x
  | .store x => ofRegister "LdIVx" x
  | .load x => ofRegister "LdVxI" x
  | .unknown op => "Unknown(Opcode(" ++ toString op.word.toNat ++ "))"

end ChipEight
