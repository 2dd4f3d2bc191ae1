import ChipEight.Isa.Opcode

/-! Instructions, and which of them an opcode stands for.

`Opcode.decode` is total: a word outside the instruction set decodes to `unknown`
with the word kept, so what to do about it stays the machine's decision. -/
namespace ChipEight

/-- What an opcode asks the machine to do. -/
inductive Instruction where
  /-- Call a routine of the host's own machine code; nothing happens here. -/
  | sys (target : Address)
  /-- Clear the screen. -/
  | clear
  /-- Return from a subroutine. -/
  | ret
  /-- Continue at an address. -/
  | jump (target : Address)
  /-- Call the subroutine at an address. -/
  | call (target : Address)
  /-- Skip the next instruction if a register holds a byte. -/
  | skipIfByte (x : Nibble) (kk : UInt8)
  /-- Skip the next instruction unless a register holds a byte. -/
  | skipUnlessByte (x : Nibble) (kk : UInt8)
  /-- Skip the next instruction if two registers agree. -/
  | skipIfSame (x y : Nibble)
  /-- Skip the next instruction unless two registers agree. -/
  | skipUnlessSame (x y : Nibble)
  /-- Put a byte into a register. -/
  | setByte (x : Nibble) (kk : UInt8)
  /-- Add a byte to a register, with no flag. -/
  | addByte (x : Nibble) (kk : UInt8)
  /-- Copy a register. -/
  | copy (x y : Nibble)
  /-- Bitwise or. -/
  | or (x y : Nibble)
  /-- Bitwise and. -/
  | and (x y : Nibble)
  /-- Bitwise exclusive or. -/
  | xor (x y : Nibble)
  /-- Add a register, flagging the carry. -/
  | add (x y : Nibble)
  /-- Subtract a register, flagging that nothing was borrowed. -/
  | sub (x y : Nibble)
  /-- Subtract from a register, flagging that nothing was borrowed. -/
  | subFrom (x y : Nibble)
  /-- Shift right, flagging the bit shifted out. -/
  | shiftRight (x y : Nibble)
  /-- Shift left, flagging the bit shifted out. -/
  | shiftLeft (x y : Nibble)
  /-- Point the index at an address. -/
  | setIndex (target : Address)
  /-- Continue at an address plus a register. -/
  | jumpPlus (target : Address)
  /-- Draw a random byte and mask it. -/
  | random (x : Nibble) (kk : UInt8)
  /-- Draw a sprite. -/
  | draw (x y n : Nibble)
  /-- Skip the next instruction if a key is down. -/
  | skipIfKey (x : Nibble)
  /-- Skip the next instruction unless a key is down. -/
  | skipUnlessKey (x : Nibble)
  /-- Read the delay timer. -/
  | readDelay (x : Nibble)
  /-- Wait for a key to go down and come back up. -/
  | awaitKey (x : Nibble)
  /-- Load the delay timer. -/
  | setDelay (x : Nibble)
  /-- Load the sound timer. -/
  | setSound (x : Nibble)
  /-- Add a register to the index. -/
  | addIndex (x : Nibble)
  /-- Point the index at the glyph of a hexadecimal digit. -/
  | glyph (x : Nibble)
  /-- Store a register as three decimal digits. -/
  | decimal (x : Nibble)
  /-- Store the registers up to `x`. -/
  | store (x : Nibble)
  /-- Load the registers up to `x`. -/
  | load (x : Nibble)
  /-- A word outside the instruction set. -/
  | unknown (op : Opcode)
deriving DecidableEq, Repr, Inhabited

namespace Opcode

/-- The family of register arithmetic: the last nibble selects. -/
def decodeArithmetic (op : Opcode) : Instruction :=
  match op.n.val with
  | 0x0 => .copy op.x op.y
  | 0x1 => .or op.x op.y
  | 0x2 => .and op.x op.y
  | 0x3 => .xor op.x op.y
  | 0x4 => .add op.x op.y
  | 0x5 => .sub op.x op.y
  | 0x6 => .shiftRight op.x op.y
  | 0x7 => .subFrom op.x op.y
  | 0xE => .shiftLeft op.x op.y
  | _ => .unknown op

/-- The family of key tests: the low byte selects. -/
def decodeKey (op : Opcode) : Instruction :=
  match op.kk.toNat with
  | 0x9E => .skipIfKey op.x
  | 0xA1 => .skipUnlessKey op.x
  | _ => .unknown op

/-- The family of timers, keys and the index: the low byte selects. -/
def decodeDevice (op : Opcode) : Instruction :=
  match op.kk.toNat with
  | 0x07 => .readDelay op.x
  | 0x0A => .awaitKey op.x
  | 0x15 => .setDelay op.x
  | 0x18 => .setSound op.x
  | 0x1E => .addIndex op.x
  | 0x29 => .glyph op.x
  | 0x33 => .decimal op.x
  | 0x55 => .store op.x
  | 0x65 => .load op.x
  | _ => .unknown op

/-- The instruction an opcode encodes. Of the words starting with a zero nibble only
two are instructions of this machine; all others call the host. -/
def decode (op : Opcode) : Instruction :=
  match op.family.val with
  | 0x0 => if op.word = 0x00E0 then .clear else if op.word = 0x00EE then .ret else .sys op.address
  | 0x1 => .jump op.address
  | 0x2 => .call op.address
  | 0x3 => .skipIfByte op.x op.kk
  | 0x4 => .skipUnlessByte op.x op.kk
  | 0x5 => if op.n.val = 0 then .skipIfSame op.x op.y else .unknown op
  | 0x6 => .setByte op.x op.kk
  | 0x7 => .addByte op.x op.kk
  | 0x8 => op.decodeArithmetic
  | 0x9 => if op.n.val = 0 then .skipUnlessSame op.x op.y else .unknown op
  | 0xA => .setIndex op.address
  | 0xB => .jumpPlus op.address
  | 0xC => .random op.x op.kk
  | 0xD => .draw op.x op.y op.n
  | 0xE => op.decodeKey
  | _ => op.decodeDevice

end Opcode
end ChipEight
