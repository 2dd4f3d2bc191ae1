import ChipEight.Numeral

/-! Opcodes: the two-byte words a program is made of.

An opcode is stored big-endian and read through its fields: four nibbles, a byte
of immediate data and a twelve-bit address. The fields overlap; which of them
mean something is up to the instruction. -/
namespace ChipEight

/-- Four bits: a register number, a key, a sprite height. -/
abbrev Nibble := Fin 16

/-- The low four bits of a number. -/
def Nibble.ofNat (n : Nat) : Nibble := ⟨n % 16, Nat.mod_lt n (by decide)⟩

theorem Nibble.lt (x : Nibble) : x.val < 16 := x.isLt

/-- Twelve bits: every place in memory has such an address. -/
abbrev Address := Fin 4096

/-- The low twelve bits of a number. -/
def Address.ofNat (n : Nat) : Address := ⟨n % 4096, Nat.mod_lt n (by decide)⟩

/-- An address as a machine word. -/
def Address.word (a : Address) : UInt16 := UInt16.ofNat a.val

/-- A two-byte word of a program. -/
structure Opcode where
  word : UInt16
deriving DecidableEq, Repr, Inhabited

namespace Opcode

/-- The width of an opcode in bytes, and so the distance to the next one. -/
def size : UInt16 := 2

/-- The opcode stored as these two bytes, the high one first. -/
def ofBytes (high low : UInt8) : Opcode :=
  ⟨UInt16.ofNat (high.toNat * 256 + low.toNat)⟩

/-- The byte stored first. -/
def high (op : Opcode) : UInt8 := UInt8.ofNat (op.word.toNat / 256)

/-- The byte stored second: immediate data, or the selector of a family. -/
def kk (op : Opcode) : UInt8 := UInt8.ofNat op.word.toNat

/-- The most significant nibble, which names the family of the instruction. -/
def family (op : Opcode) : Nibble := Nibble.ofNat (op.word.toNat / 4096)

/-- The second nibble: the first register. -/
def x (op : Opcode) : Nibble := Nibble.ofNat (op.word.toNat / 256)

/-- The third nibble: the second register. -/
def y (op : Opcode) : Nibble := Nibble.ofNat (op.word.toNat / 16)

/-- The last nibble. -/
def n (op : Opcode) : Nibble := Nibble.ofNat op.word.toNat

/-- The low twelve bits. -/
def address (op : Opcode) : Address := Address.ofNat op.word.toNat

/-- The four nibbles, most significant first. -/
def nibbles (op : Opcode) : List Nibble := [op.family, op.x, op.y, op.n]

/-- Four hexadecimal digits. -/
def text (op : Opcode) : String := Numeral.hex 4 op.word.toNat

/-- Splitting an opcode into its bytes loses nothing. -/
theorem ofBytes_high_kk (op : Opcode) : ofBytes op.high op.kk = op := by
  obtain ⟨w⟩ := op
  have hw := w.toNat_lt
  simp only [ofBytes, high, kk, mk.injEq, ← UInt16.toNat_inj, UInt16.toNat_ofNat',
    UInt8.toNat_ofNat']
  omega

end Opcode
end ChipEight
