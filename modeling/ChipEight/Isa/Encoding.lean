import ChipEight.Isa.Instruction

/-! Encoding: the opcode of an instruction.

Main statement: `Opcode.encode_decode`. Every opcode is the encoding of what it decodes
to, so an instruction holds all of its opcode and listings can be read back. -/
namespace ChipEight
namespace Opcode

/-- The word made of a family and twelve bits. -/
def ofAddress (family : Nat) (a : Address) : Opcode :=
  ⟨UInt16.ofNat (family * 4096 + a.val)⟩

/-- The word made of a family, a register and a byte. -/
def ofByte (family : Nat) (x : Nibble) (kk : UInt8) : Opcode :=
  ⟨UInt16.ofNat (family * 4096 + x.val * 256 + kk.toNat)⟩

/-- The word made of a family, two registers and a nibble. -/
def ofNibbles (family : Nat) (x y : Nibble) (n : Nat) : Opcode :=
  ⟨UInt16.ofNat (family * 4096 + x.val * 256 + y.val * 16 + n)⟩

end Opcode

/-- The opcode of an instruction. -/
def Instruction.encode : Instruction → Opcode
  | .sys a => .ofAddress 0x0 a
  | .clear => ⟨0x00E0⟩
  | .ret => ⟨0x00EE⟩
  | .jump a => .ofAddress 0x1 a
  | .call a => .ofAddress 0x2 a
  | .skipIfByte x kk => .ofByte 0x3 x kk
  | .skipUnlessByte x kk => .ofByte 0x4 x kk
  | .skipIfSame x y => .ofNibbles 0x5 x y 0x0
  | .setByte x kk => .ofByte 0x6 x kk
  | .addByte x kk => .ofByte 0x7 x kk
  | .copy x y => .ofNibbles 0x8 x y 0x0
  | .or x y => .ofNibbles 0x8 x y 0x1
  | .and x y => .ofNibbles 0x8 x y 0x2
  | .xor x y => .ofNibbles 0x8 x y 0x3
  | .add x y => .ofNibbles 0x8 x y 0x4
  | .sub x y => .ofNibbles 0x8 x y 0x5
  | .shiftRight x y => .ofNibbles 0x8 x y 0x6
  | .subFrom x y => .ofNibbles 0x8 x y 0x7
  | .shiftLeft x y => .ofNibbles 0x8 x y 0xE
  | .skipUnlessSame x y => .ofNibbles 0x9 x y 0x0
  | .setIndex a => .ofAddress 0xA a
  | .jumpPlus a => .ofAddress 0xB a
  | .random x kk => .ofByte 0xC x kk
  | .draw x y n => .ofNibbles 0xD x y n.val
  | .skipIfKey x => .ofByte 0xE x 0x9E
  | .skipUnlessKey x => .ofByte 0xE x 0xA1
  | .readDelay x => .ofByte 0xF x 0x07
  | .awaitKey x => .ofByte 0xF x 0x0A
  | .setDelay x => .ofByte 0xF x 0x15
  | .setSound x => .ofByte 0xF x 0x18
  | .addIndex x => .ofByte 0xF x 0x1E
  | .glyph x => .ofByte 0xF x 0x29
  | .decimal x => .ofByte 0xF x 0x33
  | .store x => .ofByte 0xF x 0x55
  | .load x => .ofByte 0xF x 0x65
  | .unknown op => op

namespace Opcode

/-- A word and its overlapping fields, all in terms of the four nibbles. -/
theorem word_parts (op : Opcode) :
    op.word.toNat = op.family.val * 4096 + op.x.val * 256 + op.y.val * 16 + op.n.val ∧
    op.address.val = op.x.val * 256 + op.y.val * 16 + op.n.val ∧
    op.kk.toNat = op.y.val * 16 + op.n.val := by
  have := op.word.toNat_lt
  simp only [family, x, y, n, address, kk, Nibble.ofNat, Address.ofNat, UInt8.toNat_ofNat']
  omega

theorem eq_of_toNat {a b : Opcode} (h : a.word.toNat = b.word.toNat) : a = b := by
  obtain ⟨a⟩ := a
  obtain ⟨b⟩ := b
  exact congrArg mk (UInt16.toNat_inj.1 h)

theorem ofAddress_address {op : Opcode} {f : Nat} (h : op.family.val = f) :
    ofAddress f op.address = op := by
  have := op.word_parts
  have := op.word.toNat_lt
  apply eq_of_toNat
  simp only [ofAddress, UInt16.toNat_ofNat']
  omega

theorem ofByte_kk {op : Opcode} {f : Nat} {kk : UInt8} (h : op.family.val = f)
    (hk : op.kk.toNat = kk.toNat) : ofByte f op.x kk = op := by
  have := op.word_parts
  have := op.word.toNat_lt
  apply eq_of_toNat
  simp only [ofByte, UInt16.toNat_ofNat']
  omega

theorem ofNibbles_n {op : Opcode} {f n : Nat} (h : op.family.val = f) (hn : op.n.val = n) :
    ofNibbles f op.x op.y n = op := by
  have := op.word_parts
  have := op.word.toNat_lt
  apply eq_of_toNat
  simp only [ofNibbles, UInt16.toNat_ofNat']
  omega

theorem encode_decodeArithmetic {op : Opcode} (h : op.family.val = 8) :
    op.decodeArithmetic.encode = op := by
  unfold decodeArithmetic
  split
  case h_10 => rfl
  all_goals exact ofNibbles_n h ‹_›

theorem encode_decodeKey {op : Opcode} (h : op.family.val = 0xE) : op.decodeKey.encode = op := by
  unfold decodeKey
  split
  · exact ofByte_kk h ‹_›
  · exact ofByte_kk h ‹_›
  · rfl

theorem encode_decodeDevice {op : Opcode} (h : op.family.val = 0xF) :
    op.decodeDevice.encode = op := by
  unfold decodeDevice
  split
  case h_10 => rfl
  all_goals exact ofByte_kk h ‹_›

/-- Every opcode is the encoding of what it decodes to, so decoding loses nothing. -/
theorem encode_decode (op : Opcode) : op.decode.encode = op := by
  have hf := op.family.lt
  unfold decode
  split
  case h_1 h =>
    split
    case isTrue hw => exact congrArg mk hw.symm
    split
    case isTrue hw => exact congrArg mk hw.symm
    exact ofAddress_address h
  case h_6 h =>
    split
    case isTrue hn => exact ofNibbles_n h hn
    rfl
  case h_10 h =>
    split
    case isTrue hn => exact ofNibbles_n h hn
    rfl
  case h_9 h => exact encode_decodeArithmetic h
  case h_14 h => exact ofNibbles_n h rfl
  case h_15 h => exact encode_decodeKey h
  case h_16 =>
    simp only [imp_false] at *
    exact encode_decodeDevice (by omega)
  case h_2 h | h_3 h | h_11 h | h_12 h => exact ofAddress_address h
  case h_4 h | h_5 h | h_7 h | h_8 h | h_13 h => exact ofByte_kk h rfl
end Opcode
end ChipEight
