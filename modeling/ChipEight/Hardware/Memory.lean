import ChipEight.Fault

/-! Memory: 4096 bytes, the font in the region below the program.

Every access names a sixteen-bit address and is checked: a block is accessible
when all of it lies below 4096, and an access that fails names the first address
outside and changes nothing. -/
namespace ChipEight

/-- The glyphs of the sixteen hexadecimal digits, each four pixels wide and five
rows tall, one row a byte. -/
def font : List UInt8 :=
  [ 0xF0, 0x90, 0x90, 0x90, 0xF0,
    0x20, 0x60, 0x20, 0x20, 0x70,
    0xF0, 0x10, 0xF0, 0x80, 0xF0,
    0xF0, 0x10, 0xF0, 0x10, 0xF0,
    0x90, 0x90, 0xF0, 0x10, 0x10,
    0xF0, 0x80, 0xF0, 0x10, 0xF0,
    0xF0, 0x80, 0xF0, 0x90, 0xF0,
    0xF0, 0x10, 0x20, 0x40, 0x40,
    0xF0, 0x90, 0xF0, 0x90, 0xF0,
    0xF0, 0x90, 0xF0, 0x10, 0xF0,
    0xF0, 0x90, 0xF0, 0x90, 0x90,
    0xE0, 0x90, 0xE0, 0x90, 0xE0,
    0xF0, 0x80, 0x80, 0x80, 0xF0,
    0xE0, 0x90, 0x90, 0x90, 0xE0,
    0xF0, 0x80, 0xF0, 0x80, 0xF0,
    0xF0, 0x80, 0xF0, 0x80, 0x80 ]

/-- A machine's memory. -/
structure Memory where
  cells : Vector UInt8 4096
deriving DecidableEq

namespace Memory

/-- The number of bytes. -/
def size : Nat := 4096

/-- Where programs are loaded and start. -/
def programStart : UInt16 := 0x200

/-- Where the font lies. -/
def fontStart : UInt16 := 0x050

/-- The rows of a glyph. -/
def glyphSize : UInt16 := 5

/-- The byte at a place; nothing is stored past the end, which reads as zero. -/
def byteAt (m : Memory) (place : Nat) : UInt8 := m.cells.toArray.getD place 0

/-- Cells with bytes put into them from a place on; bytes past the end are lost. -/
def fill (cells : Vector UInt8 4096) (place : Nat) : List UInt8 → Vector UInt8 4096
  | [] => cells
  | b :: rest => fill (cells.setIfInBounds place b) (place + 1) rest

/-- Zeroed memory with the font in its place. -/
def initial : Memory := ⟨fill (Vector.replicate 4096 0) fontStart.toNat font⟩

instance : Inhabited Memory := ⟨initial⟩

/-- Whether a block lies inside memory; if not, the first address that does not. -/
def checkBlock (address : UInt16) (length : Nat) : Except Fault Unit :=
  if address.toNat + length ≤ 4096 then .ok ()
  else .error (.outOfBounds (max address.toNat 4096))

/-- One byte. -/
def read (m : Memory) (address : UInt16) : Except Fault UInt8 :=
  if h : address.toNat < 4096 then .ok m.cells[address.toNat]
  else .error (.outOfBounds address.toNat)

/-- Memory with one byte replaced. -/
def write (m : Memory) (address : UInt16) (value : UInt8) : Except Fault Memory :=
  if h : address.toNat < 4096 then .ok ⟨m.cells.set address.toNat value⟩
  else .error (.outOfBounds address.toNat)

/-- The bytes of a block. -/
def block (m : Memory) (address : UInt16) (length : Nat) : Except Fault (List UInt8) :=
  match checkBlock address length with
  | .error fault => .error fault
  | .ok () => .ok ((List.range' address.toNat length).map m.byteAt)

/-- Memory with the bytes of a block replaced. -/
def writeBlock (m : Memory) (address : UInt16) (data : List UInt8) : Except Fault Memory :=
  match checkBlock address data.length with
  | .error fault => .error fault
  | .ok () => .ok ⟨fill m.cells address.toNat data⟩

/-- The opcode at an address. -/
def opcode (m : Memory) (address : UInt16) : Except Fault Opcode :=
  match checkBlock address 2 with
  | .error fault => .error fault
  | .ok () => .ok (.ofBytes (m.byteAt address.toNat) (m.byteAt (address.toNat + 1)))

/-- Memory with a program put at its origin. -/
def load (m : Memory) (origin : UInt16) (program : List UInt8) : Except Fault Memory :=
  if origin.toNat + program.length ≤ 4096 then .ok ⟨fill m.cells origin.toNat program⟩
  else .error (.programTooLarge program.length origin (4096 - origin.toNat))

/-- A block that could be read has as many bytes as were asked for. -/
theorem length_of_block {m : Memory} {address : UInt16} {length : Nat} {bytes : List UInt8}
    (h : m.block address length = .ok bytes) : bytes.length = length := by
  simp only [block] at h
  split at h <;> cases h
  simp

theorem byteAt_mk (cells : Vector UInt8 4096) {place : Nat} (h : place < 4096) :
    byteAt ⟨cells⟩ place = cells[place] := by
  simp [byteAt, h]

theorem byteAt_setIfInBounds (cells : Vector UInt8 4096) (written place : Nat) (value : UInt8) :
    byteAt ⟨cells.setIfInBounds written value⟩ place =
      if place = written ∧ place < 4096 then value else byteAt ⟨cells⟩ place := by
  by_cases h : place < 4096
  · rw [byteAt_mk _ h, byteAt_mk _ h, Vector.getElem_setIfInBounds]
    simp [h, eq_comm]
  · simp [byteAt, h]

/-- Filling puts each byte in its own place and leaves the other places alone. -/
theorem byteAt_fill (cells : Vector UInt8 4096) (start : Nat) (data : List UInt8) (place : Nat) :
    byteAt ⟨fill cells start data⟩ place =
      if start ≤ place ∧ place < 4096 ∧ place < start + data.length then
        data.getD (place - start) 0
      else byteAt ⟨cells⟩ place := by
  induction data generalizing cells start with
  | nil =>
    simp [fill]
    omega
  | cons b rest ih =>
    rw [fill, ih, byteAt_setIfInBounds]
    rcases Nat.lt_trichotomy place start with h | h | h
    · rw [if_neg (by omega), if_neg (by omega), if_neg (by omega)]
    · subst h
      rw [if_neg (by omega)]
      simp
    · have : place - start = (place - (start + 1)) + 1 := by omega
      rw [if_neg (show ¬(place = start ∧ place < 4096) by omega), this, List.length_cons,
        List.getD_cons_succ]
      congr 1
      simp only [eq_iff_iff]
      omega

end Memory
end ChipEight
