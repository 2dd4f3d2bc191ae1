import ChipEight.Isa.Encoding
import ChipEight.Proofs.Blocks

/-! Blocks of memory, byte by byte.

Memory checks a byte, a block and a program each in its own place. `blocks_agree` says that the
three checks draw one line. A block can be read if each of its bytes can, and if not, the fault
names the first that cannot. Writing a block is writing its bytes one after another
(`Memory.writeEach`), except that nothing is written unless everything can be
(`Memory.allOrNothing`). Loading a program is writing a block, and only words the fault
differently. -/
namespace ChipEight

/-- The byte stored first counts 256 times. -/
theorem Opcode.toNat_word_ofBytes (high low : UInt8) :
    (ofBytes high low).word.toNat = 256 * high.toNat + low.toNat := by
  have hhigh := high.toNat_lt
  have hlow := low.toNat_lt
  simp only [ofBytes, UInt16.toNat_ofNat']
  omega

namespace Memory

variable {m : Memory} {address : UInt16} {data : List UInt8}

/-- The byte at a place can be read, and is this one. -/
def Reads (m : Memory) (place : Nat) (byte : UInt8) : Prop :=
  ∃ a : UInt16, a.toNat = place ∧ m.read a = .ok byte

/-- An address names a place that cannot be read, and the fault says so. -/
def Refuses (m : Memory) (place : Nat) : Prop :=
  ∃ a : UInt16, a.toNat = place ∧ m.read a = .error (.outOfBounds place)

/-- Write bytes one after another, up to the first that cannot be written. Those before it stay
written. -/
def writeEach (m : Memory) (address : UInt16) : List UInt8 → Except Fault Unit × Memory
  | [] => (.ok (), m)
  | byte :: rest =>
    match m.write address byte with
    | .error fault => (.error fault, m)
    | .ok m' => m'.writeEach (address + 1) rest

/-- The memory that an access leaves, and its fault if it came to one. -/
def after (m : Memory) : Except Fault Memory → Except Fault Unit × Memory
  | .error fault => (.error fault, m)
  | .ok m' => (.ok (), m')

/-- What is done to memory, unless it comes to a fault: then everything is as before. -/
def allOrNothing (m : Memory) : Except Fault Unit × Memory → Except Fault Unit × Memory
  | (.error fault, _) => (.error fault, m)
  | (.ok (), m') => (.ok (), m')

/-! ### Reading -/

theorem reads_iff {place : Nat} {byte : UInt8} :
    m.Reads place byte ↔ place < 4096 ∧ m.byteAt place = byte := by
  constructor
  · rintro ⟨a, rfl, hread⟩
    rw [read] at hread
    split at hread
    · rename_i within
      cases hread
      exact ⟨within, byteAt_mk m.cells within⟩
    · cases hread
  · rintro ⟨within, rfl⟩
    have hplace : (UInt16.ofNat place).toNat = place :=
      UInt16.toNat_ofNat_of_lt' (Nat.lt_trans within (by decide))
    refine ⟨UInt16.ofNat place, hplace, ?_⟩
    rw [read, dif_pos (by rw [hplace]; exact within), ← byteAt_mk, hplace]

theorem refuses_iff {place : Nat} : m.Refuses place ↔ 4096 ≤ place ∧ place < 65536 := by
  constructor
  · rintro ⟨a, rfl, hread⟩
    rw [read] at hread
    split at hread
    · cases hread
    · rename_i beyond
      exact ⟨Nat.le_of_not_lt beyond, a.toNat_lt⟩
  · rintro ⟨beyond, named⟩
    have hplace : (UInt16.ofNat place).toNat = place := UInt16.toNat_ofNat_of_lt' named
    refine ⟨UInt16.ofNat place, hplace, ?_⟩
    rw [read, dif_neg (by rw [hplace]; exact Nat.not_lt_of_le beyond), hplace]

theorem block_eq_ok {length : Nat} {bytes : List UInt8} :
    m.block address length = .ok bytes ↔
      address.toNat + length ≤ 4096 ∧ (List.range' address.toNat length).map m.byteAt = bytes := by
  by_cases fits : address.toNat + length ≤ 4096
  · rw [block_of_fits m fits, Except.ok.injEq, and_iff_right fits]
  · simp [block, checkBlock, fits]

theorem block_eq_error {length : Nat} {fault : Fault} :
    m.block address length = .error fault ↔
      4096 < address.toNat + length ∧ fault = .outOfBounds (max address.toNat 4096) := by
  rw [← faultOf_eq_some, faultOf_block, blockFault?_eq_some]

/-- A block is read as its bytes are. -/
theorem block_ok_iff {length : Nat} (nonempty : 0 < length) {bytes : List UInt8} :
    m.block address length = .ok bytes ↔
      bytes.length = length ∧ ∀ k (h : k < bytes.length), m.Reads (address.toNat + k) bytes[k] := by
  rw [block_eq_ok]
  constructor
  · rintro ⟨fits, rfl⟩
    refine ⟨by simp, fun k h => reads_iff.mpr ?_⟩
    rw [List.length_map, List.length_range'] at h
    refine ⟨by omega, ?_⟩
    rw [List.getElem_map, List.getElem_range', Nat.one_mul]
  · rintro ⟨rfl, reads⟩
    have last := (reads_iff.mp (reads (bytes.length - 1) (by omega))).1
    refine ⟨by omega, List.ext_getElem (by simp) fun k _ h => ?_⟩
    rw [List.getElem_map, List.getElem_range', Nat.one_mul, (reads_iff.mp (reads k h)).2]

/-- A block that cannot be read has a first byte that cannot. -/
theorem block_error_iff {length : Nat} (nonempty : 0 < length) {fault : Fault} :
    m.block address length = .error fault ↔
      ∃ k < length, fault = .outOfBounds (address.toNat + k) ∧ m.Refuses (address.toNat + k) ∧
        ∀ j < k, ∃ byte, m.Reads (address.toNat + j) byte := by
  have named := address.toNat_lt
  rw [block_eq_error]
  constructor
  · rintro ⟨beyond, rfl⟩
    have first : address.toNat + (4096 - address.toNat) = max address.toNat 4096 := by omega
    refine ⟨4096 - address.toNat, by omega, by rw [first], refuses_iff.mpr (by omega),
      fun j hj => ⟨_, reads_iff.mpr ⟨by omega, rfl⟩⟩⟩
  · rintro ⟨k, hk, rfl, refused, before⟩
    have beyond := (refuses_iff.mp refused).1
    have first : address.toNat + k = max address.toNat 4096 := by
      cases k with
      | zero => omega
      | succ j =>
        obtain ⟨byte, reads⟩ := before j (Nat.lt_succ_self j)
        have within := (reads_iff.mp reads).1
        omega
    exact ⟨by omega, by rw [first]⟩

/-! ### Opcodes -/

/-- An opcode is read as its two bytes are. -/
theorem opcode_ok_iff {op : Opcode} :
    m.opcode address = .ok op ↔
      ∃ high low, m.Reads address.toNat high ∧ m.Reads (address.toNat + 1) low ∧
        op.word.toNat = 256 * high.toNat + low.toNat := by
  constructor
  · intro h
    have fits : address.toNat + 2 ≤ 4096 := by
      rw [← blockFault?_eq_none, ← m.faultOf_opcode, h]
      rfl
    simp only [opcode, checkBlock, if_pos fits, Except.ok.injEq] at h
    subst h
    exact ⟨_, _, reads_iff.mpr ⟨by omega, rfl⟩, reads_iff.mpr ⟨by omega, rfl⟩,
      Opcode.toNat_word_ofBytes _ _⟩
  · rintro ⟨high, low, hhigh, hlow, hword⟩
    obtain ⟨-, rfl⟩ := reads_iff.mp hhigh
    obtain ⟨within, rfl⟩ := reads_iff.mp hlow
    have fits : address.toNat + 2 ≤ 4096 := by omega
    simp only [opcode, checkBlock, if_pos fits, Except.ok.injEq]
    exact Opcode.eq_of_toNat ((Opcode.toNat_word_ofBytes _ _).trans hword.symm)

/-! ### Writing -/

theorem write_of_lt (m : Memory) (within : address.toNat < 4096) (byte : UInt8) :
    m.write address byte = .ok ⟨m.cells.setIfInBounds address.toNat byte⟩ := by
  rw [write, dif_pos within]
  simp [Vector.set, Vector.setIfInBounds, Array.setIfInBounds, within]

theorem write_of_le (m : Memory) (beyond : 4096 ≤ address.toNat) (byte : UInt8) :
    m.write address byte = .error (.outOfBounds address.toNat) := by
  rw [write, dif_neg (Nat.not_lt_of_le beyond)]

theorem toNat_add_one (within : address.toNat < 4096) :
    (address + 1).toNat = address.toNat + 1 := by
  rw [UInt16.toNat_add, UInt16.toNat_one]
  omega

/-- Where all bytes fit, writing them one after another fills their places. -/
theorem writeEach_of_fits (m : Memory) (fits : address.toNat + data.length ≤ 4096) :
    m.writeEach address data = (.ok (), ⟨fill m.cells address.toNat data⟩) := by
  induction data generalizing m address with
  | nil => rfl
  | cons byte rest ih =>
    rw [List.length_cons] at fits
    have within : address.toNat < 4096 := by omega
    have hnext := toNat_add_one within
    simp only [writeEach, write_of_lt m within]
    rw [ih _ (by omega), hnext]
    rfl

/-- Where not all bytes fit, writing them one after another stops at the first place outside. -/
theorem writeEach_of_not_fits (m : Memory) (nonempty : data ≠ [])
    (beyond : 4096 < address.toNat + data.length) :
    (m.writeEach address data).1 = .error (.outOfBounds (max address.toNat 4096)) := by
  induction data generalizing m address with
  | nil => exact absurd rfl nonempty
  | cons byte rest ih =>
    rw [List.length_cons] at beyond
    by_cases within : address.toNat < 4096
    · have hnext := toNat_add_one within
      have hrest : rest ≠ [] := by
        rintro rfl
        rw [List.length_nil] at beyond
        omega
      have hfirst : max (address.toNat + 1) 4096 = max address.toNat 4096 := by omega
      simp only [writeEach, write_of_lt m within]
      rw [ih _ hrest (by omega), hnext, hfirst]
    · have outside := Nat.le_of_not_lt within
      simp only [writeEach, write_of_le m outside, Nat.max_eq_left outside]

/-- **Writing a block is writing its bytes, all or nothing.** -/
theorem after_writeBlock (m : Memory) (nonempty : data ≠ []) :
    m.after (m.writeBlock address data) = m.allOrNothing (m.writeEach address data) := by
  by_cases fits : address.toNat + data.length ≤ 4096
  · rw [writeBlock_of_fits m fits, writeEach_of_fits m fits]
    rfl
  · have hwritten : m.writeBlock address data = .error (.outOfBounds (max address.toNat 4096)) := by
      simp only [writeBlock, checkBlock, if_neg fits]
    have hfault := writeEach_of_not_fits m nonempty (Nat.lt_of_not_le fits)
    rw [hwritten]
    generalize m.writeEach address data = written at hfault
    obtain ⟨result, _⟩ := written
    cases hfault
    rfl

/-- A block that was written can be read back byte by byte, and no other byte is another. -/
theorem reads_of_writeBlock {m' : Memory} (nonempty : data ≠ [])
    (written : m.writeBlock address data = .ok m') :
    (∀ k (h : k < data.length), m'.Reads (address.toNat + k) data[k]) ∧
      ∀ place, place < address.toNat ∨ address.toNat + data.length ≤ place →
        m'.byteAt place = m.byteAt place := by
  have fits : address.toNat + data.length ≤ 4096 := by
    rw [← blockFault?_eq_none, ← m.faultOf_writeBlock, written]
    rfl
  rw [writeBlock_of_fits m fits] at written
  cases written
  refine ⟨((block_ok_iff (List.length_pos_of_ne_nil nonempty)).mp (m.block_writeBlock fits)).2,
    fun place outside => ?_⟩
  rw [byteAt_fill, if_neg (by omega)]

/-! ### Programs -/

/-- Loading a program is writing a block, but for what the fault says. -/
theorem load_ok_iff {m' : Memory} :
    m.load address data = .ok m' ↔ m.writeBlock address data = .ok m' := by
  by_cases fits : address.toNat + data.length ≤ 4096
  · rw [load, if_pos fits, writeBlock_of_fits m fits]
  · simp [load, writeBlock, checkBlock, fits]

/-- **Blocks are what their bytes are.** A block that is not empty can be read exactly if all of its
bytes can, and then it is these bytes; otherwise the fault names the first byte that cannot be read.
An opcode is read under the same condition, and its first byte counts 256 times. A block is written
exactly where it could be read, and what this comes to is what writing its bytes one after another
comes to, unless that stops at a fault: then nothing is written at all. A program, which may be
empty, is loaded exactly where the block could be written, to the same effect, and nothing is
changed if it is not loaded. -/
theorem blocks_agree (m : Memory) (address : UInt16) :
    (∀ length, 0 < length →
      (∀ bytes, m.block address length = .ok bytes ↔ bytes.length = length ∧
        ∀ k (h : k < bytes.length), m.Reads (address.toNat + k) bytes[k]) ∧
      ∀ fault, m.block address length = .error fault ↔
        ∃ k < length, fault = .outOfBounds (address.toNat + k) ∧ m.Refuses (address.toNat + k) ∧
          ∀ j < k, ∃ byte, m.Reads (address.toNat + j) byte) ∧
    ((∀ op, m.opcode address = .ok op ↔
        ∃ high low, m.Reads address.toNat high ∧ m.Reads (address.toNat + 1) low ∧
          op.word.toNat = 256 * high.toNat + low.toNat) ∧
      faultOf (m.opcode address) = faultOf (m.block address 2)) ∧
    (∀ data, data ≠ [] →
      faultOf (m.writeBlock address data) = faultOf (m.block address data.length) ∧
      m.after (m.writeBlock address data) = m.allOrNothing (m.writeEach address data) ∧
      ∀ m', m.writeBlock address data = .ok m' →
        (∀ k (h : k < data.length), m'.Reads (address.toNat + k) data[k]) ∧
        ∀ place, place < address.toNat ∨ address.toNat + data.length ≤ place →
          m'.byteAt place = m.byteAt place) ∧
    ∀ program,
      (∀ m', m.load address program = .ok m' ↔ m.writeBlock address program = .ok m') ∧
      ∀ fault, m.load address program = .error fault →
        m.after (m.load address program) = (.error fault, m) := by
  refine ⟨fun length nonempty => ⟨fun bytes => block_ok_iff nonempty,
      fun fault => block_error_iff nonempty⟩, ⟨fun op => opcode_ok_iff, ?_⟩,
    fun data nonempty => ⟨?_, after_writeBlock m nonempty, fun m' => reads_of_writeBlock nonempty⟩,
    fun program => ⟨fun m' => load_ok_iff, ?_⟩⟩
  · rw [faultOf_opcode, faultOf_block]
  · rw [faultOf_writeBlock, faultOf_block]
  · intro fault stopped
    rw [stopped]
    rfl

/-- Bytes up to the end of memory and beyond it. Writing three one after another would leave two of
them there. -/
theorem blocks_agree_end :
    let m := initial
    let data : List UInt8 := [1, 2, 3]
    m.Reads 0xFFE 0 ∧ m.Reads 0xFFF 0 ∧ m.Refuses 0x1000 ∧
      m.block 0xFFE 2 = .ok [0, 0] ∧ m.block 0xFFE 3 = .error (.outOfBounds 0x1000) ∧
      faultOf (m.opcode 0xFFF) = some (.outOfBounds 0x1000) ∧
      (m.writeEach 0xFFE data).2.byteAt 0xFFF = 2 ∧
      m.after (m.writeBlock 0xFFE data) = (.error (.outOfBounds 0x1000), m) ∧
      m.after (m.load 0x1001 []) = (.error (.programTooLarge 0 0x1001 0), m) := by
  intro m data
  have h : m.byteAt 0xFFE = 0 ∧ m.byteAt 0xFFF = 0 ∧
      (m.writeEach 0xFFE data).1 = .error (.outOfBounds 0x1000) ∧
      (m.writeEach 0xFFE data).2.byteAt 0xFFF = 2 := by
    decide +kernel
  obtain ⟨zero, zero', hfault, partly⟩ := h
  have first : m.Reads 0xFFE 0 := reads_iff.mpr ⟨by decide, zero⟩
  have second : m.Reads 0xFFF 0 := reads_iff.mpr ⟨by decide, zero'⟩
  -- the rest is so in any memory with these bytes
  clear_value m
  obtain ⟨reading, -, writing, -⟩ := blocks_agree m 0xFFE
  obtain ⟨-, ⟨-, opcodes⟩, -⟩ := blocks_agree m 0xFFF
  obtain ⟨-, -, -, loading⟩ := blocks_agree m 0x1001
  have refused : m.Refuses 0x1000 := refuses_iff.mpr (by decide)
  have fits : m.block 0xFFE 2 = .ok [0, 0] := by
    refine ((reading 2 (by decide)).1 [0, 0]).mpr ⟨rfl, fun k hk => ?_⟩
    match k with
    | 0 => exact first
    | 1 => exact second
  have beyond : m.block 0xFFE 3 = .error (.outOfBounds 0x1000) := by
    refine ((reading 3 (by decide)).2 _).mpr ⟨2, by decide, rfl, refused, fun j hj => ?_⟩
    match j with
    | 0 => exact ⟨0, first⟩
    | 1 => exact ⟨0, second⟩
  refine ⟨first, second, refused, fits, beyond, ?_, partly, ?_, ?_⟩
  · rw [opcodes, faultOf_block]
    decide
  · rw [(writing data (by decide)).2.1]
    generalize m.writeEach 0xFFE data = written at hfault
    obtain ⟨result, _⟩ := written
    cases hfault
    rfl
  · exact (loading []).2 _ (if_neg (by decide))

end Memory
end ChipEight
