import ChipEight.Proofs.Confines
import ChipEight.Proofs.Failing

/-! Blocks of registers, stored and loaded.

Registers are stored in order from the index on, and loaded in order from there. What was written
to a block is what is read from it (`block_writeBlock`), so bytes that were stored at an address
come into the registers wherever the same memory is met with the index at that address; a memory
`Yields` them. `execute_restores` draws the two conclusions: registers that were stored are
restored by loading as many of them, in any dialect and up to the last byte of memory, and the
three decimal digits of a register, loaded, make up its value. -/
namespace ChipEight

namespace Memory

variable {address : UInt16} {length : Nat} {data : List UInt8}

/-- A block that lies inside memory can be read. -/
theorem block_of_fits (m : Memory) (fits : address.toNat + length ≤ 4096) :
    m.block address length = .ok ((List.range' address.toNat length).map m.byteAt) := by
  simp only [block, checkBlock, if_pos fits]

/-- A block that lies inside memory can be written. -/
theorem writeBlock_of_fits (m : Memory) (fits : address.toNat + data.length ≤ 4096) :
    m.writeBlock address data = .ok ⟨fill m.cells address.toNat data⟩ := by
  simp only [writeBlock, checkBlock, if_pos fits]

/-- What was written to a block is what is read from it. -/
theorem block_writeBlock (m : Memory) (fits : address.toNat + data.length ≤ 4096) :
    block ⟨fill m.cells address.toNat data⟩ address data.length = .ok data := by
  rw [block_of_fits _ fits]
  refine congrArg Except.ok (List.ext_getElem (by simp) fun offset _ within => ?_)
  rw [List.getElem_map, List.getElem_range', byteAt_fill, if_pos (by omega)]
  simp [List.getD_eq_getElem?_getD, within]

/-- A memory yields values for the registers up to one from an address on: wherever this memory is
met with the index at the address, loading these registers puts the values into them, leaves the
registers behind them alone, and has the index behind the block or in its place, as is the
dialect's way. -/
def Yields (m : Memory) (start : UInt16) (x : Nibble) (value : Nibble → UInt8) : Prop :=
  ∀ (around : Surroundings) (s : Snapshot) (d : Devices), s.memory = m → s.index = start →
    ∃ t, execute around s d (.load x) = (.ok t, d) ∧
      (∀ z ≤ x, t.register z = value z) ∧ (∀ z, x < z → t.register z = s.register z) ∧
      t.index.toNat =
        if around.dialect.blockMovesIndex then start.toNat + x.val + 1 else start.toNat

end Memory

namespace Snapshot

variable {s : Snapshot} {x z : Nibble} {bytes : List UInt8}

/-- A register is stored in its own place of the block. -/
theorem getD_registersTo (s : Snapshot) (h : z ≤ x) :
    (s.registersTo x).getD z.val 0 = s.register z := by
  have hplace : z.val < x.val + 1 := Nat.lt_succ_of_le h
  simp [registersTo, register_eq, List.getD_eq_getElem?_getD, hplace]

/-- Where the index is after a block of registers that lies inside memory. -/
theorem toNat_index_after (dialect : Dialect) (fits : s.index.toNat + (x.val + 1) ≤ 4096) :
    (s.indexAfterBlock dialect x).toNat =
      if dialect.blockMovesIndex then s.index.toNat + x.val + 1 else s.index.toNat := by
  split
  · rename_i moves
    exact toNat_indexAfterBlock moves fits
  · rename_i stays
    rw [indexAfterBlock, if_neg stays]

/-- The bytes of a block are what registers are loaded with. -/
theorem yields_of_block {m : Memory} {start : UInt16} (h : m.block start (x.val + 1) = .ok bytes) :
    m.Yields start x fun z => bytes.getD z.val 0 := by
  rintro around s d rfl rfl
  have hlength := Memory.length_of_block h
  have hfits : s.index.toNat + (x.val + 1) ≤ 4096 := by
    rw [← Memory.blockFault?_eq_none, ← s.memory.faultOf_block, h, faultOf]
  have hloads : s.loadRegisters x = .ok (s.setRegistersFrom 0 bytes) := by
    rw [loadRegisters, h]
  refine ⟨_, by rw [execute, hloads]; rfl, fun z hz => ?_, fun z hz => ?_,
    toNat_index_after around.dialect hfits⟩
  · have hwithin : z.val < x.val + 1 := Nat.lt_succ_of_le hz
    exact (s.register_setRegistersFrom 0 bytes z).trans (if_pos (by omega))
  · have hbehind : x.val < z.val := hz
    exact (s.register_setRegistersFrom 0 bytes z).trans (if_neg (by omega))

/-- Bytes that lie inside memory from the index on can be stored, and memory then yields them. -/
theorem storeAtIndex_yields (hlength : bytes.length = x.val + 1)
    (fits : s.index.toNat + (x.val + 1) ≤ 4096) :
    ∃ t, s.storeAtIndex bytes = .ok t ∧
      t.memory.Yields s.index x fun z => bytes.getD z.val 0 := by
  rw [← hlength] at fits
  refine ⟨{ s with memory := ⟨Memory.fill s.memory.cells s.index.toNat bytes⟩ }, ?_, ?_⟩
  · rw [storeAtIndex, Memory.writeBlock_of_fits _ fits]
  · have hblock := s.memory.block_writeBlock fits
    rw [hlength] at hblock
    exact yields_of_block hblock

/-- The decimal digits of a byte are digits, and make it up. -/
theorem decimalDigits_value (value : UInt8) :
    (∀ place, (decimalDigits value).getD place 0 ≤ 9) ∧
      100 * ((decimalDigits value).getD 0 0).toNat + 10 * ((decimalDigits value).getD 1 0).toNat +
        ((decimalDigits value).getD 2 0).toNat = value.toNat := by
  have hvalue := value.toNat_lt
  constructor
  · intro place
    match place with
    | 0 | 1 | 2 =>
      simp only [decimalDigits, List.getD_cons_zero, List.getD_cons_succ, UInt8.le_iff_toNat_le,
        UInt8.toNat_div, UInt8.toNat_mod, UInt8.reduceToNat]
      omega
    | _ + 3 =>
      show (0 : UInt8) ≤ 9
      decide
  · simp only [decimalDigits, List.getD_cons_zero, List.getD_cons_succ, UInt8.toNat_div,
      UInt8.toNat_mod, UInt8.reduceToNat]
    omega

end Snapshot

open Snapshot

/-- **Registers that were stored are restored by loading them.** Storing changes the bytes of the
block and no others; wherever the memory it leaves is met with the index at the same address,
loading puts the registers back to what they were and leaves those behind them alone. Both leave
the index behind the block in the dialects that move it, and in its place in the others. The
decimal digits of a register, loaded in the same way, are digits that make up its value. -/
theorem execute_restores (around : Surroundings) (s : Snapshot) (d : Devices) (x : Nibble) :
    (s.index.toNat + x.val + 1 ≤ 4096 →
      ∃ t, execute around s d (.store x) = (.ok t, d) ∧
        (∀ place, place < s.index.toNat ∨ s.index.toNat + x.val < place →
          t.memory.byteAt place = s.memory.byteAt place) ∧
        t.memory.Yields s.index x s.register ∧
        t.index.toNat =
          if around.dialect.blockMovesIndex then s.index.toNat + x.val + 1 else s.index.toNat) ∧
    (s.index.toNat ≤ 4093 →
      ∃ t, execute around s d (.decimal x) = (.ok t, d) ∧ t.index = s.index ∧
        ∃ digit : Nibble → UInt8, t.memory.Yields s.index 2 digit ∧ (∀ z, digit z ≤ 9) ∧
          100 * (digit 0).toNat + 10 * (digit 1).toNat + (digit 2).toNat =
            (s.register x).toNat) := by
  constructor
  · intro fits
    obtain ⟨u, hstored, hyields⟩ := storeAtIndex_yields (s.length_registersTo x) fits
    refine ⟨_, by rw [execute, hstored]; rfl, fun place outside => ?_, fun around s' d' hm hi => ?_,
      toNat_index_after around.dialect fits⟩
    · refine byteAt_storeAtIndex hstored ?_
      rw [s.length_registersTo x]
      omega
    · obtain ⟨t, hloaded, hwithin, hrest⟩ := hyields around s' d' hm hi
      exact ⟨t, hloaded, fun z hz => (hwithin z hz).trans (s.getD_registersTo hz), hrest⟩
  · intro fits
    obtain ⟨u, hstored, hyields⟩ : ∃ u, s.storeAtIndex (decimalDigits (s.register x)) = .ok u ∧
        u.memory.Yields s.index 2 _ := storeAtIndex_yields rfl (by simpa using fits)
    obtain ⟨hdigits, hvalue⟩ := decimalDigits_value (s.register x)
    exact ⟨u.next, by rw [execute, hstored]; rfl, congrArg (·.index) (storeAtIndex_ok hstored), _,
      hyields, fun z => hdigits z.val, hvalue⟩

/-- Three registers are stored in the last three bytes of memory and loaded from there by a program
that has moved on and speaks another dialect; the digits of 254 take the same place. -/
theorem execute_restores_at_end :
    let around : Surroundings := ⟨.released, .cosmacVip, true⟩
    let d : Devices := ⟨⟨5, 7⟩, default⟩
    let s : Snapshot :=
      { initial with registers := (Vector.replicate 16 9).set 2 254, index := 0xFFD }
    s.index.toNat + (2 : Nibble).val + 1 ≤ 4096 ∧ s.index.toNat ≤ 4093 ∧
      (∃ t, execute around s d (.store 2) = (.ok t, d) ∧ t.index.toNat = 4096 ∧
        ∃ u, execute ⟨.released, .chip48, true⟩ { initial with memory := t.memory, index := 0xFFD }
            d (.load 2) = (.ok u, d) ∧
          u.register 1 = 9 ∧ u.register 2 = 254 ∧ u.register 3 = 0 ∧ u.index.toNat = 4093) ∧
      ∃ t, execute around s d (.decimal 2) = (.ok t, d) ∧
        ∃ digit : Nibble → UInt8, t.memory.Yields s.index 2 digit ∧
          100 * (digit 0).toNat + 10 * (digit 1).toNat + (digit 2).toNat = 254 := by
  intro around d s
  have hfits : s.index.toNat + (2 : Nibble).val + 1 ≤ 4096 := by decide
  have hlow : s.index.toNat ≤ 4093 := by decide
  obtain ⟨hstore, hdecimal⟩ := execute_restores around s d 2
  obtain ⟨t, hran, -, hyields, hindex⟩ := hstore hfits
  obtain ⟨u, hloaded, hwithin, hbehind, hback⟩ :=
    hyields ⟨.released, .chip48, true⟩ { initial with memory := t.memory, index := 0xFFD } d rfl rfl
  obtain ⟨t', hran', -, digit, hyields', -, hvalue⟩ := hdecimal hlow
  exact ⟨hfits, hlow, ⟨t, hran, hindex, u, hloaded, hwithin 1 (by decide), hwithin 2 (by decide),
    hbehind 3 (by decide), hback⟩, t', hran', digit, hyields', hvalue⟩

end ChipEight
