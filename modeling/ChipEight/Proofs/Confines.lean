import ChipEight.Proofs.Flow
import ChipEight.Proofs.Influence
import ChipEight.Proofs.Waiting

/-! What an instruction leaves alone.

Every family of instructions has its own small part of the state that it may change: some bytes
from the index on, a register and perhaps the flag, the index, the stack, the screen, one of the
devices. What an instruction may change is read off the instruction, the index and the dialect
alone, and `Confined` says of a way from one state to another that it keeps to that.
`execute_confined` says that whatever runs is confined, and where the program goes on unless the
instruction turns it elsewhere. -/
namespace ChipEight

/-! ### What an instruction may change -/

namespace Instruction

/-- How many bytes from the index on an instruction writes. -/
def written : Instruction → Nat
  | .decimal _ => 3
  | .store x => x.val + 1
  | _ => 0

/-- Whether an instruction may put something into a register. -/
def Sets (dialect : Dialect) (z : Nibble) : Instruction → Prop
  | .setByte x _ | .addByte x _ | .copy x _ | .random x _ | .readDelay x => z = x
  | .or x _ | .and x _ | .xor x _ => z = x ∨ dialect.logicClearsFlag = true ∧ z = Snapshot.flag
  | .add x _ | .sub x _ | .subFrom x _ | .shiftRight x _ | .shiftLeft x _ =>
    z = x ∨ z = Snapshot.flag
  | .draw _ _ _ => z = Snapshot.flag
  | .load x => z ≤ x
  | _ => False

/-- Whether an instruction may point the index elsewhere. -/
def points (dialect : Dialect) : Instruction → Bool
  | .setIndex _ | .addIndex _ | .glyph _ => true
  | .store _ | .load _ => dialect.blockMovesIndex
  | _ => false

/-- Whether an instruction uses the call stack. -/
def usesStack : Instruction → Bool
  | .ret | .call _ => true
  | _ => false

/-- Whether an instruction has the program wait for a key. -/
def awaits : Instruction → Bool
  | .awaitKey _ => true
  | _ => false

/-- Whether an instruction loads the delay timer. -/
def loadsDelay : Instruction → Bool
  | .setDelay _ => true
  | _ => false

/-- Whether an instruction loads the sound timer. -/
def loadsSound : Instruction → Bool
  | .setSound _ => true
  | _ => false

/-- Whether an instruction draws from the random stream. -/
def rolls : Instruction → Bool
  | .random _ _ => true
  | _ => false

end Instruction

/-- Whether an instruction skips the next one. -/
def Snapshot.skipsNext (s : Snapshot) (keypad : Keypad) : Instruction → Bool
  | .skipIfByte x kk => s.register x == kk
  | .skipUnlessByte x kk => s.register x != kk
  | .skipIfSame x y => s.register x == s.register y
  | .skipUnlessSame x y => s.register x != s.register y
  | .skipIfKey x => keypad.isDown (keyOf (s.register x))
  | .skipUnlessKey x => !keypad.isDown (keyOf (s.register x))
  | _ => false

/-- A way from one state to another that changes of memory, the registers and the two pointers what
an instruction may change of them. -/
structure Kept (around : Surroundings) (s : Snapshot) (i : Instruction) (t : Snapshot) : Prop where
  /-- The bytes below the index and behind those written stay. -/
  bytes : ∀ place, place < s.index.toNat ∨ s.index.toNat + i.written ≤ place →
    t.memory.byteAt place = s.memory.byteAt place
  registers : ∀ z, ¬i.Sets around.dialect z → t.register z = s.register z
  index : i.points around.dialect = false → t.index = s.index
  /-- The program goes on with the next instruction, or past it, unless it is turned elsewhere. -/
  pc : i.turns = false →
    t.pc = s.pc + if s.skipsNext around.keypad i then 2 * Opcode.size else Opcode.size

/-- A way from one state to another that changes what an instruction may change and nothing else. -/
structure Confined (around : Surroundings) (s : Snapshot) (d : Devices) (i : Instruction)
    (t : Snapshot) (d' : Devices) : Prop extends Kept around s i t where
  memory : i.written = 0 → t.memory = s.memory
  screen : i.draws = false → t.screen = s.screen ∧ t.redraw = s.redraw
  stack : i.usesStack = false → t.stack = s.stack
  keyWait : i.awaits = false → t.keyWait = s.keyWait
  delay : i.loadsDelay = false → d'.timers.delay = d.timers.delay
  sound : i.loadsSound = false → d'.timers.sound = d.timers.sound
  random : i.rolls = false → d'.random = d.random

/-! ### Memory and registers -/

/-- Memories that hold the same bytes are the same. -/
theorem Memory.eq_of_byteAt {m m' : Memory} (h : ∀ place, m.byteAt place = m'.byteAt place) :
    m = m' := by
  obtain ⟨cells⟩ := m
  obtain ⟨cells'⟩ := m'
  refine congrArg mk (Vector.ext fun place hplace => ?_)
  rw [← byteAt_mk cells hplace, h, byteAt_mk cells' hplace]

namespace Snapshot

/-- Bytes stored at the index leave all others alone. -/
theorem byteAt_storeAtIndex {s t : Snapshot} {bytes : List UInt8}
    (h : s.storeAtIndex bytes = .ok t) {place : Nat}
    (outside : place < s.index.toNat ∨ s.index.toNat + bytes.length ≤ place) :
    t.memory.byteAt place = s.memory.byteAt place := by
  simp only [storeAtIndex, Memory.writeBlock] at h
  split at h
  · cases h
  · rename_i memory hmemory
    cases h
    split at hmemory <;> cases hmemory
    exact (Memory.byteAt_fill _ _ _ _).trans (if_neg (by omega))

/-- Loading puts each byte into its own register and leaves the other registers alone. -/
theorem register_setRegistersFrom (s : Snapshot) (start : Nat) (values : List UInt8) (z : Nibble) :
    (s.setRegistersFrom start values).register z =
      if start ≤ z.val ∧ z.val < start + values.length then values.getD (z.val - start) 0
      else s.register z := by
  induction values generalizing s start with
  | nil => exact (if_neg fun within => absurd within.2 (Nat.not_lt.mpr within.1)).symm
  | cons v rest ih =>
    rw [setRegistersFrom, ih, List.length_cons]
    rcases Nat.lt_trichotomy z.val start with h | h | h
    · rw [if_neg (by omega), if_neg (by omega)]
      exact Vector.getElem_setIfInBounds_ne z.lt (by omega)
    · subst h
      rw [if_neg (by omega), if_pos (by omega), Nat.sub_self]
      exact Vector.getElem_setIfInBounds_self z.lt
    · have hoffset : z.val - start = z.val - (start + 1) + 1 := by omega
      by_cases hwithin : z.val < start + 1 + rest.length
      · rw [if_pos (by omega), if_pos (by omega), hoffset, List.getD_cons_succ]
      · rw [if_neg (by omega), if_neg (by omega)]
        exact Vector.getElem_setIfInBounds_ne z.lt (by omega)

theorem register_loadRegisters {s t : Snapshot} {x z : Nibble} (h : s.loadRegisters x = .ok t)
    (other : ¬z ≤ x) : t.register z = s.register z := by
  have habove : x.val < z.val := Nat.lt_of_not_le other
  simp only [loadRegisters] at h
  split at h
  · cases h
  · rename_i bytes hbytes
    cases h
    have hlength := Memory.length_of_block hbytes
    exact (s.register_setRegistersFrom 0 bytes z).trans (if_neg (by omega))

theorem register_setFlagged {s : Snapshot} {x z : Nibble} {value value' : UInt8}
    (other : ¬(z = x ∨ z = flag)) : (s.setFlagged x value value').register z = s.register z := by
  obtain ⟨hx, hflag⟩ := not_or.mp other
  rw [setFlagged, register_setRegister, if_neg hflag, register_setRegister, if_neg hx]

theorem register_logic {s : Snapshot} {dialect : Dialect} {x z : Nibble} {value : UInt8}
    (other : ¬(z = x ∨ dialect.logicClearsFlag = true ∧ z = flag)) :
    (s.logic dialect x value).register z = s.register z := by
  simp only [logic]
  split
  · rename_i hclears
    exact register_setFlagged fun h => other (h.imp_right fun hz => ⟨hclears, hz⟩)
  · rw [register_setRegister, if_neg fun h => other (.inl h)]

theorem register_drawSprite {s t : Snapshot} {x y n z : Nibble} (h : s.drawSprite x y n = .ok t)
    (other : z ≠ flag) : t.register z = s.register z := by
  simp only [drawSprite] at h
  split at h <;> cases h
  exact (s.register_setRegister flag z _).trans (if_neg other)

theorem pc_skipIf (s : Snapshot) (condition : Bool) :
    (s.skipIf condition).pc = s.pc + if condition then 2 * Opcode.size else Opcode.size := by
  cases condition <;> rfl

end Snapshot

/-! ### Instructions -/

open Snapshot

variable {around : Surroundings} {s t : Snapshot} {d d' : Devices} {i : Instruction}

/-- Where memory stays as it is, so do all of its bytes. -/
theorem Kept.of_memory (memory : t.memory = s.memory)
    (registers : ∀ z, ¬i.Sets around.dialect z → t.register z = s.register z)
    (index : i.points around.dialect = false → t.index = s.index)
    (pc : i.turns = false →
      t.pc = s.pc + if s.skipsNext around.keypad i then 2 * Opcode.size else Opcode.size) :
    Kept around s i t :=
  ⟨fun place _ => by rw [memory], registers, index, pc⟩

/-- Of memory, the registers and the two pointers an instruction changes what it may change. -/
theorem execute_kept (h : (execute around s d i).1 = .ok t) : Kept around s i t := by
  cases i with
  | setByte | addByte | copy | random | readDelay =>
    cases h
    exact .of_memory rfl (fun z other => (s.register_setRegister _ z _).trans (if_neg other))
      (fun _ => rfl) fun _ => rfl
  | or | and | xor =>
    cases h
    refine .of_memory ?_ (fun z other => register_logic other) ?_ ?_ <;> rw [logic_eq]
    · rfl
    · exact fun _ => rfl
    · exact fun _ => rfl
  | add | sub | subFrom | shiftRight | shiftLeft =>
    cases h
    exact .of_memory rfl (fun z other => register_setFlagged other) (fun _ => rfl) fun _ => rfl
  | draw x y n =>
    obtain ⟨u, hu, rfl⟩ := ok_of_map h
    have hdrawn := drawSprite_ok hu
    have hothers : ∀ z, z ≠ flag → u.register z = s.register z := fun z => register_drawSprite hu
    exact .of_memory (congrArg (·.memory) hdrawn) hothers
      (fun _ => congrArg (·.index) hdrawn) fun _ => congrArg (·.next.pc) hdrawn
  | decimal x =>
    obtain ⟨u, hu, rfl⟩ := ok_of_map h
    have hstored := storeAtIndex_ok hu
    exact ⟨fun place outside => byteAt_storeAtIndex hu outside,
      fun z _ => congrArg (·.register z) hstored, fun _ => congrArg (·.index) hstored,
      fun _ => congrArg (·.next.pc) hstored⟩
  | store x =>
    obtain ⟨u, hu, rfl⟩ := ok_of_map h
    have hstored := storeAtIndex_ok hu
    refine ⟨fun place outside => byteAt_storeAtIndex hu ?_,
      fun z _ => congrArg (·.register z) hstored, fun stays => if_neg (ne_true_of_eq_false stays),
      fun _ => congrArg (·.next.pc) hstored⟩
    rw [length_registersTo]
    exact outside
  | load x =>
    obtain ⟨u, hu, rfl⟩ := ok_of_map h
    have hloaded := loadRegisters_ok hu
    have hothers : ∀ z, ¬z ≤ x → u.register z = s.register z := fun z => register_loadRegisters hu
    exact .of_memory (congrArg (·.memory) hloaded) hothers
      (fun stays => if_neg (ne_true_of_eq_false stays)) fun _ => congrArg (·.next.pc) hloaded
  | skipIfByte | skipUnlessByte | skipIfSame | skipUnlessSame | skipIfKey | skipUnlessKey =>
    cases h
    refine .of_memory ?_ ?_ ?_ fun _ => s.pc_skipIf _ <;> rw [skipIf_eq]
    · exact fun _ _ => rfl
    · exact fun _ => rfl
  | ret =>
    rw [leave_ok h]
    exact .of_memory rfl (fun _ _ => rfl) (fun _ => rfl) nofun
  | call target =>
    rw [enter_ok h]
    exact .of_memory rfl (fun _ _ => rfl) (fun _ => rfl) nofun
  | jump | jumpPlus =>
    cases h
    exact .of_memory rfl (fun _ _ => rfl) (fun _ => rfl) nofun
  | setIndex | addIndex | glyph =>
    cases h
    exact .of_memory rfl (fun _ _ => rfl) nofun fun _ => rfl
  | unknown op =>
    obtain rfl := execute_unknown_ok h
    exact .of_memory rfl (fun _ _ => rfl) (fun _ => rfl) fun _ => rfl
  | _ =>
    cases h
    exact .of_memory rfl (fun _ _ => rfl) (fun _ => rfl) fun _ => rfl

/-- Nothing but calls and returns uses the call stack. -/
theorem execute_stack (h : (execute around s d i).1 = .ok t) (unused : i.usesStack = false) :
    t.stack = s.stack := by
  cases execute_flow h with
  | on _ hstack | past _ hstack => exact hstack
  | jump _ hstack | jumpPlus _ _ hstack => exact hstack
  | call | ret => cases unused

/-- **An instruction that runs changes what it may change and nothing else**: bytes from the index
on, its registers, the index, the screen, the stack, the wait for a key and the devices, each of
them only if it is one of the few instructions that do. Unless it turns the program elsewhere,
the program goes on with the next instruction, or past it if this is skipped. -/
theorem execute_confined (around : Surroundings) (s t : Snapshot) (d d' : Devices)
    (i : Instruction) (h : execute around s d i = (.ok t, d')) : Confined around s d i t d' := by
  have hran : (execute around s d i).1 = .ok t := by rw [h]
  have hkept := execute_kept hran
  have hredrawn := execute_redrawn hran
  obtain rfl := eq_devicesAfter h
  refine ⟨hkept, fun writes => Memory.eq_of_byteAt fun place => hkept.bytes place (by omega),
    fun undrawn => ⟨hredrawn.screen undrawn, ?_⟩, execute_stack hran, fun idle => ?_,
    fun spared => ?_, fun spared => ?_, fun spared => ?_⟩
  · rw [hredrawn.redraw, undrawn, Bool.false_or]
  · rcases execute_keyWait hran with hwait | ⟨x, rfl, -⟩
    · exact hwait
    · cases idle
  -- what is left is the devices
  · cases i with
    | setDelay => cases spared
    | _ => rfl
  · cases i with
    | setSound => cases spared
    | _ => rfl
  · cases i with
    | random => cases spared
    | _ => rfl

/-- V0 and V1 are stored in the last two bytes of memory, and the index is moved behind them. -/
theorem execute_confined_store :
    let around : Surroundings := ⟨.released, .cosmacVip, true⟩
    let s : Snapshot := { initial with index := 0xFFE }
    let d : Devices := ⟨⟨5, 7⟩, default⟩
    ∃ t d', execute around s d (.store 1) = (.ok t, d') ∧ Confined around s d (.store 1) t d' := by
  intro around s d
  have hfits : s.fault? around.strict (.store 1) = none := by rfl
  obtain ⟨t, d', h⟩ := execute_ok around d hfits
  exact ⟨t, d', h, execute_confined around s t d d' (.store 1) h⟩

end ChipEight
