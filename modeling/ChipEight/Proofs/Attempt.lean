import ChipEight.Machine.Session

/-! Attempts: cycles on hardware that has no way out.

`execute` is total: its sums wrap and its tables are read at places that are known to
exist. An *attempt* does the same work with nothing to fall back on. A sum or product
that does not fit into a word has no value, and neither has an entry that a table does
not have; an attempt at which either happens comes to nothing at all. Faults are not of
that kind: a block outside memory and a misused call stack are checked for, and an
attempt at them comes to the fault.

`attempt_eq_execute`, and for whole machines `attemptPerform_eq`: no attempt at an
instruction that was fetched ever comes to nothing, and what it comes to is what
`execute` says. -/
namespace ChipEight

namespace Word

/-- The sum of two words, if a word holds it. -/
def add? (a b : UInt16) : Option UInt16 :=
  if a.toNat + b.toNat < 65536 then some (a + b) else none

/-- The product of two words, if a word holds it. -/
def mul? (a b : UInt16) : Option UInt16 :=
  if a.toNat * b.toNat < 65536 then some (a * b) else none

theorem add?_eq {a b : UInt16} (h : a.toNat + b.toNat < 65536) : add? a b = some (a + b) :=
  if_pos h

theorem mul?_eq {a b : UInt16} (h : a.toNat * b.toNat < 65536) : mul? a b = some (a * b) :=
  if_pos h

end Word

/-! ### Tables -/

namespace Keypad

/-- Whether the key in a place is down. -/
def isDown? (k : Keypad) (place : Nat) : Option Bool := k.down[place]?

theorem isDown?_eq (k : Keypad) (key : Nibble) : k.isDown? key.val = some (k.isDown key) := by
  simp [isDown?, isDown_eq]

end Keypad

namespace CallStack

/-- The stack after a return, and where the return goes by the slot below the depth. -/
def pop? (s : CallStack) : Option (Except StackFault (UInt16 × CallStack)) :=
  if s.depth.val = 0 then some (.error .underflow)
  else do
    let address ← s.slots[s.depth.val - 1]?
    return .ok (address, ⟨s.slots, ⟨s.depth.val - 1, by omega⟩⟩)

theorem pop?_eq (s : CallStack) : s.pop? = some s.pop := by
  simp only [pop?, pop]
  split
  · rw [dif_neg (by omega)]
  · have hd : s.depth.val - 1 < 16 := by omega
    rw [dif_pos (by omega), Vector.getElem?_eq_getElem hd]
    rfl

end CallStack

namespace Memory

/-- The bytes of consecutive cells. -/
def bytes? (m : Memory) (place length : Nat) : Option (List UInt8) :=
  (List.range' place length).mapM fun place => m.cells[place]?

/-- The bytes of a block, which is checked first. -/
def block? (m : Memory) (address : UInt16) (length : Nat) : Option (Except Fault (List UInt8)) :=
  match checkBlock address length with
  | .error fault => some (.error fault)
  | .ok () => (m.bytes? address.toNat length).map .ok

/-- Consecutive cells with bytes put into them. -/
def fill? (cells : Vector UInt8 4096) (place : Nat) : List UInt8 → Option (Vector UInt8 4096)
  | [] => some cells
  | b :: rest => if _ : place < 4096 then fill? (cells.set place b) (place + 1) rest else none

/-- Memory with the bytes of a block replaced, which is checked first. -/
def writeBlock? (m : Memory) (address : UInt16) (data : List UInt8) :
    Option (Except Fault Memory) :=
  match checkBlock address data.length with
  | .error fault => some (.error fault)
  | .ok () => (fill? m.cells address.toNat data).map fun cells => .ok ⟨cells⟩

/-- The opcode at an address, which is checked first. -/
def opcode? (m : Memory) (address : UInt16) : Option (Except Fault Opcode) :=
  match checkBlock address 2 with
  | .error fault => some (.error fault)
  | .ok () => do
    let high ← m.cells[address.toNat]?
    let low ← m.cells[address.toNat + 1]?
    return .ok (.ofBytes high low)

/-- Memory with a program put at its origin, where it has to fit. -/
def load? (m : Memory) (origin : UInt16) (program : List UInt8) :
    Option (Except Fault Memory) :=
  if origin.toNat + program.length ≤ 4096 then
    (fill? m.cells origin.toNat program).map fun cells => .ok ⟨cells⟩
  else some (.error (.programTooLarge program.length origin (4096 - origin.toNat)))

theorem checkBlock_ok {address : UInt16} {length : Nat} (h : checkBlock address length = .ok ()) :
    address.toNat + length ≤ 4096 := by
  simp only [checkBlock] at h
  split at h
  · assumption
  · cases h

theorem cells_getElem? (m : Memory) {place : Nat} (h : place < 4096) :
    m.cells[place]? = some (m.byteAt place) := by
  rw [Vector.getElem?_eq_getElem h, ← byteAt_mk]

theorem bytes?_eq (m : Memory) (place length : Nat) (h : place + length ≤ 4096) :
    m.bytes? place length = some ((List.range' place length).map m.byteAt) := by
  induction length generalizing place with
  | zero => rfl
  | succ length ih =>
    simp only [bytes?] at ih
    simp only [bytes?, List.range'_succ, List.mapM_cons, List.map_cons,
      m.cells_getElem? (show place < 4096 by omega), ih (place + 1) (by omega)]
    rfl

theorem block?_eq (m : Memory) (address : UInt16) (length : Nat) :
    m.block? address length = some (m.block address length) := by
  rcases h : checkBlock address length with fault | _
  · simp only [block?, block, h]
  · simp only [block?, block, h, m.bytes?_eq _ _ (checkBlock_ok h), Option.map_some]

theorem fill?_eq (cells : Vector UInt8 4096) (place : Nat) (data : List UInt8)
    (h : place + data.length ≤ 4096) : fill? cells place data = some (fill cells place data) := by
  induction data generalizing cells place with
  | nil => rfl
  | cons b rest ih =>
    simp only [List.length_cons] at h
    have hp : place < 4096 := by omega
    simp only [fill?, fill, dif_pos hp]
    rw [ih _ _ (by omega)]
    congr 2
    simp [Vector.setIfInBounds, Vector.set, Array.setIfInBounds, hp]

theorem writeBlock?_eq (m : Memory) (address : UInt16) (data : List UInt8) :
    m.writeBlock? address data = some (m.writeBlock address data) := by
  rcases h : checkBlock address data.length with fault | _
  · simp only [writeBlock?, writeBlock, h]
  · simp only [writeBlock?, writeBlock, h, fill?_eq _ _ _ (checkBlock_ok h), Option.map_some]

theorem opcode?_eq (m : Memory) (address : UInt16) :
    m.opcode? address = some (m.opcode address) := by
  rcases h : checkBlock address 2 with fault | _
  · simp only [opcode?, opcode, h]
  · have := checkBlock_ok h
    simp only [opcode?, opcode, h]
    rw [m.cells_getElem? (by omega), m.cells_getElem? (by omega)]
    rfl

theorem load?_eq (m : Memory) (origin : UInt16) (program : List UInt8) :
    m.load? origin program = some (m.load origin program) := by
  simp only [load?, load]
  split
  · rw [fill?_eq _ _ _ ‹_›]
    rfl
  · rfl

/-- An opcode that could be fetched lies inside memory, and so does the next address. -/
theorem opcode_ok {m : Memory} {address : UInt16} {op : Opcode}
    (h : m.opcode address = .ok op) : address.toNat + 2 ≤ 4096 := by
  simp only [opcode] at h
  split at h
  · cases h
  · exact checkBlock_ok ‹_›

end Memory

/-! ### Instructions -/

namespace Snapshot

/-- The program one instruction further. -/
def next? (s : Snapshot) : Option Snapshot := do
  let pc ← Word.add? s.pc Opcode.size
  return {s with pc}

/-- The program past the next instruction if a condition holds. -/
def skipIf? (s : Snapshot) (condition : Bool) : Option Snapshot := do
  let pc ← Word.add? s.pc (if condition then 2 * Opcode.size else Opcode.size)
  return {s with pc}

/-- The value of the register in a place. -/
def register? (s : Snapshot) (place : Nat) : Option UInt8 := s.registers[place]?

/-- The state with the register in a place replaced. -/
def setRegister? (s : Snapshot) (place : Nat) (value : UInt8) : Option Snapshot :=
  if _ : place < 16 then some {s with registers := s.registers.set place value} else none

/-- A result and then a flag put into registers. -/
def setFlagged? (s : Snapshot) (place : Nat) (value flag : UInt8) : Option Snapshot := do
  (← s.setRegister? place value).setRegister? 15 flag

/-- A logical operation on two registers. -/
def logic? (s : Snapshot) (dialect : Dialect) (x y : Nat) (f : UInt8 → UInt8 → UInt8) :
    Option Snapshot := do
  let value := f (← s.register? x) (← s.register? y)
  if dialect.logicClearsFlag then s.setFlagged? x value 0 else s.setRegister? x value

/-- What a shift shifts. -/
def shiftSource? (s : Snapshot) (dialect : Dialect) (x y : Nat) : Option UInt8 :=
  if dialect.shiftReadsVy then s.register? y else s.register? x

/-- The index after a block of registers. Moving the index wraps by intent; counting the
registers of the block does not. -/
def indexAfterBlock? (s : Snapshot) (dialect : Dialect) (x : Nibble) : Option UInt16 := do
  if dialect.blockMovesIndex then return s.index + (← Word.add? (UInt16.ofNat x.val) 1)
  else return s.index

/-- The register that a computed jump adds, in the place named by the high nibble of the
address if the dialect says so. -/
def jumpOffset? (s : Snapshot) (dialect : Dialect) (target : Address) : Option UInt8 :=
  s.register? (if dialect.jumpReadsVx then target.val / 256 else 0)

/-- Where the glyph of a digit lies. -/
def glyphAt? (value : UInt8) : Option UInt16 := do
  Word.add? Memory.fontStart (← Word.mul? (value &&& 0xF).toUInt16 Memory.glyphSize)

/-- A sprite drawn. -/
def drawSprite? (s : Snapshot) (x y n : Nibble) : Option (Except Fault Snapshot) := do
  match ← s.memory.block? s.index n.val with
  | .error fault => return .error fault
  | .ok sprite =>
    let drawn := s.screen.xorSprite (← s.register? x.val).toNat (← s.register? y.val).toNat sprite
    let flagged ← s.setRegister? 15 (flagOf drawn.1)
    return .ok {flagged with screen := drawn.2, redraw := true}

/-- Bytes stored at the index. -/
def storeAtIndex? (s : Snapshot) (bytes : List UInt8) : Option (Except Fault Snapshot) := do
  match ← s.memory.writeBlock? s.index bytes with
  | .error fault => return .error fault
  | .ok memory => return .ok {s with memory}

/-- The registers up to a place, that one included. -/
def registersTo? (s : Snapshot) (place : Nat) : Option (List UInt8) :=
  (List.range (place + 1)).mapM s.register?

/-- The registers from a place on replaced by bytes in order. -/
def setRegistersFrom? (s : Snapshot) (place : Nat) : List UInt8 → Option Snapshot
  | [] => some s
  | v :: rest => do (← s.setRegister? place v).setRegistersFrom? (place + 1) rest

/-- The registers up to one loaded from the index. -/
def loadRegisters? (s : Snapshot) (x : Nibble) : Option (Except Fault Snapshot) := do
  match ← s.memory.block? s.index (x.val + 1) with
  | .error fault => return .error fault
  | .ok bytes => return .ok (← s.setRegistersFrom? 0 bytes)

/-- The subroutine that a call goes to, the way back pushed first. -/
def enter? (s : Snapshot) (target : Address) : Option (Except Fault Snapshot) := do
  let back ← Word.add? s.pc Opcode.size
  match s.stack.push back with
  | .error fault => return .error (.stack fault s.pc)
  | .ok stack => return .ok {s with pc := target.word, stack}

/-- The place that a subroutine returns to. -/
def leave? (s : Snapshot) : Option (Except Fault Snapshot) := do
  match ← s.stack.pop? with
  | .error fault => return .error (.stack fault s.pc)
  | .ok (pc, stack) => return .ok {s with pc, stack}

/-- A result that is to be followed by the next instruction, which only a success is. -/
def thenNext? : Except Fault Snapshot → Option (Except Fault Snapshot)
  | .error fault => some (.error fault)
  | .ok s => do return .ok (← s.next?)

/-! ### Where attempts have a way out anyway -/

theorem register?_eq (s : Snapshot) (x : Nibble) : s.register? x.val = some (s.register x) := by
  simp [register?, register_eq]

theorem setRegister?_eq (s : Snapshot) (x : Nibble) (value : UInt8) :
    s.setRegister? x.val value = some (s.setRegister x value) := dif_pos x.lt

theorem setRegister?_flag (s : Snapshot) (value : UInt8) :
    s.setRegister? 15 value = some (s.setRegister flag value) := s.setRegister?_eq flag value

theorem setFlagged?_eq (s : Snapshot) (x : Nibble) (value flag : UInt8) :
    s.setFlagged? x.val value flag = some (s.setFlagged x value flag) := by
  simp only [setFlagged?, setRegister?_eq, Option.bind_eq_bind, Option.bind_some,
    setRegister?_flag, setFlagged]

theorem logic?_eq (s : Snapshot) (dialect : Dialect) (x y : Nibble) (f : UInt8 → UInt8 → UInt8) :
    s.logic? dialect x.val y.val f =
      some (s.logic dialect x (f (s.register x) (s.register y))) := by
  simp only [logic?, register?_eq, Option.bind_eq_bind, Option.bind_some, setFlagged?_eq,
    setRegister?_eq, logic]
  split <;> rfl

theorem shiftSource?_eq (s : Snapshot) (dialect : Dialect) (x y : Nibble) :
    s.shiftSource? dialect x.val y.val = some (s.shiftSource dialect x y) := by
  simp only [shiftSource?, register?_eq, shiftSource]
  split <;> rfl

theorem indexAfterBlock?_eq (s : Snapshot) (dialect : Dialect) (x : Nibble) :
    s.indexAfterBlock? dialect x = some (s.indexAfterBlock dialect x) := by
  have hx := x.lt
  have hadd : Word.add? (UInt16.ofNat x.val) 1 = some (UInt16.ofNat (x.val + 1)) := by
    rw [Word.add?_eq (by simp [UInt16.toNat_ofNat']; omega), UInt16.ofNat_add]
    rfl
  simp only [indexAfterBlock?, hadd, indexAfterBlock]
  split <;> rfl

/-- The high nibble of an address names a register. -/
theorem jumpOffset?_eq (s : Snapshot) (dialect : Dialect) (target : Address) :
    s.jumpOffset? dialect target = some (s.jumpOffset dialect target) := by
  have ht := target.isLt
  have hplace : (Nibble.ofNat (target.val / 256)).val = target.val / 256 :=
    Nat.mod_eq_of_lt (by omega)
  simp only [jumpOffset?, jumpOffset]
  split
  · rw [← register?_eq, hplace]
  · exact s.register?_eq zeroth

/-- The place of a key is the low nibble of the register. -/
theorem low_nibble (value : UInt8) : (value &&& 0xF).toNat = (keyOf value).val := by
  have : (value &&& 0xF).toNat = value.toNat &&& 15 := UInt8.toNat_and value 0xF
  rw [this, Nat.and_two_pow_sub_one_eq_mod value.toNat 4]
  rfl

theorem glyphAt?_eq (value : UInt8) :
    glyphAt? value =
      some (Memory.fontStart + UInt16.ofNat (keyOf value).val * Memory.glyphSize) := by
  have hk := (keyOf value).lt
  have hword : (value &&& 0xF).toUInt16 = UInt16.ofNat (keyOf value).val := by
    rw [← low_nibble]
    exact (UInt16.ofNat_uInt8ToNat _).symm
  have hdigit : (UInt16.ofNat (keyOf value).val).toNat = (keyOf value).val := by
    rw [UInt16.toNat_ofNat']
    omega
  have hsize : Memory.glyphSize.toNat = 5 := rfl
  have hstart : Memory.fontStart.toNat = 80 := rfl
  have hmul : (UInt16.ofNat (keyOf value).val * Memory.glyphSize).toNat =
      (keyOf value).val * 5 := by
    rw [UInt16.toNat_mul, hdigit, hsize]
    omega
  rw [glyphAt?, hword, Word.mul?_eq (by rw [hdigit, hsize]; omega)]
  simp only [Option.bind_eq_bind, Option.bind_some]
  exact Word.add?_eq (by omega)

theorem drawSprite?_eq (s : Snapshot) (x y n : Nibble) :
    s.drawSprite? x y n = some (s.drawSprite x y n) := by
  cases h : s.memory.block s.index n.val with
  | error fault =>
    simp only [drawSprite?, drawSprite, Memory.block?_eq, h, Option.bind_eq_bind,
      Option.bind_some, Option.pure_def]
  | ok sprite =>
    simp only [drawSprite?, drawSprite, Memory.block?_eq, h, register?_eq, setRegister?_flag,
      Option.bind_eq_bind, Option.bind_some, Option.pure_def]

theorem storeAtIndex?_eq (s : Snapshot) (bytes : List UInt8) :
    s.storeAtIndex? bytes = some (s.storeAtIndex bytes) := by
  cases h : s.memory.writeBlock s.index bytes <;>
    simp only [storeAtIndex?, storeAtIndex, Memory.writeBlock?_eq, h, Option.bind_eq_bind,
      Option.bind_some, Option.pure_def]

theorem mapM_register? (s : Snapshot) (length : Nat) (h : length ≤ 16) :
    (List.range length).mapM s.register? = some (s.registers.toList.take length) := by
  induction length with
  | zero => rfl
  | succ length ih =>
    have hl : length < s.registers.toList.length := by simp; omega
    rw [List.range_succ, List.mapM_append, ih (by omega), List.take_succ_eq_append_getElem hl,
      Vector.getElem_toList hl]
    simp [register?, show length < 16 by omega]

theorem registersTo?_eq (s : Snapshot) (x : Nibble) :
    s.registersTo? x.val = some (s.registersTo x) := s.mapM_register? _ x.lt

theorem setRegistersFrom?_eq (s : Snapshot) (place : Nat) (values : List UInt8)
    (h : place + values.length ≤ 16) :
    s.setRegistersFrom? place values = some (s.setRegistersFrom place values) := by
  induction values generalizing s place with
  | nil => rfl
  | cons v rest ih =>
    simp only [List.length_cons] at h
    have hp : place < 16 := by omega
    simp only [setRegistersFrom?, setRegister?, dif_pos hp, Option.bind_eq_bind,
      Option.bind_some, setRegistersFrom]
    rw [ih _ _ (by omega)]
    congr 3
    simp [Vector.setIfInBounds, Vector.set, Array.setIfInBounds, hp]

theorem loadRegisters?_eq (s : Snapshot) (x : Nibble) :
    s.loadRegisters? x = some (s.loadRegisters x) := by
  have hx := x.lt
  cases h : s.memory.block s.index (x.val + 1) with
  | error fault =>
    simp only [loadRegisters?, loadRegisters, Memory.block?_eq, h, Option.bind_eq_bind,
      Option.bind_some, Option.pure_def]
  | ok bytes =>
    have hlength := Memory.length_of_block h
    simp only [loadRegisters?, loadRegisters, Memory.block?_eq, h,
      s.setRegistersFrom?_eq 0 bytes (by omega), Option.bind_eq_bind, Option.bind_some,
      Option.pure_def]

theorem leave?_eq (s : Snapshot) : s.leave? = some s.leave := by
  cases h : s.stack.pop <;>
    simp only [leave?, leave, CallStack.pop?_eq, h, Option.bind_eq_bind, Option.bind_some,
      Option.pure_def]

/-! ### What the fetch bounds

Only the sums that lead to another instruction need the place of this one: a fetched
instruction lies below the end of memory, and four more fit into a word by far. -/

section Fetched
variable {s : Snapshot} (h : s.pc.toNat + 2 ≤ 4096)
include h

theorem next?_eq : s.next? = some s.next := by
  have hsize : Opcode.size.toNat = 2 := rfl
  rw [next?, Word.add?_eq (by omega)]
  rfl

theorem skipIf?_eq (condition : Bool) : s.skipIf? condition = some (s.skipIf condition) := by
  have hsize : Opcode.size.toNat = 2 := rfl
  have hdouble : (2 * Opcode.size).toNat = 4 := rfl
  cases condition
  · rw [skipIf?, Word.add?_eq (by simp; omega)]
    rfl
  · rw [skipIf?, Word.add?_eq (by simp; omega)]
    rfl

theorem enter?_eq (target : Address) : s.enter? target = some (s.enter target) := by
  have hsize : Opcode.size.toNat = 2 := rfl
  have hback := Word.add?_eq (show s.pc.toNat + Opcode.size.toNat < 65536 by omega)
  cases hpush : s.stack.push (s.pc + Opcode.size) <;>
    simp only [enter?, enter, hback, hpush, Option.bind_eq_bind, Option.bind_some,
      Option.pure_def]

theorem pc_stored (bytes : List UInt8) :
    ∀ t, s.storeAtIndex bytes = .ok t → t.pc.toNat + 2 ≤ 4096 := fun t ht => by
  rw [storeAtIndex_ok ht]
  exact h

end Fetched

theorem thenNext?_eq {r : Except Fault Snapshot}
    (h : ∀ t, r = .ok t → t.pc.toNat + 2 ≤ 4096) : thenNext? r = some (r.map next) := by
  cases r with
  | error fault => rfl
  | ok t =>
    rw [thenNext?, next?_eq (h t rfl)]
    rfl

end Snapshot

open Snapshot in
/-- The attempt at an instruction. -/
def attempt (around : Surroundings) (s : Snapshot) (d : Devices) :
    Instruction → Option (Except Fault Snapshot × Devices)
  | .sys _ => do return (.ok (← s.next?), d)
  | .clear => do return (.ok {(← s.next?) with screen := .blank, redraw := true}, d)
  | .ret => do return (← s.leave?, d)
  | .jump target => some (.ok {s with pc := target.word}, d)
  | .call target => do return (← s.enter? target, d)
  | .skipIfByte x kk => do return (.ok (← s.skipIf? ((← s.register? x.val) == kk)), d)
  | .skipUnlessByte x kk => do return (.ok (← s.skipIf? ((← s.register? x.val) != kk)), d)
  | .skipIfSame x y => do
    return (.ok (← s.skipIf? ((← s.register? x.val) == (← s.register? y.val))), d)
  | .skipUnlessSame x y => do
    return (.ok (← s.skipIf? ((← s.register? x.val) != (← s.register? y.val))), d)
  | .setByte x kk => do return (.ok (← (← s.setRegister? x.val kk).next?), d)
  | .addByte x kk => do
    return (.ok (← (← s.setRegister? x.val ((← s.register? x.val) + kk)).next?), d)
  | .copy x y => do return (.ok (← (← s.setRegister? x.val (← s.register? y.val)).next?), d)
  | .or x y => do return (.ok (← (← s.logic? around.dialect x.val y.val (· ||| ·)).next?), d)
  | .and x y => do return (.ok (← (← s.logic? around.dialect x.val y.val (· &&& ·)).next?), d)
  | .xor x y => do return (.ok (← (← s.logic? around.dialect x.val y.val (· ^^^ ·)).next?), d)
  | .add x y => do
    let a ← s.register? x.val
    let b ← s.register? y.val
    let flagged ← s.setFlagged? x.val (a + b) (flagOf (256 ≤ a.toNat + b.toNat))
    return (.ok (← flagged.next?), d)
  | .sub x y => do
    let a ← s.register? x.val
    let b ← s.register? y.val
    return (.ok (← (← s.setFlagged? x.val (a - b) (flagOf (b ≤ a))).next?), d)
  | .subFrom x y => do
    let a ← s.register? x.val
    let b ← s.register? y.val
    return (.ok (← (← s.setFlagged? x.val (b - a) (flagOf (a ≤ b))).next?), d)
  | .shiftRight x y => do
    let source ← s.shiftSource? around.dialect x.val y.val
    return (.ok (← (← s.setFlagged? x.val (source >>> 1) (source &&& 1)).next?), d)
  | .shiftLeft x y => do
    let source ← s.shiftSource? around.dialect x.val y.val
    return (.ok (← (← s.setFlagged? x.val (source <<< 1) (source >>> 7)).next?), d)
  | .setIndex target => do return (.ok {(← s.next?) with index := target.word}, d)
  | .jumpPlus target => do
    let offset ← s.jumpOffset? around.dialect target
    let pc ← Word.add? target.word offset.toUInt16
    return (.ok {s with pc}, d)
  | .random x kk => do
    let drawn ← s.setRegister? x.val (d.random.byte &&& kk)
    return (.ok (← drawn.next?), {d with random := d.random.advance})
  | .draw x y n => do return (← thenNext? (← s.drawSprite? x y n), d)
  | .skipIfKey x => do
    let down ← around.keypad.isDown? ((← s.register? x.val) &&& 0xF).toNat
    return (.ok (← s.skipIf? down), d)
  | .skipUnlessKey x => do
    let down ← around.keypad.isDown? ((← s.register? x.val) &&& 0xF).toNat
    return (.ok (← s.skipIf? !down), d)
  | .readDelay x => do return (.ok (← (← s.setRegister? x.val d.timers.delay).next?), d)
  | .awaitKey x => do return (.ok {(← s.next?) with keyWait := some ⟨x, none⟩}, d)
  | .setDelay x => do
    return (.ok (← s.next?), {d with timers := d.timers.setDelay (← s.register? x.val)})
  | .setSound x => do
    return (.ok (← s.next?), {d with timers := d.timers.setSound (← s.register? x.val)})
  | .addIndex x => do
    return (.ok {(← s.next?) with index := s.index + (← s.register? x.val).toUInt16}, d)
  | .glyph x => do
    return (.ok {(← s.next?) with index := ← glyphAt? (← s.register? x.val)}, d)
  | .decimal x => do
    return (← thenNext? (← s.storeAtIndex? (decimalDigits (← s.register? x.val))), d)
  | .store x => do
    let stored ← thenNext? (← s.storeAtIndex? (← s.registersTo? x.val))
    let index ← s.indexAfterBlock? around.dialect x
    return (stored.map fun t => {t with index}, d)
  | .load x => do
    let loaded ← thenNext? (← s.loadRegisters? x)
    let index ← s.indexAfterBlock? around.dialect x
    return (loaded.map fun t => {t with index}, d)
  | .unknown op => do
    if around.strict then return (.error (.unknownOpcode op s.pc), d)
    else return (.ok (← s.next?), d)

open Snapshot in
/-- **No attempt at a fetched instruction comes to nothing**, and each comes to what
`execute` says. -/
theorem attempt_eq_execute {s : Snapshot} (h : s.pc.toNat + 2 ≤ 4096) (around : Surroundings)
    (d : Devices) (i : Instruction) : attempt around s d i = some (execute around s d i) := by
  cases i with
  | jump => rfl
  | ret => simp only [attempt, execute, leave?_eq, Option.bind_eq_bind, Option.bind_some,
      Option.pure_def]
  | call => simp only [attempt, execute, enter?_eq h, Option.bind_eq_bind, Option.bind_some,
      Option.pure_def]
  | skipIfByte | skipUnlessByte | skipIfSame | skipUnlessSame | skipIfKey | skipUnlessKey =>
    simp only [attempt, execute, register?_eq, skipIf?_eq h, low_nibble, Keypad.isDown?_eq,
      Option.bind_eq_bind, Option.bind_some, Option.pure_def]
  | setByte | addByte | copy | random | readDelay =>
    have hnext (x value) := next?_eq (s := s.setRegister x value) h
    simp only [attempt, execute, register?_eq, setRegister?_eq, hnext, Option.bind_eq_bind,
      Option.bind_some, Option.pure_def]
  | or | and | xor =>
    have hnext (x value) : (s.logic around.dialect x value).next? =
        some (s.logic around.dialect x value).next := next?_eq (by rwa [pc_logic])
    simp only [attempt, execute, logic?_eq, hnext, Option.bind_eq_bind, Option.bind_some,
      Option.pure_def]
  | add | sub | subFrom | shiftRight | shiftLeft =>
    have hnext (x value flag) := next?_eq (s := s.setFlagged x value flag) h
    simp only [attempt, execute, register?_eq, shiftSource?_eq, setFlagged?_eq, hnext,
      Option.bind_eq_bind, Option.bind_some, Option.pure_def]
  | jumpPlus target =>
    have ht := target.isLt
    have hword : target.word.toNat = target.val := by
      rw [Address.word, UInt16.toNat_ofNat']
      omega
    have hoffset := (s.jumpOffset around.dialect target).toNat_lt
    simp only [attempt, execute, jumpOffset?_eq, Option.bind_eq_bind, Option.bind_some]
    rw [Word.add?_eq (by rw [hword, UInt8.toNat_toUInt16]; omega)]
    rfl
  | draw x y n =>
    have hpc : ∀ t, s.drawSprite x y n = .ok t → t.pc.toNat + 2 ≤ 4096 := fun t ht => by
      rw [drawSprite_ok ht]
      exact h
    simp only [attempt, execute, drawSprite?_eq, thenNext?_eq hpc, Option.bind_eq_bind,
      Option.bind_some, Option.pure_def]
  | decimal x =>
    simp only [attempt, execute, register?_eq, storeAtIndex?_eq, thenNext?_eq (pc_stored h _),
      Option.bind_eq_bind, Option.bind_some, Option.pure_def]
  | store x =>
    simp only [attempt, execute, registersTo?_eq, storeAtIndex?_eq, indexAfterBlock?_eq,
      thenNext?_eq (pc_stored h _), Option.bind_eq_bind, Option.bind_some, Option.pure_def]
    cases s.storeAtIndex (s.registersTo x) <;> rfl
  | load x =>
    have hpc : ∀ t, s.loadRegisters x = .ok t → t.pc.toNat + 2 ≤ 4096 := fun t ht => by
      rw [loadRegisters_ok ht]
      exact h
    simp only [attempt, execute, loadRegisters?_eq, thenNext?_eq hpc, indexAfterBlock?_eq,
      Option.bind_eq_bind, Option.bind_some, Option.pure_def]
    cases s.loadRegisters x <;> rfl
  | unknown op =>
    cases hs : around.strict <;>
      simp [attempt, execute, hs, next?_eq h]
  | _ =>
    simp only [attempt, execute, register?_eq, glyphAt?_eq, next?_eq h, Option.bind_eq_bind,
      Option.bind_some, Option.pure_def]

end ChipEight
