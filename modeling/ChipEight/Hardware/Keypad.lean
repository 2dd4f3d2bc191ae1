import ChipEight.Isa.Opcode

/-! The hexadecimal keypad: sixteen keys, each up or down. -/
namespace ChipEight

/-- Which keys are down. -/
structure Keypad where
  down : Vector Bool 16
deriving DecidableEq

namespace Keypad

/-- No key down. -/
def released : Keypad := ⟨Vector.replicate 16 false⟩

instance : Inhabited Keypad := ⟨released⟩

/-- Whether a key is down. -/
def isDown (k : Keypad) (key : Nibble) : Bool := k.down.get key

/-- The keypad with one key down. -/
def press (k : Keypad) (key : Nibble) : Keypad := ⟨k.down.set key.val true key.lt⟩

/-- The keypad with one key up. -/
def release (k : Keypad) (key : Nibble) : Keypad := ⟨k.down.set key.val false key.lt⟩

/-- The keys that are down, lowest first. -/
def keys (k : Keypad) : List Nibble := (List.finRange 16).filter k.isDown

/-- The keypad on which just these keys are down. -/
def ofKeys (keys : List Nibble) : Keypad := keys.foldl press released

/-- The lowest key that is down. -/
def lowest? (k : Keypad) : Option Nibble := k.keys.head?

/-- The keys that are down on either keypad. -/
def union (a b : Keypad) : Keypad := ⟨Vector.ofFn fun key => a.isDown key || b.isDown key⟩

theorem isDown_eq (k : Keypad) (key : Nibble) : k.isDown key = getElem k.down key.val key.lt := rfl

@[simp] theorem isDown_released (key : Nibble) : released.isDown key = false := by
  simp [released, isDown_eq]

@[simp] theorem isDown_press (k : Keypad) (pressed key : Nibble) :
    (k.press pressed).isDown key = (key = pressed || k.isDown key) := by
  simp only [isDown_eq, press, Vector.getElem_set]
  by_cases h : key = pressed
  · simp [h]
  · have : pressed.val ≠ key.val := fun e => h (Fin.ext e.symm)
    simp [h, this]

@[simp] theorem isDown_release (k : Keypad) (lifted key : Nibble) :
    (k.release lifted).isDown key = (!decide (key = lifted) && k.isDown key) := by
  simp only [isDown_eq, release, Vector.getElem_set]
  by_cases h : key = lifted
  · simp [h]
  · have : lifted.val ≠ key.val := fun e => h (Fin.ext e.symm)
    simp [h, this]

@[simp] theorem isDown_union (a b : Keypad) (key : Nibble) :
    (a.union b).isDown key = (a.isDown key || b.isDown key) := by
  simp [isDown_eq, union]

end Keypad

/-- The key that a byte names: its low nibble. -/
def keyOf (value : UInt8) : Nibble := Nibble.ofNat value.toNat

/-- A key is stored as a byte that names it. -/
instance : Coe Nibble UInt8 := ⟨fun key => UInt8.ofNat key.val⟩

/-- So the byte that is stored for a key can be used to ask for it. -/
@[simp] theorem keyOf_coe (key : Nibble) : keyOf key = key := by
  decide +revert

end ChipEight
