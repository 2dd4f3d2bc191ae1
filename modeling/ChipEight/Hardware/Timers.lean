/-! The two timers, which count down to zero sixty times a second.

The delay timer is read by programs; the sound timer makes the tone while it is
above zero. A timer at zero stays there. -/
namespace ChipEight

/-- The delay and the sound timer. -/
structure Timers where
  delay : UInt8
  sound : UInt8
deriving DecidableEq, Repr

namespace Timers

/-- Ticks in a second. -/
def frequency : Nat := 60

/-- The time between two ticks, in whole nanoseconds. -/
def period : Nat := 1000000000 / 60

/-- Both at zero. -/
def zero : Timers := ⟨0, 0⟩

instance : Inhabited Timers := ⟨zero⟩

/-- One count down, which zero does not take part in. -/
def countDown (t : UInt8) : UInt8 := if t = 0 then 0 else t - 1

/-- Both timers counted down. -/
def tick (t : Timers) : Timers := ⟨countDown t.delay, countDown t.sound⟩

/-- The timers after a number of ticks. -/
def tickBy : Nat → Timers → Timers
  | 0, t => t
  | n + 1, t => tickBy n t.tick

/-- The delay timer loaded. -/
def setDelay (t : Timers) (value : UInt8) : Timers := { t with delay := value }

/-- The sound timer loaded. -/
def setSound (t : Timers) (value : UInt8) : Timers := { t with sound := value }

/-- Whether the tone sounds. -/
def tone (t : Timers) : Bool := 0 < t.sound

/-- The timers once they have been ticked until both are at zero. -/
def settled (t : Timers) : Timers := tickBy (max t.delay.toNat t.sound.toNat) t

/-- Counting down takes one off, and stops at zero. -/
theorem toNat_countDown (t : UInt8) : (countDown t).toNat = t.toNat - 1 := by
  rw [countDown]
  split
  · rename_i h
    rw [h]
    rfl
  · rename_i h
    have hpos : t.toNat ≠ 0 := fun hzero => h (UInt8.toNat_inj.mp hzero)
    have hone : 1 ≤ t := UInt8.le_iff_toNat_le.mpr (Nat.one_le_iff_ne_zero.mpr hpos)
    exact UInt8.toNat_sub_of_le t 1 hone

end Timers
end ChipEight
