import ChipEight.Proofs.Recording

/-! Peripherals that never fail.

With a reliable display and a reliable buzzer, all that can end an event is the machine:
`perform_reliable` reads the result of any event off it. -/
namespace ChipEight

/-- A display that shows every picture. -/
class Display.Reliable (σ : Type) [Display σ] : Prop where
  present_ok : ∀ (picture : Screen) (d : σ), (Display.present picture d).result = .ok ()

/-- A buzzer that always turns. -/
class Audio.Reliable (σ : Type) [Audio σ] : Prop where
  setTone_ok : ∀ (on : Bool) (a : σ), (Audio.setTone on a).result = .ok ()

instance : Display.Reliable HeadlessDisplay where
  present_ok _ _ := rfl

instance : Audio.Reliable SilentAudio where
  setTone_ok on a := by
    show (SilentAudio.turn on a).result = .ok ()
    rw [SilentAudio.turn]
    split <;> rfl

instance {σ : Type} [Display σ] [Display.Reliable σ] : Display.Reliable (Recorder σ Screen) where
  present_ok picture r := Display.Reliable.present_ok picture r.inner

instance {σ : Type} [Audio σ] [Audio.Reliable σ] : Audio.Reliable (Recorder σ Bool) where
  setTone_ok on r := Audio.Reliable.setTone_ok on r.inner

/-- What a cycle that did not fail comes to on a console. -/
def Outcome.beat : Outcome → Beat
  | .executed _ => .executed
  | .awaitingKey => .waited
  | .halted => .halted

namespace Console

variable {D I A : Type} [Display D] [Audio A]

omit [Audio A] in
theorem present_reliable [Display.Reliable D] (c : Console D I A) (picture : Screen) :
    (c.present picture).1 = .ok () := by
  simp only [present, Display.Reliable.present_ok]
  rfl

omit [Audio A] in
theorem showFrame_reliable [Display.Reliable D] (c : Console D I A) :
    c.showFrame.1 = .ok () := by
  simp only [showFrame]
  split
  · rfl
  · exact present_reliable _ _

omit [Display D] in
theorem tell_reliable [Audio.Reliable A] (c : Console D I A) (on : Bool) :
    c.tell on = (.ok (), (c.tell on).2) := by
  rw [tell, Audio.Reliable.setTone_ok]
  rfl

omit [Display D] in
theorem updateTone_reliable [Audio.Reliable A] (c : Console D I A) :
    c.updateTone = (.ok (), c.updateTone.2) := by
  by_cases h : c.machine.timers.tone = c.tone
  · rw [updateTone_of_tone h]
  · rw [updateTone_of_change h, tell_reliable]

/-- With a reliable buzzer, the picture is shown after every instruction that ran. -/
theorem settle_reliable [Audio.Reliable A] (c : Console D I A) :
    c.settle = c.updateTone.2.showFrame := by
  rw [settle, updateTone_reliable]

/-- **Only the machine fails.** -/
theorem perform_reliable [Display.Reliable D] [Audio.Reliable A] (c : Console D I A)
    (event : Event) :
    (c.perform event).1 =
      match event with
      | .tick => .ok .ticked
      | .step => c.machine.step.result.map Outcome.beat := by
  cases event with
  | tick =>
    simp only [perform]
    rw [updateTone_reliable]
  | step =>
    have hsettle (c : Console D I A) : c.settle = (.ok (), c.settle.2) :=
      Prod.ext (by rw [settle_reliable, showFrame_reliable]) rfl
    simp only [perform]
    split <;> rename_i hresult <;> rw [hresult]
    · rfl
    · rfl
    · rfl
    · rw [hsettle]
      rfl

end Console
end ChipEight
