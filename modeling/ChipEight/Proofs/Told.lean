import ChipEight.Console.Faulty
import ChipEight.Console.Headless
import ChipEight.Proofs.Frames
import ChipEight.Proofs.Pictures
import ChipEight.Proofs.Tone

/-! What a buzzer is told.

A tone is told where it is news, and turned off at the end of a run if it is on. Both are
deeds, so from any console to another the tones told alternate, and the last of them is what
the console remembers (`Did.alternates`). With a buzzer that does not fail, that is so of
whatever a console is put to: `engageAll_alternates`.

Whether it is also what the sound timer asks for depends on the frame. A span of time that
passes ends in tune. A frame of going back tells nothing, and others who share the timers may
have let the sound run out before it: `frame_tells` says when the buzzer goes on sounding
then. -/
namespace ChipEight

/-! ### Counting down -/

namespace Timers

theorem sound_tickBy (t : Timers) (ticks : Nat) :
    (t.tickBy ticks).sound.toNat = t.sound.toNat - ticks := by
  induction ticks generalizing t with
  | zero => rfl
  | succ n ih =>
    rw [tickBy, ih, tick, toNat_countDown, Nat.sub_sub, Nat.add_comm]

theorem tone_iff (t : Timers) : t.tone = true ↔ 0 < t.sound.toNat := by
  rw [tone, decide_eq_true_eq, UInt8.lt_iff_toNat_lt]
  rfl

/-- Ticks leave the tone as it is unless the sound runs out. -/
theorem tone_tickBy (t : Timers) (ticks : Nat) :
    (t.tickBy ticks).tone = t.tone ↔ t.sound = 0 ∨ ticks < t.sound.toNat := by
  rw [Bool.eq_iff_iff, tone_iff, tone_iff, sound_tickBy, ← UInt8.toNat_inj]
  show (0 < t.sound.toNat - ticks ↔ 0 < t.sound.toNat) ↔ t.sound.toNat = 0 ∨ _
  omega

end Timers

/-! ### Deeds that tell -/

/-- The tone that an act tells. -/
def Act.told : Act → Option Bool
  | .tell on => some on
  | .hush => some false
  | .poll | .step | .tick | .present _ | .refresh _ | .back | .others _ | .startTicker _ | .letGo _
  | .overrun => none

/-- The tones that deeds tell, in order. -/
def tellings (deeds : List Deed) : List Bool := deeds.filterMap (·.act.told)

/-- Deeds of which those that tell a tone succeed. -/
def Heard (deeds : List Deed) : Prop := ∀ d ∈ deeds, d.act.told ≠ none → d.result = .ok ()

theorem Comes.heard {α : Type} {value : α} {deeds : List Deed} (h : Comes deeds (.ok value)) :
    Heard deeds :=
  fun d hd _ => h d hd

namespace Console

variable {D I A : Type} [Display D] [Input I] [Audio A]

omit [Display D] [Audio A] in
/-- A tone that is told is not what was told last. -/
theorem ne_of_told {c : Console D I A} {act : Act} {on : Bool} (called : c.CallsFor act)
    (h : act.told = some on) : c.tone ≠ on := by
  cases act with
  | tell =>
    cases h
    exact called.2.symm
  | hush =>
    cases h
    rw [show c.tone = true from called]
    exact nofun
  | _ => cases h

/-- What an act tells is what was told last after it, if it succeeds. -/
theorem tone_act {c : Console D I A} {act : Act}
    (heard : act.told ≠ none → (c.act act).1 = .ok ()) :
    (c.act act).2.tone = act.told.getD c.tone := by
  cases act with
  | tell on =>
    have h := heard nofun
    simp only [Console.act, tell] at h ⊢
    cases hresult : (Audio.setTone on c.audio).result with
    | ok => rfl
    | error => rw [hresult] at h; cases h
  | poll =>
    obtain ⟨_, _, h⟩ := c.act_poll
    rw [h]
    rfl
  | startTicker failure =>
    obtain ⟨_, h⟩ := c.act_startTicker failure
    rw [h]
    rfl
  | _ => rfl

omit [Display D] [Input I] [Audio A] in
theorem Aside.tone {c c' : Console D I A} (h : c.Aside c') : c'.tone = c.tone := by
  cases h <;> rfl

/-- **The tones told alternate, and the last one is remembered.** -/
theorem Did.alternates {c c' : Console D I A} {deeds : List Deed} (h : Did c deeds c')
    (heard : Heard deeds) :
    (c.tone :: tellings deeds).IsChain (· ≠ ·) ∧
      (tellings deeds).getLast?.getD c.tone = c'.tone := by
  -- what is remembered after a deed stands in front of what the rest tells
  induction h with
  | nothing c => exact ⟨.singleton _, rfl⟩
  | aside change _ ih =>
    rw [← change.tone]
    exact ih heard
  | @deed c c'' deeds act called _ ih =>
    obtain ⟨hact, hrest⟩ := List.forall_mem_cons.mp heard
    obtain ⟨chain, last⟩ := ih hrest
    rw [tone_act hact] at chain last
    cases htold : act.told with
    | none =>
      rw [htold] at chain last
      simp only [tellings, List.filterMap_cons, htold]
      exact ⟨chain, last⟩
    | some on =>
      rw [htold] at chain last
      simp only [tellings, List.filterMap_cons, htold, List.getLast?_cons]
      exact ⟨.cons_cons (ne_of_told called htold) chain, last⟩

/-- What a recorder in front of the buzzer finds is what an act tells. -/
theorem calls_act (c : Console D I (Recorder A Bool)) (act : Act) :
    (c.act act).2.audio.calls = c.audio.calls ++ act.told.toList := by
  have nothing (h : (c.act act).2.audio = c.audio) (hnone : act.told = none) :
      (c.act act).2.audio.calls = c.audio.calls ++ act.told.toList := by
    rw [h, hnone, Option.toList_none, List.append_nil]
  cases act with
  | tell on =>
    simp only [Console.act, tell]
    cases (Audio.setTone on c.audio).result <;> rfl
  | hush => rfl
  | poll =>
    obtain ⟨_, _, h⟩ := c.act_poll
    exact nothing (by rw [h]) rfl
  | startTicker failure =>
    obtain ⟨_, h⟩ := c.act_startTicker failure
    exact nothing (by rw [h]) rfl
  | _ => exact nothing rfl rfl

/-- It finds all that the deeds tell. -/
theorem Did.calls {c c' : Console D I (Recorder A Bool)} {deeds : List Deed}
    (h : Did c deeds c') : c'.audio.calls = c.audio.calls ++ tellings deeds := by
  induction h with
  | nothing c => exact (List.append_nil _).symm
  | aside change _ ih =>
    rw [ih]
    cases change <;> rfl
  | deed act _ _ ih =>
    rw [ih, calls_act, List.append_assoc, tellings, tellings, List.filterMap_cons]
    cases act.told <;> rfl

/-- What a reliable buzzer is told is heard. -/
theorem Did.heard [Audio.Reliable A] {c c' : Console D I A} {deeds : List Deed}
    (h : Did c deeds c') : Heard deeds := by
  induction h with
  | nothing => nofun
  | aside _ _ ih => exact ih
  | @deed c _ _ act _ _ ih =>
    refine List.forall_mem_cons.mpr ⟨fun htold => ?_, ih⟩
    cases act with
    | tell on =>
      simp only [Console.act]
      rw [tell_reliable]
    | hush => exact congrArg Prod.fst (c.tell_reliable false)
    | _ => exact absurd rfl htold

/-! ### Whatever a console is put to -/

theorem did_engageAll (c : Console D I A) (activities : List Activity) :
    ∃ deeds, Did c deeds (c.engageAll activities) := by
  induction activities generalizing c with
  | nil => exact ⟨[], .nothing c⟩
  | cons activity rest ih =>
    have hfirst : ∃ deeds, Did c deeds (c.engage activity) := by
      cases activity with
      | pass span =>
        obtain ⟨deeds, did, -⟩ := c.does_advance span
        exact ⟨deeds, did⟩
      | run threadFailure gaps ticks => exact c.did_run threadFailure gaps ticks
    obtain ⟨first, did⟩ := hfirst
    obtain ⟨others, did'⟩ := ih (c.engage activity)
    exact ⟨first ++ others, did.trans did'⟩

/-- What the buzzer of a console is told while the console is put to activities. -/
def told (c : Console D I A) (activities : List Activity) : List Bool :=
  (c.recorded.engageAll activities).audio.calls

/-- What it was told last, a buzzer that was told nothing yet being off. -/
def toldLast (c : Console D I A) (activities : List Activity) : Bool :=
  (c.told activities).getLast?.getD false

/-- From any console on, the tones told alternate, and the last one is remembered. -/
theorem told_alternates [Audio.Reliable A] (c : Console D I A) (activities : List Activity) :
    (c.tone :: c.told activities).IsChain (· ≠ ·) ∧
      (c.told activities).getLast?.getD c.tone = (c.engageAll activities).tone := by
  obtain ⟨deeds, did⟩ := did_engageAll c.recorded activities
  have hcalls : c.told activities = tellings deeds := did.calls
  have htone : (c.recorded.engageAll activities).tone = (c.engageAll activities).tone :=
    congrArg Console.tone (plain_engageAll c.recorded activities).symm
  rw [hcalls, ← htone]
  exact did.alternates did.heard

/-- **What a buzzer that does not fail is told.** Whatever a new console is put to, and whatever
becomes of it: the buzzer is told to sound, to be silent, to sound and so on, and the console
remembers what it told last. After a span of time that passes, that is what the sound timer
asks for, and after a run, whatever it came to, it is to be silent. -/
theorem engageAll_alternates [Audio.Reliable A] (machine : Machine) (display : D) (input : I)
    (audio : A) (journal : Journal) (activities : List Activity) :
    let c := new machine display input audio journal
    let c' := c.engageAll activities
    (false :: c.told activities).IsChain (· ≠ ·) ∧
      c.toldLast activities = c'.tone ∧
      (∀ span p, (c'.advance span).1 = .ok p →
        c.toldLast (activities ++ [.pass span]) = (c'.advance span).2.machine.timers.tone) ∧
      (∀ threadFailure gaps ticks result, (c'.run threadFailure gaps ticks).1 = some result →
        c.toldLast (activities ++ [.run threadFailure gaps ticks]) = false) := by
  intro c c'
  have last (activities : List Activity) : c.toldLast activities = (c.engageAll activities).tone :=
    (told_alternates c activities).2
  have more (activity : Activity) :
      c.toldLast (activities ++ [activity]) = (c'.engage activity).tone := by
    rw [last, engageAll, List.foldl_append]
    rfl
  refine ⟨(told_alternates c activities).1, last activities, fun span p h => ?_,
    fun threadFailure gaps ticks result h => ?_⟩
  · rw [more]
    exact (inTune_advance (Prod.ext h rfl)).symm
  · obtain ⟨ended, -, -, hrun⟩ := run_eq_some h
    rw [more]
    show (c'.run threadFailure gaps ticks).2.tone = false
    rw [← hrun]
    exact (woundUp_finish _ ticks ended).tone

/-- A tone, and a return outside of any subroutine while it sounds: the run fails, and the
buzzer is told to be silent. -/
theorem engageAll_alternates_cut :
    let machine := ((Machine.new { Settings.standard with speed := 60 } default).load
      [0x60, 0x02, 0xF0, 0x18, 0x00, 0xEE]).machine
    let c : Console HeadlessDisplay ScriptedInput SilentAudio :=
      new machine default default default default
    let run : Activity := .run none [⟨16666666, 0⟩] 0
    c.told [.pass 20000000, run] = [true, false] ∧
      (false :: c.told [.pass 20000000, run]).IsChain (· ≠ ·) ∧
      ((c.engageAll [.pass 20000000]).run none [⟨16666666, 0⟩]).1 =
        some (.error (.stack .underflow 0x204)) ∧
      c.toldLast [.pass 20000000, run] = false := by
  intro machine c run
  have h : c.told [.pass 20000000, run] = [true, false] ∧
      ((c.engageAll [.pass 20000000]).run none [⟨16666666, 0⟩]).1 =
        some (.error (.stack .underflow 0x204)) := by
    decide +kernel
  have chain := (engageAll_alternates machine (default : HeadlessDisplay)
    (default : ScriptedInput) (default : SilentAudio) default [.pass 20000000, run]).1
  have ended := (engageAll_alternates machine (default : HeadlessDisplay)
    (default : ScriptedInput) (default : SilentAudio) default [.pass 20000000]).2.2.2
  exact ⟨h.1, chain, h.2, ended _ _ _ _ h.2⟩

/-! ### Frames while others tick the timers -/

/-- What the buzzer was told last by the end of a frame that ends well is what the console
remembers. -/
theorem told_frame {c c' : Console D I A} {gap : Gap} {standing : Standing}
    (h : c.frame gap = (.ok standing, c')) :
    (c.recorded.frame gap).2.audio.calls.getLast?.getD c.tone = c'.tone := by
  have hplain := plain_frame c.recorded gap
  rw [plain_recorded, h] at hplain
  obtain ⟨deeds, did, comes, -⟩ := does_frame c.recorded gap
  have hcalls : (c.recorded.frame gap).2.audio.calls = tellings deeds := did.calls
  have htone : (c.recorded.frame gap).2.tone = c'.tone :=
    congrArg (·.2.tone) hplain.symm
  rw [show (c.recorded.frame gap).1 = .ok standing from congrArg Prod.fst hplain.symm] at comes
  rw [hcalls, ← htone]
  exact (did.alternates comes.heard).2

/-- A frame of running that ends well ends in tune. -/
theorem inTune_frame {c c' : Console D I A} {gap : Gap} {standing : Standing}
    (h : c.frame gap = (.ok standing, c')) (goesOn : c.wish ≠ .quit)
    (forward : c.wish ≠ .rewind) : c'.InTune := by
  obtain ⟨_, hadvance, -⟩ := advance_of_frame h goesOn forward
  exact inTune_advance hadvance

/-- **What the buzzer was told by the end of a frame.** Others may tick a console's timers before
a frame. If it ends well and the user does not quit, what the buzzer was told last is what the
console remembers. After a frame of running, at either speed, it is what the sound timer asks
for. A frame of going back tells nothing; a console that was in tune is so after it just if
the others did not let the sound run out. -/
theorem frame_tells {c : Console D I A} {gap : Gap} {standing : Standing}
    (h : (c.frame gap).1 = .ok standing) (goesOn : c.wish ≠ .quit) :
    let c' := (c.frame gap).2
    let last := (c.recorded.frame gap).2.audio.calls.getLast?.getD c.tone
    last = c'.tone ∧
      (c.wish ≠ .rewind → last = c'.machine.timers.tone) ∧
      (c.wish = .rewind → last = c.tone ∧
        (c.InTune → (last = c'.machine.timers.tone ↔
          c.machine.timers.sound = 0 ∨ gap.ticks < c.machine.timers.sound.toNat))) := by
  intro c' last
  have hframe : c.frame gap = (.ok standing, c') := Prod.ext h rfl
  have htold : last = c'.tone := told_frame hframe
  refine ⟨htold, fun forward => ?_, fun back => ?_⟩
  · rw [htold]
    exact (inTune_frame hframe goesOn forward).symm
  · obtain ⟨went, -⟩ := wentBack_frame hframe back
    have hlast : last = c.tone := htold.trans went.tone
    refine ⟨hlast, fun inTune => ?_⟩
    rw [hlast, went.timers, ← Timers.tone_tickBy, show c.machine.timers.tone = c.tone from inTune]
    exact eq_comm

/-- A console in a run: the tone sounds, the sound timer is at five, and from the next frame on
the user goes back. -/
def goingBack : Console HeadlessDisplay (GuidedInput ScriptedInput) SilentAudio :=
  let machine := ((Machine.new
    { Settings.standard with speed := 60, timerMode := .threaded } default).load
    [0x60, 0x05, 0xF0, 0x18, 0x12, 0x04]).machine
  ((new machine default ⟨default, 0, none, [.run, .rewind], ""⟩ default default).run none
    [⟨20000000, 0⟩]).2

/-- Two ticks of five while the user goes back: the sound goes on, and so does the tone. -/
theorem frame_tells_sounding :
    let gap : Gap := ⟨16666666, 2⟩
    goingBack.wish = .rewind ∧ (goingBack.frame gap).1 = .ok .goingOn ∧
      (goingBack.recorded.frame gap).2.audio.calls.getLast?.getD goingBack.tone =
        (goingBack.frame gap).2.machine.timers.tone := by
  intro gap
  have h : goingBack.machine.timers.tone = goingBack.tone ∧ goingBack.wish = .rewind ∧
      (goingBack.frame gap).1 = .ok .goingOn ∧ 2 < goingBack.machine.timers.sound.toNat := by
    decide +kernel
  obtain ⟨inTune, back, ends, lasts⟩ := h
  obtain ⟨-, -, tells⟩ := frame_tells ends (by rw [back]; nofun)
  exact ⟨back, ends, ((tells back).2 inTune).mpr (.inr lasts)⟩

/-- Five ticks of five: the sound has run out at the end of the frame, and the buzzer was told
nothing since it was told to sound. -/
theorem rewind_keeps_sounding :
    ¬ ∀ (c : Console HeadlessDisplay (GuidedInput ScriptedInput) SilentAudio) (gap : Gap)
      (standing : Standing), c.InTune → c.wish ≠ .quit → (c.frame gap).1 = .ok standing →
      (c.recorded.frame gap).2.audio.calls.getLast?.getD c.tone =
        (c.frame gap).2.machine.timers.tone := by
  intro told
  let gap : Gap := ⟨16666666, 5⟩
  have h : goingBack.machine.timers.tone = goingBack.tone ∧ goingBack.wish ≠ .quit ∧
      (goingBack.frame gap).1 = .ok .goingOn ∧
      (goingBack.recorded.frame gap).2.audio.calls.getLast?.getD goingBack.tone ≠
        (goingBack.frame gap).2.machine.timers.tone := by
    decide +kernel
  obtain ⟨inTune, goesOn, ends, untold⟩ := h
  exact untold (told goingBack gap .goingOn inTune goesOn ends)

end Console
end ChipEight
