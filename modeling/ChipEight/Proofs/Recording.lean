import ChipEight.Console.Loop
import ChipEight.Proofs.Unnoticed

/-! What a display and a buzzer are asked for.

A `Recorder` stands in front of a peripheral, writes down every call with what was
handed over, whether the call fails or not, and hands it on. So what a console shows and
sounds is said of the same console with recorders in front, `recorded`. They change
nothing: without them (`plain`) every part of the console, up to a whole run, comes to the
same result and to the same console. -/
namespace ChipEight

/-- A peripheral with a list of what it was handed, the earliest first. -/
structure Recorder (σ α : Type) where
  inner : σ
  calls : List α

namespace Recorder

variable {σ : Type}

instance [Display σ] : Display (Recorder σ Screen) where
  present picture r :=
    let response := Display.present picture r.inner
    ⟨response.result, ⟨response.peripheral, r.calls ++ [picture]⟩, response.records⟩

instance [Audio σ] : Audio (Recorder σ Bool) where
  setTone on r :=
    let response := Audio.setTone on r.inner
    ⟨response.result, ⟨response.peripheral, r.calls ++ [on]⟩, response.records⟩

end Recorder

namespace Console

variable {D I A : Type}

/-- The console with recorders in front of its display and its buzzer, nothing written
down yet. -/
def recorded (c : Console D I A) : Console (Recorder D Screen) I (Recorder A Bool) :=
  { c with display := ⟨c.display, []⟩, audio := ⟨c.audio, []⟩ }

/-- The console without its recorders. -/
def plain (c : Console (Recorder D Screen) I (Recorder A Bool)) : Console D I A :=
  { c with display := c.display.inner, audio := c.audio.inner }

@[simp] theorem plain_recorded (c : Console D I A) : c.recorded.plain = c := rfl

@[simp] theorem machine_plain (c : Console (Recorder D Screen) I (Recorder A Bool)) :
    c.plain.machine = c.machine := rfl

variable [Display D] [Input I] [Audio A]

omit [Input I] in
/-- No event notices a recorder. -/
theorem unnoticed_plain : Unnoticed (plain : _ → Console D I A) where
  machine _ := rfl
  tone _ := rfl
  setMachine _ _ := rfl
  setTimetable _ _ := rfl
  setTone _ _ := rfl
  note _ _ := rfl
  present _ _ := rfl
  tell _ _ := rfl

section Loop

variable (c : Console (Recorder D Screen) I (Recorder A Bool))

omit [Input I] in
theorem plain_advance (span : Nat) : c.plain.advance span = (c.advance span).map id plain := by
  cases hadd : Span.add? c.elapsed span with
  | none =>
    rw [advance_overflow hadd, advance_overflow (c := c.plain) hadd]
    rfl
  | some target =>
    rw [advance_of_add? hadd, advance_of_add? (c := c.plain) hadd, unnoticed_plain.advanceTo,
      show c.plain.timetable = c.timetable from rfl]
    generalize advanceTo target c.timetable c .none = reply
    rcases reply with ⟨_ | progress, c'⟩
    · rfl
    · have htone := unnoticed_plain.updateTone { c' with elapsed := target }
      simp only [Prod.map, id]
      rw [show { c'.plain with elapsed := target } = plain { c' with elapsed := target } from rfl,
        htone]
      generalize { c' with elapsed := target }.updateTone = reply
      rcases reply with ⟨_ | _, c''⟩ <;> rfl

omit [Input I] in
theorem plain_happeningsIn (span : Nat) : c.plain.happeningsIn span = c.happeningsIn span := by
  simp only [happeningsIn, unnoticed_plain.happenings]
  rfl

omit [Display D] [Audio A] in
theorem plain_poll : c.plain.poll = c.poll.map id plain := by
  have hinput : c.plain.input = c.input := rfl
  simp only [poll, hinput]
  cases (Input.poll c.input).result <;> rfl

omit [Input I] in
theorem plain_rewindFrame : c.plain.rewindFrame = c.rewindFrame.map id plain :=
  unnoticed_plain.showFrame
    { c with machine := c.machine.rewindBy c.machine.settings.cyclesPerFrame }

omit [Input I] in
theorem plain_runFrame (span : Nat) : c.plain.runFrame span = (c.runFrame span).map id plain := by
  simp only [runFrame, plain_advance]
  generalize c.advance span = reply
  rcases reply with ⟨_ | progress, c'⟩
  · rfl
  · simp only [apply_ite (Prod.map id plain)]
    rfl

omit [Input I] in
theorem plain_obey (span : Nat) (control : Control) :
    c.plain.obey span control = (c.obey span control).map id plain := by
  cases control with
  | quit => rfl
  | rewind =>
    simp only [obey, plain_rewindFrame]
    generalize c.rewindFrame = reply
    rcases reply with ⟨_ | _, c'⟩ <;> rfl
  | run => exact c.plain_runFrame span
  | fastForward =>
    simp only [obey, plain_runFrame]
    split <;> rfl

theorem plain_frame (gap : Gap) : c.plain.frame gap = (c.frame gap).map id plain := by
  have hpoll := plain_poll { c with machine := c.machine.tickBy gap.ticks }
  simp only [frame]
  rw [show { c.plain with machine := c.plain.machine.tickBy gap.ticks } =
    plain { c with machine := c.machine.tickBy gap.ticks } from rfl, hpoll]
  generalize { c with machine := c.machine.tickBy gap.ticks }.poll = reply
  rcases reply with ⟨_ | _, c'⟩
  · rfl
  · exact c'.plain_obey _ _

theorem plain_frames (gaps : List Gap) : c.plain.frames gaps = (c.frames gaps).map id plain := by
  induction gaps generalizing c with
  | nil => rfl
  | cons gap rest ih =>
    simp only [frames, plain_frame]
    generalize c.frame gap = reply
    rcases reply with ⟨_ | _ | _, c'⟩
    · rfl
    · exact ih c'
    · rfl

omit [Input I] [Audio A] in
theorem plain_start (threadFailure : Option String) :
    c.plain.start threadFailure = (c.start threadFailure).map id plain := by
  simp only [start, machine_plain, apply_ite (Prod.map id plain)]
  cases threadFailure <;> rfl

omit [Display D] [Input I] in
theorem plain_silence : c.plain.silence = c.silence.map id plain := by
  simp only [silence, apply_ite (Prod.map id plain)]
  rfl

omit [Display D] [Input I] in
theorem plain_finish (ticks : Nat) (result : Except Fault Unit) :
    c.plain.finish ticks result = (c.finish ticks result).map id plain := by
  simp only [finish]
  rw [show c.plain.letGo ticks = plain (c.letGo ticks) from rfl, plain_silence]
  cases result <;> rfl

/-- **Recorders change nothing**, however a run goes and whatever it is that it comes to. -/
theorem plain_run (threadFailure : Option String) (gaps : List Gap) (ticks : Nat) :
    c.plain.run threadFailure gaps ticks = (c.run threadFailure gaps ticks).map id plain := by
  simp only [run, plain_start]
  generalize c.start threadFailure = reply
  rcases reply with ⟨_ | _, c'⟩
  · simp only [Prod.map, id, plain_finish]
  · simp only [Prod.map, id, plain_frames]
    generalize c'.frames gaps = reply
    rcases reply with ⟨_ | _ | _, c''⟩ <;> simp only [Prod.map, id, plain_finish]

end Loop

end Console
end ChipEight
