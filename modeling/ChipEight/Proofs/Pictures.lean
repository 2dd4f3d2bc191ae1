import ChipEight.Console.Faulty
import ChipEight.Proofs.Redraw
import ChipEight.Proofs.Reliable

/-! The pictures a console shows.

A console shows a picture after every instruction that changes the screen, one where a frame
of going back led, and one when a run begins; in between, the screen stays what was shown
last. `Machine.pictures` lists the pictures of a sequence of events by what the events do,
without a look at the machine's wish to be shown, and `picturesOfAll` those of whole runs.
A recorder in front of the display finds just these. `Showed` says so of the way from one
console to another, and that nothing is left to show at its end; events keep to it
(`showed_perform`), so spans of time do (`showed_advance`), and so do runs (`showed_run`). -/
namespace ChipEight

namespace Machine

/-- The picture that an event brings, if it brings one: the screen right after an instruction
that changes it. -/
def brings (m : Machine) : Event → List Screen
  | .tick => []
  | .step => if m.draws then [m.step.machine.snapshot.screen] else []

/-- The pictures that events bring, one after the other. -/
def pictures (m : Machine) : List Event → List Screen
  | [] => []
  | event :: rest => m.brings event ++ (m.undergo event).pictures rest

end Machine

namespace Console

/-! ### The pictures there are to show -/

section Lists

variable {D I A : Type} [Display D] [Input I] [Audio A]

/-- The pictures of a span of time. -/
def picturesIn (span : Nat) (c : Console D I A) : List Screen :=
  c.machine.pictures ((c.happeningsIn span).map Happening.event)

omit [Input I] in
/-- A span longer than any clock can count brings no pictures, for it does not begin. -/
theorem picturesIn_of_limit {span : Nat} (h : Span.limit ≤ span) (c : Console D I A) :
    c.picturesIn span = [] := by
  have hadd : Span.add? c.elapsed span = none := if_neg (by omega)
  simp only [picturesIn, happeningsIn, hadd]
  rfl

/-- The pictures of a frame's worth of what the user wants. -/
def picturesOf (span : Nat) (c : Console D I A) : Control → List Screen
  | .quit => []
  | .rewind =>
    if c.machine.rewind.1 then
      [(c.machine.rewindBy c.machine.settings.cyclesPerFrame).snapshot.screen]
    else []
  | .run => c.picturesIn span
  | .fastForward => c.picturesIn (span * fastForwardFactor)

/-- The pictures of a frame. -/
def picturesOfFrame (gap : Gap) (c : Console D I A) : List Screen :=
  match { c with machine := c.machine.tickBy gap.ticks }.poll with
  | (.error _, _) => []
  | (.ok (), c) => c.picturesOf gap.elapsed (Input.control c.input)

/-- The pictures of frames until one ends the run. -/
def picturesOfFrames : List Gap → Console D I A → List Screen
  | [], _ => []
  | gap :: rest, c =>
    c.picturesOfFrame gap ++
      match c.frame gap with
      | (.ok .goingOn, c) => picturesOfFrames rest c
      | _ => []

/-- The pictures of a run, which begins with the one there is. -/
def picturesOfRun (threadFailure : Option String) (gaps : List Gap) (c : Console D I A) :
    List Screen :=
  match c.start threadFailure with
  | (.error _, _) => []
  | (.ok (), c') => c.machine.snapshot.screen :: c'.picturesOfFrames gaps

/-- What a console can be put to. -/
inductive Activity where
  /-- To let a span of time pass. -/
  | pass (span : Nat)
  /-- To run frame by frame, until a thread that is let go has done its last ticks. -/
  | run (threadFailure : Option String) (gaps : List Gap) (ticks : Nat)
deriving DecidableEq, Repr

/-- The console after an activity, whether it succeeded or not. -/
def engage (c : Console D I A) : Activity → Console D I A
  | .pass span => (c.advance span).2
  | .run threadFailure gaps ticks => (c.run threadFailure gaps ticks).2

/-- The console after activities one after the other. -/
def engageAll (c : Console D I A) (activities : List Activity) : Console D I A :=
  activities.foldl engage c

/-- The pictures of activities one after the other. -/
def picturesOfAll (c : Console D I A) : List Activity → List Screen
  | [] => []
  | .pass span :: rest => c.picturesIn span ++ (c.engage (.pass span)).picturesOfAll rest
  | .run threadFailure gaps ticks :: rest =>
    c.picturesOfRun threadFailure gaps ++
      (c.engage (.run threadFailure gaps ticks)).picturesOfAll rest

end Lists

/-! ### What a recorder finds -/

variable {D I A : Type}

/-- A console with nothing left to show. -/
def Calm (c : Console D I A) : Prop := c.machine.snapshot.redraw = false

/-- From one console to another, its recorder was handed these pictures, the last picture is the
screen there is, and nothing is left to show. -/
structure Showed (c : Console (Recorder D Screen) I (Recorder A Bool)) (pictures : List Screen)
    (c' : Console (Recorder D Screen) I (Recorder A Bool)) : Prop where
  calls : c'.display.calls = c.display.calls ++ pictures
  latest : pictures.getLast?.getD c.machine.snapshot.screen = c'.machine.snapshot.screen
  calm : c'.Calm

variable {c c' c'' : Console (Recorder D Screen) I (Recorder A Bool)}

namespace Showed

/-- What leaves the display and the screen alone shows nothing. -/
theorem nothing (calls : c'.display.calls = c.display.calls)
    (screen : c'.machine.snapshot.screen = c.machine.snapshot.screen) (calm : c'.Calm) :
    Showed c [] c' :=
  ⟨by rw [calls, List.append_nil], screen.symm, calm⟩

theorem trans {first second : List Screen} (h : Showed c first c') (k : Showed c' second c'') :
    Showed c (first ++ second) c'' where
  calls := by rw [k.calls, h.calls, List.append_assoc]
  latest := by
    rw [← k.latest, ← h.latest, List.getLast?_append]
    cases second.getLast? <;> rfl
  calm := k.calm

end Showed

section Passage

variable [Display D] [Audio A]

omit [Audio A] in
/-- Showing the frame shows the screen if it was drawn on since there was nothing to show. -/
theorem showed_showFrame (c' : Console (Recorder D Screen) I (Recorder A Bool)) {drew : Bool}
    (calm : c.Calm) (calls : c'.display.calls = c.display.calls)
    (owed : Redrawn c.machine.snapshot drew c'.machine.snapshot) :
    Showed c (if drew then [c'.machine.snapshot.screen] else []) c'.showFrame.2 := by
  have hredraw : c'.machine.snapshot.redraw = drew := by
    rw [owed.redraw, show c.machine.snapshot.redraw = false from calm, Bool.or_false]
  simp only [showFrame, Machine.takeFrame, hredraw]
  cases drew with
  | false => exact .nothing calls (owed.screen rfl) hredraw
  | true => exact ⟨congrArg (· ++ _) calls, rfl, rfl⟩

omit [Display D] in
/-- Updating the tone shows nothing. -/
theorem Showed.updateTone {pictures : List Screen} (h : Showed c pictures c') :
    Showed c pictures c'.updateTone.2 := by
  rw [updateTone_eq]
  exact ⟨h.calls, h.latest, h.calm⟩

/-- So does settling an instruction that ran, after the tone. -/
theorem showed_settle [Audio.Reliable A]
    (c' : Console (Recorder D Screen) I (Recorder A Bool)) {drew : Bool} (calm : c.Calm)
    (calls : c'.display.calls = c.display.calls)
    (owed : Redrawn c.machine.snapshot drew c'.machine.snapshot) :
    Showed c (if drew then [c'.machine.snapshot.screen] else []) c'.settle.2 := by
  have hmachine : c'.updateTone.2.machine = c'.machine := by rw [updateTone_eq]
  have hdisplay : c'.updateTone.2.display = c'.display := by rw [updateTone_eq]
  rw [settle_reliable, ← hmachine]
  exact showed_showFrame _ calm (by rw [hdisplay, calls]) (by rw [hmachine]; exact owed)

/-- **An event shows the picture that it brings**, if it brings one, and no other. -/
theorem showed_perform [Audio.Reliable A] (calm : c.Calm) (event : Event) :
    Showed c (c.machine.brings event) (c.perform event).2 := by
  cases event with
  | tick =>
    have hticked : Showed c [] { c with machine := c.machine.tickBy 1 } := .nothing rfl rfl calm
    have hshowed := hticked.updateTone
    simp only [perform]
    split <;> rename_i hupdate <;> rw [hupdate] at hshowed <;> exact hshowed
  | step =>
    have owed := c.machine.redrawn_step
    -- where no instruction ran, nothing was drawn and the picture is not looked at
    have idle (hdraws : c.machine.draws = false) :
        Showed c (c.machine.brings .step)
          ({ c with machine := c.machine.step.machine }.note c.machine.step.records) := by
      rw [hdraws] at owed
      simp only [Machine.brings, hdraws]
      exact .nothing rfl (owed.screen rfl) (owed.redraw.trans calm)
    simp only [perform]
    split
    · exact idle (by simp only [Machine.draws, *])
    · exact idle (by simp only [Machine.draws, *])
    · exact idle (by simp only [Machine.draws, *])
    · have hsettled := showed_settle
        ({ c with machine := c.machine.step.machine }.note c.machine.step.records) calm rfl owed
      split <;> rename_i hsettle <;> rw [hsettle] at hsettled <;> exact hsettled

/-- A passage shows the pictures of what happens in it. -/
theorem showed_advanceTo [Audio.Reliable A] (calm : c.Calm) (target : Nat) (t : Timetable)
    (p : Progress) :
    Showed c (c.machine.pictures ((happenings target t c).map Happening.event))
      (advanceTo target t c p).2 := by
  have shown {c : Console (Recorder D Screen) I (Recorder A Bool)} (calm : c.Calm)
      (t : Timetable) (event : Event) :
      Showed c (c.machine.brings event) ({ c with timetable := t }.perform event).2 :=
    {showed_perform (c := { c with timetable := t }) calm event with}
  fun_induction advanceTo target t c p with
  | case1 t c p due hnone =>
    rw [happenings_overflow due hnone]
    exact .nothing rfl rfl calm
  | case2 t c p due t' ht fault c' hperform =>
    have hshown := shown calm t' t.next
    rw [hperform] at hshown
    rw [happenings_error due ht hperform, List.map_singleton, Machine.pictures, Machine.pictures,
      List.append_nil]
    exact hshown
  | case3 t c p due t' ht beat c' hperform stops =>
    have hshown := shown calm t' t.next
    rw [hperform] at hshown
    rw [happenings_stop due ht hperform stops, List.map_singleton, Machine.pictures,
      Machine.pictures, List.append_nil]
    exact hshown
  | case4 t c p due t' ht beat c' hperform goesOn ih =>
    have hshown := shown calm t' t.next
    rw [hperform] at hshown
    rw [happenings_next due ht hperform (by simpa using goesOn), List.map_cons, Machine.pictures,
      show c.machine.undergo t.next = c'.machine from (performed_perform hperform).machine.symm]
    exact hshown.trans (ih hshown.calm)
  | case5 t c p due =>
    rw [happenings_of_le (Nat.le_of_not_lt due)]
    exact .nothing rfl rfl calm

/-- **A span of time shows its pictures.** -/
theorem showed_advance [Audio.Reliable A] (calm : c.Calm) (span : Nat) :
    Showed c (c.plain.picturesIn span) (c.advance span).2 := by
  rw [picturesIn, plain_happeningsIn, machine_plain, happeningsIn]
  cases hadd : Span.add? c.elapsed span with
  | none =>
    rw [advance_overflow hadd]
    exact .nothing rfl rfl calm
  | some target =>
    have hto := showed_advanceTo calm target c.timetable .none
    rw [advance_of_add? hadd]
    rcases hpassage : advanceTo target c.timetable c .none with ⟨fault | p, c'⟩ <;>
      rw [hpassage] at hto
    · exact hto
    · have hended : Showed c (c.machine.pictures ((happenings target c.timetable c).map
          Happening.event)) { c' with elapsed := target } := {hto with}
      have hshowed := hended.updateTone
      simp only
      split <;> rename_i hupdate <;> rw [hupdate] at hshowed <;> exact hshowed

end Passage

/-! ### The frame loop -/

section Loop

variable [Display D] [Input I] [Audio A]

omit [Display D] [Audio A] in
/-- What passes between frames and reading the input show nothing. -/
theorem showed_poll (calm : c.Calm) (ticks : Nat) :
    Showed c [] { c with machine := c.machine.tickBy ticks }.poll.2 := by
  simp only [poll]
  split <;> exact .nothing rfl rfl calm

omit [Input I] in
theorem showed_runFrame [Audio.Reliable A] (calm : c.Calm) (span : Nat) :
    Showed c (c.plain.picturesIn span) (c.runFrame span).2 := by
  have hshowed := showed_advance calm span
  simp only [runFrame]
  split <;> rename_i hadvance <;> rw [hadvance] at hshowed
  · exact hshowed
  · split <;> exact hshowed

omit [Input I] in
/-- Going back shows where it led, if anywhere. -/
theorem showed_rewindFrame (calm : c.Calm) (span : Nat) :
    Showed c (c.plain.picturesOf span .rewind) c.rewindFrame.2 :=
  showed_showFrame
    { c with machine := c.machine.rewindBy c.machine.settings.cyclesPerFrame }
    calm rfl (c.machine.redrawn_rewindBy c.machine.settings.cyclesPerFrame_pos)

omit [Input I] in
theorem showed_obey [Audio.Reliable A] (calm : c.Calm) (span : Nat) (control : Control) :
    Showed c (c.plain.picturesOf span control) (c.obey span control).2 := by
  cases control with
  | quit => exact .nothing rfl rfl calm
  | rewind =>
    have hshowed := showed_rewindFrame calm span
    simp only [obey]
    split <;> rename_i hrewind <;> rw [hrewind] at hshowed <;> exact hshowed
  | run => exact showed_runFrame calm span
  | fastForward =>
    simp only [obey]
    split
    · exact showed_runFrame calm _
    · rename_i hlimit
      rw [picturesOf, picturesIn_of_limit (Nat.le_of_not_lt hlimit)]
      exact .nothing rfl rfl calm

theorem showed_frame [Audio.Reliable A] (calm : c.Calm) (gap : Gap) :
    Showed c (c.plain.picturesOfFrame gap) (c.frame gap).2 := by
  have hread := showed_poll calm gap.ticks
  have hplain : { c.plain with machine := c.plain.machine.tickBy gap.ticks }.poll =
      { c with machine := c.machine.tickBy gap.ticks }.poll.map id plain :=
    plain_poll { c with machine := c.machine.tickBy gap.ticks }
  simp only [frame, picturesOfFrame]
  rw [hplain]
  generalize { c with machine := c.machine.tickBy gap.ticks }.poll = reply at hread ⊢
  rcases reply with ⟨fault | _, c'⟩
  · exact hread
  · exact hread.trans (showed_obey hread.calm _ _)

theorem showed_frames [Audio.Reliable A] (calm : c.Calm) (gaps : List Gap) :
    Showed c (c.plain.picturesOfFrames gaps) (c.frames gaps).2 := by
  induction gaps generalizing c with
  | nil => exact .nothing rfl rfl calm
  | cons gap rest ih =>
    have hfirst := showed_frame calm gap
    simp only [frames, picturesOfFrames, plain_frame]
    generalize c.frame gap = reply at hfirst ⊢
    rcases reply with ⟨fault | _ | _, c'⟩
    · exact hfirst.trans (.nothing rfl rfl hfirst.calm)
    · exact hfirst.trans (ih hfirst.calm)
    · exact hfirst.trans (.nothing rfl rfl hfirst.calm)

omit [Display D] [Input I] in
/-- Ending a run shows nothing. -/
theorem Showed.finish {pictures : List Screen} (h : Showed c pictures c') (ticks : Nat)
    (result : Except Fault Unit) : Showed c pictures (c'.finish ticks result).2 := by
  have hticked : (c'.letGo ticks).machine.snapshot = c'.machine.snapshot := by
    rw [letGo]
    cases c'.ticker <;> rfl
  have hparted : Showed c pictures (c'.letGo ticks) :=
    ⟨h.calls, by rw [hticked]; exact h.latest, by rw [Calm, hticked]; exact h.calm⟩
  have hsilent : Showed c pictures (c'.letGo ticks).silence.2 := by
    simp only [silence]
    split <;> exact {hparted with}
  cases result <;> exact {hsilent with}

omit [Input I] [Audio A] in
/-- Beginning a run shows the picture there is, if the run can begin. -/
theorem showed_start [Display.Reliable D] (calm : c.Calm) (threadFailure : Option String) :
    Showed c
      (match (c.start threadFailure).1 with
        | .ok () => [c.machine.snapshot.screen]
        | .error _ => [])
      (c.start threadFailure).2 := by
  by_cases threaded : c.machine.settings.timerMode = .threaded
  · cases threadFailure with
    | some cause =>
      simp only [start, if_pos threaded]
      exact .nothing rfl rfl calm
    | none =>
      simp only [start, if_pos threaded, present_reliable]
      exact ⟨rfl, rfl, calm⟩
  · simp only [start, if_neg threaded, present_reliable]
    exact ⟨rfl, rfl, calm⟩

/-- **A run shows its pictures**, and before them the one there is. -/
theorem showed_run [Display.Reliable D] [Audio.Reliable A] (calm : c.Calm)
    (threadFailure : Option String) (gaps : List Gap) (ticks : Nat) :
    Showed c (c.plain.picturesOfRun threadFailure gaps) (c.run threadFailure gaps ticks).2 := by
  have hstart := showed_start calm threadFailure
  simp only [run, picturesOfRun, plain_start]
  generalize c.start threadFailure = reply at hstart ⊢
  rcases reply with ⟨fault | _, c'⟩
  · exact hstart.finish ticks _
  · have hshowed := hstart.trans (showed_frames hstart.calm gaps)
    simp only [Prod.map, id]
    generalize c'.frames gaps = reply at hshowed ⊢
    rcases reply with ⟨fault | _ | _, c''⟩
    · exact hshowed.finish ticks _
    · exact hshowed
    · exact hshowed.finish ticks _

/-! ### Activities -/

theorem plain_engage (c : Console (Recorder D Screen) I (Recorder A Bool)) (activity : Activity) :
    c.plain.engage activity = (c.engage activity).plain := by
  cases activity with
  | pass span => exact congrArg Prod.snd (c.plain_advance span)
  | run threadFailure gaps ticks =>
    exact congrArg Prod.snd (c.plain_run threadFailure gaps ticks)

theorem showed_engageAll [Display.Reliable D] [Audio.Reliable A] (calm : c.Calm)
    (activities : List Activity) :
    Showed c (c.plain.picturesOfAll activities) (c.engageAll activities) := by
  induction activities generalizing c with
  | nil => exact .nothing rfl rfl calm
  | cons activity rest ih =>
    have hrest := ih (c := c.engage activity)
    rw [← plain_engage] at hrest
    cases activity with
    | pass span =>
      have hfirst := showed_advance calm span
      exact hfirst.trans (hrest hfirst.calm)
    | run threadFailure gaps ticks =>
      have hfirst := showed_run calm threadFailure gaps ticks
      exact hfirst.trans (hrest hfirst.calm)

theorem plain_engageAll (c : Console (Recorder D Screen) I (Recorder A Bool))
    (activities : List Activity) :
    c.plain.engageAll activities = (c.engageAll activities).plain := by
  induction activities generalizing c with
  | nil => rfl
  | cons activity rest ih =>
    show (c.plain.engage activity).engageAll rest = _
    rw [plain_engage, ih]
    rfl

/-- **What a console shows is what its program draws.** With a display and a buzzer that do not
fail, and a machine with nothing left to show, whatever a console is put to: the display is
handed the picture after every instruction that changes the screen, the one that a frame of
going back leads to if it leads anywhere, and the one there is when a run begins; these in
their order, and no other. So the picture it was handed last is what the screen shows. -/
theorem engageAll_shows [Display.Reliable D] [Audio.Reliable A] (machine : Machine) (display : D)
    (input : I) (audio : A) (journal : Journal) (activities : List Activity)
    (calm : machine.snapshot.redraw = false) :
    let c := new machine display input audio journal
    let calls := (c.recorded.engageAll activities).display.calls
    calls = c.picturesOfAll activities ∧
      calls.getLast?.getD machine.snapshot.screen =
        (c.engageAll activities).machine.snapshot.screen := by
  intro c calls
  have shown := showed_engageAll (c := c.recorded) calm activities
  rw [plain_recorded] at shown
  have hcalls : calls = c.picturesOfAll activities := shown.calls
  have hmachine : (c.recorded.engageAll activities).machine = (c.engageAll activities).machine := by
    rw [← machine_plain, ← plain_engageAll, plain_recorded]
  refine ⟨hcalls, ?_⟩
  rw [hcalls, ← hmachine]
  exact shown.latest

/-- A glyph is drawn and shown once more as a run begins; it is cleared, comes back as the user
goes back, and is cleared again. Halting shows nothing. -/
theorem engageAll_shows_glyph :
    let machine := ((Machine.new { Settings.standard with speed := 60 } default).load
      [0xA0, 0x50, 0xD0, 0x05, 0x00, 0xE0, 0x12, 0x06]).machine
    let input : GuidedInput ScriptedInput := ⟨default, 0, none, [.run, .rewind, .fastForward], ""⟩
    let gap : Gap := ⟨16666666, 0⟩
    let activities : List Activity := [.pass 20000000, .run none [gap, gap, gap] 0]
    let pictures := (new machine HeadlessDisplay.fresh input SilentAudio.fresh
      default).picturesOfAll activities
    machine.snapshot.redraw = false ∧
      ((new machine HeadlessDisplay.fresh input SilentAudio.fresh default).recorded.engageAll
        activities).display.calls = pictures ∧
      pictures.map (· == .blank) = [false, false, true, false, true] := by
  intro machine input gap activities pictures
  have calm : machine.snapshot.redraw = false := by decide +kernel
  exact ⟨calm, (engageAll_shows machine HeadlessDisplay.fresh input SilentAudio.fresh default
    activities calm).1, by decide +kernel⟩

end Loop

end Console
end ChipEight
