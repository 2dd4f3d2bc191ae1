import ChipEight.Console.Faulty
import ChipEight.Console.Headless
import ChipEight.Proofs.Ending
import ChipEight.Proofs.Passage

/-! The frames of a run and the time that passes in them.

A frame reads the input and then does what the user wants of it. `Frame.span` is the emulated
time it lets pass: what it was measured to take, four times as much, or none. `Paced` says of
frames that they take the timetable as far as the time they let pass, all in all. Frames of
going back let no time pass and leave the timetable alone (`WentBack`), so where they stand
among the others makes no difference. Since the timetable counts the cycles and the ticks,
`run_paced` can tell how many a whole run does; the ticks of others are in its outline. -/
namespace ChipEight

/-! ### Going back by several cycles -/

namespace Machine

/-- What taking back cycles makes of a machine: it is where it was before the earliest of them,
if there are any, and all around it stays. -/
structure WentBack (m : Machine) (cycles : Nat) (m' : Machine) : Prop where
  history : m'.history.toList = m.history.toList.drop cycles
  snapshot : m'.snapshot =
    ((m.history.toList.take cycles).getLast?.map fun s => { s with redraw := true }).getD m.snapshot
  around : m' = { m with snapshot := m'.snapshot, history := m'.history, halted := m'.halted }

theorem wentBack_rewindBy (m : Machine) (cycles : Nat) :
    m.WentBack cycles (m.rewindBy cycles) := by
  induction cycles generalizing m with
  | zero => exact ⟨rfl, rfl, rfl⟩
  | succ n ih =>
    rcases m.rewind_cases with ⟨hempty, hr⟩ | ⟨s, rest, hview, hr⟩
    · simp only [rewindBy, hr]
      exact ⟨by simp [hempty], by simp [hempty], rfl⟩
    · have back := ih { m with
        snapshot := { s with redraw := true }, history := rest, halted := false }
      simp only [rewindBy, hr]
      refine ⟨?_, ?_, back.around⟩
      · rw [back.history, hview]
        rfl
      · rw [back.snapshot, hview, List.take_succ_cons, List.getLast?_cons]
        cases (rest.toList.take n).getLast? <;> rfl

/-- As many cycles are taken back as there are, but no more than asked for. -/
theorem WentBack.size {m m' : Machine} {cycles : Nat} (h : m.WentBack cycles m') :
    m'.history.size + min cycles m.history.size = m.history.size := by
  have hlength := congrArg List.length h.history
  rw [List.length_drop, History.length_toList, History.length_toList] at hlength
  omega

end Machine

namespace Console

variable {D I A : Type} [Display D] [Input I] [Audio A]

/-! ### One frame -/

/-- The console in a frame once the input was read. -/
def polled (gap : Gap) (c : Console D I A) : Console D I A :=
  { c with machine := c.machine.tickBy gap.ticks }.poll.2

/-- Once the input was read, only the timers, the keypad and the input can have changed. -/
theorem polled_eq (gap : Gap) (c : Console D I A) :
    ∃ keypad journal, c.polled gap = { c with
      machine := { c.machine.tickBy gap.ticks with keypad }
      input := (Input.poll c.input).peripheral
      journal } :=
  act_poll { c with machine := c.machine.tickBy gap.ticks }

/-- A frame that ends well read the input and did what the user wanted. -/
theorem obey_of_frame {gap : Gap} {c c' : Console D I A} {standing : Standing}
    (h : c.frame gap = (.ok standing, c')) :
    (c.polled gap).obey gap.elapsed c.wish = (.ok standing, c') := by
  have hinput : (c.polled gap).input = (Input.poll c.input).peripheral := by
    obtain ⟨_, _, hpolled⟩ := c.polled_eq gap
    rw [hpolled]
  rw [wish, ← hinput]
  simp only [frame] at h
  split at h <;> rename_i hpoll
  · cases h
  · rw [polled, hpoll]
    exact h

omit [Input I] in
/-- A span of time in a frame that ends well has passed. -/
theorem advance_of_runFrame {span : Nat} {c c' : Console D I A} {standing : Standing}
    (h : c.runFrame span = (.ok standing, c')) :
    ∃ p, c.advance span = (.ok p, c') ∧
      (standing = .finished ↔ p.halted = true ∧ c'.machine.settings.exitOnHalt = true) := by
  simp only [runFrame] at h
  split at h
  · cases h
  · rename_i p c₁ hadvance
    split at h <;> rename_i hstops <;> cases h <;> refine ⟨p, hadvance, ?_⟩
    · simpa using hstops
    · simpa using hstops

/-- What a frame of going back does to a console whose timers others ticked before: it takes back
a frame's worth of cycles, or all there are. Neither the time that has passed nor the timetable
moves, the random stream stays where it is, the timers are as the others left them, and the
tone last told is what it was. -/
structure WentBack (c : Console D I A) (ticks : Nat) (c' : Console D I A) : Prop where
  undone : c'.machine.history.size +
    min c.machine.settings.cyclesPerFrame c.machine.history.size = c.machine.history.size
  history : c'.machine.history.toList =
    c.machine.history.toList.drop c.machine.settings.cyclesPerFrame
  snapshot : c'.machine.snapshot =
    { (c.machine.history.toList.take c.machine.settings.cyclesPerFrame).getLast?.getD
        c.machine.snapshot with redraw := false }
  timers : c'.machine.timers = c.machine.timers.tickBy ticks
  random : c'.machine.random = c.machine.random
  settings : c'.machine.settings = c.machine.settings
  elapsed : c'.elapsed = c.elapsed
  timetable : c'.timetable = c.timetable
  tone : c'.tone = c.tone

omit [Input I] [Audio A] in
theorem wentBack_rewindFrame (c : Console D I A) : WentBack c 0 c.rewindFrame.2 := by
  have hframe : c.rewindFrame.2 = _ := showFrame_eq
    { c with machine := c.machine.rewindBy c.machine.settings.cyclesPerFrame }
  have went := c.machine.wentBack_rewindBy c.machine.settings.cyclesPerFrame
  rw [Machine.takeFrame_eq] at hframe
  generalize c.machine.rewindBy c.machine.settings.cyclesPerFrame = m at hframe went
  rw [hframe]
  refine ⟨went.size, went.history, ?_, ?_, ?_, ?_, rfl, rfl, rfl⟩
  · show { m.snapshot with redraw := false } = _
    rw [went.snapshot]
    cases (c.machine.history.toList.take c.machine.settings.cyclesPerFrame).getLast? <;> rfl
  · show m.timers = c.machine.timers
    rw [went.around]
  · show m.random = c.machine.random
    rw [went.around]
  · show m.settings = c.machine.settings
    rw [went.around]

/-- A frame of going back that ends well takes cycles back, and the run goes on. -/
theorem wentBack_frame {gap : Gap} {c c' : Console D I A} {standing : Standing}
    (h : c.frame gap = (.ok standing, c')) (back : c.wish = .rewind) :
    WentBack c gap.ticks c' ∧ standing = .goingOn := by
  have hobey := obey_of_frame h
  have went := (c.polled gap).wentBack_rewindFrame
  obtain ⟨keypad, journal, hpolled⟩ := c.polled_eq gap
  simp only [back, obey] at hobey
  split at hobey <;> rename_i hrewound <;> cases hobey
  rw [hrewound, hpolled] at went
  exact ⟨⟨went.undone, went.history, went.snapshot, went.timers, went.random, went.settings,
    went.elapsed, went.timetable, went.tone⟩, rfl⟩

/-! ### Frames and their spans -/

/-- The emulated time a frame lets pass. -/
def Frame.span (f : Frame D I A) : Nat :=
  match f.before.wish with
  | .run => f.gap.elapsed
  | .fastForward => f.gap.elapsed * fastForwardFactor
  | .rewind | .quit => 0

/-- A frame of running, at either speed, that ends well has let its span pass. -/
theorem advance_of_frame {gap : Gap} {c c' : Console D I A} {standing : Standing}
    (h : c.frame gap = (.ok standing, c')) (goesOn : c.wish ≠ .quit)
    (forward : c.wish ≠ .rewind) :
    ∃ p, (c.polled gap).advance (Frame.mk c gap).span = (.ok p, c') ∧
      (standing = .finished ↔ p.halted = true ∧ c'.machine.settings.exitOnHalt = true) := by
  have hobey := obey_of_frame h
  cases hwish : c.wish with
  | run =>
    rw [hwish] at hobey
    simp only [Frame.span, hwish]
    exact advance_of_runFrame hobey
  | fastForward =>
    rw [hwish] at hobey
    simp only [obey] at hobey
    simp only [Frame.span, hwish]
    split at hobey
    · exact advance_of_runFrame hobey
    · cases hobey
  | rewind => exact absurd hwish forward
  | quit => exact absurd hwish goesOn

/-- From one console to another a time passed, and the timetable with it. -/
structure Paced (c : Console D I A) (total : Nat) (c' : Console D I A) : Prop where
  timetable : c'.timetable = c.timetable.after (c.elapsed + total)
  elapsed : c'.elapsed = c.elapsed + total
  settings : c'.machine.settings = c.machine.settings

namespace Paced

omit [Display D] [Input I] [Audio A]

/-- No time at all, with nothing overdue. -/
theorem still {c c' : Console D I A} (ontime : c.elapsed ≤ c.timetable.dueAt)
    (timetable : c'.timetable = c.timetable) (elapsed : c'.elapsed = c.elapsed)
    (settings : c'.machine.settings = c.machine.settings) : Paced c 0 c' where
  timetable := timetable.trans (Timetable.after_of_le ontime).symm
  elapsed := elapsed
  settings := settings

theorem trans {c c₁ c' : Console D I A} {first second : Nat} (h : Paced c first c₁)
    (k : Paced c₁ second c') : Paced c (first + second) c' := by
  have hsecond : c₁.elapsed + second = c.elapsed + (first + second) := by
    rw [h.elapsed, Nat.add_assoc]
  refine ⟨?_, k.elapsed.trans hsecond, k.settings.trans h.settings⟩
  rw [k.timetable, hsecond, h.timetable, Timetable.after_after (by omega)]

/-- Nothing is overdue afterwards. -/
theorem ontime {c c' : Console D I A} {total : Nat} (h : Paced c total c') :
    c'.elapsed ≤ c'.timetable.dueAt := by
  rw [h.elapsed, h.timetable]
  exact Timetable.le_dueAt_after _ _

end Paced

omit [Input I] in
/-- A span that passes under settings by which halting does not cut it short. -/
theorem paced_advance {span : Nat} {c c' : Console D I A} {p : Progress}
    (h : c.advance span = (.ok p, c')) (endless : c.machine.settings.exitOnHalt = false) :
    Paced c span c' := by
  obtain ⟨passed, elapsed⟩ := passed_advance h fun k =>
    Bool.false_ne_true (endless.symm.trans k.2)
  exact ⟨passed.timetable, elapsed, passed.settings⟩

/-- **A frame that ends well lets its span pass**, and only the user's wish to quit ends the run. -/
theorem paced_frame {gap : Gap} {c c' : Console D I A} {standing : Standing}
    (h : c.frame gap = (.ok standing, c')) (endless : c.machine.settings.exitOnHalt = false)
    (ontime : c.elapsed ≤ c.timetable.dueAt) :
    Paced c (Frame.mk c gap).span c' ∧ (standing = .finished ↔ c.wish = .quit) := by
  have polled : Paced c 0 (c.polled gap) := by
    obtain ⟨_, _, hpolled⟩ := c.polled_eq gap
    rw [hpolled]
    exact .still ontime rfl rfl rfl
  by_cases quits : c.wish = .quit
  · have hobey := obey_of_frame h
    rw [quits] at hobey
    cases hobey
    simp only [Frame.span, quits]
    exact ⟨{polled with}, trivial⟩
  · by_cases back : c.wish = .rewind
    · obtain ⟨went, rfl⟩ := wentBack_frame h back
      simp only [Frame.span, back]
      exact ⟨.still ontime went.timetable went.elapsed went.settings, nofun, nofun⟩
    · obtain ⟨p, hadvance, hstanding⟩ := advance_of_frame h quits back
      have whole := polled.trans (paced_advance hadvance (by rw [polled.settings]; exact endless))
      rw [Nat.zero_add] at whole
      have unfinished : standing ≠ .finished := fun hfinished => by
        have hexit := (hstanding.mp hfinished).2
        rw [whole.settings, endless] at hexit
        cases hexit
      exact ⟨whole, iff_of_false unfinished quits⟩

/-- Frames that go on until the user quits let their spans pass, all together. -/
theorem paced_frames {gaps : List Gap} {c c' : Console D I A}
    (h : c.frames gaps = (.ok .finished, c')) (endless : c.machine.settings.exitOnHalt = false)
    (ontime : c.elapsed ≤ c.timetable.dueAt) :
    Paced c ((c.framesOf gaps).map Frame.span).sum c' ∧
      (∀ f ∈ c.framesOf gaps, f.before.wish = .rewind →
        WentBack f.before f.gap.ticks (f.before.frame f.gap).2) ∧
      (c.framesOf gaps).getLast?.map (·.before.wish) = some .quit := by
  induction gaps generalizing c with
  | nil => cases h
  | cons gap rest ih =>
    simp only [frames] at h
    simp only [framesOf]
    generalize hframe : c.frame gap = reply at h ⊢
    rcases reply with ⟨_ | standing, c₁⟩
    · cases h
    · obtain ⟨paced, hquit⟩ := paced_frame hframe endless ontime
      have back (hwish : c.wish = .rewind) : WentBack c gap.ticks (c.frame gap).2 := by
        rw [hframe]
        exact (wentBack_frame hframe hwish).1
      cases standing with
      | finished =>
        cases h
        simp only [List.map_cons, List.map_nil, List.sum_cons, List.sum_nil, Nat.add_zero,
          List.getLast?_singleton]
        exact ⟨paced, List.forall_mem_singleton.mpr back, congrArg some (hquit.mp rfl)⟩
      | goingOn =>
        obtain ⟨pacedRest, backRest, quits⟩ := ih h (by rw [paced.settings]; exact endless)
          paced.ontime
        simp only [List.map_cons, List.sum_cons]
        refine ⟨paced.trans pacedRest, List.forall_mem_cons.mpr ⟨back, backRest⟩, ?_⟩
        rw [List.getLast?_cons]
        cases hlast : (c₁.framesOf rest).getLast? with
        | none => rw [hlast] at quits; cases quits
        | some f => rw [hlast] at quits; exact quits

/-! ### A whole run -/

omit [Input I] [Audio A] in
/-- Beginning a run lets no time pass and leaves the machine alone. -/
theorem start_keeps {threadFailure : Option String} {c c' : Console D I A}
    {result : Except Fault Unit} (h : c.start threadFailure = (result, c')) :
    c'.machine = c.machine ∧ c'.elapsed = c.elapsed ∧ c'.timetable = c.timetable := by
  simp only [start] at h
  split at h
  · split at h <;> cases h <;> exact ⟨rfl, rfl, rfl⟩
  · cases h
    exact ⟨rfl, rfl, rfl⟩

theorem framesOfRun_of_start {threadFailure : Option String} {gaps : List Gap}
    {c c₁ : Console D I A} (h : c.start threadFailure = (.ok (), c₁)) :
    c.framesOfRun threadFailure gaps = c₁.framesOf gaps := by
  rw [framesOfRun, h]

/-- The frames of a run that end follow a beginning that succeeded. -/
theorem frames_of_loop {threadFailure : Option String} {gaps : List Gap} {c c' : Console D I A}
    {standing : Standing} (h : c.loop threadFailure gaps = (.ok standing, c')) :
    ∃ c₁, c.start threadFailure = (.ok (), c₁) ∧ c₁.frames gaps = (.ok standing, c') := by
  simp only [loop] at h
  split at h
  · cases h
  · exact ⟨_, ‹_›, h⟩

omit [Display D] [Input I] [Audio A] in
/-- What moves the timetable of a new console on to a time is an instruction every cycle of it
and, if the console ticks the timers, a tick every sixtieth of a second but at instant zero. -/
theorem counts_of_moved {machine : Machine} {display : D} {input : I} {audio : A}
    {journal : Journal} {total steps ticks : Nat}
    (h : (new machine display input audio journal).timetable.after total =
      (new machine display input audio journal).timetable.moved steps ticks) :
    steps = total ⌈/⌉ machine.settings.cycle ∧
      ticks = if machine.settings.timerMode = .cooperative then total ⌈/⌉ Timers.period - 1
        else 0 := by
  obtain ⟨hsteps, hticks⟩ := Timetable.moved_inj ((Timetable.after_eq_moved ..).symm.trans h)
  rw [Timetable.instants_step] at hsteps
  rw [Timetable.instants_tick] at hticks
  simp only [new, Timetable.start] at hsteps hticks
  rw [every_zero, List.length_map, List.length_range] at hsteps
  refine ⟨hsteps.symm, hticks.symm.trans ?_⟩
  simp only [every_period Timetable.period_pos, beq_iff_eq]
  split
  · rw [List.length_map, List.length_range]
  · rfl

omit [Input I] [Audio A] in
/-- A thread that was to be started and was could be. -/
theorem threadFailure_of_start {threadFailure : Option String} {c c' : Console D I A}
    (h : c.start threadFailure = (.ok (), c')) (threaded : c.machine.settings.timerMode = .threaded) :
    threadFailure = none := by
  cases threadFailure with
  | none => rfl
  | some cause =>
    rw [start, if_pos threaded] at h
    cases h

omit [Display D] [Audio A] in
/-- All the ticks of others in the outline of a run are those of the gaps before its frames. -/
theorem sum_ticks_outlines (frames : List (Frame D I A)) :
    ((frames.flatMap Frame.outline).map Act.ticks).sum = (frames.map (·.gap.ticks)).sum := by
  induction frames with
  | nil => rfl
  | cons f rest ih =>
    have hframe : (f.outline.map Act.ticks).sum = f.gap.ticks := by
      rw [Frame.outline]
      split
      · rfl
      · split <;> rfl
    rw [List.flatMap_cons, List.map_append, List.sum_append, ih, hframe, List.map_cons,
      List.sum_cons]

theorem sum_ticks_outlineOfRun (threadFailure : Option String) (gaps : List Gap)
    (c : Console D I A) :
    ((c.outlineOfRun threadFailure gaps).map Act.ticks).sum =
      ((c.framesOfRun threadFailure gaps).map (·.gap.ticks)).sum := by
  have hstart : ((if c.machine.settings.timerMode = .threaded then
      [Act.startTicker threadFailure] else []).map Act.ticks).sum = 0 := by
    split <;> rfl
  rw [outlineOfRun, List.map_append, List.sum_append, hstart, Nat.zero_add, sum_ticks_outlines]

/-- **The time of a run is that of its frames.** Under settings by which halting does not end a
run, a new console that is run until the user quits, and whose run fails nowhere: the time that
has passed is what was measured for the frames of running, and four times what was measured
for those of running faster. All the run did is deeds, and among them are a cycle for every
one that begins in that time and, if the console ticks the timers, a tick for every sixtieth of
a second that does, but the first. Besides, others tick the timers before each frame, and a
thread that was started does at the end; nothing else does, and doing the deeds leads to the
machine there is then. Frames of going back take back a frame's worth of cycles
and leave all that is due when it is due, so that afterwards nothing is overdue. -/
theorem run_paced (machine : Machine) (display : D) (input : I) (audio : A) (journal : Journal)
    (threadFailure : Option String) (gaps : List Gap) (ticks : Nat)
    (endless : machine.settings.exitOnHalt = false)
    (h : ((new machine display input audio journal).run threadFailure gaps ticks).1 =
      some (.ok ())) :
    let c := new machine display input audio journal
    let frames := c.framesOfRun threadFailure gaps
    let total := (frames.map Frame.span).sum
    let own := if machine.settings.timerMode = .cooperative then total ⌈/⌉ Timers.period - 1 else 0
    let run := c.run threadFailure gaps ticks
    frames.getLast?.map (·.before.wish) = some .quit ∧
      run.2.elapsed = total ∧
      (∃ deeds, Did c deeds run.2 ∧ (∀ d ∈ deeds, d.result = .ok ()) ∧
        deeds.countP (·.act = .step) = total ⌈/⌉ machine.settings.cycle ∧
        deeds.countP (·.act = .tick) = own ∧
        outline deeds = c.outlineOfRun threadFailure gaps ++
          (if machine.settings.timerMode = .threaded then [.letGo ticks] else []) ∧
        (deeds.map (·.act.ticks)).sum = own + (frames.map (·.gap.ticks)).sum +
          (if machine.settings.timerMode = .threaded then ticks else 0) ∧
        run.2.machine = (c.doAll deeds).machine) ∧
      (∀ f ∈ frames, f.before.wish = .rewind →
        WentBack f.before f.gap.ticks (f.before.frame f.gap).2) := by
  intro c frames total own run
  obtain ⟨hloop, hrun, deeds, did, succeed, houtline⟩ := does_run_ok h
  obtain ⟨c₁, hstart, hframes⟩ := frames_of_loop (Prod.ext hloop rfl)
  obtain ⟨settings, elapsed, timetable⟩ := start_keeps hstart
  rw [show c.elapsed = 0 from rfl] at elapsed
  obtain ⟨paced, back, quits⟩ := paced_frames hframes (by rw [settings]; exact endless)
    (by rw [elapsed]; exact Nat.zero_le _)
  have hof : frames = c₁.framesOf gaps := framesOfRun_of_start hstart
  rw [← hof] at paced back quits
  have hended : run.2.elapsed = total ∧ run.2.timetable = c.timetable.after total := by
    show (c.run threadFailure gaps ticks).2.elapsed = _ ∧
      (c.run threadFailure gaps ticks).2.timetable = _
    have wound := (c.loop threadFailure gaps).2.woundUp_finish ticks (.ok ())
    rw [← hrun, wound.elapsed, wound.timetable, paced.elapsed, paced.timetable, elapsed, timetable,
      Nat.zero_add]
    exact ⟨rfl, rfl⟩
  obtain ⟨hsteps, hticks⟩ := counts_of_moved (hended.2.symm.trans did.timetable)
  -- a thread is let go of at the end exactly if one was to be started
  have hparting : outline deeds = c.outlineOfRun threadFailure gaps ++
      (if machine.settings.timerMode = .threaded then [.letGo ticks] else []) := by
    rw [houtline]
    by_cases hmode : machine.settings.timerMode = .threaded
    · rw [if_pos hmode, if_neg]
      rw [ticker_loop, if_pos ⟨hmode, threadFailure_of_start hstart hmode⟩]
      exact Option.some_ne_none _
    · rw [if_neg hmode, if_pos]
      rw [ticker_loop, if_neg (fun held => hmode held.1)]
      rfl
  refine ⟨quits, hended.1, ⟨deeds, did, succeed, hsteps, hticks, hparting, ?_, did.machine⟩, back⟩
  rw [sum_ticks, hticks, hparting, List.map_append, List.sum_append, sum_ticks_outlineOfRun,
    ← Nat.add_assoc]
  congr 1
  split <;> rfl

/-- At a hundred and twenty instructions a second, two cycles begin in the ten milliseconds of
a first frame. However long going back takes then, no more than two others begin in the
twenty milliseconds of running faster, and one tick falls due, besides the three that
others do. -/
theorem run_paced_mixed :
    let machine := ((Machine.new { Settings.standard with speed := 120 } default).load
      [0x70, 0x01, 0x12, 0x00]).machine
    let input : GuidedInput ScriptedInput :=
      ⟨default, 0, none, [.run, .rewind, .fastForward, .quit], ""⟩
    let c : Console HeadlessDisplay (GuidedInput ScriptedInput) SilentAudio :=
      new machine default input default default
    let gaps : List Gap := [⟨10000000, 0⟩, ⟨700000000, 2⟩, ⟨5000000, 0⟩, ⟨16666666, 1⟩]
    (c.framesOfRun none gaps).map (·.before.wish) = [.run, .rewind, .fastForward, .quit] ∧
      (c.run none gaps).1 = some (.ok ()) ∧ (c.run none gaps).2.elapsed = 30000000 ∧
      ∃ deeds, Did c deeds (c.run none gaps).2 ∧ deeds.countP (·.act = .step) = 4 ∧
        deeds.countP (·.act = .tick) = 1 ∧ (deeds.map (·.act.ticks)).sum = 4 := by
  intro machine input c gaps
  have h : (c.run none gaps).1 = some (.ok ()) ∧
      (c.framesOfRun none gaps).map (·.before.wish) = [.run, .rewind, .fastForward, .quit] ∧
      ((c.framesOfRun none gaps).map Frame.span).sum = 30000000 ∧
      ((c.framesOfRun none gaps).map (·.gap.ticks)).sum = 3 := by
    decide +kernel
  have hc : new machine default input default default = c := rfl
  have paced := run_paced machine (default : HeadlessDisplay) input (default : SilentAudio) default
    none gaps 0 (by decide +kernel) h.1
  rw [hc] at paced
  obtain ⟨-, elapsed, ⟨deeds, did, -, steps, own, -, ticks, -⟩, -⟩ := paced
  rw [h.2.2.1] at elapsed steps own ticks
  rw [h.2.2.2] at ticks
  exact ⟨h.2.1, h.1, elapsed, deeds, did, steps.trans (by decide +kernel),
    own.trans (by decide +kernel), ticks.trans (by decide +kernel)⟩

end Console
end ChipEight
