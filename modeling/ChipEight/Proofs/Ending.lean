import ChipEight.Console.Faulty
import ChipEight.Console.Headless
import ChipEight.Proofs.Deeds

/-! How a run ends.

A run is its frames, `loop`, and an end to them, `finish`: the ticking thread is let go, the
tone is turned off if the buzzer was last told to sound, and the fault that ended the frames
wins over one of turning the tone off. `run_ends` says so of every run. The first deed that
fails is the last but for these two, and nothing else changes the machine afterwards than the
ticks of a thread that is let go (`WoundUp`). -/
namespace ChipEight.Console

variable {D I A : Type} [Display D] [Input I] [Audio A]

/-! ### Turning the tone off -/

/-- Turning the tone off, if it is on. -/
def hushing (c : Console D I A) : List Deed :=
  if c.tone then [⟨.hush, (c.tell false).1⟩] else []

/-- What the end of a run comes to by itself. -/
def closed (c : Console D I A) : Except Fault Unit :=
  if c.tone then (c.tell false).1 else .ok ()

omit [Display D] [Input I] in
theorem silence_of_tone {c : Console D I A} (h : c.tone = true) :
    c.silence = ((c.tell false).1, { (c.tell false).2 with tone := false }) := by
  rw [silence, if_pos h]
  rfl

omit [Display D] [Input I] in
theorem silence_of_silent {c : Console D I A} (h : c.tone = false) : c.silence = (.ok (), c) := by
  rw [silence, if_neg (by rw [h]; exact Bool.false_ne_true)]

theorem did_silence (c : Console D I A) : Did c c.hushing c.silence.2 := by
  cases h : c.tone with
  | true =>
    rw [hushing, if_pos h, silence_of_tone h]
    exact .deed .hush h (.nothing _)
  | false =>
    rw [hushing, h, silence_of_silent h]
    exact .nothing c

omit [Display D] [Input I] in
theorem silence_closed (c : Console D I A) : c.silence.1 = c.closed := by
  cases h : c.tone with
  | true => rw [closed, if_pos h, silence_of_tone h]
  | false => rw [closed, h, silence_of_silent h]; rfl

/-! ### Letting go of the ticking thread -/

/-- Letting go of the ticking thread, if one is held. -/
def parting (ticks : Nat) (c : Console D I A) : List Deed :=
  match c.ticker with
  | none => []
  | some _ => [⟨.letGo ticks, .ok ()⟩]

theorem did_letGo (c : Console D I A) (ticks : Nat) : Did c (c.parting ticks) (c.letGo ticks) := by
  cases h : c.ticker with
  | none =>
    have hsame : c.letGo ticks = c := by
      simp only [letGo, h]
      rw [← h]
    rw [parting, h, hsame]
    exact .nothing c
  | some ticker =>
    rw [parting, h]
    exact .deed (.letGo ticks) (by rw [CallsFor, h]; exact Option.some_ne_none ticker) (.nothing _)

/-! ### The end -/

/-- The deeds that end a run. -/
def closing (ticks : Nat) (c : Console D I A) : List Deed := c.parting ticks ++ c.hushing

omit [Display D] [Input I] in
theorem act_of_mem_closing {c : Console D I A} {ticks : Nat} {d : Deed}
    (h : d ∈ c.closing ticks) : d.act = .hush ∨ c.ticker ≠ none ∧ d.act = .letGo ticks := by
  rcases List.mem_append.mp h with h | h
  · rw [parting] at h
    split at h <;> rename_i hticker
    · cases h
    · rw [hticker, List.mem_singleton.mp h]
      exact .inr ⟨Option.some_ne_none _, rfl⟩
  · rw [hushing] at h
    split at h
    · rw [List.mem_singleton.mp h]
      exact .inl rfl
    · cases h

omit [Display D] [Input I] in
/-- If the end of a run comes to no fault, its deeds all succeed. -/
theorem comes_closing {c : Console D I A} (ticks : Nat) (h : c.closed = .ok ()) :
    Comes (c.closing ticks) (.ok () : Except Fault Unit) := by
  have parts : Comes (c.parting ticks) (.ok () : Except Fault Unit) := by
    rw [parting]
    split
    · exact nofun
    · exact .singleton _ (.ok ())
  refine parts.append ?_
  rw [closed] at h
  rw [hushing]
  split <;> rename_i htone
  · rw [if_pos htone] at h
    rw [h]
    exact .singleton .hush _
  · exact nofun

omit [Display D] [Input I] in
theorem outline_closing (c : Console D I A) (ticks : Nat) :
    outline (c.closing ticks) = if c.ticker = none then [] else [.letGo ticks] := by
  have hushed : outline c.hushing = [] := by
    rw [hushing]
    split <;> rfl
  rw [closing, outline_append, hushed, List.append_nil, parting]
  cases c.ticker <;> rfl

/-- From the end of the frames to that of the run, a thread that is let go ticks the timers, the
buzzer may have been told to be silent, and all else is what it was. -/
structure WoundUp (ticks : Nat) (c c' : Console D I A) : Prop where
  tone : c'.tone = false
  ticker : c'.ticker = none
  unticked : c.ticker = none → c'.machine = c.machine
  ticked : c.ticker ≠ none → c'.machine = c.machine.tickBy ticks
  display : c'.display = c.display
  input : c'.input = c.input
  audio : c'.audio = if c.tone then (c.tell false).2.audio else c.audio
  elapsed : c'.elapsed = c.elapsed
  timetable : c'.timetable = c.timetable

omit [Display D] [Input I] in
theorem silence_eq (c : Console D I A) : ∃ journal, c.silence.2 =
    { c with tone := false, audio := if c.tone then (c.tell false).2.audio else c.audio, journal } := by
  cases h : c.tone with
  | true =>
    rw [silence_of_tone h]
    exact ⟨_, rfl⟩
  | false =>
    refine ⟨c.journal, ?_⟩
    rw [silence_of_silent h, if_neg Bool.false_ne_true, ← h]

omit [Display D] [Input I] in
theorem woundUp_finish (c : Console D I A) (ticks : Nat) (result : Except Fault Unit) :
    c.WoundUp ticks (c.finish ticks result).2 := by
  obtain ⟨journal, hsilence⟩ := (c.letGo ticks).silence_eq
  obtain ⟨journal', hfinish⟩ : ∃ journal',
      (c.finish ticks result).2 = { (c.letGo ticks).silence.2 with journal := journal' } := by
    cases result <;> exact ⟨_, rfl⟩
  rw [hfinish, hsilence]
  refine ⟨rfl, rfl, fun h => ?_, fun h => ?_, rfl, rfl, rfl, rfl, rfl⟩
  · show (c.letGo ticks).machine = c.machine
    rw [letGo, h]
  · show (c.letGo ticks).machine = c.machine.tickBy ticks
    obtain ⟨ticker, h⟩ := Option.ne_none_iff_exists'.mp h
    rw [letGo, h]

/-- Ending a run is letting go of the thread and turning the tone off. -/
theorem did_finish (c : Console D I A) (ticks : Nat) (result : Except Fault Unit) :
    Did c (c.closing ticks) (c.finish ticks result).2 := by
  have hsilence : Did c (c.closing ticks) (c.letGo ticks).silence.2 :=
    (c.did_letGo ticks).trans (c.letGo ticks).did_silence
  cases result with
  | ok => exact hsilence
  | error fault =>
    have hnoted := hsilence.trans (.aside (.noted [.stopped fault.message]) (.nothing _))
    rw [List.append_nil] at hnoted
    exact hnoted

omit [Display D] [Input I] in
theorem finish_ok (c : Console D I A) (ticks : Nat) : (c.finish ticks (.ok ())).1 = c.closed :=
  silence_closed (c.letGo ticks)

omit [Display D] [Input I] in
theorem finish_error (c : Console D I A) (ticks : Nat) (fault : Fault) :
    (c.finish ticks (.error fault)).1 = .error fault := rfl

/-! ### The whole run -/

/-- A run is its frames and, unless it ran out of gaps, an end to what they came to. -/
theorem run_eq (c : Console D I A) (threadFailure : Option String) (gaps : List Gap)
    (ticks : Nat) : c.run threadFailure gaps ticks =
      match c.loop threadFailure gaps with
      | (.error fault, c') => (c'.finish ticks (.error fault)).map some id
      | (.ok .finished, c') => (c'.finish ticks (.ok ())).map some id
      | (.ok .goingOn, c') => (none, c') := by
  simp only [run, loop]
  rcases c.start threadFailure with ⟨_ | _, c'⟩
  · rfl
  · simp only
    rcases c'.frames gaps with ⟨_ | _ | _, c''⟩ <;> rfl

variable {c : Console D I A} {threadFailure : Option String} {gaps : List Gap} {ticks : Nat}

theorem run_eq_none :
    (c.run threadFailure gaps ticks).1 = none ↔
      (c.loop threadFailure gaps).1 = .ok .goingOn := by
  rw [run_eq]
  rcases c.loop threadFailure gaps with ⟨_ | _ | _, c'⟩
  · exact ⟨nofun, nofun⟩
  · exact ⟨fun _ => rfl, fun _ => rfl⟩
  · exact ⟨nofun, nofun⟩

theorem run_eq_some {result : Except Fault Unit}
    (h : (c.run threadFailure gaps ticks).1 = some result) :
    ∃ ended : Except Fault Unit,
      (c.loop threadFailure gaps).1 = ended.map (fun _ => .finished) ∧
      ((c.loop threadFailure gaps).2.finish ticks ended).1 = result ∧
      ((c.loop threadFailure gaps).2.finish ticks ended).2 =
        (c.run threadFailure gaps ticks).2 := by
  rw [run_eq] at h ⊢
  generalize c.loop threadFailure gaps = reply at h ⊢
  rcases reply with ⟨fault | _ | _, c'⟩
  · exact ⟨.error fault, rfl, Option.some.inj h, rfl⟩
  · cases h
  · exact ⟨.ok (), rfl, Option.some.inj h, rfl⟩

/-- All that a run did is deeds. -/
theorem did_run (c : Console D I A) (threadFailure : Option String) (gaps : List Gap)
    (ticks : Nat) : ∃ deeds, Did c deeds (c.run threadFailure gaps ticks).2 := by
  obtain ⟨deeds, did, -⟩ := c.does_loop threadFailure gaps
  rw [run_eq]
  generalize c.loop threadFailure gaps = reply at did ⊢
  rcases reply with ⟨fault | _ | _, c'⟩
  · exact ⟨_, did.trans (c'.did_finish ticks (.error fault))⟩
  · exact ⟨deeds, did⟩
  · exact ⟨_, did.trans (c'.did_finish ticks (.ok ()))⟩

/-- A run that comes to no fault is frames that the user or the program ended, and an end to
them: deeds that all succeed, and that have the outlines of both. -/
theorem does_run_ok (h : (c.run threadFailure gaps ticks).1 = some (.ok ())) :
    (c.loop threadFailure gaps).1 = .ok .finished ∧
      ((c.loop threadFailure gaps).2.finish ticks (.ok ())).2 =
        (c.run threadFailure gaps ticks).2 ∧
      Does c (c.outlineOfRun threadFailure gaps ++
          if (c.loop threadFailure gaps).2.ticker = none then [] else [.letGo ticks])
        ((.ok () : Except Fault Unit), (c.run threadFailure gaps ticks).2) := by
  obtain ⟨ended, hloop, hresult, hrun⟩ := run_eq_some h
  have hended : ended = .ok () := by
    cases ended with
    | ok => rfl
    | error fault => cases hresult
  rw [hended] at hloop hresult hrun
  obtain ⟨deeds, did, comes, houtline⟩ := c.does_loop threadFailure gaps
  rw [hloop] at comes
  rw [finish_ok] at hresult
  refine ⟨hloop, hrun, deeds ++ (c.loop threadFailure gaps).2.closing ticks, ?_,
    comes.append (comes_closing ticks hresult), ?_⟩
  · rw [← hrun]
    exact did.trans (did_finish _ _ _)
  · rw [outline_append, houtline, outline_closing]

/-! ### Who holds a ticking thread -/

omit [Display D] [Audio A] in
/-- A frame does not touch the ticking thread. -/
theorem ticker_outline (f : Frame D I A) (held : Option Ticker) :
    f.outline.foldl (fun held act => act.ticker held) held = held := by
  rw [Frame.outline]
  split
  · rfl
  · split <;> rfl

omit [Display D] [Audio A] in
theorem ticker_outlines (frames : List (Frame D I A)) (held : Option Ticker) :
    (frames.flatMap Frame.outline).foldl (fun held act => act.ticker held) held = held := by
  induction frames with
  | nil => rfl
  | cons f rest ih => rw [List.flatMap_cons, List.foldl_append, ticker_outline, ih]

/-- After its frames a run holds the thread that it was to start and could, or else what it held
before. -/
theorem ticker_loop (c : Console D I A) (threadFailure : Option String) (gaps : List Gap) :
    (c.loop threadFailure gaps).2.ticker =
      if c.machine.settings.timerMode = .threaded ∧ threadFailure = none then some .start
      else c.ticker := by
  obtain ⟨deeds, did, -, houtline⟩ := c.does_loop threadFailure gaps
  rw [did.ticker, houtline, outlineOfRun, List.foldl_append, ticker_outlines]
  by_cases hmode : c.machine.settings.timerMode = .threaded
  · rw [if_pos hmode]
    cases threadFailure with
    | none => rw [if_pos ⟨hmode, rfl⟩]; rfl
    | some cause => rw [if_neg (fun h => Option.some_ne_none _ h.2)]; rfl
  · rw [if_neg hmode, if_neg (fun h => hmode h.1)]
    rfl

/-- **How a run ends**, whatever its peripherals, its program, its settings, the user and the
clock do. It ends unless it runs out of gaps first; then the tone counts as off, and no thread
is held. A fault that ended the frames is what the run comes to. Otherwise it comes to
what turning the tone off comes to, which is done exactly if the buzzer was last told to
sound. All the run did is a chain of deeds, whose outline its frames give, and doing these deeds
leads to the machine there is then. After a deed that fails there is none but that of letting
go of a thread and that of turning the tone off. So whatever ended the frames, only such a
thread still ticks the timers, and nothing else becomes of the machine. The thread is the one
that the run started, if its settings want one, or one that was there before. -/
theorem run_ends (c : Console D I A) (threadFailure : Option String) (gaps : List Gap)
    (ticks : Nat) :
    let loop := c.loop threadFailure gaps
    let run := c.run threadFailure gaps ticks
    (run.1 = none ↔ loop.1 = .ok .goingOn) ∧
      loop.2.ticker =
        (if c.machine.settings.timerMode = .threaded ∧ threadFailure = none then some .start
        else c.ticker) ∧
      ∃ deeds, Did c deeds loop.2 ∧ Comes deeds loop.1 ∧
        outline deeds = c.outlineOfRun threadFailure gaps ∧
        ∀ result, run.1 = some result →
          run.2.tone = false ∧ run.2.ticker = none ∧
          (∀ fault, loop.1 = .error fault → result = .error fault) ∧
          (loop.1 = .ok .finished → result = loop.2.closed) ∧
          Did loop.2 (loop.2.closing ticks) run.2 ∧
          run.2.machine = (c.doAll (deeds ++ loop.2.closing ticks)).machine ∧
          loop.2.WoundUp ticks run.2 ∧
          ∀ before failed after, deeds ++ loop.2.closing ticks = before ++ failed :: after →
            failed.result ≠ .ok () → ∀ d ∈ after,
              d.act = .hush ∨ loop.2.ticker ≠ none ∧ d.act = .letGo ticks := by
  intro loop run
  obtain ⟨deeds, did, comes, houtline⟩ := c.does_loop threadFailure gaps
  refine ⟨run_eq_none, c.ticker_loop threadFailure gaps, deeds, did, comes, houtline,
    fun result h => ?_⟩
  obtain ⟨ended, hloop, hresult, hrun⟩ := run_eq_some h
  have wound : loop.2.WoundUp ticks run.2 := by
    rw [← hrun]
    exact loop.2.woundUp_finish ticks ended
  have closes : Did loop.2 (loop.2.closing ticks) run.2 := by
    rw [← hrun]
    exact loop.2.did_finish ticks ended
  refine ⟨wound.tone, wound.ticker, fun fault hfault => ?_, fun hfinished => ?_, closes,
    (did.trans closes).machine, wound, fun before failed after heq hfailed d hd => ?_⟩
  · have hended : ended = .error fault := by
      cases ended <;> cases hloop.symm.trans hfault
      rfl
    rw [← hresult, hended, finish_error]
  · have hended : ended = .ok () := by
      cases ended <;> cases hloop.symm.trans hfinished
      rfl
    rw [← hresult, hended]
    exact loop.2.finish_ok ticks
  · exact act_of_mem_closing (comes.mem_of_failed heq hfailed d hd)

/-- A return outside of any subroutine, while the tone sounds and the buzzer cannot turn it off:
the run comes to the stack fault, and the tone counts as off. The thread ticks once more before
it has ended. -/
theorem run_ends_stuck :
    let machine := ((Machine.new { Settings.standard with timerMode := .threaded } default).load
      [0x60, 0x09, 0xF0, 0x18, 0x00, 0xEE]).machine
    let c : Console HeadlessDisplay ScriptedInput (StuckAudio SilentAudio) :=
      new machine default default ⟨default, some false, "audio device went away"⟩ default
    let gaps : List Gap := [⟨1000, 0⟩, ⟨16666666, 1⟩]
    (c.run none gaps 1).1 = some (.error (.stack .underflow 0x204)) ∧
      (c.loop none gaps).2.ticker = some .start ∧ (c.loop none gaps).2.tone = true ∧
      (c.loop none gaps).2.closed = .error (.peripheral "audio device went away") ∧
      (c.run none gaps 1).2.ticker = none ∧ (c.run none gaps 1).2.tone = false ∧
      (c.run none gaps 1).2.machine = (c.loop none gaps).2.machine.tickBy 1 := by
  intro machine c gaps
  have h : (c.run none gaps 1).1 = some (.error (.stack .underflow 0x204)) ∧
      (c.loop none gaps).2.ticker = some .start ∧ (c.loop none gaps).2.tone = true ∧
      (c.loop none gaps).2.closed = .error (.peripheral "audio device went away") := by
    decide +kernel
  obtain ⟨hrun, held, sounding, stuck⟩ := h
  obtain ⟨-, -, deeds, -, -, -, ends⟩ := run_ends c none gaps 1
  obtain ⟨tone, ticker, -, -, -, -, wound, -⟩ := ends _ hrun
  exact ⟨hrun, held, sounding, stuck, ticker, tone,
    wound.ticked (by rw [held]; exact Option.some_ne_none _)⟩

end ChipEight.Console
