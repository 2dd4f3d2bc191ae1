import ChipEight.Console.Loop
import ChipEight.Proofs.Unnoticed

/-! What a console does, deed by deed.

Everything that a console does to its peripherals, and everything that happens to its machine,
is one of a few acts. `Did` chains them: from one console to another by these deeds, in this
order, each called for where it was done, and in between nothing but records and the time that
has passed (`Aside`). So a chain leaves nothing out: doing its acts again leads to the same
machine and the same peripherals (`Did.alike`), and the timetable counts the cycles and the
ticks (`Did.timetable`).

`Comes` says how deeds go with a result: one that fails is the last, and its fault is the
result. The acts that no passage of time brings, such as reading the input, going back and the
ticks of others, are the `outline` of a chain; a run has them from its frames. Every part of the
console keeps to a result and an outline (`Does`), up to all the frames of a run (`does_loop`). -/
namespace ChipEight

/-- What a console can do. -/
inductive Act where
  /-- Read the input. -/
  | poll
  /-- Let the machine take its next cycle. -/
  | step
  /-- Tick the timers. -/
  | tick
  /-- Show a picture. -/
  | present (picture : Screen)
  /-- Show the picture that the machine wishes to be shown, which it then no longer does. -/
  | refresh (picture : Screen)
  /-- Turn the tone one of the two ways. -/
  | tell (on : Bool)
  /-- Turn the tone off at the end of a run, after which it counts as off in any case. -/
  | hush
  /-- Take back a frame's worth of cycles. -/
  | back
  /-- Find the timers ticked by others. -/
  | others (ticks : Nat)
  /-- Start the ticking thread, or find that it cannot be started. -/
  | startTicker (failure : Option String)
  /-- Let go of the ticking thread, which ticks until it has ended. -/
  | letGo (ticks : Nat)
  /-- Count an instant that no clock can count. -/
  | overrun
deriving DecidableEq

namespace Act

/-- Whether an act is none that a passage of time brings. -/
def untimed : Act → Bool
  | .poll | .back | .others _ | .startTicker _ | .letGo _ => true
  | .step | .tick | .present _ | .refresh _ | .tell _ | .hush | .overrun => false

/-- How often an act ticks the timers. -/
def ticks : Act → Nat
  | .tick => 1
  | .others ticks | .letGo ticks => ticks
  | .poll | .step | .present _ | .refresh _ | .tell _ | .hush | .back | .startTicker _
  | .overrun => 0

/-- The thread that is held after an act, if one is. -/
def ticker : Act → Option Ticker → Option Ticker
  | .startTicker none, _ => some .start
  | .letGo _, _ => none
  | _, held => held

end Act

/-- An act that was done, and what it came to. -/
structure Deed where
  act : Act
  result : Except Fault Unit

/-- The acts among deeds that no passage of time brings. -/
def outline (deeds : List Deed) : List Act := (deeds.map Deed.act).filter Act.untimed

theorem outline_append (first second : List Deed) :
    outline (first ++ second) = outline first ++ outline second := by
  rw [outline, List.map_append, List.filter_append, outline, outline]

/-- The timers are ticked by the console's own ticks and by those of the outline. -/
theorem sum_ticks (deeds : List Deed) :
    (deeds.map (·.act.ticks)).sum =
      deeds.countP (·.act = .tick) + ((outline deeds).map Act.ticks).sum := by
  induction deeds with
  | nil => rfl
  | cons d rest ih =>
    obtain ⟨act, result⟩ := d
    rw [List.map_cons, List.sum_cons, ih, List.countP_cons, outline, outline, List.map_cons,
      List.filter_cons]
    cases act <;> simp [Act.ticks, Act.untimed] <;> omega

/-- How deeds go with what they come to: as long as there are more to come, each succeeds, and a
fault is that of the last. -/
def Comes {α : Type} (deeds : List Deed) : Except Fault α → Prop
  | .ok _ => ∀ d ∈ deeds, d.result = .ok ()
  | .error fault => ∃ before last, deeds = before ++ [last] ∧
      (∀ d ∈ before, d.result = .ok ()) ∧ last.result = .error fault

namespace Comes

variable {α β : Type} {fault : Fault} {value : α}

theorem singleton (act : Act) (result : Except Fault Unit) : Comes [⟨act, result⟩] result := by
  cases result with
  | ok => exact List.forall_mem_singleton.mpr rfl
  | error fault => exact ⟨[], _, rfl, nofun, rfl⟩

/-- Deeds that all succeed can come before any others. -/
theorem append {first second : List Deed} (h : Comes first (.ok value))
    {result : Except Fault β} (k : Comes second result) : Comes (first ++ second) result := by
  cases result with
  | ok => exact List.forall_mem_append.mpr ⟨h, k⟩
  | error fault =>
    obtain ⟨before, last, rfl, succeed, failed⟩ := k
    exact ⟨first ++ before, last, (List.append_assoc ..).symm,
      List.forall_mem_append.mpr ⟨h, succeed⟩, failed⟩

/-- After a deed that fails there is no other. -/
theorem last_of_failed {result : Except Fault α} {before after : List Deed} {failed : Deed}
    (h : Comes (before ++ failed :: after) result) (hf : failed.result ≠ .ok ()) :
    after = [] := by
  cases result with
  | ok => exact absurd (h failed (List.mem_append_right _ List.mem_cons_self)) hf
  | error fault =>
    obtain ⟨init, last, heq, succeed, -⟩ := h
    rcases List.eq_nil_or_concat after with rfl | ⟨rest, final, rfl⟩
    · rfl
    · -- the deed that failed would stand before the last
      rw [List.concat_eq_append, ← List.cons_append, ← List.append_assoc] at heq
      obtain ⟨rfl, -⟩ := List.append_inj' heq rfl
      exact absurd (succeed failed (List.mem_append_right _ List.mem_cons_self)) hf

/-- With others after them, the others are all there is after a deed that fails. -/
theorem mem_of_failed {result : Except Fault α} {deeds others before after : List Deed}
    {failed : Deed} (h : Comes deeds result) (heq : deeds ++ others = before ++ failed :: after)
    (hf : failed.result ≠ .ok ()) : ∀ d ∈ after, d ∈ others := by
  rcases List.append_eq_append_iff.mp heq with ⟨more, -, hothers⟩ | ⟨rest, hdeeds, hrest⟩
  · -- the deed that failed is one of the others
    intro d hd
    rw [hothers]
    exact List.mem_append_right _ (List.mem_cons_of_mem _ hd)
  · cases rest with
    | nil =>
      intro d hd
      rw [← List.nil_append others, ← hrest]
      exact List.mem_cons_of_mem _ hd
    | cons d rest =>
      obtain ⟨rfl, rfl⟩ := List.cons.inj hrest
      rw [hdeeds] at h
      rw [h.last_of_failed hf]
      exact fun d hd => hd

end Comes

namespace Console

variable {D I A : Type} [Display D] [Input I] [Audio A]

/-! ### Acts -/

/-- Do one act. Cycles and ticks take the timetable on to its next event. -/
def act (c : Console D I A) : Act → Except Fault Unit × Console D I A
  | .poll => c.poll
  | .step =>
    let reply := c.machine.step
    (reply.result.map fun _ => (),
      { c with machine := reply.machine, timetable := c.timetable.advance }.note reply.records)
  | .tick =>
    (.ok (), { c with machine := c.machine.tickBy 1, timetable := c.timetable.advance })
  | .present picture => c.present picture
  | .refresh picture => { c with machine := c.machine.takeFrame.2 }.present picture
  | .tell on =>
    match c.tell on with
    | (.error fault, c') => (.error fault, c')
    | (.ok (), c') => (.ok (), { c' with tone := on })
  | .hush => ((c.tell false).1, { (c.tell false).2 with tone := false })
  | .back =>
    (.ok (), { c with machine := c.machine.rewindBy c.machine.settings.cyclesPerFrame })
  | .others ticks => (.ok (), { c with machine := c.machine.tickBy ticks })
  | .startTicker none => (.ok (), { c with ticker := some .start })
  | .startTicker (some cause) => (.error (.unreadable cause), c)
  | .letGo ticks => (.ok (), c.letGo ticks)
  | .overrun => (.error .clockOverflow, c)

/-- Reading the input sets the keypad, if it succeeds, and leaves everything else of the machine
as it is. -/
theorem act_poll (c : Console D I A) : ∃ keypad journal, (c.act .poll).2 = { c with
    machine := { c.machine with keypad }
    input := (Input.poll c.input).peripheral
    journal } := by
  simp only [act, poll]
  split <;> exact ⟨_, _, rfl⟩

theorem act_tell (c : Console D I A) (on : Bool) :
    ∃ tone audio journal, (c.act (.tell on)).2 = { c with tone, audio, journal } := by
  simp only [act, tell]
  cases (Audio.setTone on c.audio).result <;> exact ⟨_, _, _, rfl⟩

theorem act_startTicker (c : Console D I A) (failure : Option String) :
    ∃ ticker, (c.act (.startTicker failure)).2 = { c with ticker } := by
  cases failure <;> exact ⟨_, rfl⟩

/-- Whether a console calls for an act: a cycle or a tick is the next event of its timetable, a
picture is the screen there is, a tone is told only if it is news, cycles are taken back only if
the user wants to go back, and a thread is started under settings that want one and let go of
if it is held. -/
def CallsFor (c : Console D I A) : Act → Prop
  | .step => c.timetable.next = .step
  | .tick => c.timetable.next = .tick
  | .present picture => picture = c.machine.snapshot.screen
  | .refresh picture =>
    c.machine.snapshot.redraw = true ∧ picture = c.machine.snapshot.screen
  | .tell on => on = c.machine.timers.tone ∧ on ≠ c.tone
  | .hush => c.tone = true
  | .back => Input.control c.input = .rewind
  | .startTicker _ => c.machine.settings.timerMode = .threaded
  | .letGo _ => c.ticker ≠ none
  | .poll | .others _ | .overrun => True

/-- What changes on a console between its acts: records and the time that has passed. -/
inductive Aside (c : Console D I A) : Console D I A → Prop where
  | noted (records : List Record) : Aside c (c.note records)
  | passed (elapsed : Nat) : Aside c { c with elapsed }

/-- From one console to another by deeds, in this order. -/
inductive Did : Console D I A → List Deed → Console D I A → Prop where
  | nothing (c : Console D I A) : Did c [] c
  | aside {c c' c'' : Console D I A} {deeds : List Deed} (change : c.Aside c')
      (rest : Did c' deeds c'') : Did c deeds c''
  | deed {c c'' : Console D I A} {deeds : List Deed} (act : Act) (called : c.CallsFor act)
      (rest : Did (c.act act).2 deeds c'') : Did c (⟨act, (c.act act).1⟩ :: deeds) c''

theorem Did.trans {c c' c'' : Console D I A} {first second : List Deed} (h : Did c first c')
    (k : Did c' second c'') : Did c (first ++ second) c'' := by
  induction h with
  | nothing => exact k
  | aside change _ ih => exact .aside change (ih k)
  | deed act called _ ih => exact .deed act called (ih k)

/-- A reply with the console it leads to is what some deeds with an outline come to. -/
def Does {α : Type} (c : Console D I A) (acts : List Act)
    (reply : Except Fault α × Console D I A) : Prop :=
  ∃ deeds, Did c deeds reply.2 ∧ Comes deeds reply.1 ∧ outline deeds = acts

namespace Does

variable {α β : Type} {c c' : Console D I A} {fault : Fault} {value : α} {acts : List Act}

theorem nothing (c : Console D I A) (value : α) : Does c [] (.ok value, c) :=
  ⟨[], .nothing c, nofun, rfl⟩

theorem ofAct (act : Act) (called : c.CallsFor act) :
    Does c ([act].filter Act.untimed) (c.act act) :=
  ⟨_, .deed act called (.nothing _), .singleton act _, rfl⟩

/-- What would outrun the clock fails by that. -/
theorem overrun (c : Console D I A) : Does c [] ((.error .clockOverflow : Except Fault α), c) :=
  ofAct .overrun trivial

theorem aside {reply : Except Fault α × Console D I A} (change : c.Aside c')
    (h : Does c' acts reply) : Does c acts reply := by
  obtain ⟨deeds, did, comes⟩ := h
  exact ⟨deeds, .aside change did, comes⟩

/-- What succeeds may go on. -/
theorem andThen {reply : Except Fault β × Console D I A} {first second : List Act}
    (h : Does c first (.ok value, c')) (k : Does c' second reply) :
    Does c (first ++ second) reply := by
  obtain ⟨deeds, did, comes, rfl⟩ := h
  obtain ⟨deeds', did', comes', rfl⟩ := k
  exact ⟨deeds ++ deeds', did.trans did', comes.append comes', outline_append deeds deeds'⟩

/-- What succeeds may succeed with another value. -/
theorem giving (h : Does c acts (.ok value, c')) (other : β) : Does c acts (.ok other, c') := h

/-- What fails ends the whole of which it is a part. -/
theorem failing (h : Does c acts ((.error fault : Except Fault α), c')) :
    Does c acts ((.error fault : Except Fault β), c') := h

end Does

/-! ### What deeds lead to -/

/-- Consoles that differ in the time that has passed and in their journals at most. -/
def Alike (c c' : Console D I A) : Prop := ∃ elapsed journal, c' = { c with elapsed, journal }

/-- An act does the same to alike consoles. -/
theorem Alike.act {c c' : Console D I A} (h : c.Alike c') (act : Act) :
    (c.act act).2.Alike (c'.act act).2 := by
  obtain ⟨elapsed, journal, rfl⟩ := h
  cases act with
  | poll =>
    simp only [Console.act, Console.poll]
    cases (Input.poll c.input).result <;> exact ⟨_, _, rfl⟩
  | tell on =>
    simp only [Console.act, Console.tell]
    cases (Audio.setTone on c.audio).result <;> exact ⟨_, _, rfl⟩
  | startTicker failure => cases failure <;> exact ⟨_, _, rfl⟩
  | _ => exact ⟨_, _, rfl⟩

/-- The console after the acts of deeds, one after the other. -/
def doAll (c : Console D I A) (deeds : List Deed) : Console D I A :=
  deeds.foldl (fun c d => (c.act d.act).2) c

theorem Alike.doAll {c c' : Console D I A} (h : c.Alike c') (deeds : List Deed) :
    (c.doAll deeds).Alike (c'.doAll deeds) := by
  induction deeds generalizing c c' with
  | nil => exact h
  | cons d rest ih => exact ih (h.act d.act)

/-- **Doing the acts again leads to the same machine, peripherals and timetable.** -/
theorem Did.alike {c c' : Console D I A} {deeds : List Deed} (h : Did c deeds c') :
    (c.doAll deeds).Alike c' := by
  induction h with
  | nothing c => exact ⟨c.elapsed, c.journal, rfl⟩
  | @aside c c₁ c' deeds change _ ih =>
    have aside : c₁.Alike c := by
      cases change <;> exact ⟨c.elapsed, c.journal, rfl⟩
    obtain ⟨_, _, hdone⟩ := aside.doAll deeds
    obtain ⟨elapsed, journal, hled⟩ := ih
    exact ⟨elapsed, journal, by rw [hled, hdone]⟩
  | deed act _ _ ih => exact ih

theorem Did.machine {c c' : Console D I A} {deeds : List Deed} (h : Did c deeds c') :
    c'.machine = (c.doAll deeds).machine := by
  obtain ⟨_, _, hled⟩ := h.alike
  rw [hled]

/-! ### Who holds a ticking thread -/

theorem ticker_act (c : Console D I A) (act : Act) : (c.act act).2.ticker = act.ticker c.ticker := by
  cases act with
  | poll =>
    obtain ⟨_, _, h⟩ := c.act_poll
    rw [h]
    rfl
  | tell on =>
    obtain ⟨_, _, _, h⟩ := c.act_tell on
    rw [h]
    rfl
  | startTicker failure => cases failure <;> rfl
  | _ => rfl

/-- What becomes of the ticking thread is told by the outline. -/
theorem Did.ticker {c c' : Console D I A} {deeds : List Deed} (h : Did c deeds c') :
    c'.ticker = (outline deeds).foldl (fun held act => act.ticker held) c.ticker := by
  induction h with
  | nothing => rfl
  | aside change _ ih =>
    rw [ih]
    cases change <;> rfl
  | @deed c _ deeds act _ _ ih =>
    rw [ih, ticker_act, outline, outline, List.map_cons, List.filter_cons]
    cases act <;> rfl

/-! ### What the timetable counts -/

omit [Display D] [Input I] [Audio A] in
/-- Nothing moves the timetable between deeds. -/
theorem Aside.timetable {c c' : Console D I A} (h : c.Aside c') : c'.timetable = c.timetable := by
  cases h <;> rfl

/-- Cycles and ticks move the timetable on, and no other act does. -/
theorem timetable_act {c : Console D I A} {act : Act} (called : c.CallsFor act) :
    (c.act act).2.timetable =
      c.timetable.moved (if act = .step then 1 else 0) (if act = .tick then 1 else 0) := by
  have stays (h : (c.act act).2.timetable = c.timetable) (hs : act ≠ .step) (ht : act ≠ .tick) :
      (c.act act).2.timetable =
        c.timetable.moved (if act = .step then 1 else 0) (if act = .tick then 1 else 0) := by
    rw [if_neg hs, if_neg ht, Timetable.moved_zero, h]
  cases act with
  | step =>
    rw [if_pos rfl, if_neg Act.noConfusion]
    rcases c.timetable.due_cases with h | h
    · cases h.next.symm.trans called
    · exact h.moved
  | tick =>
    rw [if_neg Act.noConfusion, if_pos rfl]
    rcases c.timetable.due_cases with h | h
    · exact h.moved
    · cases h.next.symm.trans called
  | poll =>
    obtain ⟨_, _, h⟩ := c.act_poll
    exact stays (by rw [h]) Act.noConfusion Act.noConfusion
  | tell on =>
    obtain ⟨_, _, _, h⟩ := c.act_tell on
    exact stays (by rw [h]) Act.noConfusion Act.noConfusion
  | startTicker failure =>
    obtain ⟨_, h⟩ := c.act_startTicker failure
    exact stays (by rw [h]) Act.noConfusion Act.noConfusion
  | present | refresh | hush | back | others | letGo | overrun =>
    exact stays rfl Act.noConfusion Act.noConfusion

/-- **The timetable counts the cycles and the ticks.** -/
theorem Did.timetable {c c' : Console D I A} {deeds : List Deed} (h : Did c deeds c') :
    c'.timetable = c.timetable.moved (deeds.countP (·.act = .step))
      (deeds.countP (·.act = .tick)) := by
  induction h with
  | nothing c => exact c.timetable.moved_zero.symm
  | aside change _ ih => rw [ih, change.timetable]
  | deed act called _ ih =>
    rw [ih, timetable_act called, Timetable.moved_moved, List.countP_cons, List.countP_cons,
      Nat.add_comm, Nat.add_comm (if act = .tick then 1 else 0)]
    simp only [decide_eq_true_eq]

/-! ### The frames of a run -/

/-- What the user wants of the next frame. -/
def wish (c : Console D I A) : Control := Input.control (Input.poll c.input).peripheral

/-- A frame of a run: the console before it, and what passed before it. -/
structure Frame (D I A : Type) where
  before : Console D I A
  gap : Gap

/-- The acts of a frame that no passage of time brings: others have ticked the timers, the input
is read, and cycles are taken back if it could be read and that is what the user wants. -/
def Frame.outline (f : Frame D I A) : List Act :=
  .others f.gap.ticks :: .poll ::
    match (Input.poll f.before.input).result with
    | .error _ => []
    | .ok _ => if f.before.wish = .rewind then [.back] else []

/-- The frames of a run until one ends it. -/
def framesOf : List Gap → Console D I A → List (Frame D I A)
  | [], _ => []
  | gap :: rest, c =>
    ⟨c, gap⟩ ::
      match c.frame gap with
      | (.ok .goingOn, c') => framesOf rest c'
      | _ => []

/-- The frames of a run. -/
def framesOfRun (threadFailure : Option String) (gaps : List Gap) (c : Console D I A) :
    List (Frame D I A) :=
  match c.start threadFailure with
  | (.error _, _) => []
  | (.ok (), c') => c'.framesOf gaps

/-- The acts of a run, without its end, that no passage of time brings. -/
def outlineOfRun (threadFailure : Option String) (gaps : List Gap) (c : Console D I A) :
    List Act :=
  (if c.machine.settings.timerMode = .threaded then [.startTicker threadFailure] else []) ++
    (c.framesOfRun threadFailure gaps).flatMap Frame.outline

/-! ### Every part of the console -/

variable (c : Console D I A)

theorem does_updateTone : Does c [] c.updateTone := by
  by_cases h : c.machine.timers.tone = c.tone
  · rw [updateTone_of_tone h]
    exact .nothing c ()
  · rw [updateTone_of_change h]
    exact .ofAct (.tell c.machine.timers.tone) ⟨rfl, h⟩

theorem does_showFrame : Does c [] c.showFrame := by
  simp only [showFrame, Machine.takeFrame]
  split
  · exact .nothing c ()
  · rename_i picture machine htake
    split at htake <;> cases htake
    rename_i hredraw
    have hshown : Does c [] (c.act (.refresh c.machine.snapshot.screen)) :=
      .ofAct _ ⟨hredraw, rfl⟩
    rw [act, Machine.takeFrame, if_pos hredraw] at hshown
    exact hshown

theorem does_settle : Does c [] c.settle := by
  have htone := c.does_updateTone
  simp only [settle]
  generalize c.updateTone = reply at htone ⊢
  rcases reply with ⟨_ | _, c'⟩
  · exact htone.failing
  · exact htone.andThen c'.does_showFrame

/-- The event that is next is an act, and what has to follow it. -/
theorem does_perform :
    Does c [] ({ c with timetable := c.timetable.advance }.perform c.timetable.next) := by
  cases hnext : c.timetable.next with
  | tick =>
    have hticked : Does c [] (c.act .tick) := .ofAct _ hnext
    have htone := does_updateTone
      { c with machine := c.machine.tickBy 1, timetable := c.timetable.advance }
    simp only [perform]
    generalize { c with machine := c.machine.tickBy 1, timetable := c.timetable.advance }.updateTone
      = reply at htone ⊢
    rcases reply with ⟨_ | _, c'⟩
    · exact hticked.andThen htone.failing
    · exact hticked.andThen (htone.giving _)
  | step =>
    have hstepped : Does c [] (c.act .step) := .ofAct _ hnext
    simp only [act] at hstepped
    simp only [perform]
    split <;> rename_i hresult <;> rw [hresult] at hstepped
    · exact hstepped.failing
    · exact hstepped.giving _
    · exact hstepped.giving _
    · have hsettled := does_settle
        ({ c with machine := c.machine.step.machine, timetable := c.timetable.advance }.note
          c.machine.step.records)
      split <;> rename_i hsettle <;> rw [hsettle] at hsettled
      · exact hstepped.andThen hsettled.failing
      · exact hstepped.andThen (hsettled.giving _)

/-- A passage of time is what its events come to, one after the other. -/
theorem does_advanceTo (target : Nat) (t : Timetable) (p : Progress) (ht : c.timetable = t) :
    Does c [] (advanceTo target t c p) := by
  fun_induction advanceTo target t c p with
  | case1 t c p due hnone => exact .overrun c
  | case2 t c p due t' hadvance fault c' hperform =>
    have hevent := c.does_perform
    rw [ht, ← Timetable.eq_advance_of_advance? hadvance, hperform] at hevent
    exact hevent.failing
  | case3 t c p due t' hadvance beat c' hperform stops =>
    have hevent := c.does_perform
    rw [ht, ← Timetable.eq_advance_of_advance? hadvance, hperform] at hevent
    exact hevent.giving _
  | case4 t c p due t' hadvance beat c' hperform goesOn ih =>
    have hevent := c.does_perform
    rw [ht, ← Timetable.eq_advance_of_advance? hadvance, hperform] at hevent
    exact hevent.andThen (ih (performed_perform hperform).timetable)
  | case5 t c p due => exact .nothing c p

theorem does_advance (span : Nat) : Does c [] (c.advance span) := by
  cases hadd : Span.add? c.elapsed span with
  | none =>
    rw [advance_overflow hadd]
    exact .overrun c
  | some target =>
    have hto := c.does_advanceTo target c.timetable .none rfl
    rw [advance_of_add? hadd]
    generalize advanceTo target c.timetable c .none = reply at hto ⊢
    rcases reply with ⟨_ | progress, c'⟩
    · exact hto.failing
    · have htone := Does.aside (.passed target) { c' with elapsed := target }.does_updateTone
      simp only
      generalize { c' with elapsed := target }.updateTone = reply at htone ⊢
      rcases reply with ⟨_ | _, c''⟩
      · exact hto.andThen htone.failing
      · exact hto.andThen (htone.giving _)

/-- Going back is called for only if the user wants to. -/
theorem does_rewindFrame (back : Input.control c.input = .rewind) :
    Does c [.back] c.rewindFrame := by
  have hback : Does c [.back] (c.act .back) := .ofAct _ back
  exact hback.andThen (does_showFrame _)

theorem does_runFrame (span : Nat) : Does c [] (c.runFrame span) := by
  have hadvance := c.does_advance span
  simp only [runFrame]
  generalize c.advance span = reply at hadvance ⊢
  rcases reply with ⟨_ | progress, c'⟩
  · exact hadvance.failing
  · simp only
    split <;> exact hadvance.giving _

theorem does_obey (span : Nat) :
    Does c (if Input.control c.input = .rewind then [.back] else [])
      (c.obey span (Input.control c.input)) := by
  cases hcontrol : Input.control c.input with
  | quit => exact .aside (.noted _) (.nothing _ _)
  | rewind =>
    have hrewind := c.does_rewindFrame hcontrol
    simp only [obey]
    generalize c.rewindFrame = reply at hrewind ⊢
    rcases reply with ⟨_ | _, c'⟩
    · exact hrewind.failing
    · exact hrewind.giving _
  | run => exact c.does_runFrame span
  | fastForward =>
    show Does c [] _
    simp only [obey]
    split
    · exact c.does_runFrame _
    · exact .overrun c

theorem does_start (threadFailure : Option String) :
    Does c (if c.machine.settings.timerMode = .threaded then [.startTicker threadFailure] else [])
      (c.start threadFailure) := by
  have hshow (c : Console D I A) : Does c [] (c.present c.machine.snapshot.screen) :=
    .ofAct (.present c.machine.snapshot.screen) rfl
  simp only [start]
  split
  · have hstart : Does c [.startTicker threadFailure] (c.act (.startTicker threadFailure)) :=
      .ofAct _ ‹_›
    cases threadFailure with
    | some cause => exact hstart
    | none => exact hstart.andThen (hshow { c with ticker := some .start })
  · exact hshow c

/-- **A frame has its outline.** -/
theorem does_frame (gap : Gap) : Does c (Frame.outline ⟨c, gap⟩) (c.frame gap) := by
  have hothers : Does c [.others gap.ticks] (c.act (.others gap.ticks)) := .ofAct _ trivial
  have hpoll : Does { c with machine := c.machine.tickBy gap.ticks } [.poll]
      { c with machine := c.machine.tickBy gap.ticks }.poll := .ofAct .poll trivial
  simp only [frame, Frame.outline]
  cases hread : (Input.poll c.input).result with
  | error cause =>
    simp only [poll, hread] at hpoll ⊢
    exact hothers.andThen hpoll
  | ok keypad =>
    simp only [poll, hread] at hpoll ⊢
    exact hothers.andThen (hpoll.andThen (does_obey _ _))

theorem does_frames (gaps : List Gap) :
    Does c ((c.framesOf gaps).flatMap Frame.outline) (c.frames gaps) := by
  induction gaps generalizing c with
  | nil => exact .nothing c _
  | cons gap rest ih =>
    have hframe := c.does_frame gap
    simp only [frames, framesOf, List.flatMap_cons]
    generalize c.frame gap = reply at hframe ⊢
    rcases reply with ⟨_ | _ | _, c'⟩
    · rw [List.flatMap_nil, List.append_nil]
      exact hframe.failing
    · exact hframe.andThen (ih c')
    · rw [List.flatMap_nil, List.append_nil]
      exact hframe.giving _

/-- The frames of a run, from its beginning on, without its end. -/
def loop (threadFailure : Option String) (gaps : List Gap) (c : Console D I A) :
    Except Fault Standing × Console D I A :=
  match c.start threadFailure with
  | (.error fault, c) => (.error fault, c)
  | (.ok (), c) => c.frames gaps

/-- **All the frames of a run are deeds, of which at most the last fails**, and then so does the
run. -/
theorem does_loop (threadFailure : Option String) (gaps : List Gap) :
    Does c (c.outlineOfRun threadFailure gaps) (c.loop threadFailure gaps) := by
  have hstart := c.does_start threadFailure
  simp only [loop, outlineOfRun, framesOfRun]
  generalize c.start threadFailure = reply at hstart ⊢
  rcases reply with ⟨_ | _, c'⟩
  · rw [List.flatMap_nil, List.append_nil]
    exact hstart.failing
  · exact hstart.andThen (c'.does_frames gaps)

end Console
end ChipEight
