import ChipEight.Proofs.Course

/-! The wish to be shown.

A display that takes a machine's picture now and then is given one only where the machine
wishes it to be shown again. `Redrawn` says what the way from one snapshot to another owes
such a display: a screen that changes raises the wish, and nothing takes it back.
Instructions, cycles and going back keep to it. Loading a program does not: it leaves a
blank screen without the wish, whatever the screen showed before. `meaning_perform` says
that these are the two things an operation can mean to a display, and `takeFrame_session`
what follows for a display that looks twice. -/
namespace ChipEight

/-- Whether an instruction changes the screen. -/
def Instruction.draws : Instruction → Bool
  | .clear | .draw _ _ _ => true
  | _ => false

/-- What a display is owed from one snapshot to another, between which the screen was drawn on
or not. -/
structure Redrawn (s : Snapshot) (drew : Bool) (t : Snapshot) : Prop where
  redraw : t.redraw = (drew || s.redraw)
  screen : drew = false → t.screen = s.screen

namespace Redrawn

theorem undrawn {s t : Snapshot} (screen : t.screen = s.screen) (redraw : t.redraw = s.redraw) :
    Redrawn s false t :=
  ⟨redraw, fun _ => screen⟩

theorem drawn {s t : Snapshot} (redraw : t.redraw = true) : Redrawn s true t :=
  ⟨redraw, nofun⟩

theorem skipIf (s : Snapshot) (condition : Bool) : Redrawn s false (s.skipIf condition) := by
  cases condition <;> exact .undrawn rfl rfl

/-- What is owed after a result that is moved on. -/
theorem map {s t : Snapshot} {drew : Bool} {r : Except Fault Snapshot}
    (owed : ∀ u, r = .ok u → Redrawn s drew u) (f : Snapshot → Snapshot)
    (hf : ∀ u, (f u).screen = u.screen ∧ (f u).redraw = u.redraw) (h : r.map f = .ok t) :
    Redrawn s drew t := by
  cases r with
  | error fault => cases h
  | ok u =>
    cases h
    obtain ⟨hscreen, hredraw⟩ := hf u
    have hu := owed u rfl
    exact ⟨hredraw.trans hu.redraw, fun hd => hscreen.trans (hu.screen hd)⟩

end Redrawn

open Snapshot in
/-- **An instruction that changes the screen wishes it to be shown**, and no instruction takes
such a wish back. -/
theorem execute_redrawn {around : Surroundings} {s t : Snapshot} {d : Devices} {i : Instruction}
    (h : (execute around s d i).1 = .ok t) : Redrawn s i.draws t := by
  cases i with
  | clear => cases h; exact .drawn rfl
  | draw x y n =>
    refine .map (fun u hu => ?_) next (fun _ => ⟨rfl, rfl⟩) h
    rw [drawSprite_ok hu]
    exact .drawn rfl
  | ret =>
    rw [leave_ok h]
    exact .undrawn rfl rfl
  | call target =>
    rw [enter_ok h]
    exact .undrawn rfl rfl
  | skipIfByte | skipUnlessByte | skipIfSame | skipUnlessSame | skipIfKey | skipUnlessKey =>
    cases h
    exact .skipIf s _
  | or | and | xor =>
    cases h
    rw [logic_eq]
    exact .undrawn rfl rfl
  | decimal x =>
    refine .map (fun u hu => ?_) next (fun _ => ⟨rfl, rfl⟩) h
    rw [storeAtIndex_ok hu]
    exact .undrawn rfl rfl
  | store x =>
    refine .map (fun u hu => ?_)
      (fun u => {u.next with index := s.indexAfterBlock around.dialect x}) (fun _ => ⟨rfl, rfl⟩) h
    rw [storeAtIndex_ok hu]
    exact .undrawn rfl rfl
  | load x =>
    refine .map (fun u hu => ?_)
      (fun u => {u.next with index := s.indexAfterBlock around.dialect x}) (fun _ => ⟨rfl, rfl⟩) h
    rw [loadRegisters_ok hu]
    exact .undrawn rfl rfl
  | unknown op =>
    obtain rfl := execute_unknown_ok h
    exact .undrawn rfl rfl
  | _ => cases h; exact .undrawn rfl rfl

namespace Machine

/-- Whether a machine's next cycle runs an instruction that changes the screen. -/
def draws (m : Machine) : Bool :=
  match m.step.result with
  | .ok (.executed instruction) => instruction.draws
  | _ => false

/-- Waiting for a key neither draws nor takes the wish back. -/
theorem redrawn_watchKeypad (m : Machine) (wait : KeyWait) :
    Redrawn m.snapshot false (m.watchKeypad wait).snapshot := by
  obtain ⟨registers, keyWait, hwatched⟩ := m.watchKeypad_eq wait
  rw [hwatched]
  exact .undrawn rfl rfl

/-- A cycle keeps to what a display is owed, whatever course it takes. -/
theorem redrawn_step (m : Machine) : Redrawn m.snapshot m.draws m.step.machine.snapshot := by
  have course := m.course_step
  unfold draws
  generalize m.step = reply at course ⊢
  cases course with
  | waits wait _ => exact m.redrawn_watchKeypad wait
  | strays | spins | faults => exact .undrawn rfl rfl
  | runs op next d _ _ hrun =>
    have hran : (execute m.surroundings m.snapshot m.devices op.decode).1 = .ok next := by
      rw [hrun]
    exact execute_redrawn hran

/-- Going back wishes the screen to be shown wherever it leads. -/
theorem redrawn_rewind (m : Machine) : Redrawn m.snapshot m.rewind.1 m.rewind.2.snapshot := by
  rcases m.rewind_cases with ⟨_, hr⟩ | ⟨s, rest, _, hr⟩ <;> rw [hr]
  · exact .undrawn rfl rfl
  · exact .drawn rfl

theorem redraw_rewindBy {m : Machine} (h : m.snapshot.redraw = true) (n : Nat) :
    (m.rewindBy n).snapshot.redraw = true := by
  induction n generalizing m with
  | zero => exact h
  | succ n ih =>
    have hback : m.rewind.2.snapshot.redraw = true := by
      rw [m.redrawn_rewind.redraw, h, Bool.or_true]
    simp only [rewindBy]
    split <;> rename_i hr <;> rw [hr] at hback
    · exact hback
    · exact ih hback

/-- So does going back by several cycles, as far as it goes. -/
theorem redrawn_rewindBy (m : Machine) {n : Nat} (hn : 0 < n) :
    Redrawn m.snapshot m.rewind.1 (m.rewindBy n).snapshot := by
  obtain ⟨n, rfl⟩ := Nat.exists_eq_add_one.mpr hn
  rcases m.rewind_cases with ⟨_, hr⟩ | ⟨s, rest, _, hr⟩
  · simp only [rewindBy, hr]
    exact .undrawn rfl rfl
  · simp only [rewindBy, hr]
    exact .drawn (redraw_rewindBy rfl n)

/-- Whether an operation loads a program, be it the one that is loaded already. -/
def reloads (m : Machine) (operation : Operation) : Bool :=
  match operation, (m.perform operation).result with
  | .load _, .ok _ | .loadFrom _, .ok _ | .reset, .ok _ => true
  | _, _ => false

/-- Whether one of a sequence of operations loads a program. -/
def reloadsIn (m : Machine) : List Operation → Bool
  | [] => false
  | operation :: rest => m.reloads operation || (m.perform operation).machine.reloadsIn rest

/-- What an operation means to a display: the machine starts again, or the display gets what it
is owed. -/
inductive Meaning (m : Machine) (operation : Operation) : Prop where
  | restarts (memory : Memory) (program : List UInt8) : m.reloads operation = true →
      (m.perform operation).machine = {m.restarted memory with program} → Meaning m operation
  | owes (drew : Bool) : m.reloads operation = false →
      Redrawn m.snapshot drew (m.perform operation).machine.snapshot → Meaning m operation

/-- An operation that is to load a program does so if its reply is a success. -/
theorem reloads_eq_isOk {m : Machine} {operation : Operation} {reply : Reply Unit}
    (h : m.perform operation = reply.map fun _ => .done)
    (ho : operation = .reset ∨ (∃ program, operation = .load program) ∨
      ∃ source, operation = .loadFrom source) : m.reloads operation = reply.result.isOk := by
  obtain rfl | ⟨_, rfl⟩ | ⟨_, rfl⟩ := ho <;> simp only [reloads, h, Reply.map] <;>
    cases reply.result <;> rfl

/-- An operation that is to load a program starts the machine again or leaves it as it is. -/
theorem meaning_of_reloads {m : Machine} {operation : Operation} {reply : Reply Unit}
    (hr : m.Reloads reply) (h : m.perform operation = reply.map fun _ => .done)
    (ho : operation = .reset ∨ (∃ program, operation = .load program) ∨
      ∃ source, operation = .loadFrom source) : m.Meaning operation := by
  have hloads := reloads_eq_isOk h ho
  cases hr with
  | refuses => exact .owes false hloads (by rw [h]; exact .undrawn rfl rfl)
  | restarts memory program => exact .restarts memory program hloads (by rw [h]; rfl)

/-- **Every operation but taking the picture itself has one of the two meanings.** -/
theorem meaning_perform (m : Machine) {operation : Operation} (untaken : operation ≠ .takeFrame) :
    m.Meaning operation := by
  cases operation with
  | load program => exact meaning_of_reloads (m.reloads_load program) rfl (.inr (.inl ⟨_, rfl⟩))
  | loadFrom source =>
    exact meaning_of_reloads (m.reloads_loadFrom source) rfl (.inr (.inr ⟨_, rfl⟩))
  | reset => exact meaning_of_reloads m.reloads_reset rfl (.inl rfl)
  | step => exact .owes m.draws rfl m.redrawn_step
  | rewind => exact .owes m.rewind.1 rfl m.redrawn_rewind
  | takeFrame => exact absurd rfl untaken
  | press | release | setKeypad | setDelay | setSound | tick =>
    exact .owes false rfl (.undrawn rfl rfl)

/-! ### What a display misses -/

/-- A display that was last given this picture misses nothing at this machine: the picture is
still what the screen shows, unless another one is to be shown. -/
def Covers (m : Machine) (shown : Screen) : Prop :=
  m.snapshot.redraw = false → m.snapshot.screen = shown

/-- A display is given what it is missing. -/
theorem Covers.takeFrame {m : Machine} {shown : Screen} (h : m.Covers shown)
    (differs : m.snapshot.screen ≠ shown) : m.takeFrame.1 = some m.snapshot.screen := by
  cases hredraw : m.snapshot.redraw with
  | false => exact absurd (h hredraw) differs
  | true => rw [Machine.takeFrame, if_pos hredraw]

/-- A display that has just taken the picture misses nothing. -/
theorem covers_takeFrame (m : Machine) : m.takeFrame.2.Covers m.snapshot.screen := by
  rw [takeFrame_eq]
  exact fun _ => rfl

/-- An operation that starts the machine again makes the blank screen count as given, whatever
the display was given; any other leaves the display with nothing to miss. -/
theorem Covers.perform {m : Machine} {shown : Screen} (h : m.Covers shown)
    {operation : Operation} (untaken : operation ≠ .takeFrame) :
    (m.perform operation).machine.Covers (if m.reloads operation then .blank else shown) := by
  cases m.meaning_perform untaken with
  | restarts memory program reloaded hm =>
    rw [hm, reloaded]
    exact fun _ => rfl
  | owes drew kept owed =>
    rw [kept]
    intro hredraw
    rw [owed.redraw, Bool.or_eq_false_iff] at hredraw
    exact (owed.screen hredraw.1).trans (h hredraw.2)

theorem Covers.session {m : Machine} {shown : Screen} (h : m.Covers shown)
    {operations : List Operation} (untaken : .takeFrame ∉ operations) :
    (m.session operations).Covers (if m.reloadsIn operations then .blank else shown) := by
  induction operations generalizing m shown with
  | nil => exact h
  | cons operation rest ih =>
    obtain ⟨hfirst, hrest⟩ := not_or.mp (List.mem_cons.not.mp untaken)
    have covers := ih (h.perform (Ne.symm hfirst)) hrest
    -- the screen that counts as given is the blank one if the first or a later operation loads
    rw [reloadsIn]
    cases hreloads : m.reloads operation <;> rw [hreloads] at covers
    · exact covers
    · rw [if_pos rfl, ite_self] at covers
      exact covers

/-- **Between two pictures taken, a screen that changes is not hidden**, as long as no program
is loaded: whatever else is done, the second picture is there if the screen is not what it
was at the first. After a program was loaded it is there if the screen is not blank. Right
after loading it never is: a screen that goes blank in that way stays hidden. -/
theorem takeFrame_session (m : Machine) (operations : List Operation)
    (untaken : .takeFrame ∉ operations) :
    let first := m.takeFrame.2
    let second := first.session operations
    (first.reloadsIn operations = false → second.snapshot.screen ≠ m.snapshot.screen →
        second.takeFrame.1 = some second.snapshot.screen) ∧
      (first.reloadsIn operations = true → second.snapshot.screen ≠ .blank →
        second.takeFrame.1 = some second.snapshot.screen) ∧
      ∀ operation, second.reloads operation = true →
        (second.perform operation).machine.snapshot.screen = .blank ∧
          (second.perform operation).machine.takeFrame.1 = none := by
  intro first second
  have covers : second.Covers (if first.reloadsIn operations then .blank else m.snapshot.screen) :=
    m.covers_takeFrame.session untaken
  refine ⟨fun kept differs => ?_, fun reloaded differs => ?_, fun operation reloaded => ?_⟩
  · rw [kept] at covers
    exact covers.takeFrame differs
  · rw [reloaded] at covers
    exact covers.takeFrame differs
  · have loads : operation ≠ .takeFrame := by
      rintro rfl
      cases reloaded
    cases second.meaning_perform loads with
    | restarts memory program _ hm =>
      rw [hm]
      exact ⟨rfl, rfl⟩
    | owes drew kept => exact absurd (reloaded.symm.trans kept) Bool.true_eq_false.mp

/-- A program that draws a glyph, which a reset takes away without a word. -/
theorem takeFrame_session_glyph :
    let m := (new .standard default).session [.load [0xA0, 0x50, 0xD0, 0x05], .step]
    (m.takeFrame.2.session [.step]).takeFrame.1 =
        some (m.takeFrame.2.session [.step]).snapshot.screen ∧
      ((m.takeFrame.2.session [.step]).perform .reset).machine.snapshot.screen = .blank ∧
      ((m.takeFrame.2.session [.step]).perform .reset).machine.takeFrame.1 = none := by
  intro m
  obtain ⟨differs, kept, reloaded⟩ :
      (m.takeFrame.2.session [.step]).snapshot.screen ≠ m.snapshot.screen ∧
        m.takeFrame.2.reloadsIn [.step] = false ∧
        (m.takeFrame.2.session [.step]).reloads .reset = true := by
    decide +kernel
  obtain ⟨shown, -, hidden⟩ := takeFrame_session m [.step] (by decide)
  exact ⟨shown kept differs, hidden .reset reloaded⟩

/-- A screen that a reset changes is hidden. -/
theorem reset_hides_screen :
    ¬ ∀ (m : Machine) (operations : List Operation), .takeFrame ∉ operations →
      (m.takeFrame.2.session operations).snapshot.screen ≠ m.snapshot.screen →
        (m.takeFrame.2.session operations).takeFrame.1 =
          some (m.takeFrame.2.session operations).snapshot.screen := by
  intro shows
  let m := (new .standard default).session [.load [0xA0, 0x50, 0xD0, 0x05], .step, .step]
  obtain ⟨hidden, differs⟩ : (m.takeFrame.2.session [.reset]).takeFrame.1 = none ∧
      (m.takeFrame.2.session [.reset]).snapshot.screen ≠ m.snapshot.screen := by
    decide +kernel
  have shown := shows m [.reset] (by decide) differs
  exact Option.some_ne_none _ (shown.symm.trans hidden)

end Machine
end ChipEight
