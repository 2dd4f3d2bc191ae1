import ChipEight.Desktop.Keyboard
import ChipEight.Proofs.Stepping
import ChipEight.Proofs.Waiting

/-! Short taps.

A key that goes down and up again between two readings of the keyboard is still down on the next
keypad that is read (`reading_of_taps`), and up on the one after. A program that waits for a key
needs a cycle to see it down and a cycle to see it up. A frame of running that is as long as a
cycle takes one, so `tap_stored` can follow a tap through the keyboard, the reading, the
passage of time and the wait into the register: it is not lost. -/
namespace ChipEight

/-! ### The keyboard -/

/-- What an event says about a key of the keypad: which one it is, and whether it is down now. -/
def KeyEvent.move? : KeyEvent → Option (Nibble × Bool)
  | .down (some key) => key.padKey?.map (·, true)
  | .up (some key) => key.padKey?.map (·, false)
  | _ => none

namespace KeyLatch

/-- A key moved. -/
def move (l : KeyLatch) : Nibble × Bool → KeyLatch
  | (key, true) => l.press key
  | (key, false) => l.release key

/-- A key counts as tapped once it went down. -/
theorem tapped_moves (l : KeyLatch) (moves : List (Nibble × Bool)) (key : Nibble) :
    (moves.foldl move l).tapped.isDown key =
      (l.tapped.isDown key || decide ((key, true) ∈ moves)) := by
  induction moves generalizing l with
  | nil => simp
  | cons first rest ih =>
    obtain ⟨other, down⟩ := first
    rw [List.foldl_cons, ih]
    cases down with
    | true => simp [move, press, Bool.or_comm, Bool.or_assoc, Bool.or_left_comm]
    | false => simp [move, release]

/-- A key is held if its last move was down, or if it has not moved and was held before. -/
theorem held_moves (l : KeyLatch) (moves : List (Nibble × Bool)) (key : Nibble) :
    (moves.foldl move l).held.isDown key =
      ((moves.filter (·.1 = key)).getLast?.map Prod.snd).getD (l.held.isDown key) := by
  induction moves using List.reverseRecOn with
  | nil => rfl
  | append_singleton before last ih =>
    obtain ⟨other, down⟩ := last
    rw [List.foldl_append, List.filter_append]
    by_cases h : other = key
    · subst h
      cases down <;> simp [move, press, release]
    · have hkept : (before.foldl move l |>.move (other, down)).held.isDown key =
          (before.foldl move l).held.isDown key := by
        cases down <;> simp [move, press, release, Ne.symm h]
      simpa [h] using hkept.trans ih

/-- A key that was up and does not go down is up. -/
theorem held_moves_up {l : KeyLatch} {moves : List (Nibble × Bool)} {key : Nibble}
    (up : l.held.isDown key = false) (h : (key, true) ∉ moves) :
    (moves.foldl move l).held.isDown key = false := by
  rw [held_moves, up]
  cases hlast : (moves.filter (·.1 = key)).getLast? with
  | none => rfl
  | some last =>
    obtain ⟨other, down⟩ := last
    obtain ⟨hmoved, hkey⟩ := List.mem_filter.mp (List.mem_of_getLast? hlast)
    obtain rfl : other = key := by simpa using hkey
    cases down with
    | true => exact absurd hmoved h
    | false => rfl

end KeyLatch

namespace Keyboard

/-- The moves of the keypad's keys in the events of the next reading, in order. -/
def moves (k : Keyboard) : List (Nibble × Bool) := k.batch.filterMap KeyEvent.move?

/-- Of the keypad, just this key goes down before the next reading and is up by then again, and no
other key is held meanwhile. -/
structure Taps (k : Keyboard) (key : Nibble) : Prop where
  down : (key, true) ∈ k.moves
  up : (k.moves.filter (·.1 = key)).getLast? = some (key, false)
  alone : ∀ other, other ≠ key → k.keys.held.isDown other = false ∧ (other, true) ∉ k.moves

/-- The events of the next reading do not touch a key of the keypad. -/
def Leaves (k : Keyboard) (key : Nibble) : Prop := ∀ down, (key, down) ∉ k.moves

theorem keys_handle (k : Keyboard) (event : KeyEvent) :
    (k.handle event).keys = event.move?.toList.foldl KeyLatch.move k.keys := by
  cases event with
  | down key =>
    cases key with
    | none => rfl
    | some key =>
      simp only [handle, keyDown, KeyEvent.move?]
      cases key.padKey? with
      | some pad => rfl
      | none => cases key <;> rfl
  | up key =>
    cases key with
    | none => rfl
    | some key =>
      simp only [handle, keyUp, KeyEvent.move?]
      cases key.padKey? with
      | some pad => rfl
      | none => cases key <;> rfl
  | quit | other => rfl

theorem keys_foldl_handle (events : List KeyEvent) (k : Keyboard) :
    (events.foldl handle k).keys =
      (events.filterMap KeyEvent.move?).foldl KeyLatch.move k.keys := by
  induction events generalizing k with
  | nil => rfl
  | cons event rest ih =>
    rw [List.foldl_cons, ih, keys_handle, List.filterMap_cons]
    cases event.move? <;> rfl

theorem keys_absorb (k : Keyboard) : k.absorb.keys = k.moves.foldl KeyLatch.move k.keys :=
  keys_foldl_handle _ _

/-- A key that is tapped is up after the events. -/
theorem held_of_taps {k : Keyboard} {key : Nibble} (h : k.Taps key) :
    k.absorb.keys.held.isDown key = false := by
  rw [keys_absorb, KeyLatch.held_moves, h.up]
  rfl

/-- **A key that is tapped is read as down**, and no other key is. -/
theorem reading_of_taps {k : Keyboard} {key : Nibble} (h : k.Taps key)
    (untapped : k.keys.tapped = .released) :
    k.absorb.keys.reading.lowest? = some key := by
  have htapped (other : Nibble) :
      k.absorb.keys.tapped.isDown other = decide ((other, true) ∈ k.moves) := by
    rw [keys_absorb, KeyLatch.tapped_moves, untapped, Keypad.isDown_released, Bool.false_or]
  refine Keypad.lowest?_eq_some.mpr ⟨?_, fun other hother => ?_⟩
  · simp [KeyLatch.reading, htapped, h.down]
  · obtain ⟨hheld, hdown⟩ := h.alone other (Fin.ne_of_lt hother)
    have hup : k.absorb.keys.held.isDown other = false := by
      rw [keys_absorb]
      exact KeyLatch.held_moves_up hheld hdown
    simp [KeyLatch.reading, htapped, hdown, hup]

/-- A key that was up and is left alone is not read as down. -/
theorem reading_of_leaves {k : Keyboard} {key : Nibble} (h : k.Leaves key)
    (untapped : k.keys.tapped = .released) (up : k.keys.held.isDown key = false) :
    k.absorb.keys.reading.isDown key = false := by
  rw [KeyLatch.reading, Keypad.isDown_union, keys_absorb, KeyLatch.held_moves_up up (h true),
    KeyLatch.tapped_moves, untapped]
  simp [h true]

end Keyboard

/-! ### Machines -/

namespace Machine

/-- A key that the machine's wait has noted is still down, so it is not stored yet. -/
def Holding (m : Machine) : Prop :=
  ∀ x key, m.snapshot.keyWait = some ⟨x, some key⟩ → m.keypad.isDown key = true

/-- On a keypad that does not change, a key that was noted stays down. -/
theorem Holding.step {m : Machine} (h : m.Holding) : m.step.machine.Holding := by
  have course := m.course_step
  generalize m.step = reply at course ⊢
  cases course with
  | waits wait hwait =>
    intro x key hnoted
    obtain ⟨register, pressed⟩ := wait
    cases pressed with
    | none =>
      simp only [watchKeypad] at hnoted ⊢
      cases hlowest : m.keypad.lowest? with
      | none =>
        rw [hlowest] at hnoted
        exact h x key hnoted
      | some lowest =>
        rw [hlowest] at hnoted
        cases hnoted
        exact (Keypad.of_lowest? hlowest).1
    | some noted =>
      have hdown := h register noted hwait
      simp only [watchKeypad, hdown, if_true] at hnoted ⊢
      exact h x key hnoted
  | strays | spins | faults => exact h
  | runs op next d fetches _ hrun =>
    intro x key hnoted
    rcases execute_keyWait (congrArg Prod.fst hrun) with hkept | ⟨register, -, hbegan⟩
    · cases (hkept.trans fetches.awake).symm.trans hnoted
    · cases hbegan.symm.trans hnoted

theorem Holding.undergo {m : Machine} (event : Event) (h : m.Holding) :
    (m.undergo event).Holding := by
  cases event with
  | tick => exact h
  | step =>
    simp only [Machine.undergo]
    split
    · rw [takeFrame_eq]
      exact h.step
    · exact h.step

/-- A wait that holds its key stores nothing. -/
theorem Holding.registers {m : Machine} (h : m.Holding)
    (waits : m.step.result = .ok .awaitingKey) :
    m.step.machine.snapshot.registers = m.snapshot.registers := by
  have course := m.course_step
  generalize m.step = reply at course waits ⊢
  cases course with
  | waits wait hwait =>
    obtain ⟨register, pressed⟩ := wait
    cases pressed with
    | none =>
      simp only [watchKeypad]
      cases m.keypad.lowest? <;> rfl
    | some noted =>
      simp only [watchKeypad, h register noted hwait, if_true]
  | strays | spins | faults | runs => cases waits

/-- A machine whose program waits is at its stage of the wait already. -/
theorem atStage_of_waits {m : Machine} {x : Nibble} (h : m.snapshot.keyWait = some ⟨x, none⟩) :
    m.atStage x .idle = m := by
  rw [atStage, Snapshot.atStage, ← h]

theorem atStage_of_noted {m : Machine} {x key : Nibble}
    (h : m.snapshot.keyWait = some ⟨x, some key⟩) : m.atStage x (.noted key) = m := by
  rw [atStage, Snapshot.atStage, ← h]

/-- While one keypad is looked at on which a key is the lowest, every cycle waits, and the key is
noted by the first of them. -/
theorem stepped_atStage {m : Machine} {x key : Nibble} {stage : Stage}
    (waits : stage.ended = false) (first : stage.look m.keypad = .noted key)
    (again : Stage.look m.keypad (.noted key) = .noted key) (events : List Event) :
    (∀ c ∈ (m.atStage x stage).stepped events, c.step.result = .ok .awaitingKey) ∧
      ∃ timers, (m.atStage x stage).undergoAll events =
        ({ m with timers } : Machine).atStage x (if .step ∈ events then .noted key else stage) := by
  induction events generalizing m stage with
  | nil => exact ⟨List.forall_mem_nil _, m.timers, rfl⟩
  | cons event rest ih =>
    cases event with
    | tick =>
      have hticked : (m.atStage x stage).undergo .tick = (m.tickBy 1).atStage x stage := by
        cases stage <;> rfl
      obtain ⟨hawaiting, timers, hafter⟩ := ih (m := m.tickBy 1) waits first again
      rw [Machine.stepped, hticked]
      refine ⟨hawaiting, timers, ?_⟩
      show ((m.atStage x stage).undergo .tick).undergoAll rest = _
      rw [hticked, hafter]
      simp only [List.mem_cons, reduceCtorEq, false_or]
      rfl
    | step =>
      have hstep := m.step_atStage x waits
      rw [first] at hstep
      have hnoted : (m.atStage x stage).undergo .step = m.atStage x (.noted key) := by
        simp only [Machine.undergo, hstep]
      obtain ⟨hawaiting, timers, hafter⟩ := @ih m (.noted key) rfl again again
      rw [Machine.stepped, hnoted]
      refine ⟨List.forall_mem_cons.mpr ⟨by rw [hstep], hawaiting⟩, timers, ?_⟩
      show ((m.atStage x stage).undergo .step).undergoAll rest = _
      rw [hnoted, hafter, ite_self, if_pos (List.mem_cons_self ..)]

end Machine

/-! ### Frames -/

namespace Console

variable {D I A : Type} [Display D] [Audio A]

section Frames

variable [Input I]

/-- The machines whose cycles a frame of running takes, in order. -/
def cyclesOf (gap : Gap) (c : Console D I A) : List Machine :=
  (c.polled gap).cyclesIn gap.elapsed

/-- A frame fails since no clock can count as far, which is within a second of the limit. -/
def Outruns (gap : Gap) (c : Console D I A) : Prop :=
  (c.frame gap).1 = .error .clockOverflow ∧
    Span.limit ≤ c.elapsed + gap.elapsed + Span.second

end Frames

variable {c : Console D Keyboard A} {gap : Gap}

omit [Display D] [Audio A] in
/-- Reading a keyboard sets the keypad and lays the taps aside. -/
theorem polled_keyboard (gap : Gap) (c : Console D Keyboard A) :
    ∃ journal, c.polled gap = { c with
      machine := { c.machine.tickBy gap.ticks with keypad := c.input.absorb.keys.reading }
      input := { c.input.absorb with keys := c.input.absorb.keys.rest }
      journal } :=
  ⟨_, rfl⟩

/-- A frame of running lets the time pass that it took. -/
theorem frame_of_run (runs : c.wish = .run) :
    c.frame gap = (c.polled gap).runFrame gap.elapsed := by
  have hobey : c.frame gap = (c.polled gap).obey gap.elapsed c.wish := rfl
  rw [hobey, runs]
  rfl

/-- After a frame of running no tap is left over, and the keys that are held are those held after
its events. -/
theorem keys_frame (runs : c.wish = .run) :
    (c.frame gap).2.input.keys = c.input.absorb.keys.rest := by
  obtain ⟨journal, hpolled⟩ := c.polled_keyboard gap
  have hinput := (c.polled gap).input_advance gap.elapsed
  rw [frame_of_run runs]
  simp only [runFrame]
  generalize (c.polled gap).advance gap.elapsed = reply at hinput ⊢
  rw [hpolled] at hinput
  rcases reply with ⟨fault | p, c'⟩
  · exact congrArg Keyboard.keys hinput
  · simp only
    split <;> exact congrArg Keyboard.keys hinput

/-- A keyboard that was read before has no taps left over. -/
theorem Did.untapped {c c' : Console D Keyboard A} {deeds : List Deed} (h : Did c deeds c')
    (first : c.input.keys.tapped = .released) : c'.input.keys.tapped = .released := by
  induction h with
  | nothing => exact first
  | aside change _ ih =>
    refine ih ?_
    cases change <;> exact first
  | @deed c _ _ act _ _ ih =>
    refine ih ?_
    cases act with
    | poll => rfl
    | tell on =>
      obtain ⟨_, _, _, h⟩ := c.act_tell on
      rw [h]
      exact first
    | startTicker failure =>
      obtain ⟨_, h⟩ := c.act_startTicker failure
      rw [h]
      exact first
    | step | tick | present | refresh | hush | back | others | letGo | overrun => exact first

/-- What is known of a console before a frame of running that is as long as a cycle. -/
structure Runs (c : Console D Keyboard A) (gap : Gap) : Prop where
  ahead : c.Ahead
  cycle : c.timetable.cycle = c.machine.settings.cycle
  untapped : c.input.keys.tapped = .released
  wish : c.wish = .run
  long : c.machine.settings.cycle ≤ gap.elapsed

namespace Runs

variable (h : c.Runs gap)
include h

theorem outruns (outrun : ((c.polled gap).advance gap.elapsed).1 = .error .clockOverflow) :
    c.Outruns gap := by
  obtain ⟨journal, hpolled⟩ := c.polled_keyboard gap
  have hcycle : (c.polled gap).timetable.cycle ≤ Span.second := by
    rw [hpolled]
    exact h.cycle ▸ c.machine.settings.cycle_le_second
  have hlate := late_of_overflow hcycle outrun
  rw [hpolled] at hlate
  refine ⟨?_, hlate⟩
  rw [frame_of_run h.wish]
  simp only [runFrame]
  generalize (c.polled gap).advance gap.elapsed = reply at outrun ⊢
  rcases reply with ⟨fault | p, c'⟩ <;> cases outrun
  rfl

/-- Such a frame takes a cycle, or it outruns the clock. -/
theorem takes_cycle [Display.Reliable D] [Audio.Reliable A] :
    .step ∈ ((c.polled gap).happeningsIn gap.elapsed).map Happening.event ∨ c.Outruns gap := by
  refine (step_mem_happeningsIn ?_).imp_right h.outruns
  obtain ⟨journal, hpolled⟩ := c.polled_keyboard gap
  have hahead : c.timetable.stepAt < c.elapsed + c.timetable.cycle := h.ahead
  have hlong := h.long
  rw [← h.cycle] at hlong
  rw [hpolled]
  show c.timetable.stepAt < c.elapsed + gap.elapsed
  omega

variable [Display.Reliable D] [Audio.Reliable A] {x key : Nibble}

/-- A frame in which a key is tapped, while the program waits and has seen none: every cycle waits
and stores nothing, and the key is noted. -/
theorem noted (parked : c.machine.snapshot.keyWait = some ⟨x, none⟩) (taps : c.input.Taps key) :
    (∀ m ∈ c.cyclesOf gap, m.step.result = .ok .awaitingKey ∧
        m.step.machine.snapshot.registers = m.snapshot.registers) ∧
      (c.Outruns gap ∨
        c.cyclesOf gap ≠ [] ∧ (c.frame gap).1 = .ok .goingOn ∧
          (c.frame gap).2.machine.snapshot =
            { c.machine.snapshot with keyWait := some ⟨x, some key⟩ }) := by
  obtain ⟨journal, hpolled⟩ := c.polled_keyboard gap
  have hlowest := Keyboard.reading_of_taps taps h.untapped
  have hkeypad : (c.polled gap).machine.keypad = c.input.absorb.keys.reading := by rw [hpolled]
  have hsnapshot : (c.polled gap).machine.snapshot = c.machine.snapshot := by
    rw [hpolled]
    rfl
  have hwaits : (c.polled gap).machine.snapshot.keyWait = some ⟨x, none⟩ := by
    rw [hsnapshot]
    exact parked
  have first : Stage.look (c.polled gap).machine.keypad .idle = .noted key := by
    rw [hkeypad]
    simp only [Stage.look, hlowest]
  have again : Stage.look (c.polled gap).machine.keypad (.noted key) = .noted key := by
    rw [hkeypad]
    simp only [Stage.look, (Keypad.of_lowest? hlowest).1, if_true]
  obtain ⟨hawaiting, timers, hafter⟩ := Machine.stepped_atStage rfl first again
    (((c.polled gap).happeningsIn gap.elapsed).map Happening.event)
  rw [Machine.atStage_of_waits hwaits] at hawaiting hafter
  rw [← cyclesIn_eq_stepped] at hawaiting
  refine ⟨fun m hm => ⟨hawaiting m hm, ?_⟩, ?_⟩
  · -- the key that is noted is down all the while
    have holding : (c.polled gap).machine.Holding := by
      intro x key hnoted
      rw [hwaits] at hnoted
      cases hnoted
    rw [cyclesOf, cyclesIn_eq_stepped] at hm
    have hholding := Machine.stepped_keeps (fun _ event hm => hm.undergo event) holding _ m hm
    exact hholding.registers (hawaiting m (by rwa [cyclesIn_eq_stepped]))
  · rcases h.takes_cycle with took | outrun
    swap
    · exact .inl outrun
    rcases advance_waiting hawaiting with outrun | ⟨q, hok, hhalted⟩
    · exact .inl (h.outruns outrun)
    refine .inr ⟨?_, ?_⟩
    · obtain ⟨_, _, hcycles⟩ := (c.polled gap).machine.exists_stepped took
      rw [cyclesOf, cyclesIn_eq_stepped, hcycles]
      exact List.cons_ne_nil _ _
    · have hadvance : (c.polled gap).advance gap.elapsed =
          (.ok q, ((c.polled gap).advance gap.elapsed).2) := Prod.ext hok rfl
      obtain ⟨passed, -⟩ := passed_advance hadvance (by simp [hhalted])
      have hframe : c.frame gap = (.ok .goingOn, ((c.polled gap).advance gap.elapsed).2) := by
        rw [frame_of_run h.wish, runFrame, hadvance]
        simp [hhalted]
      have hmachine := passed.machine
      rw [hafter, if_pos took] at hmachine
      rw [hframe]
      refine ⟨rfl, ?_⟩
      rw [hmachine, ← hsnapshot]
      rfl

/-- A frame in which the key that was noted is left alone: its first cycle stores the key, and no
other cycle of a wait stores any. -/
theorem stored (noted : c.machine.snapshot.keyWait = some ⟨x, some key⟩)
    (leaves : c.input.Leaves key) (up : c.input.keys.held.isDown key = false) :
    c.Outruns gap ∨
      ∃ first rest, c.cyclesOf gap = first :: rest ∧ first.snapshot = c.machine.snapshot ∧
        first.step.result = .ok .awaitingKey ∧
        first.step.machine.snapshot =
          { c.machine.snapshot.setRegister x (UInt8.ofNat key.val) with keyWait := none } ∧
        ∀ m ∈ rest, m.step.result = .ok .awaitingKey →
          m.step.machine.snapshot.registers = m.snapshot.registers := by
  obtain ⟨journal, hpolled⟩ := c.polled_keyboard gap
  have hkeypad : (c.polled gap).machine.keypad = c.input.absorb.keys.reading := by rw [hpolled]
  have hsnapshot : (c.polled gap).machine.snapshot = c.machine.snapshot := by
    rw [hpolled]
    rfl
  rcases h.takes_cycle with took | outrun
  swap
  · exact .inl outrun
  obtain ⟨timers, after, hcycles⟩ := (c.polled gap).machine.exists_stepped took
  rw [← cyclesIn_eq_stepped] at hcycles
  generalize hfirst : ({ (c.polled gap).machine with timers } : Machine) = first at hcycles
  have hfirstSnapshot : first.snapshot = c.machine.snapshot := by
    rw [← hfirst]
    exact hsnapshot
  have hlook : Stage.look first.keypad (.noted key) = .stored key := by
    have hup := Keyboard.reading_of_leaves leaves h.untapped up
    rw [← hkeypad] at hup
    rw [← hfirst]
    simp only [Stage.look, hup, Bool.false_eq_true, if_false]
  have hstep := @Machine.step_atStage first x (.noted key) rfl
  rw [hlook, Machine.atStage_of_noted (by rw [hfirstSnapshot]; exact noted)] at hstep
  refine .inr ⟨first, _, hcycles, hfirstSnapshot, ?_, ?_, ?_⟩
  · rw [hstep]
  · rw [hstep, ← hfirstSnapshot]
    rfl
  · have holding : (first.undergo .step).Holding := by
      intro x key hnoted
      simp only [Machine.undergo, hstep] at hnoted
      cases hnoted
    intro m hm waits
    have hholding := Machine.stepped_keeps (fun _ event hm => hm.undergo event) holding _ m hm
    exact hholding.registers waits

end Runs

/-- **A short tap is not lost.** On a console with a keyboard that nobody had touched when it was
new, and with a display and a buzzer that do not fail, let nothing have gone wrong so far, and let
the program wait for a key and have seen none. Two frames of running follow, each at least as
long as a cycle. Before the first the key goes down and up again, and no other key of the keypad
is down meanwhile; before the second the key is left alone. Then every cycle of the first frame
waits and stores nothing. There is such a cycle, the frame ends well and the key is noted, unless
the frame outruns the clock. And unless the second frame does, its first cycle puts the key into
the register and ends the wait, and no wait stores another key in it. -/
theorem tap_stored [Display.Reliable D] [Audio.Reliable A] (machine : Machine) (display : D)
    (batches : List (List KeyEvent)) (audio : A) (journal : Journal)
    {c : Console D Keyboard A}
    (reached : Reached (new machine display (.untouched batches) audio journal) c)
    {x key : Nibble} (parked : c.machine.snapshot.keyWait = some ⟨x, none⟩)
    {gap gap' : Gap} (runs : c.wish = .run) (runs' : (c.frame gap).2.wish = .run)
    (long : c.machine.settings.cycle ≤ gap.elapsed)
    (long' : c.machine.settings.cycle ≤ gap'.elapsed)
    (taps : c.input.Taps key) (leaves : (c.frame gap).2.input.Leaves key) :
    let c' := (c.frame gap).2
    (∀ m ∈ c.cyclesOf gap, m.step.result = .ok .awaitingKey ∧
        m.step.machine.snapshot.registers = m.snapshot.registers) ∧
      (c.Outruns gap ∨
        c.cyclesOf gap ≠ [] ∧ (c.frame gap).1 = .ok .goingOn ∧
          c'.machine.snapshot = { c.machine.snapshot with keyWait := some ⟨x, some key⟩ } ∧
          (c'.Outruns gap' ∨
            ∃ first rest, c'.cyclesOf gap' = first :: rest ∧
              first.snapshot = c'.machine.snapshot ∧
              first.step.result = .ok .awaitingKey ∧
              first.step.machine.snapshot =
                { c.machine.snapshot.setRegister x (UInt8.ofNat key.val) with keyWait := none } ∧
              ∀ m ∈ rest, m.step.result = .ok .awaitingKey →
                m.step.machine.snapshot.registers = m.snapshot.registers)) := by
  intro c'
  obtain ⟨deeds, did⟩ := reached.did
  have hruns : c.Runs gap :=
    ⟨reached.ahead (ahead_new ..), reached.cycle, did.untapped rfl, runs, long⟩
  obtain ⟨hwaiting, hnoted⟩ := hruns.noted parked taps
  refine ⟨hwaiting, hnoted.imp_right fun ⟨hsome, hok, hsnapshot⟩ => ⟨hsome, hok, hsnapshot, ?_⟩⟩
  have reached' : Reached (new machine display (.untouched batches) audio journal) c' :=
    reached.of_frame hok
  obtain ⟨deeds', did'⟩ := reached'.did
  have hsettings : c'.machine.settings = c.machine.settings := did'.settings.trans did.settings.symm
  have hruns' : c'.Runs gap' :=
    ⟨reached'.ahead (ahead_new ..), reached'.cycle, did'.untapped rfl, runs', hsettings ▸ long'⟩
  have hup : c'.input.keys.held.isDown key = false := by
    rw [show c'.input.keys = _ from keys_frame runs]
    exact Keyboard.held_of_taps taps
  have hkept : c'.machine.snapshot.keyWait = some ⟨x, some key⟩ := by rw [hsnapshot]
  refine (hruns'.stored hkept leaves hup).imp_right ?_
  rintro ⟨first, rest, hcycles, hfirst, hwaits, hstored, hrest⟩
  refine ⟨first, rest, hcycles, hfirst, hwaits, ?_, hrest⟩
  rw [hstored, hsnapshot]
  rfl

/-- Q is tapped, which is key 4, while a program waits for a key with its second frame; in the
third frame E goes down, which is key 6, but V0 gets the 4. -/
theorem tap_stored_quick :
    let machine := (Machine.new .standard default).session [.load [0xF0, 0x0A, 0x12, 0x02]]
    let batches : List (List KeyEvent) :=
      [[], [.down (some (.letter 'Q')), .up (some (.letter 'Q'))], [.down (some (.letter 'E'))]]
    let new : Console HeadlessDisplay Keyboard SilentAudio :=
      new machine default (.untouched batches) default default
    let c := (new.frame ⟨1000000, 0⟩).2
    let gap : Gap := ⟨1500000, 2⟩
    let gap' : Gap := ⟨5000000, 0⟩
    let c' := (c.frame gap).2
    Reached new c ∧ c.machine.snapshot.keyWait = some ⟨0, none⟩ ∧ c.wish = .run ∧
      c'.wish = .run ∧ c.machine.settings.cycle ≤ gap.elapsed ∧
      c.machine.settings.cycle ≤ gap'.elapsed ∧ c.input.Taps 4 ∧ c'.input.Leaves 4 ∧
      c'.machine.snapshot.keyWait = some ⟨0, some 4⟩ ∧
      ∃ first rest, c'.cyclesOf gap' = first :: rest ∧ rest ≠ [] ∧
        first.step.machine.snapshot.keyWait = none ∧
        first.step.machine.snapshot.register 0 = 4 := by
  intro machine batches new c gap gap' c'
  have hfirst : (new.frame ⟨1000000, 0⟩).1 = .ok .goingOn ∧
      c.machine.snapshot.keyWait = some ⟨0, none⟩ ∧ c.wish = .run ∧ c'.wish = .run ∧
      c.machine.settings.cycle ≤ gap.elapsed ∧ c.machine.settings.cycle ≤ gap'.elapsed ∧
      c.elapsed = 1000000 ∧ c'.elapsed = 2500000 ∧ (c'.cyclesOf gap').length = 4 ∧
      c.input.moves = [(4, true), (4, false)] ∧ c.input.keys.held = .released ∧
      c'.input.moves = [(6, true)] := by
    decide +kernel
  obtain ⟨hok, parked, runs, runs', long, long', elapsed, elapsed', hlength, hmoves, hheld,
    hmoves'⟩ := hfirst
  have reached : Reached new c := .of_frame .refl hok
  have taps : c.input.Taps 4 := by
    constructor <;> rw [hmoves]
    · decide
    · rfl
    · rw [hheld]
      decide
  have leaves : c'.input.Leaves 4 := by
    rw [Keyboard.Leaves, hmoves']
    decide
  obtain ⟨-, hnoted⟩ := tap_stored machine default batches default default reached parked runs runs'
    long long' taps leaves
  have hkept : ¬c.Outruns gap := fun h => by
    have hlate := h.2
    rw [elapsed] at hlate
    exact absurd hlate (by decide)
  have hkept' : ¬c'.Outruns gap' := fun h => by
    have hlate := h.2
    rw [elapsed'] at hlate
    exact absurd hlate (by decide)
  obtain ⟨-, -, hsnapshot, hstored⟩ := hnoted.resolve_left hkept
  obtain ⟨first, rest, hcycles, -, -, hafter, -⟩ := hstored.resolve_left hkept'
  refine ⟨reached, parked, runs, runs', long, long', taps, leaves, ?_, first, rest, hcycles, ?_⟩
  · rw [hsnapshot]
  · refine ⟨?_, by rw [hafter], ?_⟩
    · rintro rfl
      rw [hcycles] at hlength
      cases hlength
    · have hstore (s : Snapshot) :
          ({ s.setRegister 0 4 with keyWait := none } : Snapshot).register 0 = 4 :=
        (s.register_setRegister 0 0 4).trans (if_pos rfl)
      rw [hafter]
      exact hstore c.machine.snapshot

end Console
end ChipEight
