import ChipEight.Proofs.Influence
import ChipEight.Proofs.Replay
import ChipEight.Proofs.Visits

/-! Going back and the same way forward again.

Taking back as many cycles as ran leads to where they began, but for what is not taken back:
the timers stay as they are by then, the random stream goes on, and the picture is to be shown
again (`returned`). An instruction that reads neither the delay timer nor the random stream
comes to the same there as before, and so does the next one: a machine *retraces* the way of
another. The timers it does not start with it loads again on the way, each from the same
register, and a timer that is not loaded on the way already is as it will be in the end.
`session_retraced` puts the two together. -/
namespace ChipEight

/-- Whether a cycle ran an instruction that comes to the same when it is run again from where it
was: it reads neither the delay timer nor the random stream, which are not taken back. -/
def Answer.repeats : Except Fault Answer → Bool
  | .ok (.stepped (.executed i)) =>
    i.influence? != some .delay && i.influence? != some .random
  | _ => false

theorem Answer.of_repeats {answer : Except Fault Answer} (h : repeats answer = true) :
    ∃ i, answer = .ok (.stepped (.executed i)) ∧ i.influence? ≠ some .delay ∧
      i.influence? ≠ some .random := by
  unfold repeats at h
  split at h
  · rename_i i
    simp only [Bool.and_eq_true, bne_iff_ne] at h
    exact ⟨i, rfl, h⟩
  · cases h

namespace Machine

/-! ### Back to where it began -/

/-- From one machine cycles led to another, and by taking them back from there to a third. -/
structure Returned (cycles : Nat) (m there back : Machine) : Prop where
  snapshot : ∃ redraw, back.snapshot = { m.snapshot with redraw }
  history : back.history.toList = m.history.toList.take (m.settings.rewindDepth - cycles)
  settings : back.settings = m.settings
  keypad : back.keypad = m.keypad
  timers : back.timers = there.timers

/-- **Taking back all the cycles that ran leads to where they began**, if the history reaches as
far. -/
theorem returned {m : Machine} (held : m.Held) {n : Nat} (reaches : n ≤ m.settings.rewindDepth)
    (ran : ∀ answer ∈ m.answers (List.replicate n .step), Answer.repeats answer = true) :
    let there := m.session (List.replicate n .step)
    (∀ answer ∈ there.answers (List.replicate n .rewind), answer = .ok (.rewound true)) ∧
      m.Returned n there (there.session (List.replicate n .rewind)) := by
  induction n generalizing m with
  | zero => exact ⟨List.forall_mem_nil _, ⟨m.snapshot.redraw, rfl⟩, held.take.symm, rfl, rfl, rfl⟩
  | succ n ih =>
    intro there
    obtain ⟨hfirst, hrest⟩ := List.forall_mem_cons.mp ran
    obtain ⟨i, hi, -, -⟩ := Answer.of_repeats hfirst
    replace hi : (m.perform .step).result = .ok (.stepped (.executed i)) := hi
    have hsettings : (m.perform .step).machine.settings = m.settings := m.settings_perform .step
    -- the first cycle is the one to be taken back last
    obtain ⟨answered, went⟩ := ih (held.perform .step) (by rw [hsettings]; omega) hrest
    have hkeypad : (m.perform .step).machine.keypad = m.keypad := m.step_fixed.2.2
    generalize hback : ((m.perform .step).machine.session (List.replicate n .step)).session
      (List.replicate n .rewind) = back at went
    have hpast : m.pastAfter m.history.toList .step = m.snapshot :: m.history.toList := by
      simp only [pastAfter, hi]
    have hview : back.history.toList =
        m.snapshot :: m.history.toList.take (m.settings.rewindDepth - (n + 1)) := by
      have hleft : m.settings.rewindDepth - n = m.settings.rewindDepth - (n + 1) + 1 := by omega
      rw [went.history, toList_perform held .step, hsettings, hpast, List.take_take,
        Nat.min_eq_left (Nat.sub_le _ _), hleft, List.take_succ_cons]
    rcases back.rewind_cases with ⟨hempty, _⟩ | ⟨s, rest, hmore, hrewind⟩
    · cases hview.symm.trans hempty
    · obtain ⟨rfl, hrest⟩ := List.cons.inj (hview.symm.trans hmore)
      have hthere : there.session (List.replicate (n + 1) .rewind) = back.rewind.2 := by
        rw [List.replicate_succ', session_append]
        exact congrArg (fun other : Machine => other.rewind.2) hback
      have hanswers : there.answers (List.replicate (n + 1) .rewind) =
          there.answers (List.replicate n .rewind) ++ [.ok (.rewound back.rewind.1)] := by
        rw [List.replicate_succ', answers_append]
        exact congrArg (fun other : Machine =>
          there.answers (List.replicate n .rewind) ++ [.ok (.rewound other.rewind.1)]) hback
      rw [hthere, hanswers, hrewind]
      exact ⟨List.forall_mem_append.mpr ⟨answered, List.forall_mem_singleton.mpr rfl⟩,
        ⟨true, rfl⟩, hrest.symm, went.settings.trans hsettings, went.keypad.trans hkeypad,
        went.timers⟩

/-! ### The same way forward -/

end Machine

/-- Each of two timers is the same in one pair as in another, or is as it is to be in the end. -/
structure Timers.Nearing (final t t' : Timers) : Prop where
  delay : t'.delay = t.delay ∨ t'.delay = final.delay
  sound : t'.sound = t.sound ∨ t'.sound = final.sound

/-- An instruction loads the same on both or leaves both as they are. -/
theorem Timers.Nearing.devicesAfter {final : Timers} (d d' : Devices)
    (h : final.Nearing d.timers d'.timers) (s : Snapshot) (redraw : Bool) (i : Instruction) :
    final.Nearing (s.devicesAfter d i).timers ({ s with redraw }.devicesAfter d' i).timers := by
  cases i with
  | setDelay x => exact ⟨.inl rfl, h.sound⟩
  | setSound x => exact ⟨h.delay, .inl rfl⟩
  | _ => exact h

/-- In the end both are as they are to be. -/
theorem Timers.Nearing.eq_final {final t : Timers} (h : final.Nearing final t) : t = final := by
  have hdelay : t.delay = final.delay := h.delay.elim id id
  have hsound : t.sound = final.sound := h.sound.elim id id
  cases t
  cases final
  exact congrArg₂ Timers.mk hdelay hsound

namespace Machine

/-- A machine that is where another was, but for what is not taken back. -/
structure Retraces (final : Timers) (m m' : Machine) : Prop where
  settings : m'.settings = m.settings
  keypad : m'.keypad = m.keypad
  snapshot : ∃ redraw, m'.snapshot = { m.snapshot with redraw }
  timers : final.Nearing m.timers m'.timers

/-- What the next instruction is and whether it moves on shows in the snapshot, but not in its wish
to be shown. -/
theorem Fetches.of_redraw {m m' : Machine} {op : Opcode} (h : m.Fetches op) {redraw : Bool}
    (snapshot : m'.snapshot = { m.snapshot with redraw }) : m'.Fetches op where
  awake := by rw [snapshot]; exact h.awake
  opcode := by rw [snapshot]; exact h.opcode

theorem spins_of_redraw {m m' : Machine} {redraw : Bool}
    (snapshot : m'.snapshot = { m.snapshot with redraw }) (i : Instruction) :
    m'.spins i = m.spins i := by
  simp only [spins, snapshot]

/-- **A cycle that repeats does on a machine that retraces another what it did there.** -/
theorem Retraces.step {final : Timers} {m m' : Machine} (h : m.Retraces final m')
    (repeats : Answer.repeats (m.perform .step).result = true) :
    (m'.perform .step).result = (m.perform .step).result ∧
      m.step.machine.Retraces final m'.step.machine := by
  obtain ⟨i, hi, hdelay, hrandom⟩ := Answer.of_repeats repeats
  obtain ⟨redraw, hsnapshot⟩ := h.snapshot
  have hsurroundings : m'.surroundings = m.surroundings := by
    simp only [surroundings, h.settings, h.keypad]
  replace hi := result_step_of_perform hi
  have course := m.course_step
  unfold perform
  generalize m.step = reply at course hi ⊢
  cases course with
  | waits | strays | spins | faults => cases hi
  | runs op next d fetches hmoves hrun =>
    cases hi
    have same : ∀ influence, op.decode.influence? = some influence →
        influence.Same m.surroundings m.devices m.surroundings m'.devices := by
      intro influence hinfluence
      cases influence with
      | delay => exact absurd hinfluence hdelay
      | random => exact absurd hinfluence hrandom
      | _ => rfl
    have hresult : (execute m'.surroundings m'.snapshot m'.devices op.decode).1 =
        .ok { next with redraw := op.decode.draws || redraw } := by
      rw [hsurroundings, hsnapshot, execute_redraw, execute_of_same m.snapshot same, hrun]
      rfl
    have course' := Course.runs op _ _ (fetches.of_redraw hsnapshot)
      ((spins_of_redraw hsnapshot _).trans hmoves) (Prod.ext hresult rfl)
    rw [course'.eq_step]
    refine ⟨rfl, h.settings, h.keypad, ⟨_, rfl⟩, ?_⟩
    show final.Nearing d.timers (execute m'.surroundings m'.snapshot m'.devices op.decode).2.timers
    rw [eq_devicesAfter hrun, execute_devices, hsnapshot]
    exact Timers.Nearing.devicesAfter m.devices m'.devices h.timers m.snapshot redraw op.decode

/-- So do as many as ran there. -/
theorem Retraces.session {final : Timers} {m m' : Machine} (h : m.Retraces final m') {n : Nat}
    (repeats : ∀ answer ∈ m.answers (List.replicate n .step), Answer.repeats answer = true) :
    m'.answers (List.replicate n .step) = m.answers (List.replicate n .step) ∧
      (m.session (List.replicate n .step)).Retraces final
        (m'.session (List.replicate n .step)) := by
  induction n generalizing m m' with
  | zero => exact ⟨rfl, h⟩
  | succ n ih =>
    obtain ⟨hfirst, hrest⟩ := List.forall_mem_cons.mp repeats
    obtain ⟨hanswer, hnext⟩ := h.step hfirst
    obtain ⟨hanswers, hlast⟩ := ih hnext hrest
    exact ⟨List.cons_eq_cons.mpr ⟨hanswer, hanswers⟩, hlast⟩

/-- **Undoing and redoing is exact.** After any session from a new machine, let cycles run, no more
than can be taken back, none of them reading the delay timer or the random stream. They can all be
taken back, and as many cycles from there come to the same again: the answers are the same, and
they end in the same snapshot, but for the wish to be shown, with the same timers. -/
theorem session_retraced (settings : Settings) (entropy : Random) (operations : List Operation)
    (n : Nat) (reaches : n ≤ settings.rewindDepth) :
    let m := (new settings entropy).session operations
    let forth := List.replicate n Operation.step
    let there := m.session forth
    let back := there.session (List.replicate n .rewind)
    (∀ answer ∈ m.answers forth, Answer.repeats answer = true) →
      (∀ answer ∈ there.answers (List.replicate n .rewind), answer = .ok (.rewound true)) ∧
        back.answers forth = m.answers forth ∧
        (∃ redraw, (back.session forth).snapshot = { there.snapshot with redraw }) ∧
        (back.session forth).timers = there.timers := by
  intro m forth there back repeats
  have hsettings : m.settings = settings := settings_session (new settings entropy) operations
  have held : m.Held :=
    (prefix_pastAfterAll (m := new settings entropy) (Nat.zero_le _) List.prefix_rfl
      operations).2.1
  obtain ⟨answered, went⟩ := returned held (by rw [hsettings]; exact reaches) repeats
  have retraces : m.Retraces there.timers back :=
    ⟨went.settings, went.keypad, went.snapshot, .inr (congrArg Timers.delay went.timers),
      .inr (congrArg Timers.sound went.timers)⟩
  obtain ⟨hanswers, hend⟩ := retraces.session repeats
  exact ⟨answered, hanswers, hend.snapshot, hend.timers.eq_final⟩

/-- A program that loads both timers and puts a 5 where its next instruction but one is, so that
what was an addition is then a call of the host, which is what runs there both times. -/
theorem session_retraced_rewritten :
    let program :=
      [0x60, 0x05, 0xF0, 0x15, 0xF0, 0x18, 0xA2, 0x0C, 0xF0, 0x55, 0xD0, 0x05, 0x70, 0x05]
    let m := (new .standard default).session [.load program]
    let forth := List.replicate 7 Operation.step
    let there := m.session forth
    let back := there.session (List.replicate 7 .rewind)
    7 ≤ Settings.standard.rewindDepth ∧
      (∀ answer ∈ m.answers forth, Answer.repeats answer = true) ∧
      back.answers forth = m.answers forth ∧
      (m.answers forth).getLast? = some (.ok (.stepped (.executed (.sys 0x505)))) ∧
      (∃ redraw, (back.session forth).snapshot = { there.snapshot with redraw }) ∧
      (back.session forth).timers = there.timers ∧ there.timers = ⟨5, 5⟩ := by
  intro program m forth there back
  have h : (∀ answer ∈ m.answers forth, Answer.repeats answer = true) ∧
      (m.answers forth).getLast? = some (.ok (.stepped (.executed (.sys 0x505)))) ∧
      there.timers = ⟨5, 5⟩ := by
    decide +kernel
  obtain ⟨repeats, last, loaded⟩ := h
  obtain ⟨-, again, hend, htimers⟩ :=
    session_retraced .standard default [.load program] 7 (by decide) repeats
  exact ⟨by decide, repeats, again, last, hend, htimers, loaded⟩

end Machine
end ChipEight
