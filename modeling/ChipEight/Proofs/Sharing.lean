import Mathlib.Data.List.DropRight
import ChipEight.Hardware.TimerBoard
import ChipEight.Machine.Execute

/-! Timers under several holders at once.

A counter of a pair of timers can be loaded, counted down and read by whoever holds a handle. Each
of these is one atomic operation, a `Touch`, and a `Run` is any order in which they can come: the
holders that tick count down the delay timer and then the sound timer, again and again, and
between any two touches of theirs the others load and read as they like, or have timers of their
own made. `Run.value_eq` says what every counter holds at any moment of any run: what was
loaded into it last, less what it was counted down by since, and never less than zero.
`shared_reads` is what that comes to for those who read. Ticks, resets and instructions are made of
touches (`Run.tick`, `Run.reset`, `Run.execute`). -/
namespace ChipEight

/-- One of the two counters of a pair of timers. -/
inductive Counter where
  | delay
  | sound
deriving DecidableEq, Repr

namespace Counter

/-- The value of a counter. -/
def of (t : Timers) : Counter → UInt8
  | delay => t.delay
  | sound => t.sound

/-- The other counter of the pair. -/
def other : Counter → Counter
  | delay => sound
  | sound => delay

/-- Loading a counter. -/
def load (value : UInt8) : Counter → TimerAction
  | delay => .loadDelay value
  | sound => .loadSound value

/-- Counting a counter down. -/
def countDown : Counter → TimerAction
  | delay => .countDelay
  | sound => .countSound

theorem of_load (t : Timers) (value : UInt8) (loaded c : Counter) :
    c.of ((loaded.load value).apply t) = if c = loaded then value else c.of t := by
  cases loaded <;> cases c <;> rfl

theorem of_countDown (t : Timers) (counted c : Counter) :
    c.of (counted.countDown.apply t) =
      if c = counted then Timers.countDown (c.of t) else c.of t := by
  cases counted <;> cases c <;> rfl

end Counter

/-- One atomic operation of one holder. -/
inductive Touch where
  /-- A pair of timers of its own is made. -/
  | make
  /-- Someone sets out to tick a pair. -/
  | takeUp (pair : Nat)
  /-- One of those who tick a pair does its next half of a tick. -/
  | countDown (pair : Nat) (counter : Counter)
  /-- Someone loads a counter. -/
  | load (pair : Nat) (counter : Counter) (value : UInt8)
  /-- Someone reads a counter, and finds a value there. -/
  | read (pair : Nat) (counter : Counter) (value : UInt8)
deriving DecidableEq, Repr

namespace Touch

/-- The counter that a touch may change. -/
def target? : Touch → Option (Nat × Counter)
  | make | takeUp _ | read _ _ _ => none
  | countDown pair counter | load pair counter _ => some (pair, counter)

/-- The value that a touch loads into a counter, if it does. -/
def loaded? (pair : Nat) (counter : Counter) : Touch → Option UInt8
  | load there loaded value => if there = pair ∧ loaded = counter then some value else none
  | _ => none

/-- What was loaded into a counter last; all are at zero at first. -/
def lastLoaded (pair : Nat) (counter : Counter) (touches : List Touch) : UInt8 :=
  ((touches.filterMap (loaded? pair counter)).getLast?).getD 0

/-- How often a counter was counted down since it was loaded last. -/
def countedSince (pair : Nat) (counter : Counter) (touches : List Touch) : Nat :=
  (touches.rtakeWhile fun touch => (touch.loaded? pair counter).isNone).count
    (countDown pair counter)

end Touch

/-- Timers held in common, and those who tick: each with the pair that it ticks and the counter
that it counts down next. -/
structure Sharing where
  board : TimerBoard
  tickers : List (Nat × Counter)

namespace Sharing

/-- The value of a counter of a pair. -/
def value (s : Sharing) (pair : Nat) (counter : Counter) : UInt8 := counter.of (s.board.read pair)

/-- What one touch does. Only a pair that was made can be reached, and whoever ticks one counts down
its delay timer first and then its sound timer. -/
inductive Step (s : Sharing) : Touch → Sharing → Prop where
  | make : Step s .make { s with board := s.board.add.2 }
  | takeUp (pair : Nat) : pair < s.board.pairs.length →
      Step s (.takeUp pair) { s with tickers := s.tickers ++ [(pair, .delay)] }
  | countDown {pair : Nat} {counter : Counter} (ticker : Nat) : pair < s.board.pairs.length →
      s.tickers[ticker]? = some (pair, counter) →
      Step s (.countDown pair counter)
        { board := s.board.act pair counter.countDown
          tickers := s.tickers.set ticker (pair, counter.other) }
  | load (pair : Nat) (counter : Counter) (value : UInt8) : pair < s.board.pairs.length →
      Step s (.load pair counter value) { s with board := s.board.act pair (counter.load value) }
  | read (pair : Nat) (counter : Counter) : pair < s.board.pairs.length →
      Step s (.read pair counter (s.value pair counter)) s

/-- Whatever touches can come about, one after another, from the time when there were no timers. -/
inductive Run : Sharing → List Touch → Prop where
  | start : Run ⟨.empty, []⟩ []
  | step {s s' : Sharing} {touches : List Touch} {touch : Touch} : Run s touches →
      Step s touch s' → Run s' (touches ++ [touch])

end Sharing

/-! ### The board -/

namespace TimerBoard

theorem read_add (b : TimerBoard) (pair : Nat) : b.add.2.read pair = b.read pair := by
  simp only [add, read, List.getD_eq_getElem?_getD, List.getElem?_append]
  split
  · rfl
  · rename_i h
    rw [List.getElem?_eq_none (Nat.le_of_not_lt h)]
    cases pair - b.pairs.length <;> rfl

/-- An operation through a handle is on the pair that it reaches. -/
theorem read_act_self (b : TimerBoard) {pair : Nat} (made : pair < b.pairs.length)
    (action : TimerAction) : (b.act pair action).read pair = action.apply (b.read pair) := by
  simp [act, read, made]

/-- An operation through a handle leaves the other pairs alone. -/
theorem read_act_of_ne (b : TimerBoard) {handle pair : Nat} (h : pair ≠ handle)
    (action : TimerAction) : (b.act handle action).read pair = b.read pair := by
  simp [act, read, Ne.symm h]

end TimerBoard

namespace Sharing

variable {s s' : Sharing} {touch : Touch} {touches : List Touch}

/-! ### One touch -/

/-- **What a touch does to a counter**: it loads it, or it counts it down, or it leaves it alone. -/
theorem Step.value_eq (h : Step s touch s') (pair : Nat) (c : Counter) :
    s'.value pair c = (touch.loaded? pair c).getD
      (if touch = .countDown pair c then Timers.countDown (s.value pair c)
      else s.value pair c) := by
  cases h with
  | make => exact congrArg c.of (s.board.read_add pair)
  | takeUp | read => rfl
  | @countDown there counted ticker made hticker =>
    by_cases hpair : pair = there
    · subst hpair
      rw [value, TimerBoard.read_act_self _ made, Counter.of_countDown]
      simp [Touch.loaded?, value, eq_comm]
    · rw [value, TimerBoard.read_act_of_ne _ hpair]
      simp [Touch.loaded?, value, Ne.symm hpair]
  | load there loaded value made =>
    by_cases hpair : pair = there
    · subst hpair
      rw [Sharing.value, TimerBoard.read_act_self _ made, Counter.of_load]
      by_cases hc : c = loaded
      · simp [Touch.loaded?, hc]
      · simp [Touch.loaded?, Sharing.value, hc, Ne.symm hc]
    · rw [Sharing.value, TimerBoard.read_act_of_ne _ hpair]
      simp [Touch.loaded?, Sharing.value, Ne.symm hpair]

/-- A touch that is not at a counter leaves it alone. -/
theorem Step.value_of_ne (h : Step s touch s') {pair : Nat} {c : Counter}
    (hne : touch.target? ≠ some (pair, c)) : s'.value pair c = s.value pair c := by
  rw [h.value_eq]
  cases touch with
  | make | takeUp | read => rfl
  | countDown there counted =>
    have : ¬(there = pair ∧ counted = c) := fun ⟨hp, hc⟩ => hne (by rw [hp, hc]; rfl)
    simp [Touch.loaded?, this]
  | load there loaded value =>
    have : ¬(there = pair ∧ loaded = c) := fun ⟨hp, hc⟩ => hne (by rw [hp, hc]; rfl)
    simp [Touch.loaded?, this]

/-! ### Any number of touches -/

/-- **What a counter holds**, at any moment of any run. -/
theorem Run.value_eq (run : Run s touches) (pair : Nat) (c : Counter) :
    (s.value pair c).toNat =
      (Touch.lastLoaded pair c touches).toNat - Touch.countedSince pair c touches := by
  induction run with
  | start => cases c <;> rfl
  | @step s s' touches touch _ hstep ih =>
    rw [hstep.value_eq]
    simp only [Touch.lastLoaded, Touch.countedSince, List.filterMap_append, List.filterMap_cons,
      List.filterMap_nil, List.rtakeWhile_concat] at ih ⊢
    cases hloaded : touch.loaded? pair c with
    | some value => simp
    | none =>
      simp only [Option.getD_none, List.append_nil, Option.isNone_none, if_true, List.count_append]
      by_cases hdown : touch = .countDown pair c
      · rw [if_pos hdown, Timers.toNat_countDown, ih, Nat.sub_sub, hdown, List.count_singleton_self]
      · rw [if_neg hdown, ih, List.count_singleton]
        simp [hdown]

/-- A run is, up to each of its touches, a run that comes to this touch. -/
theorem Run.split (run : Run s touches) {before after : List Touch}
    (h : touches = before ++ touch :: after) :
    ∃ here next, Run here before ∧ Step here touch next := by
  induction run generalizing after with
  | start => cases List.append_ne_nil_of_right_ne_nil before (List.cons_ne_nil touch after) h.symm
  | @step s s' touches last run hstep ih =>
    rcases List.eq_nil_or_concat after with rfl | ⟨rest, final, rfl⟩
    · obtain ⟨rfl, hlast⟩ := List.append_inj' h rfl
      cases hlast
      exact ⟨s, s', run, hstep⟩
    · rw [List.concat_eq_append, ← List.cons_append, ← List.append_assoc] at h
      exact ih (List.append_inj' h rfl).1

/-- **Whoever reads a counter finds what was loaded into it last, less what it was counted down by
since.** Let touches have come about in any order, through any handles: ticks whose two halves
others get between, loads and readings, and pairs of timers that are made on the way. Every
reading among them has found that difference, or zero where more was counted down than was loaded;
a counter that nobody loaded yet counts as loaded with zero. Whatever touch comes next leaves
every counter alone that it is not at, be it the other counter of its pair or one of another
pair, and a count down takes one off and does not go below zero. -/
theorem shared_reads (run : Run s touches) :
    (∀ before after pair c value, touches = before ++ .read pair c value :: after →
        value.toNat =
          (Touch.lastLoaded pair c before).toNat - Touch.countedSince pair c before) ∧
      ∀ touch s', Step s touch s' → ∀ pair c,
        (touch.target? ≠ some (pair, c) → s'.value pair c = s.value pair c) ∧
          (touch = .countDown pair c → (s'.value pair c).toNat = (s.value pair c).toNat - 1) := by
  constructor
  · intro before after pair c value h
    obtain ⟨here, next, hrun, hread⟩ := run.split h
    cases hread with
    | read => exact hrun.value_eq pair c
  · intro touch s' hstep pair c
    refine ⟨hstep.value_of_ne, ?_⟩
    rintro rfl
    rw [hstep.value_eq, if_pos rfl]
    exact Timers.toNat_countDown _

/-- One load of the delay timer comes between the halves of a tick and another one before it, the
sound timer is counted down at zero, and a second pair is made and loaded meanwhile. -/
theorem shared_reads_between :
    let before : List Touch :=
      [.make, .takeUp 0, .load 0 .delay 2, .load 0 .sound 1, .countDown 0 .delay, .load 0 .delay 9,
        .countDown 0 .sound, .make, .load 1 .sound 7, .countDown 0 .delay, .countDown 0 .sound]
    let readings : List Touch := [.read 0 .delay 8, .read 0 .sound 0, .read 1 .sound 7]
    ∃ s, Run s (before ++ readings) ∧ Touch.lastLoaded 0 .delay before = 9 ∧
      Touch.countedSince 0 .delay before = 1 ∧
      (8 : UInt8).toNat =
        (Touch.lastLoaded 0 .delay before).toNat - Touch.countedSince 0 .delay before := by
  intro before readings
  have ticked : Run _ [.make, .takeUp 0] := .step (.step .start .make) (.takeUp 0 (by decide))
  have loaded := (ticked.step (.load 0 .delay 2 (by decide))).step (.load 0 .sound 1 (by decide))
  have halved := loaded.step (.countDown 0 (by decide) rfl)
  have whole := (halved.step (.load 0 .delay 9 (by decide))).step (.countDown 0 (by decide) rfl)
  have separate := (whole.step .make).step (.load 1 .sound 7 (by decide))
  have again := (separate.step (.countDown 0 (by decide) rfl)).step (.countDown 0 (by decide) rfl)
  have run := ((again.step (.read 0 .delay (by decide))).step (.read 0 .sound (by decide))).step
    (.read 1 .sound (by decide))
  refine ⟨_, run, by decide, by decide, ?_⟩
  exact (shared_reads run).1 before [.read 0 .sound 0, .read 1 .sound 7] 0 .delay 8 rfl

end Sharing

/-! ### Ticks, resets and instructions -/

/-- Whoever is about to tick a pair can do both halves before anyone else gets between, and that is
a tick of the pair. -/
theorem Sharing.Run.tick {s : Sharing} {touches : List Touch} (run : Run s touches) {pair : Nat}
    (made : pair < s.board.pairs.length) {ticker : Nat}
    (ready : s.tickers[ticker]? = some (pair, .delay)) :
    ∃ s', Run s' (touches ++ [.countDown pair .delay, .countDown pair .sound]) ∧
      s'.board = s.board.actAll pair TimerAction.ticking ∧
      s'.board.read pair = (s.board.read pair).tick := by
  have made' : pair < (s.board.act pair .countDelay).pairs.length := by
    rwa [TimerBoard.act, List.length_modify]
  have ready' : (s.tickers.set ticker (pair, .sound))[ticker]? = some (pair, .sound) := by
    rw [List.getElem?_set_self (List.getElem?_eq_some_iff.mp ready).1]
  have ticked := (run.step (.countDown ticker made ready)).step (.countDown ticker made' ready')
  rw [List.append_assoc] at ticked
  refine ⟨_, ticked, rfl, ?_⟩
  show ((s.board.act pair .countDelay).act pair .countSound).read pair = _
  rw [TimerBoard.read_act_self _ made', TimerBoard.read_act_self _ made]
  rfl

/-- A reset of a pair loads both of its counters with zero. -/
theorem Sharing.Run.reset {s : Sharing} {touches : List Touch} (run : Run s touches) {pair : Nat}
    (made : pair < s.board.pairs.length) :
    ∃ s', Run s' (touches ++ [.load pair .delay 0, .load pair .sound 0]) ∧
      s'.board = s.board.actAll pair TimerAction.resetting := by
  have made' : pair < (s.board.act pair (.loadDelay 0)).pairs.length := by
    rwa [TimerBoard.act, List.length_modify]
  have zeroed := (run.step (.load pair .delay 0 made)).step (.load pair .sound 0 made')
  rw [List.append_assoc] at zeroed
  exact ⟨_, zeroed, rfl⟩

/-- How an instruction gets at a pair of timers, if it does: it reads or loads one counter. -/
def Snapshot.touch? (s : Snapshot) (pair : Nat) (t : Timers) : Instruction → Option Touch
  | .readDelay _ => some (.read pair .delay t.delay)
  | .setDelay x => some (.load pair .delay (s.register x))
  | .setSound x => some (.load pair .sound (s.register x))
  | _ => none

/-- An instruction of a machine that holds a pair in common with others is one touch, or none, and
makes of the pair what this touch does. -/
theorem Sharing.Run.execute {s : Sharing} {touches : List Touch} (run : Run s touches) {pair : Nat}
    (made : pair < s.board.pairs.length) (around : Surroundings) (snapshot : Snapshot)
    (random : Random) (i : Instruction) :
    ∃ s', Run s' (touches ++ (snapshot.touch? pair (s.board.read pair) i).toList) ∧
      s'.board.read pair =
        (ChipEight.execute around snapshot ⟨s.board.read pair, random⟩ i).2.timers := by
  cases i with
  | readDelay x => exact ⟨s, run.step (.read pair .delay made), rfl⟩
  | setDelay x =>
    exact ⟨_, run.step (.load pair .delay (snapshot.register x) made),
      s.board.read_act_self made _⟩
  | setSound x =>
    exact ⟨_, run.step (.load pair .sound (snapshot.register x) made),
      s.board.read_act_self made _⟩
  | _ =>
    refine ⟨s, ?_, rfl⟩
    show Run s (touches ++ [])
    rwa [List.append_nil]

end ChipEight
