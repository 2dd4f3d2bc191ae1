import ChipEight.Desktop.Application
import ChipEight.Proofs.Undo

/-! The numbers that a command line leads to.

A speed, a rewind depth and a scale go a long way from the words of a command line to a
console: the speed divides a second into cycles and is divided into frames, and the scale
multiplies the sides of the screen. The first two are let in only within bounds, which reading
one word after another keeps (`Reading.Ranged.take`), and the bounds carry all that is computed
from them. A scale may be any number of 32 bits, and not every one of those has a window:
`figures` says which do, and `scale_overflows` that a command line can say one that does not. -/
namespace ChipEight

/-! ### What comes out of a computation -/

/-- Whatever comes out of a computation has a property. -/
def Ensures {ε α : Type} (x : Except ε α) (P : α → Prop) : Prop := ∀ a, x = .ok a → P a

namespace Ensures

variable {ε α β : Type} {P : α → Prop} {Q : β → Prop}

theorem ok {a : α} (h : P a) : Ensures (.ok a : Except ε α) P := by
  intro b hb
  cases hb
  exact h

theorem error (e : ε) : Ensures (.error e : Except ε α) P := nofun

theorem bind {x : Except ε α} {f : α → Except ε β} (hx : Ensures x P)
    (hf : ∀ a, P a → Ensures (f a) Q) : Ensures (x >>= f) Q := by
  intro b hb
  cases x with
  | error e => cases hb
  | ok a => exact hf a (hx a rfl) b hb

theorem map {x : Except ε α} {f : α → β} (hx : Ensures x P) (hf : ∀ a, P a → Q (f a)) :
    Ensures (x.map f) Q := by
  cases x with
  | error e => exact .error e
  | ok a => exact .ok (hf a (hx a rfl))

end Ensures

/-! ### Numbers stay in their ranges -/

/-- An option may have a number. -/
def ValueOption.Admits (option : ValueOption) (n : Nat) : Prop :=
  option.least ≤ n ∧ n ≤ option.greatest

theorem ValueOption.parse_admits (option : ValueOption) (text : String) :
    Ensures (option.parse text) option.Admits := by
  unfold parse
  split
  · exact .error _
  · split
    · exact .ok ‹_›
    · exact .error _

namespace Given

/-- Every number given is one that its option may have. -/
def Ranged (g : Given) : Prop := ∀ option n, g.number option = some n → option.Admits n

theorem nothing_ranged : nothing.Ranged := by
  intro option n h
  cases option <;> cases h

theorem number_setNumber (g : Given) (n : Nat) (option other : ValueOption) :
    (g.setNumber n option).number other = if other = option then some n else g.number other := by
  cases option <;> cases other <;> rfl

theorem Ranged.setNumber {g : Given} (hg : g.Ranged) {option : ValueOption} {n : Nat}
    (hn : option.Admits n) : (g.setNumber n option).Ranged := by
  intro other k h
  rw [number_setNumber] at h
  split at h
  · cases h
    subst other
    exact hn
  · exact hg other k h

theorem Ranged.of_number_eq {g other : Given} (hg : g.Ranged)
    (h : ∀ option, other.number option = g.number option) : other.Ranged :=
  fun option n hn => hg option n ((h option).symm.trans hn)

theorem Ranged.takeValue {g : Given} (hg : g.Ranged) (option : ValueOption) (text : String) :
    Ensures (g.takeValue option text) Ranged := by
  unfold Given.takeValue
  split
  · exact .error _
  · exact (option.parse_admits text).map fun n hn => hg.setNumber hn

theorem Ranged.takeFlag {g : Given} (hg : g.Ranged) (flag : Flag) :
    Ensures (g.takeFlag flag) Ranged := by
  unfold Given.takeFlag
  split
  · exact .error _
  · exact .ok (hg.of_number_eq fun option => by cases option <;> rfl)

theorem Ranged.takePath {g : Given} (hg : g.Ranged) (text : String) :
    Ensures (g.takePath text) Ranged := by
  unfold Given.takePath
  split
  · exact .error _
  · exact .ok (hg.of_number_eq fun option => by cases option <;> rfl)

end Given

namespace Reading

/-- Every number read so far is one that its option may have. A number that was accepted but
not looked into yet is none that was read. -/
def Ranged (r : Reading) : Prop := r.given.Ranged

theorem Ranged.settle {r : Reading} (hr : r.Ranged) : Ensures r.settle Given.Ranged := by
  unfold Reading.settle
  split
  · exact .ok hr
  · exact .error _
  · exact Given.Ranged.takeValue hr _ _
  · exact Given.Ranged.takePath hr _

theorem Ranged.takeOption {r : Reading} (hr : r.Ranged) (option : ValueOption)
    (attached : Option String) : Ensures (r.takeOption option attached) Ranged := by
  refine hr.settle.bind fun given hg => ?_
  cases attached with
  | none => exact .ok hg
  | some text => exact (hg.takeValue option text).bind fun given hg => .ok hg

theorem Ranged.takeNamed {r : Reading} (hr : r.Ranged) (named : Named) (attached : Option String) :
    Ensures (r.takeNamed named attached) Ranged := by
  unfold Reading.takeNamed
  split
  · exact hr.takeOption _ _
  · exact .error _
  · exact hr.settle.bind fun given hg => (hg.takeFlag _).bind fun given hg => .ok hg
  · exact hr.settle.bind fun _ _ => .error _
  · exact hr.settle.bind fun _ _ => .error _

theorem Ranged.takeLong {r : Reading} (hr : r.Ranged) (word : List Char) :
    Ensures (r.takeLong word) Ranged := by
  unfold Reading.takeLong
  dsimp only
  split
  · exact .error _
  · exact hr.takeNamed _ _

theorem Ranged.takeShort {r : Reading} (hr : r.Ranged) (letter : Char) (rest : List Char) :
    Ensures (r.takeShort letter rest) Ranged := by
  unfold Reading.takeShort
  split
  · exact .error _
  · split <;> exact hr.takeOption _ _
  · exact hr.takeNamed _ _

theorem Ranged.takeMarked {r : Reading} (hr : r.Ranged) (text : String) :
    Ensures (r.takeMarked text) Ranged := by
  unfold Reading.takeMarked
  split
  · exact .error _
  · exact hr.settle.bind fun given hg => .ok hg

theorem Ranged.takePlain {r : Reading} (hr : r.Ranged) (text : String) :
    Ensures (r.takePlain text) Ranged := by
  unfold Reading.takePlain
  split
  · exact .ok hr
  · exact hr.takeMarked text

/-- One word keeps the numbers in their ranges. -/
theorem Ranged.take {r : Reading} (hr : r.Ranged) (word : String) :
    Ensures (r.take word) Ranged := by
  unfold Reading.take
  split
  · exact hr.takeLong _
  · exact hr.takePlain _
  · exact hr.takeShort _ _
  · exact hr.takePlain _

theorem Ranged.takeAllMarked {r : Reading} (hr : r.Ranged) (words : List String) :
    Ensures (Reading.takeAllMarked words r) Ranged := by
  induction words generalizing r with
  | nil => exact .ok hr
  | cons word rest ih => exact (hr.takeMarked word).bind fun r hr => ih hr

/-- Any number of words do. -/
theorem Ranged.takeAll {r : Reading} (hr : r.Ranged) (words : List String) :
    Ensures (Reading.takeAll words r) Ranged := by
  fun_induction Reading.takeAll words r with
  | case1 r => exact .ok hr
  | case2 rest r => exact hr.takeAllMarked rest
  | case3 word rest r _ ih => exact (hr.take word).bind fun r hr => ih r hr

end Reading

namespace Settings

/-- The bounds that a command line lets settings in with. -/
structure InBounds (s : Settings) : Prop where
  speed_pos : 1 ≤ s.speed.toNat
  speed_le : s.speed.toNat ≤ 100000
  rewindDepth_le : s.rewindDepth ≤ 36000

end Settings

theorem Given.Ranged.settings {g : Given} (hg : g.Ranged) : g.settings.InBounds := by
  have speed : 1 ≤ g.settings.speed.toNat ∧ g.settings.speed.toNat ≤ 100000 := by
    -- What was not given is standard, and the standard is within bounds.
    cases h : g.speed with
    | none => simp [Given.settings, h, Settings.defaultSpeed]
    | some n =>
      obtain ⟨least, greatest⟩ : 1 ≤ n ∧ n ≤ 100000 := hg .speed n h
      have small : n < UInt32.size := by simp only [UInt32.size]; omega
      simp only [Given.settings, h, Option.map_some, Option.getD_some,
        UInt32.toNat_ofNat_of_lt' small]
      exact ⟨least, greatest⟩
  have depth : g.settings.rewindDepth ≤ 36000 := by
    cases h : g.rewindDepth with
    | none => simp [Given.settings, h, Settings.defaultDepth]
    | some n =>
      simp only [Given.settings, h, Option.getD_some]
      exact (hg .rewindDepth n h).2
  exact ⟨speed.1, speed.2, depth⟩

theorem Reading.start_ranged : start.Ranged := Given.nothing_ranged

theorem Reading.Ranged.finish {r : Reading} (hr : r.Ranged) :
    Ensures r.finish fun options => options.settings.InBounds := by
  refine hr.settle.bind fun given hg => ?_
  split
  · exact .error _
  · exact .ok hg.settings

/-- Whatever the words of a command line are, the speed and the rewind depth that come out are
within bounds. -/
theorem Options.parse_inBounds (words : List String) :
    Ensures (Options.parse words) fun options => options.settings.InBounds :=
  (Reading.start_ranged.takeAll words).bind fun _ hr => hr.finish

/-! ### What is computed from the bounds -/

namespace Settings.InBounds

variable {s : Settings}

theorem rate_eq (h : s.InBounds) : s.rate = s.speed.toNat := by
  have := h.speed_pos
  simp only [rate]
  omega

/-- A cycle is a second over the speed, which divides it and leaves no zero. -/
theorem cycle_eq (h : s.InBounds) : s.cycle = Span.second / s.speed.toNat := by
  have pos : 0 < 1000000000 / s.speed.toNat :=
    Nat.div_pos (h.speed_le.trans (by decide)) h.speed_pos
  simp only [cycle, h.rate_eq, Span.second]
  omega

theorem cycle_ge (h : s.InBounds) : 10000 ≤ s.cycle := by
  rw [h.cycle_eq, Nat.le_div_iff_mul_le h.speed_pos]
  have := h.speed_le
  simp only [Span.second]
  omega

theorem cycle_le (h : s.InBounds) : s.cycle ≤ Span.second := by
  rw [h.cycle_eq]
  exact Nat.div_le_self _ _

theorem cyclesPerFrame_eq (h : s.InBounds) :
    s.cyclesPerFrame = max (s.speed.toNat / Timers.frequency) 1 := by
  rw [cyclesPerFrame, h.rate_eq]

theorem cyclesPerFrame_le (h : s.InBounds) : s.cyclesPerFrame ≤ 1666 := by
  have := h.speed_le
  rw [h.cyclesPerFrame_eq, Timers.frequency]
  omega

end Settings.InBounds

/-! ### What is computed from a scale -/

namespace Window

/-- A side of a window is exact in 32 bits as long as it is below what they hold. -/
theorem side_exact_iff (scale : UInt32) {side : Nat} (hs : side < UInt32.size) :
    (UInt32.ofNat side * scale).toNat = side * scale.toNat ↔ side * scale.toNat < UInt32.size := by
  rw [UInt32.toNat_mul, UInt32.toNat_ofNat_of_lt' hs]
  constructor
  · intro h
    rw [← h]
    exact Nat.mod_lt _ (by decide)
  · exact Nat.mod_eq_of_lt

theorem sides?_eq (scale : UInt32) :
    sides? scale =
      if scale.toNat < 67108864 then some (Screen.width * scale.toNat, Screen.height * scale.toNat)
      else none := by
  have h : (Screen.width * scale.toNat < 4294967296 ∧ Screen.height * scale.toNat < 4294967296) ↔
      scale.toNat < 67108864 := by
    simp only [Screen.width, Screen.height]
    omega
  simp only [sides?, h]

theorem sides_of_opened {desktop : Desktop} {scale : UInt32} {w : Window}
    (h : opened desktop scale = .ok w) : sides? scale = some (w.width, w.height) := by
  unfold opened at h
  split at h
  · cases h
  · split at h
    · cases h
    · split at h
      · cases h
      · cases h
        assumption

theorem sides_of_tooLarge {desktop : Desktop} {scale : UInt32}
    (h : opened desktop scale = .error .tooLarge) : sides? scale = none := by
  unfold opened at h
  split at h
  · cases h
  · split at h
    · assumption
    · split at h <;> cases h

end Window

theorem Desktop.callAll_sound (calls : List DesktopCall) : sound.callAll calls = .ok () := by
  induction calls with
  | nil => rfl
  | cons call rest ih => exact ih

/-! ### The console that is set up -/

namespace Application

variable {world : World} {options : Options} {threshold : Option Severity}

theorem settings_of_loadMachine {settings : Settings} {machine : Machine} {records : List Record}
    (h : loadMachine world settings = .ok (machine, records)) : machine.settings = settings := by
  unfold loadMachine at h
  split at h
  · cases h
  · dsimp only at h
    split at h
    · cases h
    · cases h
      exact (Machine.reloads_loadFrom _ _).settings

theorem sides_of_openWindow {scale : UInt32} {w : Window} (h : openWindow world scale = .ok w) :
    Window.sides? scale = some (w.width, w.height) := by
  unfold openWindow at h
  split at h
  · cases h
  · split at h
    · cases h
    · cases h
    · split at h
      · cases h
      · cases h
        exact Window.sides_of_opened ‹_›

theorem loadMachine_ne_tooLarge {settings : Settings} :
    loadMachine world settings ≠ .error .windowTooLarge := by
  unfold loadMachine
  split
  · nofun
  · dsimp only
    split <;> nofun

theorem sides_of_openWindow_tooLarge {scale : UInt32}
    (h : openWindow world scale = .error .windowTooLarge) : Window.sides? scale = none := by
  unfold openWindow at h
  split at h
  · cases h
  · split at h
    · cases h
    · exact Window.sides_of_tooLarge ‹_›
    · split at h <;> cases h

/-- A console that is set up works at the speed of its options in a window of their scale. -/
theorem of_setUp {console : WindowConsole} (h : setUp world options threshold = .ok console) :
    console.machine.settings = options.settings ∧
      console.timetable.cycle = options.settings.cycle ∧
      Window.sides? options.scale = some (console.display.width, console.display.height) := by
  unfold setUp at h
  split at h
  · cases h
  · rename_i machine records loaded
    split at h
    · cases h
    · rename_i window shown
      cases h
      have settings := settings_of_loadMachine loaded
      exact ⟨settings, congrArg Settings.cycle settings, sides_of_openWindow shown⟩

theorem sides_of_tooLarge (h : setUp world options threshold = .error .windowTooLarge) :
    Window.sides? options.scale = none := by
  unfold setUp at h
  split at h
  · rename_i fault refused
    cases h
    exact absurd refused loadMachine_ne_tooLarge
  · split at h
    · rename_i fault refused
      cases h
      exact sides_of_openWindow_tooLarge refused
    · cases h

/-- On a sound desktop, a console is set up for a program that loads if the window has sides. -/
theorem setUp_sound {loaded : Machine × List Record}
    (hl : loadMachine world options.settings = .ok loaded) (hd : world.desktop = .sound)
    {sides : Nat × Nat} (hs : Window.sides? options.scale = some sides) :
    ∃ console, setUp world options threshold = .ok console := by
  simp only [setUp, hl, openWindow, hd, Desktop.callAll_sound, Window.opened, hs]
  exact ⟨_, rfl⟩

theorem setUp_sound_tooLarge {loaded : Machine × List Record}
    (hl : loadMachine world options.settings = .ok loaded) (hd : world.desktop = .sound)
    (hs : Window.sides? options.scale = none) :
    setUp world options threshold = .error .windowTooLarge := by
  simp only [setUp, hl, openWindow, hd, Desktop.callAll_sound, Window.opened, hs]

end Application

/-! ### Words that name a number -/

theorem decimal?_toDigits (n : Nat) : decimal? (Nat.toDigits 10 n) = some n := by
  have digits : (Nat.toDigits 10 n).all Char.isDigit = true :=
    List.all_eq_true.mpr fun _ hc => Nat.isDigit_of_mem_toDigits (by decide) (by decide) hc
  have value := Nat.ofDigitChars_eq_foldl.symm.trans (Nat.ofDigitChars_ten_toDigits (n := n))
  unfold decimal?
  split
  · exact absurd ‹_› Nat.toDigits_ne_nil
  · rw [if_pos digits, value]

theorem toDigits_ne_cons {c : Char} (hc : c.isDigit = false) (n : Nat) (rest : List Char) :
    Nat.toDigits 10 n ≠ c :: rest := by
  intro h
  have digit : c.isDigit = true :=
    Nat.isDigit_of_mem_toDigits (by decide) (by decide) (h ▸ List.mem_cons_self)
  rw [hc] at digit
  cases digit

theorem unsigned?_toDigits (n : Nat) : unsigned? (Nat.toDigits 10 n) = some n := by
  unfold unsigned?
  split
  · exact absurd ‹_› (toDigits_ne_cons (by decide) _ _)
  · exact decimal?_toDigits n

theorem signed?_toDigits (n : Nat) : signed? (Nat.toDigits 10 n) = some n := by
  unfold signed?
  split
  · exact absurd ‹_› (toDigits_ne_cons (by decide) _ _)
  · exact unsigned?_toDigits n

namespace ValueOption

/-- The name of an option. -/
def longName : ValueOption → String
  | .speed => "ips"
  | .rewindDepth => "rewind-depth"
  | .seed => "seed"
  | .scale => "scale"

/-- The word that gives an option a number. -/
def word (option : ValueOption) (n : Nat) : String :=
  "--" ++ option.longName ++ "=" ++ toString n

theorem ofLong?_longName (option : ValueOption) :
    Named.ofLong? option.longName = some (.value option) := by
  cases option <;> rfl

theorem ne_equals_of_mem_longName (option : ValueOption) :
    ∀ c ∈ option.longName.toList, (c != '=') = true :=
  List.all_eq_true.mp (by cases option <;> decide)

theorem toList_word (option : ValueOption) (n : Nat) :
    (option.word n).toList =
      '-' :: '-' :: (option.longName.toList ++ '=' :: Nat.toDigits 10 n) := by
  simp [word]

theorem parse_toDigits {option : ValueOption} {n : Nat} (h : option.Admits n) :
    option.parse (String.ofList (Nat.toDigits 10 n)) = .ok n := by
  have number : option.number? (String.ofList (Nat.toDigits 10 n)) = some n := by
    cases option <;>
      simp only [number?, String.toList_ofList, signed?_toDigits, unsigned?_toDigits]
  rw [parse, number]
  exact if_pos h

end ValueOption

/-- A word gives its option its number. -/
theorem Reading.take_word {r : Reading} {option : ValueOption} {n : Nat}
    (settled : r.pending = .nothing) (first : r.given.number option = none)
    (h : option.Admits n) :
    r.take (option.word n) = .ok ⟨r.given.setNumber n option, .nothing, r.hasPath⟩ := by
  have given : r.given.takeValue option (String.ofList (Nat.toDigits 10 n)) =
      .ok (r.given.setNumber n option) := by
    simp [Given.takeValue, first, ValueOption.parse_toDigits h, Except.map]
  have name : (option.longName.toList ++ '=' :: Nat.toDigits 10 n).takeWhile (· != '=') =
      option.longName.toList := by
    rw [List.takeWhile_append_of_pos option.ne_equals_of_mem_longName]
    simp
  have value : (option.longName.toList ++ '=' :: Nat.toDigits 10 n).dropWhile (· != '=') =
      '=' :: Nat.toDigits 10 n := by
    rw [List.dropWhile_append_of_pos option.ne_equals_of_mem_longName]
    simp
  simp only [take, option.toList_word, takeLong, name, value, String.ofList_toList,
    option.ofLong?_longName, takeNamed, takeOption, settle, settled]
  simp only [bind, Except.bind, given, pure, Except.pure]

theorem ValueOption.word_ne_mark (option : ValueOption) (n : Nat) : option.word n ≠ "--" := by
  intro h
  have := congrArg String.toList h
  rw [option.toList_word] at this
  simp at this

theorem Reading.takeAll_word {r : Reading} {option : ValueOption} {n : Nat}
    (settled : r.pending = .nothing) (first : r.given.number option = none)
    (h : option.Admits n) (rest : List String) :
    takeAll (option.word n :: rest) r =
      takeAll rest ⟨r.given.setNumber n option, .nothing, r.hasPath⟩ := by
  rw [takeAll, take_word settled first h]
  · rfl
  · exact option.word_ne_mark n

/-- Every speed and every rewind depth within bounds is let in, and with them every scale. -/
theorem Options.parse_words {path : String} {speed scale : UInt32} {depth : Nat} (hp : path ≠ "")
    (hs : ValueOption.speed.Admits speed.toNat) (hd : ValueOption.rewindDepth.Admits depth) :
    Options.parse [ValueOption.speed.word speed.toNat, ValueOption.rewindDepth.word depth,
        ValueOption.scale.word scale.toNat, "--", path] =
      .ok ⟨path, { Settings.standard with speed, rewindDepth := depth }, scale⟩ := by
  have hc : ValueOption.scale.Admits scale.toNat :=
    ⟨Nat.zero_le _, Nat.le_of_lt_succ scale.toNat_lt⟩
  have read : Reading.takeAll [ValueOption.speed.word speed.toNat,
        ValueOption.rewindDepth.word depth, ValueOption.scale.word scale.toNat, "--", path] .start =
      .ok ⟨⟨some speed.toNat, some depth, none, some scale.toNat, [], none⟩, .path path, true⟩ := by
    rw [Reading.takeAll_word rfl rfl hs, Reading.takeAll_word rfl rfl hd,
      Reading.takeAll_word rfl rfl hc]
    rfl
  simp [Options.parse, read, bind, Except.bind, Reading.finish, Reading.settle, Given.takePath, hp,
    pure, Except.pure, Given.settings, Settings.standard, Dialect.chip48]

/-- A command line can say every speed from 1 to 100000, every rewind depth up to 36000 and
every scale, and no other. -/
theorem Options.exists_parse_iff (speed : UInt32) (depth : Nat) (scale : UInt32) :
    (∃ words options, Options.parse words = .ok options ∧ options.settings.speed = speed ∧
        options.settings.rewindDepth = depth ∧ options.scale = scale) ↔
      1 ≤ speed.toNat ∧ speed.toNat ≤ 100000 ∧ depth ≤ 36000 := by
  constructor
  · rintro ⟨words, options, parsed, rfl, rfl, -⟩
    have bounds := Options.parse_inBounds words options parsed
    exact ⟨bounds.speed_pos, bounds.speed_le, bounds.rewindDepth_le⟩
  · rintro ⟨pos, le, depth_le⟩
    exact ⟨_, _, Options.parse_words (show "program" ≠ "" by decide) ⟨pos, le⟩
      ⟨Nat.zero_le _, depth_le⟩, rfl, rfl, rfl⟩

/-! ### From the words to the console -/

/-- **The numbers of a run are exact, but for the sides of its window.** The words of a command
line only give options whose speed and rewind depth are within bounds. The speed of any such
options divides a second, into cycles of ten microseconds or more, and is divided into frames
of at most 1666 cycles; the console they come to, if any, has these cycles and a window of
exactly their scale. The sides of the window fit into 32 bits just for scales below 67108864, and
nothing keeps a command line from saying another: there, on a desktop that refuses nothing, the
window is too large. -/
theorem Options.figures (options : Options) :
    (∀ words, Options.parse words = .ok options → options.settings.InBounds) ∧
    (options.settings.InBounds →
      (1 ≤ options.settings.speed.toNat ∧ options.settings.speed.toNat ≤ 100000 ∧
        options.settings.rewindDepth ≤ 36000) ∧
      (∀ scale, ∃ others other, Options.parse others = .ok other ∧
        other.settings.speed = options.settings.speed ∧
        other.settings.rewindDepth = options.settings.rewindDepth ∧ other.scale = scale) ∧
      (options.settings.rate = options.settings.speed.toNat ∧ 0 < options.settings.rate) ∧
      (options.settings.cycle = Span.second / options.settings.speed.toNat ∧
        10000 ≤ options.settings.cycle ∧ options.settings.cycle ≤ Span.second) ∧
      (options.settings.cyclesPerFrame =
          max (options.settings.speed.toNat / Timers.frequency) 1 ∧
        options.settings.cyclesPerFrame ≤ 1666) ∧
      ((UInt32.ofNat Screen.width * options.scale).toNat = Screen.width * options.scale.toNat ↔
        options.scale.toNat < 67108864) ∧
      ((UInt32.ofNat Screen.height * options.scale).toNat = Screen.height * options.scale.toNat ↔
        options.scale.toNat < 134217728) ∧
      ∀ world threshold,
        (∀ console, Application.setUp world options threshold = .ok console →
          console.machine.settings = options.settings ∧
          console.timetable.cycle = Span.second / options.settings.speed.toNat ∧
          console.display.width = Screen.width * options.scale.toNat ∧
          console.display.height = Screen.height * options.scale.toNat ∧
          options.scale.toNat < 67108864) ∧
        (Application.setUp world options threshold = .error .windowTooLarge →
          67108864 ≤ options.scale.toNat) ∧
        ∀ loaded, Application.loadMachine world options.settings = .ok loaded →
          world.desktop = .sound →
          if options.scale.toNat < 67108864 then
            ∃ console, Application.setUp world options threshold = .ok console
          else Application.setUp world options threshold = .error .windowTooLarge) := by
  have sides := Window.sides?_eq options.scale
  refine ⟨fun words parsed => Options.parse_inBounds words options parsed, fun bounds => ?_⟩
  have ranges : 1 ≤ options.settings.speed.toNat ∧ options.settings.speed.toNat ≤ 100000 ∧
      options.settings.rewindDepth ≤ 36000 :=
    ⟨bounds.speed_pos, bounds.speed_le, bounds.rewindDepth_le⟩
  refine ⟨ranges, fun scale => (Options.exists_parse_iff _ _ scale).mpr ranges,
    ⟨bounds.rate_eq, options.settings.rate_pos⟩,
    ⟨bounds.cycle_eq, bounds.cycle_ge, bounds.cycle_le⟩,
    ⟨bounds.cyclesPerFrame_eq, bounds.cyclesPerFrame_le⟩, ?width, ?height, ?setUp⟩
  case width =>
    rw [Window.side_exact_iff _ (by decide), Screen.width, UInt32.size]
    omega
  case height =>
    rw [Window.side_exact_iff _ (by decide), Screen.height, UInt32.size]
    omega
  case setUp =>
    intro world threshold
    refine ⟨fun console h => ?ok, fun h => ?tooLarge, fun loaded hl hd => ?sound⟩
    case ok =>
      obtain ⟨settings, cycle, shown⟩ := Application.of_setUp h
      rw [sides] at shown
      split at shown
      · obtain ⟨width, height⟩ := Prod.mk.inj (Option.some.inj shown)
        exact ⟨settings, cycle.trans bounds.cycle_eq, width.symm, height.symm, ‹_›⟩
      · cases shown
    case tooLarge =>
      rw [Application.sides_of_tooLarge h] at sides
      by_contra below
      rw [if_pos (by omega)] at sides
      cases sides
    case sound =>
      split
      · exact Application.setUp_sound hl hd (by rw [sides, if_pos ‹_›])
      · exact Application.setUp_sound_tooLarge hl hd (by rw [sides, if_neg ‹_›])

/-- A program of one jump to itself, on a desktop that refuses nothing. -/
def World.idle : World :=
  ⟨.ok ⟨[[0x12, 0x00]], none⟩, .sound, [], ⟨1, 2, 3, 4⟩, none, [], 0⟩

theorem Options.figures_thousand :
    let options : Options := ⟨"game.ch8", { Settings.standard with speed := 1000 }, 20⟩
    Options.parse ["--ips", "1000", "--scale=20", "game.ch8"] = .ok options ∧
      options.settings.cycle = 1000000 ∧ options.settings.cyclesPerFrame = 16 ∧
      ∃ console, Application.setUp World.idle options none = .ok console ∧
        console.timetable.cycle = 1000000 ∧ console.display.width = 1280 ∧
        console.display.height = 640 := by
  intro options
  have parsed : Options.parse ["--ips", "1000", "--scale=20", "game.ch8"] = .ok options := rfl
  have speed : options.settings.speed.toNat = 1000 := rfl
  obtain ⟨bounds, figures⟩ := Options.figures options
  obtain ⟨-, -, -, ⟨cycle, -⟩, ⟨frame, -⟩, -, -, console⟩ := figures (bounds _ parsed)
  obtain ⟨exact, -, sound⟩ := console World.idle none
  obtain ⟨console, set⟩ := sound _ rfl rfl
  obtain ⟨-, cycles, width, height, -⟩ := exact console set
  rw [speed] at cycle frame cycles
  exact ⟨parsed, cycle, frame, console, set, cycles, width, height⟩

/-- A scale that a command line can say and no window can have. -/
theorem Options.scale_overflows :
    ∃ options, Options.parse ["--scale", "67108864", "game.ch8"] = .ok options ∧
      (UInt32.ofNat Screen.width * options.scale).toNat ≠ Screen.width * options.scale.toNat ∧
      Application.setUp World.idle options none = .error .windowTooLarge :=
  ⟨⟨"game.ch8", .standard, 67108864⟩, rfl, by decide,
    Application.setUp_sound_tooLarge rfl rfl rfl⟩

end ChipEight
