import ChipEight.Proofs.Taps

/-! What a keyboard reports, reading after reading.

Each reading takes in a batch of events. What a keyboard holds on to, `Heard` says from all the
events that it has been told of so far, however they came in batches: a key of the keypad, or a
flag that a key raises and lowers, is where the last event about that key has put it, and the flag
that quits is never lowered again. Only the keys to report look at the batch by itself, in which a
key that went down counts as down even if it has come up since. `reading_of_batches` is what
follows for every reading of a keyboard. -/
namespace ChipEight

namespace KeyEvent

/-- What an event says about some keys: that one of them went down, or that one came up. -/
def turn? (watched : KeyCode → Bool) : KeyEvent → Option Bool
  | .down (some key) => if watched key then some true else none
  | .up (some key) => if watched key then some false else none
  | _ => none

/-- Whether an event is about no key that is known, about one that has no meaning, or about neither
a key nor the end. -/
def idle : KeyEvent → Bool
  | .down (some key) | .up (some key) =>
    key.padKey?.isNone && key ∉ [KeyCode.space, .backspace, .escape]
  | .down none | .up none | .other => true
  | .quit => false

/-- Some key was touched, and by the last event that is about one of them it went down. -/
def EndsDown (watched : KeyCode → Bool) (events : List KeyEvent) : Prop :=
  (events.filterMap (turn? watched)).getLast? = some true

instance (watched : KeyCode → Bool) (events : List KeyEvent) :
    Decidable (EndsDown watched events) :=
  inferInstanceAs (Decidable (_ = _))

/-- One more event decides if it is about one of the keys. -/
theorem endsDown_concat (watched : KeyCode → Bool) (events : List KeyEvent) (event : KeyEvent) :
    decide (EndsDown watched (events ++ [event])) =
      (event.turn? watched).getD (decide (EndsDown watched events)) := by
  simp only [EndsDown, List.filterMap_append, List.filterMap_cons, List.filterMap_nil]
  rcases event.turn? watched with _ | _ | _ <;> simp

/-- What an event says about one key of the keypad is what its move says about it. -/
theorem turn?_padKey (event : KeyEvent) (pad : Nibble) :
    event.turn? (·.padKey? == some pad) =
      event.move?.bind fun move => if move.1 = pad then some move.2 else none := by
  rcases event with (_ | key) | (_ | key) | _ | _ <;> try rfl
  all_goals
    simp only [turn?, move?]
    rcases Option.eq_none_or_eq_some key.padKey? with h | ⟨other, h⟩ <;> simp [h]

/-- The move of a key of the keypad going down. -/
theorem move?_eq_down {event : KeyEvent} {pad : Nibble} :
    event.move? = some (pad, true) ↔ ∃ key, event = .down (some key) ∧ key.padKey? = some pad := by
  rcases event with (_ | key) | (_ | key) | _ | _ <;> simp [move?]

end KeyEvent

/-- The keys that control the console are none of the keypad's. -/
theorem KeyCode.ne_of_padKey? {key : KeyCode} {pad : Nibble} (h : key.padKey? = some pad) :
    key ≠ .space ∧ key ≠ .backspace ∧ key ≠ .escape := by
  refine ⟨?_, ?_, ?_⟩ <;> rintro rfl <;> cases h

namespace Keyboard

open KeyEvent

/-- The keyboard after a number of readings. -/
def readBy (k : Keyboard) : Nat → Keyboard
  | 0 => k
  | n + 1 => (Input.poll (k.readBy n)).peripheral

/-! ### One event -/

/-- What an event does to the flags that control the console. -/
theorem flags_handle (k : Keyboard) (event : KeyEvent) :
    (k.handle event).fastForward = (event.turn? (· == .space)).getD k.fastForward ∧
      (k.handle event).rewind = (event.turn? (· == .backspace)).getD k.rewind ∧
      (k.handle event).quit =
        (k.quit || decide (event = .quit ∨ event = .down (some .escape))) := by
  rcases event with (_ | key) | (_ | key) | _ | _
  case down.some | up.some =>
    rcases Option.eq_none_or_eq_some key.padKey? with h | ⟨pad, h⟩
    · cases key <;> simp [handle, keyDown, keyUp, turn?, h]
    · obtain ⟨hspace, hbackspace, hescape⟩ := KeyCode.ne_of_padKey? h
      simp [handle, keyDown, keyUp, turn?, h, hspace, hbackspace, hescape]
  all_goals simp [handle, turn?]

/-- What an event does to a key of the keypad. -/
theorem held_handle (k : Keyboard) (event : KeyEvent) (pad : Nibble) :
    (k.handle event).keys.held.isDown pad =
      (event.turn? (·.padKey? == some pad)).getD (k.keys.held.isDown pad) := by
  rw [keys_handle, turn?_padKey]
  rcases event.move? with _ | ⟨moved, down⟩
  · rfl
  · by_cases h : moved = pad
    · cases down <;> simp [KeyLatch.move, KeyLatch.press, KeyLatch.release, h]
    · cases down <;> simp [KeyLatch.move, KeyLatch.press, KeyLatch.release, h, Ne.symm h]

/-- An event that means nothing changes nothing. -/
theorem handle_of_idle (k : Keyboard) {event : KeyEvent} (h : event.idle = true) :
    k.handle event = k := by
  rcases event with (_ | key) | (_ | key) | _ | _
  case down.some | up.some =>
    simp only [idle, Bool.and_eq_true, Option.isNone_iff_eq_none] at h
    obtain ⟨hpad, hkey⟩ := h
    cases key <;> simp_all [handle, keyDown, keyUp]
  case quit => cases h
  all_goals rfl

/-! ### All events so far -/

/-- What a keyboard that was untouched at first holds on to, after events. -/
structure Heard (k : Keyboard) (events : List KeyEvent) : Prop where
  held : ∀ pad, k.keys.held.isDown pad = decide (EndsDown (·.padKey? == some pad) events)
  fastForward : k.fastForward = decide (EndsDown (· == .space) events)
  rewind : k.rewind = decide (EndsDown (· == .backspace) events)
  quit : k.quit = decide (.quit ∈ events ∨ .down (some .escape) ∈ events)

namespace Heard

theorem untouched (batches : List (List KeyEvent)) : Heard (.untouched batches) [] :=
  ⟨fun pad => Keypad.isDown_released pad, rfl, rfl, rfl⟩

theorem handle {k : Keyboard} {events : List KeyEvent} (h : k.Heard events) (event : KeyEvent) :
    (k.handle event).Heard (events ++ [event]) := by
  obtain ⟨hfast, hrewind, hquit⟩ := k.flags_handle event
  refine ⟨fun pad => ?_, ?_, ?_, ?_⟩
  · rw [held_handle, endsDown_concat, h.held]
  · rw [hfast, endsDown_concat, h.fastForward]
  · rw [hrewind, endsDown_concat, h.rewind]
  · rw [hquit, h.quit, ← Bool.decide_or, decide_eq_decide]
    simp only [List.mem_append, List.mem_singleton, eq_comm]
    tauto

theorem foldl {k : Keyboard} {events : List KeyEvent} (h : k.Heard events)
    (batch : List KeyEvent) : (batch.foldl Keyboard.handle k).Heard (events ++ batch) := by
  induction batch generalizing k events with
  | nil => rwa [List.append_nil]
  | cons event rest ih => simpa using ih (h.handle event)

/-- Reading lays the taps aside and holds on to the rest. -/
theorem read {k : Keyboard} {events : List KeyEvent} (h : k.Heard events) :
    (Input.poll k).peripheral.Heard (events ++ k.batch) := by
  have hbefore : Heard { k with batches := k.batches.tail } events :=
    ⟨h.held, h.fastForward, h.rewind, h.quit⟩
  have habsorbed : k.absorb.Heard (events ++ k.batch) := hbefore.foldl k.batch
  exact ⟨habsorbed.held, habsorbed.fastForward, habsorbed.rewind, habsorbed.quit⟩

end Heard

/-! ### Readings -/

theorem batches_handle (k : Keyboard) (event : KeyEvent) : (k.handle event).batches = k.batches := by
  rcases event with (_ | key) | (_ | key) | _ | _
  case down.some =>
    simp only [handle, keyDown]
    split
    · rfl
    · split <;> rfl
  case up.some =>
    simp only [handle, keyUp]
    split
    · rfl
    · split <;> rfl
  all_goals rfl

theorem batches_absorb (k : Keyboard) : k.absorb.batches = k.batches.tail := by
  have hkept (events : List KeyEvent) (k : Keyboard) :
      (events.foldl handle k).batches = k.batches := by
    induction events generalizing k with
    | nil => rfl
    | cons event rest ih => rw [List.foldl_cons, ih, batches_handle]
  exact hkept k.batch { k with batches := k.batches.tail }

/-- After as many readings as there were batches, a keyboard has heard just these, and has no taps
left over. -/
theorem heard_readBy (before later : List (List KeyEvent)) :
    ((untouched (before ++ later)).readBy before.length).Heard before.flatten ∧
      ((untouched (before ++ later)).readBy before.length).batches = later ∧
      ((untouched (before ++ later)).readBy before.length).keys.tapped = .released := by
  induction before using List.reverseRecOn generalizing later with
  | nil => exact ⟨.untouched later, rfl, rfl⟩
  | append_singleton before batch ih =>
    obtain ⟨heard, hbatches, -⟩ := ih (batch :: later)
    rw [List.append_assoc, List.singleton_append, List.length_append, List.length_singleton,
      List.flatten_append, List.flatten_singleton]
    have hbatch : ((untouched (before ++ batch :: later)).readBy before.length).batch = batch := by
      rw [Keyboard.batch, hbatches]
      rfl
    refine ⟨?_, ?_, rfl⟩
    · have := heard.read
      rwa [hbatch] at this
    · exact (batches_absorb _).trans (congrArg List.tail hbatches)

/-- **What a keyboard reports.** Let nobody have touched a keyboard when it was new, and let it have
been read once for each of some batches of events. The next reading reports a key of the keypad as
down just where the last event about it, in all batches up to this one, was that it went down, or
where it went down in this batch. After that the keyboard asks to quit if any event so far did,
or else to go back if the backspace key has last gone down, or else to go faster if the space key
has, or else to go on. An event that is idle leaves a keyboard as it is. -/
theorem reading_of_batches (before : List (List KeyEvent)) (batch : List KeyEvent)
    (later : List (List KeyEvent)) :
    let k := (untouched (before ++ batch :: later)).readBy before.length
    let events := before.flatten ++ batch
    (∃ keypad, (Input.poll k).result = .ok keypad ∧
        ∀ pad, keypad.isDown pad = true ↔
          EndsDown (·.padKey? == some pad) events ∨
            ∃ key, .down (some key) ∈ batch ∧ key.padKey? = some pad) ∧
      Input.control (Input.poll k).peripheral =
        (if .quit ∈ events ∨ .down (some .escape) ∈ events then .quit
        else if EndsDown (· == .backspace) events then .rewind
        else if EndsDown (· == .space) events then .fastForward
        else .run) ∧
      ∀ (other : Keyboard) (event : KeyEvent), event.idle = true → other.handle event = other := by
  intro k events
  obtain ⟨heard, hbatches, huntapped⟩ := heard_readBy before (batch :: later)
  have hbatch : k.batch = batch := by
    rw [Keyboard.batch, hbatches]
    rfl
  have hafter : (Input.poll k).peripheral.Heard events := by
    have := heard.read
    rwa [hbatch] at this
  refine ⟨⟨k.absorb.keys.reading, rfl, fun pad => ?_⟩, ?_, fun other _ => other.handle_of_idle⟩
  · have hheld : k.absorb.keys.held.isDown pad = _ := hafter.held pad
    have htapped : k.absorb.keys.tapped.isDown pad = decide ((pad, true) ∈ k.moves) := by
      rw [keys_absorb, KeyLatch.tapped_moves, huntapped, Keypad.isDown_released, Bool.false_or]
    have hmoved : (pad, true) ∈ k.moves ↔
        ∃ key, .down (some key) ∈ batch ∧ key.padKey? = some pad := by
      rw [moves, hbatch, List.mem_filterMap]
      constructor
      · rintro ⟨event, hevent, hmove⟩
        obtain ⟨key, rfl, hpad⟩ := move?_eq_down.mp hmove
        exact ⟨key, hevent, hpad⟩
      · rintro ⟨key, hevent, hpad⟩
        exact ⟨_, hevent, move?_eq_down.mpr ⟨key, rfl, hpad⟩⟩
    rw [KeyLatch.reading, Keypad.isDown_union, hheld, htapped, ← Bool.decide_or, decide_eq_true_eq,
      hmoved]
  · show (Input.poll k).peripheral.wish = _
    simp only [wish, hafter.quit, hafter.rewind, hafter.fastForward, decide_eq_true_eq]

/-- W, which is key 5, is held and repeats; in the next batch it comes up, and goes down and up once
more. Space is held all the while, but backspace goes down as well. -/
theorem reading_of_batches_bounced :
    let w := KeyCode.letter 'W'
    let held : List KeyEvent := [.down (some w), .down (some w), .down (some .space)]
    let bounced : List KeyEvent :=
      [.up (some w), .down none, .down (some w), .up (some w), .down (some .backspace)]
    let k := (untouched [held, bounced, []]).readBy 1
    let last := (untouched [held, bounced, []]).readBy 2
    (∃ keypad, (Input.poll k).result = .ok keypad ∧ keypad.isDown 5 = true) ∧
      Input.control (Input.poll k).peripheral = .rewind ∧
      (∃ keypad, (Input.poll last).result = .ok keypad ∧ keypad.isDown 5 = false) ∧
      (KeyEvent.down (some (.letter 'P'))).idle = true ∧
      k.handle (.down (some (.letter 'P'))) = k := by
  intro w held bounced k last
  obtain ⟨⟨keypad, hok, hdown⟩, hcontrol, hidle⟩ := reading_of_batches [held] bounced [[]]
  obtain ⟨⟨keypad', hok', hdown'⟩, -⟩ := reading_of_batches [held, bounced] [] []
  have hother : (KeyEvent.down (some (.letter 'P'))).idle = true := by decide
  have htapped : ∃ key, .down (some key) ∈ bounced ∧ key.padKey? = some 5 :=
    ⟨w, by decide, by decide⟩
  refine ⟨⟨keypad, hok, (hdown 5).mpr (.inr htapped)⟩, hcontrol.trans (by decide),
    ⟨keypad', hok', ?_⟩, hother, hidle k _ hother⟩
  rw [← Bool.not_eq_true, hdown']
  simp only [List.not_mem_nil, false_and, exists_false, or_false]
  decide

end Keyboard
end ChipEight
