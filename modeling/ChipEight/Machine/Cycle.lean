import ChipEight.Machine.Basic

/-! The machine's cycle: fetch, decode, execute, and the way back.

A cycle of a program that waits for a key only watches the keypad. Any other cycle
fetches an instruction; a jump to its own address halts the program, and every
instruction that runs saves the snapshot before it, so that `rewind` can take it
back. -/
namespace ChipEight

/-- What one cycle did. -/
inductive Outcome where
  /-- An instruction ran. -/
  | executed (instruction : Instruction)
  /-- The program waits for a key. -/
  | awaitingKey
  /-- The program jumps to itself; nothing is left to run. -/
  | halted
deriving DecidableEq, Repr

namespace Machine

/-- What the machine's instructions can look at. -/
def surroundings (m : Machine) : Surroundings :=
  ⟨m.keypad, m.settings.dialect, m.settings.strict⟩

/-- What the machine's instructions can change besides the snapshot. -/
def devices (m : Machine) : Devices := ⟨m.timers, m.random⟩

/-- The machine with what its instructions can change besides the snapshot replaced. -/
def withDevices (m : Machine) (d : Devices) : Machine :=
  { m with timers := d.timers, random := d.random }

/-- The machine after a cycle of waiting for a key: the lowest key that is down is noted,
and once that key is up again it goes to its register and the wait is over. -/
def watchKeypad (m : Machine) (wait : KeyWait) : Machine :=
  match wait.pressed with
  | none =>
    match m.keypad.lowest? with
    | none => m
    | some key =>
      { m with snapshot := { m.snapshot with keyWait := some { wait with pressed := some key } } }
  | some key =>
    if m.keypad.isDown key then m
    else
      { m with
        snapshot :=
          { m.snapshot.setRegister wait.register key with keyWait := none } }

/-- Whether an instruction is outside the set and this machine tolerates it. -/
def skips (m : Machine) : Instruction → Bool
  | .unknown _ => !m.settings.strict
  | _ => false

/-- The machine with an address noted at which an instruction outside the set was met, and
the record of it if this is the first time. -/
def report (m : Machine) (op : Opcode) (instruction : Instruction) : Machine × List Record :=
  if m.skips instruction && !m.reported.contains m.snapshot.pc then
    ({ m with reported := m.snapshot.pc :: m.reported }, [.metUnknown op m.snapshot.pc])
  else (m, [])

/-- What is said about an instruction that is passed over. -/
def remark (m : Machine) : Instruction → List Record
  | .sys target => [.ignoredHostCall target m.snapshot.pc]
  | .unknown op => if m.settings.strict then [] else [.skippedUnknown op m.snapshot.pc]
  | _ => []

/-- The machine after an instruction ran. -/
def commit (m : Machine) (next : Snapshot) : Machine :=
  { m with
    snapshot := next
    history := m.history.push m.settings.rewindDepth m.snapshot
    halted := false }

/-- What the cycle of an instruction comes to, once the instruction did what it does. -/
def conclude (m : Machine) (instruction : Instruction) (ran : Except Fault Snapshot × Devices) :
    Reply Outcome :=
  match ran.1 with
  | .error fault => ⟨.error fault, m.withDevices ran.2, m.remark instruction⟩
  | .ok next =>
    ⟨.ok (.executed instruction), (m.withDevices ran.2).commit next, m.remark instruction⟩

/-- Run an instruction. -/
def run (m : Machine) (instruction : Instruction) : Reply Outcome :=
  m.conclude instruction (execute m.surroundings m.snapshot m.devices instruction)

/-- Stay at a jump to its own address. -/
def halt (m : Machine) : Reply Outcome :=
  ⟨.ok .halted, { m with halted := true }, if m.halted then [] else [.halted m.snapshot.pc]⟩

/-- Whether an instruction at the machine's place jumps to itself. -/
def spins (m : Machine) : Instruction → Bool
  | .jump target => target.word == m.snapshot.pc
  | _ => false

/-- Decode an opcode at the machine's place and act on it. -/
def dispatch (m : Machine) (op : Opcode) : Reply Outcome :=
  let instruction := op.decode
  let fetched := Record.fetched m.snapshot.pc op m.snapshot.registers m.snapshot.index
  if m.spins instruction then
    let reply := m.halt
    { reply with records := fetched :: reply.records }
  else
    let (m, met) := m.report op instruction
    let reply := m.run instruction
    { reply with records := fetched :: met ++ reply.records }

/-- One cycle. -/
def step (m : Machine) : Reply Outcome :=
  match m.snapshot.keyWait with
  | some wait => ⟨.ok .awaitingKey, m.watchKeypad wait, []⟩
  | none =>
    match m.snapshot.memory.opcode m.snapshot.pc with
    | .error fault => ⟨.error fault, m, []⟩
    | .ok op => m.dispatch op

/-- Take back the latest cycle that ran an instruction, if there is one. The picture it
leads back to is to be shown again. -/
def rewind (m : Machine) : Bool × Machine :=
  match m.history.pop? with
  | none => (false, m)
  | some (s, history) =>
    (true, { m with snapshot := { s with redraw := true }, history, halted := false })

/-- Take back cycles, at most a number of them. -/
def rewindBy : Nat → Machine → Machine
  | 0, m => m
  | n + 1, m =>
    match m.rewind with
    | (false, m) => m
    | (true, m) => rewindBy n m

end Machine
end ChipEight
