import ChipEight.Isa.Encoding
import ChipEight.Isa.Form
import ChipEight.Isa.Listing
import ChipEight.Hardware.Memory
import ChipEight.Hardware.CallStack
import ChipEight.Hardware.Screen
import ChipEight.Hardware.TimerBoard
import ChipEight.Hardware.Keypad
import ChipEight.Hardware.Random
import ChipEight.Machine.Execute
import ChipEight.Machine.History
import ChipEight.Machine.Journal
import ChipEight.Machine.Basic
import ChipEight.Machine.Cycle
import ChipEight.Machine.Session
import ChipEight.Console.Basic
import ChipEight.Console.Faulty
import ChipEight.Console.Headless
import ChipEight.Console.Loop
import ChipEight.Desktop.Application
import ChipEight.Main
import ChipEight.Proofs.Course
import ChipEight.Proofs.Attempt
import ChipEight.Proofs.Bounds
import ChipEight.Proofs.Undo
import ChipEight.Proofs.Agenda
import ChipEight.Proofs.Passage
import ChipEight.Proofs.Unnoticed
import ChipEight.Proofs.Clock
import ChipEight.Proofs.Recording
import ChipEight.Proofs.Tone
import ChipEight.Proofs.Slicing
import ChipEight.Proofs.Redraw
import ChipEight.Proofs.Reliable
import ChipEight.Proofs.Rate
import ChipEight.Proofs.Pictures
import ChipEight.Proofs.Deeds
import ChipEight.Proofs.Ending
import ChipEight.Proofs.Frames
import ChipEight.Proofs.Told
import ChipEight.Proofs.Faults
import ChipEight.Proofs.Replay
import ChipEight.Proofs.Calls
import ChipEight.Proofs.Reloading
import ChipEight.Proofs.Slots
import ChipEight.Proofs.Influence
import ChipEight.Proofs.Visits
import ChipEight.Proofs.Retracing
import ChipEight.Proofs.Waiting
import ChipEight.Proofs.Halting
import ChipEight.Proofs.Twins
import ChipEight.Proofs.Strictness
import ChipEight.Proofs.Dialects
import ChipEight.Proofs.Inputs
import ChipEight.Proofs.Rolls
import ChipEight.Proofs.Stepping
import ChipEight.Proofs.Taps
import ChipEight.Proofs.Readings
import ChipEight.Proofs.Sharing
import ChipEight.Proofs.Confines
import ChipEight.Proofs.Failing
import ChipEight.Proofs.Blocks
import ChipEight.Proofs.Flags
import ChipEight.Proofs.Pixels
import ChipEight.Proofs.Sprites
import ChipEight.Proofs.Drawing
import ChipEight.Proofs.Turns
import ChipEight.Proofs.Warnings
import ChipEight.Proofs.Views
import ChipEight.Proofs.Bytes
import ChipEight.Proofs.Assembly
import ChipEight.Proofs.Figures
import ChipEight.Proofs.Piles
