import ChipEight.Disassembly
import ChipEight.Engine.Action
import ChipEight.Main
import ChipEight.Proofs.Effect
import ChipEight.Proofs.ErrorLines
import ChipEight.Proofs.Run
import ChipEight.Proofs.WellFormed
import ChipEight.Proofs.Faults
import ChipEight.Proofs.LongWalk
import ChipEight.Proofs.ForeignFault
import ChipEight.Proofs.Nesting
import ChipEight.Proofs.Latch
import ChipEight.Proofs.Redraw
import ChipEight.Proofs.Reset
import ChipEight.Proofs.Listing
import ChipEight.Proofs.CodeAddress
import ChipEight.Proofs.Decoding
import ChipEight.Proofs.Events
import ChipEight.Proofs.Requests
import ChipEight.Proofs.Tone
import ChipEight.Proofs.KeyFeed
import ChipEight.Proofs.Rendering
import ChipEight.Proofs.Window
import ChipEight.Proofs.Options
import ChipEight.Proofs.Stall
import ChipEight.Proofs.Stopped
import ChipEight.Proofs.RomCycle
import ChipEight.Proofs.Hiding
import ChipEight.Proofs.KeyFlow
import ChipEight.Proofs.Accepted
import ChipEight.Proofs.Tracing
import ChipEight.Proofs.Groups
import ChipEight.Proofs.Schedule
import ChipEight.Proofs.Silence
import ChipEight.Proofs.Counters
import ChipEight.Proofs.Sprite
import ChipEight.Proofs.Footprint
import ChipEight.Proofs.Arithmetic
import ChipEight.Proofs.RoundTrip
import ChipEight.Proofs.Image
import ChipEight.Proofs.Timers
import ChipEight.Proofs.KeyWait
import ChipEight.Proofs.Overlay
import ChipEight.Proofs.Assembly
import ChipEight.Proofs.Loading
import ChipEight.Proofs.StraightLine
import ChipEight.Proofs.LineReader
import ChipEight.Proofs.Mnemonics
