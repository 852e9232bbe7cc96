import Chip8.Listing
import Chip8.Machine.Request
import Chip8.Main
import Chip8.Proofs.Decoding
import Chip8.Proofs.Drawing
import Chip8.Proofs.Effect
import Chip8.Proofs.Failure
import Chip8.Proofs.History
import Chip8.Proofs.Reachable
import Chip8.Proofs.Subroutine
import Chip8.Proofs.Disassembly
import Chip8.Proofs.Encoding
import Chip8.Proofs.Interleaving
import Chip8.Proofs.Rendering
import Chip8.Proofs.Reset
import Chip8.Proofs.Session
import Chip8.Proofs.Footprint
import Chip8.Proofs.Noninterference
import Chip8.Proofs.Dialects
import Chip8.Proofs.Parity
import Chip8.Proofs.Arithmetic
import Chip8.Proofs.DrawingOrder
import Chip8.Proofs.KeyWait
import Chip8.Proofs.Timers
import Chip8.Proofs.BlockTransfer
import Chip8.Proofs.DecimalDisplay
import Chip8.Proofs.ControlFlow
import Chip8.Proofs.ImageListing
import Chip8.Proofs.Trace
import Chip8.Proofs.EventBatch
import Chip8.Proofs.PixelHistory
import Chip8.Proofs.Scaling
import Chip8.Proofs.Assembling
import Chip8.Proofs.LoadHistory
import Chip8.Proofs.StackHistory
import Chip8.Proofs.Numeral
import Chip8.Proofs.OptionOrder
import Chip8.Proofs.KeyHistory
