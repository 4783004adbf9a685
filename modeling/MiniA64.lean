import MiniA64.Host.Failing
import MiniA64.Machine.Attempt
import MiniA64.Machine.Picture
import MiniA64.Main
import MiniA64.Proofs.Assembly.Addresses
import MiniA64.Proofs.Assembly.Efforts
import MiniA64.Proofs.Assembly.Gaps.Statements
import MiniA64.Proofs.Assembly.Limits
import MiniA64.Proofs.Assembly.Literals
import MiniA64.Proofs.Assembly.MemoryOperands
import MiniA64.Proofs.Assembly.NodePools
import MiniA64.Proofs.Assembly.Pulling
import MiniA64.Proofs.Assembly.StringLiterals
import MiniA64.Proofs.Assembly.SymbolFiles
import MiniA64.Proofs.Assembly.Tiling
import MiniA64.Proofs.Branches.Execution
import MiniA64.Proofs.Branches.Targets
import MiniA64.Proofs.CommandLine.Debugging
import MiniA64.Proofs.DataProcessing.Comparisons
import MiniA64.Proofs.DataProcessing.Constants
import MiniA64.Proofs.DataProcessing.Execution
import MiniA64.Proofs.DataProcessing.Narrow
import MiniA64.Proofs.DataProcessing.Shifts
import MiniA64.Proofs.Disassembly.Immediates
import MiniA64.Proofs.Disassembly.RoundTrip
import MiniA64.Proofs.Host.Stores
import MiniA64.Proofs.Machine.Atomicity
import MiniA64.Proofs.Machine.BlockTransfers
import MiniA64.Proofs.Machine.Boxes
import MiniA64.Proofs.Machine.Canvases
import MiniA64.Proofs.Machine.ColourOutput
import MiniA64.Proofs.Machine.FileCopies
import MiniA64.Proofs.Machine.Frames
import MiniA64.Proofs.Machine.LineInput
import MiniA64.Proofs.Machine.Pictures
import MiniA64.Proofs.Machine.RandomNumbers
import MiniA64.Proofs.Machine.Recording
import MiniA64.Proofs.Machine.Reloading
import MiniA64.Proofs.Machine.Translation
import MiniA64.Proofs.Transfers.Execution
