import TapeMips.Asm.Program
import TapeMips.Codegen.Layout
import TapeMips.Codegen.Tree
import TapeMips.CommandLine.Launch
import TapeMips.Compile
import TapeMips.Http.Service
import TapeMips.Machine.History
import TapeMips.Machine.InPlace
import TapeMips.Main
import TapeMips.Tape.Machine
import TapeMips.Proofs.Depth
import TapeMips.Proofs.Partners
import TapeMips.Proofs.Generate
import TapeMips.Proofs.ReadBack
import TapeMips.Proofs.Assemble
import TapeMips.Proofs.Layout
import TapeMips.Proofs.Agreement
import TapeMips.Proofs.Blocks
import TapeMips.Proofs.Simulation
import TapeMips.Proofs.Effects
import TapeMips.Proofs.Advances
import TapeMips.Proofs.Sessions
import TapeMips.Proofs.Failures
import TapeMips.Proofs.Discipline
import TapeMips.Proofs.Cost
import TapeMips.Proofs.Decompile
import TapeMips.Proofs.Writes
import TapeMips.Proofs.Utf8
import TapeMips.Proofs.LineEnds
import TapeMips.Proofs.FileRuns
import TapeMips.Proofs.JsonText
import TapeMips.Proofs.AssemblyText
import TapeMips.Proofs.Endpoints
import TapeMips.Proofs.FileAndService
import TapeMips.Proofs.Balance
import TapeMips.Proofs.Streams
import TapeMips.Proofs.Iterations
import TapeMips.Proofs.Limits
import TapeMips.Proofs.Resumption
import TapeMips.Proofs.InPlace
import TapeMips.Proofs.Story
import TapeMips.Proofs.Lockstep
import TapeMips.Proofs.LargerMemory
import TapeMips.Proofs.InputBytes
import TapeMips.Proofs.Listing
import TapeMips.Proofs.OutputPath
import TapeMips.Proofs.Negotiation
import TapeMips.Proofs.Concatenation
