import RegisterMachine.Arguments
import RegisterMachine.Breakpoints
import RegisterMachine.CommandLine
import RegisterMachine.Engine
import RegisterMachine.Environment
import RegisterMachine.Environment.Desk
import RegisterMachine.Execute
import RegisterMachine.Fault
import RegisterMachine.Files
import RegisterMachine.Files.WriteBuffer
import RegisterMachine.Host
import RegisterMachine.Host.Buffered
import RegisterMachine.Host.InputQueue
import RegisterMachine.Instruction
import RegisterMachine.Json.Container
import RegisterMachine.Json.Failure
import RegisterMachine.Json.Mark
import RegisterMachine.Json.Number
import RegisterMachine.Json.Quoted
import RegisterMachine.Json.Record
import RegisterMachine.Json.Skip
import RegisterMachine.Json.Value
import RegisterMachine.Listing
import RegisterMachine.Listing.MachineView
import RegisterMachine.Log
import RegisterMachine.Log.Filter
import RegisterMachine.Machine
import RegisterMachine.Main
import RegisterMachine.Memory
import RegisterMachine.Numeral
import RegisterMachine.Opcode
import RegisterMachine.Operand
import RegisterMachine.Proofs.BreakpointPassing
import RegisterMachine.Proofs.Consistency
import RegisterMachine.Proofs.Faults
import RegisterMachine.Proofs.Decoding
import RegisterMachine.Proofs.InputDelivery
import RegisterMachine.Proofs.Json.Grammar
import RegisterMachine.Proofs.Json.Recognition
import RegisterMachine.Proofs.Json.Tokens
import RegisterMachine.Proofs.Listing.Legibility
import RegisterMachine.Proofs.Listing.Tiling
import RegisterMachine.Proofs.OpcodeTable
import RegisterMachine.Proofs.Operation
import RegisterMachine.Proofs.Restoration
import RegisterMachine.Proofs.Snapshot.Acceptance
import RegisterMachine.Proofs.Snapshot.Damage
import RegisterMachine.Proofs.Snapshot.Numerals
import RegisterMachine.Proofs.Snapshot.RoundTrip
import RegisterMachine.Proofs.Snapshot.Values
import RegisterMachine.Proofs.FirstHit
import RegisterMachine.Proofs.TraceAccount
import RegisterMachine.Proofs.Session.Mirroring
import RegisterMachine.Proofs.TraceLines
import RegisterMachine.Proofs.Session.Access
import RegisterMachine.Proofs.Session.Delivery
import RegisterMachine.Proofs.Session.Batch
import RegisterMachine.Proofs.Session.Chain
import RegisterMachine.Proofs.Session.Resumption
import RegisterMachine.Proofs.Session.Success
import RegisterMachine.Proofs.Session.Phases
import RegisterMachine.Proofs.Json.Soundness
import RegisterMachine.Proofs.Json.Spelling
import RegisterMachine.Proofs.ResultCodes
import RegisterMachine.Proofs.Snapshot.VersionGate
import RegisterMachine.Proofs.StackFrame
import RegisterMachine.Proofs.Parking
import RegisterMachine.Proofs.MemoryGrowth
import RegisterMachine.Proofs.AddressBounds
import RegisterMachine.Proofs.Arguments.Groups
import RegisterMachine.Proofs.Arguments.RunPlans
import RegisterMachine.Proofs.Numerals
import RegisterMachine.Proofs.Session.FirstStep
import RegisterMachine.Proofs.Encoding
import RegisterMachine.Proofs.OperandRoles
import RegisterMachine.Proofs.CodeUnits
import RegisterMachine.Proofs.EchoedText
import RegisterMachine.Proofs.Listing.TraceReading
import RegisterMachine.Proofs.Lines
import RegisterMachine.Proofs.MemoryContent
import RegisterMachine.Proofs.NumeralGrammar
import RegisterMachine.Proofs.Session.QueuedInput
import RegisterMachine.Proofs.Session.FailedStart
import RegisterMachine.Proofs.BreakpointSets
import RegisterMachine.Proofs.InputOrder
import RegisterMachine.Proofs.Reloading
import RegisterMachine.Proofs.Arithmetic
import RegisterMachine.Proofs.Session.Foretold
