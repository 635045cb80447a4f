import Intel8080.Main
import Intel8080.Memory.Lemmas
import Intel8080.Proofs.Manual.Arithmetic
import Intel8080.Proofs.Manual.Operands
import Intel8080.Proofs.Manual.Meaning
import Intel8080.Proofs.Execution.Outcome
import Intel8080.Proofs.Execution.Perform
import Intel8080.Proofs.Execution.Step
import Intel8080.Proofs.Execution.Rollback
import Intel8080.Proofs.Manual.Footprint
import Intel8080.Proofs.Execution.FaultOrder
import Intel8080.Proofs.Execution.Refinement
import Intel8080.Proofs.Invaders.Timeline
import Intel8080.Proofs.Interrupts.Acceptance
import Intel8080.Proofs.Interrupts.History
import Intel8080.Proofs.Invaders.Events
import Intel8080.Proofs.Invaders.Hosting
import Intel8080.Proofs.Invaders.Conservation
import Intel8080.Proofs.Invaders.MidScreen
import Intel8080.Proofs.Invaders.Delivery
import Intel8080.Proofs.Comparison.Responses
import Intel8080.Proofs.Comparison.Latches
import Intel8080.Proofs.Memory.Growth
import Intel8080.Proofs.Execution.Growth
import Intel8080.Proofs.Comparison.GrownMemory
import Intel8080.Proofs.Execution.Disassembly
import Intel8080.Proofs.Diagnostic.Iteration
import Intel8080.Proofs.Diagnostic.Course
import Intel8080.Proofs.Memory.Loading
import Intel8080.Proofs.Diagnostic.Limits
import Intel8080.Proofs.Invaders.Wiring
import Intel8080.Proofs.Invaders.Picture
import Intel8080.Proofs.Invaders.HeadlessRuns
import Intel8080.Proofs.Invaders.Lifetime
import Intel8080.Proofs.Invaders.OutputPorts
import Intel8080.Proofs.Invaders.InputPorts
import Intel8080.Proofs.Devices.Traffic
import Intel8080.Proofs.Invaders.Reset
import Intel8080.Proofs.Memory.ByteMap
import Intel8080.Proofs.Invaders.MemoryRoutes
import Intel8080.Proofs.Arithmetic.DecimalAddition
import Intel8080.Proofs.Arithmetic.CarryShift
import Intel8080.Proofs.Stack.LastInFirstOut
import Intel8080.Proofs.Stack.Linkage
import Intel8080.Proofs.Stack.Transfers
import Intel8080.Proofs.Invaders.WordCounter
import Intel8080.Proofs.Invaders.CounterRange
import Intel8080.Proofs.Invaders.RunLength
import Intel8080.Proofs.Diagnostic.ConsoleText
import Intel8080.Proofs.Diagnostic.Shortcut
import Intel8080.Proofs.Text.Hexadecimal
import Intel8080.Proofs.Assembly.Encoding
import Intel8080.Proofs.Assembly.Layout
import Intel8080.Proofs.Assembly.Reading
import Intel8080.Proofs.Diagnostic.Wording
import Intel8080.Proofs.Execution.Blame
import Intel8080.Proofs.Diagnostic.FaultReports
import Intel8080.Proofs.CommandLine.Outcome
