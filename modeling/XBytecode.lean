import XBytecode.Activation
import XBytecode.Address
import XBytecode.Channel
import XBytecode.CommandLine
import XBytecode.Console.Basic
import XBytecode.Console.Command
import XBytecode.Console.Window
import XBytecode.Instruction
import XBytecode.Machine.Basic
import XBytecode.Machine.Checked
import XBytecode.Machine.Dump
import XBytecode.Machine.Run
import XBytecode.Machine.Step
import XBytecode.Main
import XBytecode.Opcode
import XBytecode.Operator
import XBytecode.Program.Basic
import XBytecode.Program.Decode
import XBytecode.Program.Listing
import XBytecode.Program.Load
import XBytecode.Program.Resolve
import XBytecode.Proofs.Action
import XBytecode.Proofs.Activations
import XBytecode.Proofs.Addressing
import XBytecode.Proofs.Annotation
import XBytecode.Proofs.BaseActivation
import XBytecode.Proofs.Bindings
import XBytecode.Proofs.Bracketing
import XBytecode.Proofs.BreakpointSets
import XBytecode.Proofs.Builds
import XBytecode.Proofs.CallReturn
import XBytecode.Proofs.Capacity
import XBytecode.Proofs.Checked
import XBytecode.Proofs.CommandGrammar
import XBytecode.Proofs.ControlFlow
import XBytecode.Proofs.Conversation
import XBytecode.Proofs.Course
import XBytecode.Proofs.Draining
import XBytecode.Proofs.DumpMode
import XBytecode.Proofs.DumpOutput
import XBytecode.Proofs.Effect
import XBytecode.Proofs.Ending
import XBytecode.Proofs.FaultAddress
import XBytecode.Proofs.FrameBase
import XBytecode.Proofs.FrameLayout
import XBytecode.Proofs.Grammar
import XBytecode.Proofs.Halting
import XBytecode.Proofs.LineChange
import XBytecode.Proofs.ListingText
import XBytecode.Proofs.Lockstep
import XBytecode.Proofs.Log
import XBytecode.Proofs.Markers
import XBytecode.Proofs.Operation
import XBytecode.Proofs.Outcome
import XBytecode.Proofs.Overflow
import XBytecode.Proofs.Pauses
import XBytecode.Proofs.Prompt
import XBytecode.Proofs.Refusal
import XBytecode.Proofs.Residue
import XBytecode.Proofs.Resolution
import XBytecode.Proofs.RoundTrip
import XBytecode.Proofs.SessionStep
import XBytecode.Proofs.Skipping
import XBytecode.Proofs.Spelling
import XBytecode.Proofs.Stopping
import XBytecode.Proofs.Tally
import XBytecode.Proofs.Transparency
import XBytecode.Proofs.Transport
import XBytecode.Proofs.WindowRange
import XBytecode.Proofs.Words
import XBytecode.Scope
import XBytecode.Session.Basic
import XBytecode.Session.Checked
import XBytecode.Session.Mode
import XBytecode.Session.Step
import XBytecode.Source
import XBytecode.Stack.Basic
import XBytecode.Stack.Layout
import XBytecode.Text.Align
import XBytecode.Text.Blank
import XBytecode.Text.Lines
import XBytecode.Text.Numeral
import XBytecode.Text.Uppercase
