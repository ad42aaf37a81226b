import GridKernel.Number.Binary
import GridKernel.Kernel.Expr
import GridKernel.Text.Invisible
import GridKernel.Text
import GridKernel.Error
import GridKernel.Buffer.ByteOrder
import GridKernel.Number.Whole
import GridKernel.Buffer.Texture
import GridKernel.Tensor
import GridKernel.Buffer.Codec
import GridKernel.Cache
import GridKernel.Eval.Operator
import GridKernel.Grid
import GridKernel.Eval.View
import GridKernel.Kernel.Body
import GridKernel.Kernel.Validity
import GridKernel.Function.Definition
import GridKernel.Eval.Machine
import GridKernel.Function.Snapshot
import GridKernel.Eval.Host
import GridKernel.Shader.CallGraph
import GridKernel.Shader.Term
import GridKernel.Shader.Lowering
import GridKernel.Shader.Commands
import GridKernel.Shader.Manifest
import GridKernel.Number.Decimal
import GridKernel.Shader.Printer
import GridKernel.Shader.Program
import GridKernel.Device
import GridKernel.Launch
import GridKernel.Config.Mode
import GridKernel.Config.Toml
import GridKernel.Config.Settings
import GridKernel.Kernel.Identity
import GridKernel.Function.Builtin
import GridKernel.Function.Registry
import GridKernel.Session.Kernel
import GridKernel.Session.State
import GridKernel.Command.Demo
import GridKernel.Command.Options
import GridKernel.Command.Help
import GridKernel.Command.ReadError
import GridKernel.Command.Report
import GridKernel.Kernel.Script
import GridKernel.Main
import GridKernel.Session.Copy
import GridKernel.Proofs.Outcome
import GridKernel.Proofs.Kernel.Readability
import GridKernel.Proofs.Kernel.Streams
import GridKernel.Proofs.Kernel.Scopes
import GridKernel.Proofs.Kernel.Parameters
import GridKernel.Proofs.Kernel.Scripts
import GridKernel.Proofs.Kernel.Hygiene
import GridKernel.Proofs.Function.Stamps
import GridKernel.Proofs.Function.Registrations
import GridKernel.Proofs.Eval.Agreement
import GridKernel.Proofs.Eval.Safety
import GridKernel.Proofs.Eval.Evaluator
import GridKernel.Proofs.Eval.Calls
import GridKernel.Proofs.Eval.Depth
import GridKernel.Proofs.Eval.Stepwise
import GridKernel.Proofs.Eval.Limits
import GridKernel.Proofs.Eval.Accesses
import GridKernel.Proofs.Eval.Lexical
import GridKernel.Proofs.Buffer.Counts
import GridKernel.Proofs.Buffer.Words
import GridKernel.Proofs.Launch.Arguments
import GridKernel.Proofs.Launch.Execution
import GridKernel.Proofs.Launch.RowMajor
import GridKernel.Proofs.Cache.Slots
import GridKernel.Proofs.Session.History
import GridKernel.Proofs.Session.Refinement
import GridKernel.Proofs.Session.Fallback
import GridKernel.Proofs.Session.Keys
import GridKernel.Proofs.Number.Order
import GridKernel.Proofs.Number.Rounding
import GridKernel.Proofs.Number.Floor
import GridKernel.Proofs.Number.Nearest
import GridKernel.Proofs.Number.Widening
import GridKernel.Proofs.Number.Exact
import GridKernel.Proofs.Number.Integers
import GridKernel.Proofs.Number.Shortest
import GridKernel.Proofs.Eval.Views
import GridKernel.Proofs.Shader.Meaning
import GridKernel.Proofs.Shader.Terms
import GridKernel.Proofs.Shader.Folding
import GridKernel.Proofs.Shader.Blocks
import GridKernel.Proofs.Shader.Loads
import GridKernel.Proofs.Eval.Stored
import GridKernel.Proofs.Eval.Reads
import GridKernel.Proofs.Shader.Preservation
import GridKernel.Proofs.Shader.Recursion
import GridKernel.Proofs.Shader.Acceptance
import GridKernel.Proofs.Shader.Soundness
import GridKernel.Proofs.Shader.Tokens
import GridKernel.Proofs.Shader.Literals
import GridKernel.Proofs.Shader.Grammar
import GridKernel.Proofs.Shader.Statements
import GridKernel.Proofs.Shader.Spelling
import GridKernel.Proofs.Shader.Trees
import GridKernel.Proofs.Shader.Lines
import GridKernel.Proofs.Shader.Readings
import GridKernel.Proofs.Shader.Programs
import GridKernel.Proofs.Shader.ReadBack
import GridKernel.Proofs.Shader.Emission
import GridKernel.Proofs.Cache.SingleFlight
import GridKernel.Proofs.Cache.Flights
import GridKernel.Proofs.Cache.Queue
import GridKernel.Proofs.Cache.Bookkeeping
import GridKernel.Proofs.Buffer.Layout
import GridKernel.Proofs.Buffer.RoundTrip
import GridKernel.Proofs.Buffer.Settled
import GridKernel.Proofs.Launch.Invocations
import GridKernel.Proofs.Launch.Textures
import GridKernel.Proofs.Buffer.Overflow
import GridKernel.Proofs.Launch.Coordinates
import GridKernel.Proofs.Function.Reach
import GridKernel.Proofs.Function.Closure
import GridKernel.Proofs.Session.Redefinition
import GridKernel.Proofs.Session.Effects
import GridKernel.Proofs.Session.Routes
import GridKernel.Proofs.Session.Builds
import GridKernel.Proofs.Session.Crowd
import GridKernel.Proofs.Session.Alone
import GridKernel.Proofs.Session.Interleaving
import GridKernel.Proofs.Session.Staleness
import GridKernel.Proofs.Session.Latches
import GridKernel.Proofs.Session.Copying
