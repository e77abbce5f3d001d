import TensorConcat.Access
import TensorConcat.Axis
import TensorConcat.Compile.BuildOptions
import TensorConcat.Compile.Cache
import TensorConcat.Compile.Program
import TensorConcat.Concat.Check
import TensorConcat.Concat.Kernel
import TensorConcat.Concat.Operands
import TensorConcat.Concat.Operation
import TensorConcat.Concat.Plan
import TensorConcat.Effect
import TensorConcat.Error
import TensorConcat.Iteration.Collapse
import TensorConcat.Iteration.Cover
import TensorConcat.Iteration.Slices
import TensorConcat.Iteration.Split
import TensorConcat.Iteration.Window
import TensorConcat.Json.Print
import TensorConcat.Json.Read
import TensorConcat.Json.Real
import TensorConcat.Json.Token
import TensorConcat.Json.Value
import TensorConcat.Launch.Execution
import TensorConcat.Launch.Handle
import TensorConcat.Launch.Queue
import TensorConcat.Launch.Range
import TensorConcat.Memory.Buffer
import TensorConcat.Memory.Encoding
import TensorConcat.Numeric.Binary32
import TensorConcat.Numeric.Binary32Text
import TensorConcat.Numeric.BinaryFormat
import TensorConcat.Numeric.Decimal
import TensorConcat.Numeric.Digits
import TensorConcat.Numeric.Rounding
import TensorConcat.Numeric.Shortest
import TensorConcat.Proofs.Answer
import TensorConcat.Proofs.Compile.Compilation
import TensorConcat.Proofs.Compile.Options
import TensorConcat.Proofs.Compile.Recovery
import TensorConcat.Proofs.Compile.Transparency
import TensorConcat.Proofs.Concat.Agreement
import TensorConcat.Proofs.Concat.Columns
import TensorConcat.Proofs.Concat.ConfigIds
import TensorConcat.Proofs.Concat.Configured
import TensorConcat.Proofs.Concat.Configuring
import TensorConcat.Proofs.Concat.Coverage
import TensorConcat.Proofs.Concat.Dispatch
import TensorConcat.Proofs.Concat.Elements
import TensorConcat.Proofs.Concat.EmptyRows
import TensorConcat.Proofs.Concat.EmptyWindows
import TensorConcat.Proofs.Concat.EndToEnd
import TensorConcat.Proofs.Concat.Lifecycle
import TensorConcat.Proofs.Concat.Outcome
import TensorConcat.Proofs.Concat.Prepared
import TensorConcat.Proofs.Concat.Reconfiguration
import TensorConcat.Proofs.Concat.Regions
import TensorConcat.Proofs.Concat.Requantization
import TensorConcat.Proofs.Concat.Session
import TensorConcat.Proofs.Concat.SessionLaunches
import TensorConcat.Proofs.Concat.Submission
import TensorConcat.Proofs.Concat.WorkItems
import TensorConcat.Proofs.Effect
import TensorConcat.Proofs.Iteration.Collapsing
import TensorConcat.Proofs.Iteration.PartPoints
import TensorConcat.Proofs.Iteration.Parts
import TensorConcat.Proofs.Iteration.Points
import TensorConcat.Proofs.Iteration.Slices
import TensorConcat.Proofs.Iteration.Sliding
import TensorConcat.Proofs.Iteration.Tiling
import TensorConcat.Proofs.Json.Readers
import TensorConcat.Proofs.Json.Tokens
import TensorConcat.Proofs.Json.Values
import TensorConcat.Proofs.Launch.Arguments
import TensorConcat.Proofs.Launch.Confinement
import TensorConcat.Proofs.Launch.Drains
import TensorConcat.Proofs.Launch.Items
import TensorConcat.Proofs.Launch.Launches
import TensorConcat.Proofs.Launch.Numbers
import TensorConcat.Proofs.Launch.Slots
import TensorConcat.Proofs.Launch.Stores
import TensorConcat.Proofs.Launch.Vector
import TensorConcat.Proofs.Memory.Accounting
import TensorConcat.Proofs.Memory.Cells
import TensorConcat.Proofs.Memory.Values
import TensorConcat.Proofs.Numeric.Arithmetic
import TensorConcat.Proofs.Numeric.DecimalText
import TensorConcat.Proofs.Numeric.Determinacy
import TensorConcat.Proofs.Numeric.Nearest
import TensorConcat.Proofs.Numeric.NearestDecimal
import TensorConcat.Proofs.Numeric.OptionText
import TensorConcat.Proofs.Pieces
import TensorConcat.Proofs.Plan.Commitment
import TensorConcat.Proofs.Plan.Compatible
import TensorConcat.Proofs.Plan.Cover
import TensorConcat.Proofs.Plan.Exact
import TensorConcat.Proofs.Plan.Merging
import TensorConcat.Proofs.Plan.Narrowing
import TensorConcat.Proofs.Plan.Needs
import TensorConcat.Proofs.Plan.Overhang
import TensorConcat.Proofs.Tensor.Hosting
import TensorConcat.Proofs.Tensor.Offsets
import TensorConcat.Proofs.Tensor.Regions
import TensorConcat.Proofs.Tensor.Rows
import TensorConcat.Proofs.Tuning.CanonicalFiles
import TensorConcat.Proofs.Tuning.Entries
import TensorConcat.Proofs.Tuning.Files
import TensorConcat.Proofs.Tuning.Histories
import TensorConcat.Settings
import TensorConcat.Stored
import TensorConcat.Tensor.Descriptor
import TensorConcat.Tensor.ElementType
import TensorConcat.Tensor.Layout
import TensorConcat.Tensor.Shape
import TensorConcat.Text.Blank
import TensorConcat.Tuning.FileTree
import TensorConcat.Tuning.Store
import TensorConcat.Tuning.Table
