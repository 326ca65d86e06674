import InlineCache.Bytecode.Assembly
import InlineCache.Bytecode.CodeUnit
import InlineCache.Bytecode.Encoding
import InlineCache.Bytecode.Opcode
import InlineCache.Cache.Arena
import InlineCache.Cache.Attach
import InlineCache.Cache.AttachState
import InlineCache.Cache.Chain
import InlineCache.Cache.Code
import InlineCache.Cache.Config
import InlineCache.Cache.Counters
import InlineCache.Cache.Dispatch
import InlineCache.Cache.Error
import InlineCache.Cache.Fault
import InlineCache.Cache.Guard
import InlineCache.Cache.Handler
import InlineCache.Cache.Operands
import InlineCache.Cache.Request
import InlineCache.Cache.Runtime
import InlineCache.Cache.Signature
import InlineCache.Cache.Specialize
import InlineCache.Cache.Stub
import InlineCache.Cache.TypeChain
import InlineCache.Cache.UnitCache
import InlineCache.Collector.Edge
import InlineCache.Collector.Zone
import InlineCache.Heap.Basic
import InlineCache.Heap.Debug
import InlineCache.Heap.Group
import InlineCache.Heap.Object
import InlineCache.Heap.Shape
import InlineCache.Inspect.Cache
import InlineCache.Inspect.CodeUnit
import InlineCache.Inspect.Frame
import InlineCache.Inspect.Heap
import InlineCache.Inspect.Value
import InlineCache.Inspect.View
import InlineCache.Json.Basic
import InlineCache.Json.Text
import InlineCache.Number.Double
import InlineCache.Number.Layout
import InlineCache.Number.Positional
import InlineCache.Number.Shortest
import InlineCache.Operation.Arith
import InlineCache.Operation.Compare
import InlineCache.Operation.Convert
import InlineCache.Operation.Error
import InlineCache.Operation.Inherit
import InlineCache.Operation.Property
import InlineCache.Osr.Bridge
import InlineCache.Osr.Error
import InlineCache.Osr.Frame
import InlineCache.Osr.Region
import InlineCache.Osr.Transfer
import InlineCache.Proofs.Arena.Edit
import InlineCache.Proofs.Arena.Path
import InlineCache.Proofs.Bench.Barrier
import InlineCache.Proofs.Bench.Confined
import InlineCache.Proofs.Bench.Counted
import InlineCache.Proofs.Bench.Fitted
import InlineCache.Proofs.Bench.Guarded
import InlineCache.Proofs.Bench.Move
import InlineCache.Proofs.Bytecode.Check
import InlineCache.Proofs.Bytecode.Draft
import InlineCache.Proofs.Bytecode.Encoding
import InlineCache.Proofs.Chain.Barrier
import InlineCache.Proofs.Chain.Sound
import InlineCache.Proofs.Chain.Unlinked
import InlineCache.Proofs.Collector.Mark
import InlineCache.Proofs.Entry.Attempt
import InlineCache.Proofs.Entry.Budget
import InlineCache.Proofs.Entry.Counted
import InlineCache.Proofs.Entry.Move
import InlineCache.Proofs.Heap.Ancestry
import InlineCache.Proofs.Heap.Banned
import InlineCache.Proofs.Heap.Built
import InlineCache.Proofs.Heap.Calls
import InlineCache.Proofs.Heap.Grows
import InlineCache.Proofs.Heap.Implied
import InlineCache.Proofs.Heap.Layout
import InlineCache.Proofs.Heap.NamedWrite
import InlineCache.Proofs.Heap.Seen
import InlineCache.Proofs.Heap.Working
import InlineCache.Proofs.Host.Alike
import InlineCache.Proofs.Host.Program
import InlineCache.Proofs.Machine.Activations
import InlineCache.Proofs.Machine.Ancestry
import InlineCache.Proofs.Machine.Arithmetic
import InlineCache.Proofs.Machine.Banned
import InlineCache.Proofs.Machine.Barrier
import InlineCache.Proofs.Machine.Basic
import InlineCache.Proofs.Machine.Budget
import InlineCache.Proofs.Machine.Built
import InlineCache.Proofs.Machine.Call
import InlineCache.Proofs.Machine.Counted
import InlineCache.Proofs.Machine.Dispatch
import InlineCache.Proofs.Machine.Distinct
import InlineCache.Proofs.Machine.Failed
import InlineCache.Proofs.Machine.Fitted
import InlineCache.Proofs.Machine.Frame
import InlineCache.Proofs.Machine.Implied
import InlineCache.Proofs.Machine.Linked
import InlineCache.Proofs.Machine.Ordered
import InlineCache.Proofs.Machine.Quiet
import InlineCache.Proofs.Machine.Recorded
import InlineCache.Proofs.Machine.Shaped
import InlineCache.Proofs.Machine.Sheds
import InlineCache.Proofs.Machine.Stored
import InlineCache.Proofs.Machine.Supplied
import InlineCache.Proofs.Machine.Widen
import InlineCache.Proofs.Machine.Work
import InlineCache.Proofs.Machine.Write
import InlineCache.Proofs.Number.Nearest
import InlineCache.Proofs.Number.Shortest
import InlineCache.Proofs.Number.Text
import InlineCache.Proofs.Number.Whole
import InlineCache.Proofs.Operation.ElementKey
import InlineCache.Proofs.Operation.Hexadecimal
import InlineCache.Proofs.Operation.NumberIndex
import InlineCache.Proofs.Operation.Seen
import InlineCache.Proofs.Operation.StringIndex
import InlineCache.Proofs.Operation.Text
import InlineCache.Proofs.Operation.Write
import InlineCache.Proofs.Osr.Account
import InlineCache.Proofs.Osr.Forgotten
import InlineCache.Proofs.Osr.Leases
import InlineCache.Proofs.Osr.Restore
import InlineCache.Proofs.Request.Kind
import InlineCache.Proofs.Request.Outcome
import InlineCache.Proofs.Stub.Accepts
import InlineCache.Proofs.Stub.Fits
import InlineCache.Proofs.Stub.Rules
import InlineCache.Proofs.Stub.Run
import InlineCache.Proofs.Stub.Sound
import InlineCache.Proofs.Stub.Touched
import InlineCache.Proofs.Stub.Write
import InlineCache.Proofs.Text.ElementKey
import InlineCache.Proofs.Text.Hexadecimal
import InlineCache.Proofs.Text.Index
import InlineCache.Proofs.TypeChain.Edited
import InlineCache.Proofs.Types.Observed
import InlineCache.Proofs.UnitCache.Linked
import InlineCache.Proofs.UnitCache.Sites
import InlineCache.Proofs.World.Alike
import InlineCache.Proofs.World.Calls
import InlineCache.Proofs.World.Course
import InlineCache.Proofs.World.Entries
import InlineCache.Proofs.World.Stubs
import InlineCache.Proofs.World.Units
import InlineCache.Proofs.World.Use
import InlineCache.Proofs.World.Within
import InlineCache.Proofs.World.Work
import InlineCache.Store.Assoc
import InlineCache.Store.Search
import InlineCache.Store.Table
import InlineCache.Text.Blank
import InlineCache.Text.Invisible
import InlineCache.Text.Numeral
import InlineCache.Text.Quoted
import InlineCache.Text.Units
import InlineCache.Types.PrimitiveSet
import InlineCache.Types.TypeSet
import InlineCache.Value
import InlineCache.World
