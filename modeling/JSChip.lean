import JSChip.Machine.Run
import JSChip.Spec.Listener
import JSChip.Spec.Meter
import JSChip.Proof.Alive
import JSChip.Proof.Handle
import JSChip.Spec.Server
import JSChip.Proof.Isolation
import JSChip.Proof.Leak
import JSChip.Proof.Budget
import JSChip.Spec.Upload
import JSChip.Proof.Upload
import JSChip.Proof.Network
import JSChip.Spec.Bytecode
import JSChip.Proof.Work
import JSChip.Machine.Wp
import JSChip.Spec.Api
import JSChip.Spec.Native
import JSChip.Spec.Host
import JSChip.Proof.Api
import JSChip.Proof.Stack
import JSChip.Proof.Refs
import JSChip.Proof.Strings
import JSChip.Spec.Ports
import JSChip.Proof.Wire
import JSChip.Proof.Ports
import JSChip.Proof.Commands
import JSChip.Spec.Registry
import JSChip.Proof.Registry
import JSChip.Proof.EventMap
import JSChip.Proof.Live
import JSChip.Proof.Program
import JSChip.Proof.Assembly
import JSChip.Proof.Event
import JSChip.Proof.Vector
import JSChip.Proof.Metric
import JSChip.Proof.Color
import JSChip.Lua.Pattern
import JSChip.Machine.Loop
import JSChip.Spec.Editor
import JSChip.Proof.Comment
import JSChip.Proof.Highlight
import JSChip.Proof.Scroll
import JSChip.Machine.Client
import JSChip.Spec.Alloc
import JSChip.Proof.Alloc
import JSChip.Codec.Bytes
import JSChip.Codec.Mirror
import JSChip.Spec.Binary
import JSChip.Spec.Object
import JSChip.Proof.Reader
import JSChip.Proof.Binary
import JSChip.Proof.BigNum
import JSChip.Proof.Object
import JSChip.Heap.Count
import JSChip.Spec.Gc
import JSChip.Proof.GcRefs
import JSChip.Proof.GcMark
import JSChip.Proof.GcFree
import JSChip.Proof.GcZero
import JSChip.Proof.GcCycles
import JSChip.Spec.Runtime
import JSChip.Proof.GcRun
import JSChip.Heap.Chain
import JSChip.Spec.Shape
import JSChip.Proof.Shape
import JSChip.Proof.ShapeShare
import JSChip.Proof.ShapeStore
import JSChip.Proof.ShapeRun
import JSChip.Codec.Success
import JSChip.Proof.Writable
import JSChip.Spec.Lines
import JSChip.Proof.Lines
