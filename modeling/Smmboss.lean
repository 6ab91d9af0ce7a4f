import Smmboss.Foundation.Machine
import Smmboss.Foundation.Ring
import Smmboss.Foundation.Segments
import Smmboss.Hose.Frame
import Smmboss.Hose.Reservation
import Smmboss.Hose.System
import Smmboss.Hose.Stream
import Smmboss.Hose.Overrun
import Smmboss.Hose.Backpressure
import Smmboss.Foundation.Linked
import Smmboss.StupidHash.Table
import Smmboss.StupidHash.Invariant
import Smmboss.StupidHash.Operations
import Smmboss.Foundation.AtomicUpdate
import Smmboss.Monitor.Config
import Smmboss.Monitor.TripleBuffer
import Smmboss.StupidHash.Refinement
import Smmboss.Monitor.Handover
import Smmboss.Rpc.Pipeline
import Smmboss.Collision.Packet
import Smmboss.StupidHash.Keys
import Smmboss.Collision.Server
import Smmboss.Collision.Steps
import Smmboss.Collision.Colliders
import Smmboss.Collision.Scols
import Smmboss.Collision.Hitboxes
import Smmboss.Client.HoseParser
import Smmboss.Client.Resync
import Smmboss.Foundation.Search
import Smmboss.Guest.Regions
import Smmboss.Guest.Lookup
import Smmboss.Foundation.LittleEndian
import Smmboss.Rpc.Connection
import Smmboss.Rpc.SafeMemcpy
import Smmboss.Rpc.Handler
import Smmboss.Rpc.Replies
import Smmboss.Rpc.Retry
import Smmboss.Foundation.Prefix
import Smmboss.Guest.Memory
import Smmboss.Guest.Caching
import Smmboss.Guest.CachedReads
import Smmboss.Guest.CachedWrites
import Smmboss.Locks.Recursive
import Smmboss.Guest.PersistentCache
import Smmboss.Client.Reader
import Smmboss.Client.Messages
import Smmboss.Client.Codec
import Smmboss.Client.Parser
import Smmboss.Client.Totality
import Smmboss.Client.Diagram
import Smmboss.Client.Live
import Smmboss.Client.Refinement
import Smmboss.Client.JsMap
import Smmboss.Client.Frames
import Smmboss.Client.Replay
import Smmboss.Rpc.CheckedCopy
import Smmboss.Rpc.Hello
import Smmboss.Rpc.Requests
import Smmboss.Monitor.Parsing
import Smmboss.Monitor.Delivery
import Smmboss.Hose.Descriptors
import Smmboss.Guest.Overlay
import Smmboss.Rpc.Flags
import Smmboss.Mongoose.Upgrade
import Smmboss.Client.WsWrapper
import Smmboss.Client.RpcConn
import Smmboss.Rpc.FrameStream
import Smmboss.Game.BuildIds
import Smmboss.World.Reads
import Smmboss.Game.MemberFunctions
import Smmboss.World.CString
import Smmboss.World.SeadList
import Smmboss.World.Arrays
import Smmboss.World.Decode
import Smmboss.Foundation.NamedWalk
import Smmboss.World.Export
import Smmboss.Foundation.TreeWalk
import Smmboss.Client.ArrayBuffers
import Smmboss.Client.SavedValues
import Smmboss.Signals.Heap
import Smmboss.Signals.Graph
import Smmboss.Signals.Moves
import Smmboss.Signals.Derive
import Smmboss.Signals.Propagate
import Smmboss.Signals.Closures
import Smmboss.Signals.Terminates
import Smmboss.Signals.Network
import Smmboss.Signals.Runs
import Smmboss.Signals.Recomputation
import Smmboss.Foundation.BitFields
import Smmboss.Foundation.Aarch64
import Smmboss.Foundation.Backpatch
import Smmboss.Hook.FixInstructions
import Smmboss.Hook.Emissions
import Smmboss.Hook.Layout
import Smmboss.Hook.Size
import Smmboss.Foundation.Region
import Smmboss.Hook.Encodings
import Smmboss.Hook.Assembler
import Smmboss.Hook.Simulation
import Smmboss.Hook.Trampoline
import Smmboss.Hook.Patch
import Smmboss.Foundation.Draining
import Smmboss.Mongoose.WebSocket
import Smmboss.Mongoose.Frames
import Smmboss.Mongoose.Wire
import Smmboss.Mongoose.Messages
import Smmboss.Mongoose.Session
import Smmboss.Foundation.Tiling
import Smmboss.Space.MemoryMap
import Smmboss.Space.FindModules
import Smmboss.Space.ModuleTable
import Smmboss.Space.Modules
import Smmboss.Space.Kernel
import Smmboss.Space.Virtmem
import Smmboss.Space.RwPages
import Smmboss.Space.Windows
