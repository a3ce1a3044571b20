import ImgEngine.Api.FastPath
import ImgEngine.Api.FastPath.Theorems
import ImgEngine.Api.Output
import ImgEngine.Api.Output.Theorems
import ImgEngine.Api.ProcessFast
import ImgEngine.Api.ProcessFast.Theorems
import ImgEngine.Api.ProcessRaw
import ImgEngine.Api.RunJob
import ImgEngine.Api.RunJob.Theorems
import ImgEngine.Api.Session
import ImgEngine.Api.Session.Independence
import ImgEngine.Api.Session.Theorems
import ImgEngine.Api.Shutdown
import ImgEngine.Api.Shutdown.Theorems
import ImgEngine.Api.Vtable
import ImgEngine.Api.Vtable.Theorems
import ImgEngine.Arch.ColorNorm
import ImgEngine.Arch.ColorNorm.Theorems
import ImgEngine.Arch.Grayscale
import ImgEngine.Arch.Grayscale.Theorems
import ImgEngine.Arch.Resize
import ImgEngine.Arch.Resize.Bounds
import ImgEngine.Arch.Resize.Theorems
import ImgEngine.Arch.Resize.Uniform
import ImgEngine.Arch.ResizeMaps
import ImgEngine.Arch.ResizeMaps.Horizontal
import ImgEngine.Arch.ResizeMaps.Rows
import ImgEngine.Arch.ResizeMaps.Vertical
import ImgEngine.Cmd.Args
import ImgEngine.Cmd.Argv
import ImgEngine.Cmd.Argv.Theorems
import ImgEngine.Cmd.JobBuilder
import ImgEngine.Cmd.JobBuilder.Theorems
import ImgEngine.Core.Batch
import ImgEngine.Core.Buffer
import ImgEngine.Core.ExactFloat
import ImgEngine.Core.Float
import ImgEngine.Core.ImgPipeline
import ImgEngine.Core.ImgPipeline.Theorems
import ImgEngine.Core.Word
import ImgEngine.Io.Decoder
import ImgEngine.Io.Decoder.Theorems
import ImgEngine.Io.Pdf
import ImgEngine.Io.Pdf.Theorems
import ImgEngine.Io.Pdf.Writes
import ImgEngine.Io.Pdf.Writes.Theorems
import ImgEngine.Io.Stream
import ImgEngine.Io.Stream.Theorems
import ImgEngine.Library.Bump
import ImgEngine.Library.ByteMemory
import ImgEngine.Library.ByteStream
import ImgEngine.Library.ClassicBpf
import ImgEngine.Library.Decimal
import ImgEngine.Library.Interleaving
import ImgEngine.Library.LastGiven
import ImgEngine.Library.LongOptions
import ImgEngine.Library.Loop
import ImgEngine.Library.Observer
import ImgEngine.Library.Overlay
import ImgEngine.Library.Painting
import ImgEngine.Library.PartialWrites
import ImgEngine.Library.QueueFamily
import ImgEngine.Library.Replay
import ImgEngine.Library.RingBuffer
import ImgEngine.Library.Sequential
import ImgEngine.Library.Strips
import ImgEngine.Library.Subprogram
import ImgEngine.Library.TaskBag
import ImgEngine.Library.TicketRing
import ImgEngine.Library.Tokens
import ImgEngine.Library.VectorLoop
import ImgEngine.Memory.Arena
import ImgEngine.Memory.Arena.Theorems
import ImgEngine.Memory.Heap
import ImgEngine.Memory.SharedSlab
import ImgEngine.Memory.SharedSlab.Theorems
import ImgEngine.Memory.Slab
import ImgEngine.Memory.Slab.Theorems
import ImgEngine.Memory.SlabBuffer
import ImgEngine.Memory.SlabBuffer.RefCount
import ImgEngine.Memory.SlabBuffer.Theorems
import ImgEngine.Observability.Binlog
import ImgEngine.Observability.Binlog.Theorems
import ImgEngine.Observability.LogRing
import ImgEngine.Observability.LogRing.Simulation
import ImgEngine.Observability.LogRing.Theorems
import ImgEngine.Observability.Logger
import ImgEngine.Observability.Logger.Steps
import ImgEngine.Observability.Logger.Theorems
import ImgEngine.Pipeline.Bleed
import ImgEngine.Pipeline.Bleed.Theorems
import ImgEngine.Pipeline.Border
import ImgEngine.Pipeline.Canvas
import ImgEngine.Pipeline.Canvas.Scaling
import ImgEngine.Pipeline.Canvas.Theorems
import ImgEngine.Pipeline.CropMarks
import ImgEngine.Pipeline.Dispatch
import ImgEngine.Pipeline.Dispatch.Theorems
import ImgEngine.Pipeline.Fuse
import ImgEngine.Pipeline.Fuse.Batch
import ImgEngine.Pipeline.Fuse.History
import ImgEngine.Pipeline.Fuse.Rows
import ImgEngine.Pipeline.Fuse.Theorems
import ImgEngine.Pipeline.Job
import ImgEngine.Pipeline.JumpTable
import ImgEngine.Pipeline.Layout
import ImgEngine.Pipeline.Layout.Blit
import ImgEngine.Pipeline.Layout.Cells
import ImgEngine.Pipeline.Layout.Entries
import ImgEngine.Pipeline.Layout.Geometry
import ImgEngine.Pipeline.Layout.Nearest
import ImgEngine.Pipeline.Layout.Resampling
import ImgEngine.Pipeline.Layout.Runs
import ImgEngine.Pipeline.Layout.Safety
import ImgEngine.Pipeline.Layout.Scaled
import ImgEngine.Pipeline.Layout.Theorems
import ImgEngine.Pipeline.Picture
import ImgEngine.Pipeline.Sheet
import ImgEngine.Pipeline.Sheet.Accesses
import ImgEngine.Pipeline.Sheet.Bleed
import ImgEngine.Pipeline.Sheet.Borders
import ImgEngine.Pipeline.Sheet.Frame
import ImgEngine.Pipeline.Sheet.Independence
import ImgEngine.Pipeline.Sheet.Marks
import ImgEngine.Pipeline.Sheet.Order
import ImgEngine.Pipeline.Sheet.Passes
import ImgEngine.Pipeline.Sheet.Photos
import ImgEngine.Pipeline.Sheet.Same
import ImgEngine.Pipeline.Sheet.Theorems
import ImgEngine.Plugins.Crop
import ImgEngine.Plugins.Crop.Theorems
import ImgEngine.Plugins.Kernels
import ImgEngine.Plugins.Registry
import ImgEngine.Plugins.Registry.Theorems
import ImgEngine.Runtime.Backpressure
import ImgEngine.Runtime.Backpressure.Theorems
import ImgEngine.Runtime.ExecRouter
import ImgEngine.Runtime.ExecRouter.Theorems
import ImgEngine.Runtime.QueueMpmc
import ImgEngine.Runtime.QueueMpmc.Alignment
import ImgEngine.Runtime.QueueMpmc.Answers
import ImgEngine.Runtime.QueueMpmc.History
import ImgEngine.Runtime.QueueMpmc.Sequential
import ImgEngine.Runtime.QueueMpmc.Simulation
import ImgEngine.Runtime.QueueMpmc.Theorems
import ImgEngine.Runtime.QueueSpsc
import ImgEngine.Runtime.QueueSpsc.Sequential
import ImgEngine.Runtime.QueueSpsc.Theorems
import ImgEngine.Runtime.Rpc
import ImgEngine.Runtime.Rpc.Theorems
import ImgEngine.Runtime.Scheduler
import ImgEngine.Runtime.Scheduler.Accounting
import ImgEngine.Runtime.Scheduler.Conservation
import ImgEngine.Runtime.Scheduler.Sequential
import ImgEngine.Runtime.Scheduler.Sequential.Calls
import ImgEngine.Runtime.Scheduler.Sequential.Theorems
import ImgEngine.Runtime.Scheduler.Startup
import ImgEngine.Runtime.Scheduler.Startup.Theorems
import ImgEngine.Runtime.Scheduler.Steps
import ImgEngine.Runtime.Scheduler.Theorems
import ImgEngine.Security
import ImgEngine.Security.Sandbox
import ImgEngine.Security.Sandbox.Theorems
import ImgEngine.Security.Theorems
import ImgEngine.Service.EngineRunner
import ImgEngine.Service.EngineRunner.Theorems
import ImgEngine.Service.System
import ImgEngine.Service.System.Bounds
import ImgEngine.Service.System.Records
import ImgEngine.Service.System.Sequential
import ImgEngine.Service.System.Steps
import ImgEngine.Service.Worker
import ImgEngine.Service.Worker.Theorems
import ImgEngine.Startup.BatchPipeline
import ImgEngine.Startup.BatchPipeline.Theorems
import ImgEngine.Startup.EngineInit
import ImgEngine.Startup.EngineInit.Theorems
import ImgEngine.Startup.SinglePipeline
import ImgEngine.Startup.SinglePipeline.Theorems
