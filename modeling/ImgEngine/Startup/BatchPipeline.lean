import ImgEngine.Arch.ColorNorm
import ImgEngine.Startup.SinglePipeline

namespace ImgEngine.Startup

open ImgEngine.Arch ImgEngine.Pipeline ImgEngine.Plugins

-- A section without null pointers whose descriptors have no batch functions, as that of
-- the library is.
def SinglesOnly (entries : Section) : Prop :=
  ∀ entry ∈ entries, ∃ p, entry = some p ∧ p.batchExec = none

-- Where the batch kernels lie and what a call does. A kernel that does not return leaves
-- no buffers.
structure BatchLinked (Ctx : Type) where
  address : BatchOpFn → Ptr
  nonnull : ∀ fn, address fn ≠ 0
  beyond : Table
  call : ImgBatch → Ptr → Ptr → Ctx × Option Images → Ctx × Option Images
  colorNorm : ∀ batch params s, call batch (address .fusedResizeColorNormAvx2) params s =
    (s.1, s.2.bind (imgFusedResizeColorNormAvx2 batch))

-- g_batch_jump_table in memory.
def BatchLinked.batchJumpTable {Ctx : Type} (linked : BatchLinked Ctx) (tables : Tables) : Table :=
  fun opcode =>
    if opcode < IMG_MAX_OPS then (tables.batchJump opcode).elim 0 linked.address
    else linked.beyond opcode

-- The rounds of the kernel that a pipeline makes.
def rounds (caps : UInt32) (pipe : ImgPipelineDesc) : Nat :=
  if imgCpuHasAvx2 caps then pipe.ops.countP fun op => op.opCode = OP_RESIZE else 0

end ImgEngine.Startup
