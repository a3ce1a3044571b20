import ImgEngine.Arch.Resize
import ImgEngine.Plugins.Kernels
import ImgEngine.Startup.EngineInit

namespace ImgEngine.Startup

open ImgEngine.Arch ImgEngine.Pipeline ImgEngine.Plugins

-- The section of the library that CMakeLists.txt describes: plugin_crop.c registers
-- nothing, and plugin_resize.c becomes a library of its own that nothing loads.
def shippedPlugins : Section := [some grayscalePlugin]

-- What a kernel reads through a pointer to parameters.
def paramsAt (resizeParams : Ptr → ResizeParams) (params : Ptr) : Option ResizeParams :=
  if params = 0 then none else some (resizeParams params)

-- Where the functions lie, what the memory behind the table and at the pointers to
-- parameters holds, and what a call does. A call that does not return leaves no image. The
-- sources of the parameters lie apart from the image, so that no call changes them.
structure Linked (Ctx : Type) where
  address : OpFn → Ptr
  nonnull : ∀ fn, address fn ≠ 0
  beyond : Table
  resizeParams : Ptr → ResizeParams
  call : Ptr → Ptr → Ctx × Option ImgBuffer → Ctx × Option ImgBuffer
  -- the kernels that stand under OP_RESIZE on some CPU
  resize : ∀ caps kernel, startupTable caps OP_RESIZE = some kernel → ∀ params s,
    call (address (.kernel kernel)) params s =
      (s.1, s.2.bind (resizeKernel (some kernel) (paramsAt resizeParams params)))
  grayscaleExec : ∀ params s,
    call (address .grayscaleExec) params s = (s.1, s.2.map Plugins.grayscaleExec)

-- g_jump_table in memory.
def Linked.jumpTable {Ctx : Type} (linked : Linked Ctx) (tables : Tables) : Table := fun opcode =>
  if opcode < IMG_MAX_OPS then (tables.jump opcode).elim 0 linked.address
  else linked.beyond opcode

-- Pipelines that stay in the table and do not name the two passes of the separable
-- resize, which are not exposed to the API.
def Exposed (pipe : ImgPipelineDesc) : Prop :=
  ∀ op ∈ pipe.ops, op.opCode < IMG_MAX_OPS ∧ op.opCode ≠ OP_RESIZE_H ∧ op.opCode ≠ OP_RESIZE_V

instance (pipe : ImgPipelineDesc) : Decidable (Exposed pipe) :=
  inferInstanceAs (Decidable (∀ op ∈ pipe.ops, _))

section Operations

variable {Ctx : Type} (linked : Linked Ctx) (caps : UInt32)

-- What an exposed operation comes to: the CPU's kernel, the plugin, or nothing.
def Linked.exposedOp (buf : ImgBuffer) (op : ImgOpDesc) : Option ImgBuffer :=
  if op.opCode = OP_RESIZE then
    (ResizeOp.table caps (paramsAt linked.resizeParams op.params)).run buf
  else if op.opCode = OP_GRAYSCALE then some (Plugins.grayscaleExec buf)
  else some buf

-- The size that an operation sets on the CPU, and the last one that a pipeline does.

def Linked.newSize (op : ImgOpDesc) : Option (UInt32 × UInt32) :=
  if op.opCode = OP_RESIZE then
    (ResizeOp.table caps (paramsAt linked.resizeParams op.params)).newSize
  else none

def Linked.lastSize (pipe : ImgPipelineDesc) : Option (UInt32 × UInt32) :=
  (pipe.ops.filterMap (linked.newSize caps)).getLast?

end Operations

-- A resize whose size fits the image and its block, and whose kernel finds what it reads
-- through and ends.
structure Harmless (caps : UInt32) (block : Allocation) (buf : ImgBuffer)
    (params : Option ResizeParams) : Prop where
  size : ∀ w h, (ResizeOp.table caps params).newSize = some (w, h) →
    w.toNat * buf.channels.toNat ≤ buf.stride.toNat ∧ h.toNat * buf.stride.toNat ≤ block.size
  avx512 : imgCpuHasAvx512 caps → params.isSome
  avx2 : ¬imgCpuHasAvx512 caps → imgCpuHasAvx2 caps → ∃ src,
    params.bind ResizeParams.src = some src ∧ src.channels.toNat ≤ buf.channels.toNat ∧
      (buf.height ≠ 0 → buf.width.toNat * src.channels.toNat < 2 ^ 32 - 32)

-- What a pipeline may do to an image in a block.
structure StaysIn (block : Allocation) (buf buf' : ImgBuffer) : Prop where
  wellFormed : WellFormed block buf'
  outside : ∀ i, block.size ≤ i → buf'.bytes i = buf.bytes i
  channels : buf'.channels = buf.channels
  stride : buf'.stride = buf.stride

end ImgEngine.Startup
