import ImgEngine.Core.Batch
import ImgEngine.Library.Loop
import ImgEngine.Pipeline.Dispatch

namespace ImgEngine.Pipeline

open ImgEngine.Library.ByteMemory ImgEngine.Library.Loop

def SIG_OP_GRAYSCALE : UInt32 := (1 : UInt32) <<< 0
def SIG_OP_BRIGHTNESS : UInt32 := (1 : UInt32) <<< 1
def SIG_OP_RESIZE : UInt32 := (1 : UInt32) <<< 2

structure ImgFusedParams where
  hasGrayscale : Bool
  hasBrightness : Bool
  hasResize : Bool
  brightnessValue : UInt16
  newW : UInt32
  newH : UInt32
deriving DecidableEq

def ImgFusedParams.zero : ImgFusedParams where
  hasGrayscale := false
  hasBrightness := false
  hasResize := false
  brightnessValue := 0
  newW := 0
  newH := 0

def grayscale (px : UInt8) : UInt8 := ((px.toUInt32 * 77) >>> 8).toUInt8

def brighten (value : UInt16) (px : UInt8) : UInt8 :=
  let tmp := px.toUInt32 + value.toUInt32
  if tmp > 255 then 255 else tmp.toUInt8

def fusedByte (doGray doBright : Bool) (p : ImgFusedParams) (px : UInt8) : UInt8 :=
  let px := if doGray then grayscale px else px
  if doBright then brighten p.brightnessValue px else px

-- DEFINE_KERNEL

def fusedKernel (doGray doBright doResize : Bool) (p : ImgFusedParams) (buf : ImgBuffer) :
    ImgBuffer :=
  let n := buf.width * buf.height * buf.channels
  let bytes := forRange n.toNat (fun i (bytes : Bytes) =>
    Function.update bytes i (fusedByte doGray doBright p (bytes i))) buf.bytes
  if doResize then { buf with bytes, width := p.newW, height := p.newH } else { buf with bytes }

-- What is left of the buffers, of which the batch has pointers.
abbrev ImgFusedKernelFn := ImgBatch → ImgFusedParams → Images → Images

def defineKernel (doGray doBright doResize : Bool) : ImgFusedKernelFn := fun batch p images =>
  images.forEach (fusedKernel doGray doBright doResize p) batch

def kernelNone : ImgFusedKernelFn := defineKernel false false false
def kernelGray : ImgFusedKernelFn := defineKernel true false false
def kernelBright : ImgFusedKernelFn := defineKernel false true false
def kernelGrayBright : ImgFusedKernelFn := defineKernel true true false
def kernelGrayResize : ImgFusedKernelFn := defineKernel true false true
def kernelAll : ImgFusedKernelFn := defineKernel true true true

-- By signature. Brightness with resize falls back to brightness alone.
def gFusedDispatch : List (Option ImgFusedKernelFn) :=
  [some kernelNone, some kernelGray, some kernelBright, some kernelGrayBright,
    none, some kernelGrayResize, some kernelBright, some kernelAll]

def imgGetFusedKernel (sig : UInt32) : Option ImgFusedKernelFn :=
  if sig ≥ 8 then none else (gFusedDispatch[sig.toNat]?).join

-- The functions for a single image, which read the flags at run time. One that does
-- not return has no result.

abbrev ImgSingleKernelFn := ImgFusedParams → ImgBuffer → Option ImgBuffer

def scalarByte (p : ImgFusedParams) (px : UInt8) : UInt8 :=
  fusedByte p.hasGrayscale p.hasBrightness p px

def fusedExecScalar : ImgSingleKernelFn := fun p buf =>
  some { buf with
    bytes := forRange buf.height.toNat (fun y bytes =>
      let row := y * buf.stride.toNat
      forRange (buf.width * buf.channels).toNat (fun x (bytes : Bytes) =>
        Function.update bytes (row + x) (scalarByte p (bytes (row + x)))) bytes) buf.bytes }

-- One lane of 16 bits: _mm256_mullo_epi16 and _mm256_srli_epi16, _mm256_adds_epu16,
-- and _mm256_packus_epi16, which takes the lane for a signed number.

def addsEpu16 (a b : UInt16) : UInt16 :=
  if a.toNat + b.toNat > 65535 then 65535 else a + b

def packusEpi16 (lane : UInt16) : UInt8 :=
  if lane ≥ 0x8000 then 0 else if lane > 255 then 255 else lane.toUInt8

def simdByte (p : ImgFusedParams) (px : UInt8) : UInt8 :=
  let lane := px.toUInt16
  let lane := if p.hasGrayscale then (lane * 77) >>> 8 else lane
  let lane := if p.hasBrightness then addsEpu16 lane p.brightnessValue else lane
  packusEpi16 lane

-- One row from x on, 32 bytes at a time and then the rest one by one. The addition
-- x + 32 wraps.
def avx2Row (p : ImgFusedParams) (row : Nat) (len : UInt32) : Nat → UInt32 → Bytes → Option Bytes
  | 0, _, _ => none
  | fuel + 1, x, bytes =>
      if x + 32 ≤ len then
        avx2Row p row len fuel (x + 32) (forRange 32 (fun i (bytes : Bytes) =>
          Function.update bytes (row + x.toNat + i) (simdByte p (bytes (row + x.toNat + i)))) bytes)
      else
        some (forRange (len.toNat - x.toNat) (fun i (bytes : Bytes) =>
          Function.update bytes (row + x.toNat + i) (scalarByte p (bytes (row + x.toNat + i)))) bytes)

-- After 2^27 rounds of 32 bytes x is back at 0, so a row that takes more never ends.
def fusedExecAvx2 : ImgSingleKernelFn := fun p buf =>
  ((List.range buf.height.toNat).foldlM (fun bytes y =>
    avx2Row p (y * buf.stride.toNat) (buf.width * buf.channels) (2 ^ 27 + 1) 0 bytes)
    buf.bytes).map fun bytes => { buf with bytes }

structure ImgPipelineFused where
  count : UInt32
  fn : ImgSingleKernelFn
  fnBatch : Option ImgFusedKernelFn

-- One round of the loop of img_pipeline_fuse, on g_fused_params and the signature.
def fuseOp (mem : Memory) (t : ImgFusedParams × UInt32) (op : ImgOpDesc) : ImgFusedParams × UInt32 :=
  let (p, sig) := t
  if op.opCode = OP_GRAYSCALE then ({ p with hasGrayscale := true }, sig ||| SIG_OP_GRAYSCALE)
  else if op.opCode = OP_BRIGHTNESS then
    let p := { p with hasBrightness := true }
    let p := if op.params ≠ 0 then { p with brightnessValue := load16 mem op.params } else p
    (p, sig ||| SIG_OP_BRIGHTNESS)
  else if op.opCode = OP_RESIZE then
    let p := { p with hasResize := true }
    let p :=
      if op.params ≠ 0 then
        { p with newW := load32 mem op.params, newH := load32 mem (op.params + 4) }
      else p
    (p, sig ||| SIG_OP_RESIZE)
  else (p, sig)

-- The new value of g_fused_params and what is stored to out. `avx2` says whether
-- __AVX2__ is defined.
def imgPipelineFuse (avx2 : Bool) (mem : Memory) (pipe : ImgPipelineDesc) :
    ImgFusedParams × ImgPipelineFused :=
  let (p, sig) := pipe.ops.foldl (fuseOp mem) (.zero, 0)
  (p, { count := pipe.count
        fn := if avx2 then fusedExecAvx2 else fusedExecScalar
        fnBatch := imgGetFusedKernel sig })

-- `p` is g_fused_params, which ctx->fused_params is set to. The parameters and the
-- descriptors lie apart from the buffers.
def imgPipelineExecuteFusedBatch (p : ImgFusedParams) (pipe : ImgPipelineFused) (batch : ImgBatch)
    (images : Images) : Option Images :=
  if batch.length = 0 then some images
  else
    match pipe.fnBatch with
    | some fnBatch => some (fnBatch batch p images)
    | none => images.forEachM (pipe.fn p) batch

-- Compiling a descriptor and running it at once.
def fuseAndExecute (avx2 : Bool) (mem : Memory) (pipe : ImgPipelineDesc) (batch : ImgBatch)
    (images : Images) : Option Images :=
  let (p, fused) := imgPipelineFuse avx2 mem pipe
  imgPipelineExecuteFusedBatch p fused batch images

-- An operation as a pipeline of its own.
def ImgOpDesc.alone (op : ImgOpDesc) : ImgPipelineDesc where
  ops := [op]
  countable := by simp

def executeOneByOne (avx2 : Bool) (mem : Memory) (pipe : ImgPipelineDesc) (batch : ImgBatch)
    (images : Images) : Option Images :=
  pipe.ops.foldlM (fun images op => fuseAndExecute avx2 mem op.alone batch images) images

-- What the fused parameters say about the operations.

section Operations

variable (mem : Memory) (ops : List ImgOpDesc)

def HasOp (opCode : UInt32) : Prop := ∃ op ∈ ops, op.opCode = opCode

instance (opCode : UInt32) : Decidable (HasOp ops opCode) :=
  inferInstanceAs (Decidable (∃ op ∈ ops, op.opCode = opCode))

-- The last operation of a kind that gives parameters.
def lastGiven (opCode : UInt32) : Option ImgOpDesc :=
  (ops.filter fun op => op.opCode = opCode ∧ op.params ≠ 0).getLast?

def lastBrightness : UInt16 :=
  (lastGiven ops OP_BRIGHTNESS).elim 0 fun op => load16 mem op.params

def lastSize : UInt32 × UInt32 :=
  (lastGiven ops OP_RESIZE).elim (0, 0) fun op => (load32 mem op.params, load32 mem (op.params + 4))

-- One byte through one operation, and through one of each kind.

def brightness (op : ImgOpDesc) : UInt16 := if op.params ≠ 0 then load16 mem op.params else 0

def opByte (px : UInt8) (op : ImgOpDesc) : UInt8 :=
  if op.opCode = OP_GRAYSCALE then grayscale px
  else if op.opCode = OP_BRIGHTNESS then brighten (brightness mem op) px
  else px

def onceByte (px : UInt8) : UInt8 :=
  let px := if HasOp ops OP_GRAYSCALE then grayscale px else px
  if HasOp ops OP_BRIGHTNESS then brighten (lastBrightness mem ops) px else px

-- The operations on a byte that `k` buffers of the batch share, each operation on all
-- of them before the next.
def opsByte (k : Nat) (px : UInt8) : UInt8 :=
  ops.foldl (fun px op => (fun px => opByte mem px op)^[k] px) px

end Operations

-- The loop over a row of the function for AVX2 comes to an end.
def RowsEnd (avx2 : Bool) (buf : ImgBuffer) : Prop :=
  avx2 = true → buf.height ≠ 0 → (buf.width * buf.channels).toNat < 2 ^ 32 - 32

instance (avx2 : Bool) (buf : ImgBuffer) : Decidable (RowsEnd avx2 buf) :=
  inferInstanceAs (Decidable (_ → _ → _))

-- The bytes that the kernels change, of which they count in 32 bits.
def Covers (h : ImgHeader) (a : Nat) : Prop :=
  h.data.toNat ≤ a ∧ a < h.data.toNat + (h.width * h.height * h.channels).toNat

instance (h : ImgHeader) (a : Nat) : Decidable (Covers h a) :=
  inferInstanceAs (Decidable (_ ∧ _))

-- How many entries of a batch have a byte among theirs. A buffer counts as often as it
-- stands in the batch.
def covers (images : Images) (batch : ImgBatch) (a : Nat) : Nat :=
  batch.reduceOption.countP fun p => Covers (images.header p) a

-- When fusing the descriptor does not change what it does to the batch.
structure Fusable (avx2 : Bool) (mem : Memory) (pipe : ImgPipelineDesc) (batch : ImgBatch)
    (images : Images) : Prop where
  -- one grayscale and one brightness do the same to each byte, as often as it is reached
  bytes : ∀ a, opsByte mem pipe.ops (covers images batch a) (images.memory a) =
    (onceByte mem pipe.ops)^[covers images batch a] (images.memory a)
  -- only the fused kernels for grayscale and resize set the size
  size : HasOp pipe.ops OP_GRAYSCALE → HasOp pipe.ops OP_RESIZE → ∀ p, some p ∈ batch →
    ((images.header p).width, (images.header p).height) = lastSize mem pipe.ops
  -- resize alone has no kernel and runs the function for single images
  rows : HasOp pipe.ops OP_RESIZE → ∀ p, some p ∈ batch → RowsEnd avx2 (images.load p)

end ImgEngine.Pipeline
