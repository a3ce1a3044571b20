import ImgEngine.Pipeline.Fuse
import ImgEngine.Pipeline.JumpTable

namespace ImgEngine.Arch

open ImgEngine.Library.Loop ImgEngine.Pipeline

-- The source of a resize. Its bytes may overlap those of the destination, so that
-- what is read from it depends on what the destination holds.
structure ResizeSource where
  data : Bytes → Bytes
  channels : UInt32
  stride : UInt32

-- A null pointer is none. The index maps are not read by the kernels for OP_RESIZE.
structure ResizeParams where
  src : Option ResizeSource
  targetW : UInt32
  targetH : UInt32
  scaleX : UInt32
  scaleY : UInt32

-- A kernel that reads through a null pointer or does not return has no result.
abbrev ResizeKernelFn := Option ResizeParams → ImgBuffer → Option ImgBuffer

def resizeScalar : ResizeKernelFn := fun params buf =>
  match params with
  | none => some buf
  | some p =>
      if p.src.isNone then some buf
      else some { buf with width := p.targetW, height := p.targetH }

def imgArchResizeAvx512 : ResizeKernelFn := fun params buf =>
  params.map fun p => { buf with width := p.targetW, height := p.targetH }

def resizeAvx512 : ResizeKernelFn := imgArchResizeAvx512

-- One row from dx on, 32 bytes at a time and then the rest one by one. The addition
-- dx + 32 wraps.
def avx2ResizeRow (src : ResizeSource) (scaleX : UInt32) (srcRow dstRow : Nat) (len : UInt32) :
    Nat → UInt32 → UInt32 → Bytes → Option Bytes
  | 0, _, _, _ => none
  | fuel + 1, sxFixed, dx, bytes =>
      if dx + 32 ≤ len then
        let sx := sxFixed >>> 16
        let bytes := bytes.memcpy (dstRow + dx.toNat) (src.data bytes)
          (srcRow + (sx * src.channels).toNat) 32
        avx2ResizeRow src scaleX srcRow dstRow len fuel (sxFixed + scaleX * (32 / src.channels))
          (dx + 32) bytes
      else
        some (forRange (len.toNat - dx.toNat) (fun i (bytes : Bytes) =>
          let dx := dx + UInt32.ofNat i
          let pixel := dx / src.channels
          let sx := (pixel * scaleX) >>> 16
          Function.update bytes (dstRow + dx.toNat)
            (src.data bytes (srcRow + (sx * src.channels + dx % src.channels).toNat))) bytes)

-- After 2^27 rounds of 32 bytes dx is back at 0, so a row that takes more never ends.
def imgArchAvx2Resize : ResizeKernelFn := fun params dst =>
  params.bind fun p => p.src.bind fun src =>
    ((List.range dst.height.toNat).foldlM (fun bytes y =>
      let dy := UInt32.ofNat y
      let sy := (dy * p.scaleY) >>> 16
      avx2ResizeRow src p.scaleX (sy * src.stride).toNat (dy * dst.stride).toNat
        (dst.width * src.channels) (2 ^ 27 + 1) 0 0 bytes) dst.bytes).map fun bytes =>
          { dst with bytes }

def resizeAvx2 : ResizeKernelFn := imgArchAvx2Resize

-- What the table entry for OP_RESIZE runs. No other kernel is put there.
def resizeKernel : Option Kernel → ResizeKernelFn
  | some .resizeScalar => resizeScalar
  | some .resizeAvx2 => resizeAvx2
  | some .resizeAvx512 => resizeAvx512
  | _ => fun _ _ => none

-- An operation on one buffer: the kernel of the table, or a fused kernel that was
-- instantiated with the resize step.
inductive ResizeOp where
  | table (caps : UInt32) (params : Option ResizeParams)
  | fused (doGray doBright : Bool) (params : Option ImgFusedParams)

def ResizeOp.run : ResizeOp → ImgBuffer → Option ImgBuffer
  | table caps params, buf => resizeKernel (startupTable caps OP_RESIZE) params buf
  | fused doGray doBright params, buf =>
      some (params.elim buf fun p => fusedKernel doGray doBright true p buf)

-- The buffer after each operation.
def runOps : List ResizeOp → ImgBuffer → Option (List ImgBuffer)
  | [], _ => some []
  | op :: ops, buf => (op.run buf).bind fun buf => (runOps ops buf).map (buf :: ·)

-- Where a buffer may lie.
structure Allocation where
  data : Ptr
  size : Nat

structure WellFormed (block : Allocation) (buf : ImgBuffer) : Prop where
  data : buf.data = block.data
  row : buf.width.toNat * buf.channels.toNat ≤ buf.stride.toNat
  rows : buf.height.toNat * buf.stride.toNat ≤ block.size

-- The dimensions an operation asks for, if it sets any.
def ResizeOp.newSize : ResizeOp → Option (UInt32 × UInt32)
  | table caps (some p) =>
      if imgCpuHasAvx512 caps ∨ ¬imgCpuHasAvx2 caps ∧ p.src.isSome then
        some (p.targetW, p.targetH)
      else none
  | fused _ _ (some p) => some (p.newW, p.newH)
  | _ => none

end ImgEngine.Arch
