import ImgEngine.Core.Buffer
import ImgEngine.Memory.Slab

namespace ImgEngine.Memory

open ImgEngine.Library.ByteMemory

-- img_buffer_t, whose bytes lie in the memory.
structure SlabBuffer where
  data : Ptr
  width : UInt32
  height : UInt32
  channels : UInt32
  stride : UInt32
deriving DecidableEq, Repr

namespace SlabBuffer

def zero : SlabBuffer := ⟨0, 0, 0, 0, 0⟩

-- The address of byte k of a row.
def byteAddress (buf : SlabBuffer) (y k : Nat) : Nat :=
  buf.data.toNat + y * buf.stride.toNat + k

end SlabBuffer

def SIZE_MAX : UInt64 := 0xFFFFFFFFFFFFFFFF

-- sizeof(img_buf_header_t): the count ref and, at 4, the flags.
def sizeofHeader : UInt64 := 8

def storeHeader (mem : Memory) (hdr : Ptr) (ref flags : UInt32) : Memory :=
  store32 (store32 mem hdr ref) (hdr + 4) flags

-- What a call of img_buffer_from_slab leaves.
structure Carved where
  buf : SlabBuffer
  mem : Memory
  pool : Option ImgSlabPool

-- A null pool is none. The product w * ch has 32 bits, as has the stride of the buffer.
def imgBufferFromSlab (mem : Memory) (pool : Option ImgSlabPool) (w h ch : UInt32) : Carved :=
  let kept : Carved := ⟨.zero, mem, pool⟩
  match pool with
  | none => kept
  | some pool =>
      if w = 0 ∨ h = 0 ∨ ch = 0 then kept
      else if w.toUInt64 > SIZE_MAX / ch.toUInt64 then kept
      else
        let stride := (w * ch).toUInt64
        if stride > SIZE_MAX / h.toUInt64 then kept
        else
          let dataSize := stride * h.toUInt64
          let hdrSize := (sizeofHeader + 63) &&& ~~~63
          let total := hdrSize + dataSize
          if total > pool.blockSize then kept
          else
            let (block, pool) := imgSlabAlloc mem pool
            if block = 0 then ⟨.zero, mem, some pool⟩
            else
              { buf := ⟨block + hdrSize, w, h, ch, stride.toUInt32⟩
                mem := storeHeader mem block 1 0
                pool := some pool }

def imgBufHdr (buf : SlabBuffer) : Ptr := buf.data - sizeofHeader

-- The atomic additions return the count before, of which only the release makes use.

def imgBufferAcquire (mem : Memory) (buf : Option SlabBuffer) : Memory :=
  match buf with
  | none => mem
  | some buf =>
      if buf.data = 0 then mem
      else
        let hdr := imgBufHdr buf
        store32 mem hdr (load32 mem hdr + 1)

-- Also says whether this was the last reference, of which nothing follows in the source.
def imgBufferRelease (mem : Memory) (buf : Option SlabBuffer) : Bool × Memory :=
  match buf with
  | none => (false, mem)
  | some buf =>
      if buf.data = 0 then (false, mem)
      else
        let hdr := imgBufHdr buf
        (load32 mem hdr = 1, store32 mem hdr (load32 mem hdr - 1))

end ImgEngine.Memory
