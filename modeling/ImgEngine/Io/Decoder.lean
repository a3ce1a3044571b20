import ImgEngine.Memory.Heap
import ImgEngine.Security

namespace ImgEngine.Io

open ImgEngine.Memory ImgEngine.Security

-- The calls of turbojpeg, as functions of the bytes they are given. none stands
-- for a failure. Where the library has state that changes its answers from one
-- decode to the next, each decode has a TurboJpeg of its own.
structure TurboJpeg where
  initDecompress : Bool
  decompressHeader : List UInt8 → Option (Int32 × Int32)
  -- the pixels by width, pitch and height
  decompress : List UInt8 → Int32 → Int32 → Int32 → Option Bytes

-- Bytes somewhere in memory. The null pointer is 0.
structure Input where
  ptr : Ptr
  bytes : List UInt8

def Input.size (input : Input) : UInt64 := .ofNat input.bytes.length

-- img_ctx_t, of which the decoders read the pool, with none for NULL.
structure ImgCtx where
  localPool : Option Heap

namespace ImgCtx

def blockSize (ctx : ImgCtx) : UInt64 :=
  match ctx.localPool with
  | none => 0
  | some heap => heap.pool.blockSize

def alloc (ctx : ImgCtx) : Option (Ptr × ImgCtx) :=
  match ctx.localPool with
  | none => none
  | some heap => heap.alloc.map fun (mem, heap) => (mem, { localPool := some heap })

def release (ctx : ImgCtx) (block : Ptr) : ImgCtx where
  localPool := ctx.localPool.map (·.release block)

-- what the block held before it was taken
def stale (ctx : ImgCtx) (block : Ptr) : Bytes :=
  match ctx.localPool with
  | none => fun _ => 0
  | some heap => heap.stale block

end ImgCtx

def SIZE_MAX : UInt64 := 0xffffffffffffffff

def safeMul (a b : UInt64) : Option UInt64 :=
  if a = 0 ∨ b = 0 then some 0
  else if a > SIZE_MAX / b then none
  else some (a * b)

-- The conversion of an int to size_t.
def intToSize (x : Int32) : UInt64 := x.toInt64.toUInt64

-- What tjDecompress2 leaves in a block: rows at the given pitch.
def writeRows (stale pixels : Bytes) (size : UInt64) : Bytes := fun i =>
  if i < size.toNat then pixels i else stale i

-- The return statements of img_decode_to_buffer that report a failure, in order.
inductive DecodeExit where
  | arguments
  | inputBounds
  | init
  | header
  | gate (e : ImgError)
  | strideWraps
  | sizeWraps
  | blockSize
  | noBlock
  | decompress
  | finalBounds
deriving DecidableEq

def DecodeExit.code : DecodeExit → ImgError
  | .init | .blockSize | .noBlock => .nomem
  | .header | .decompress => .format
  | .gate e => e
  | .arguments | .inputBounds | .strideWraps | .sizeWraps | .finalBounds => .security

-- The result of a decoder, with the context and *out after the call.
structure Decoded (E : Type) where
  ret : Except E Unit
  ctx : Option ImgCtx
  out : Option ImgBuffer

-- From the size calculation on, for the dimensions of the header.
def decodePixels (tj : TurboJpeg) (ctx : ImgCtx) (input : Input) (out : ImgBuffer) (w h : Int32) :
    Decoded DecodeExit :=
  let fail e := ⟨.error e, some ctx, some out⟩
  match safeMul (intToSize w) 3 with
  | none => fail .strideWraps
  | some stride =>
      match safeMul stride (intToSize h) with
      | none => fail .sizeWraps
      | some required =>
          if required > ctx.blockSize then fail .blockSize
          else match ctx.alloc with
            | none => fail .noBlock
            | some (mem, ctx') =>
                match tj.decompress input.bytes w stride.toUInt32.toInt32 h with
                | none => ⟨.error .decompress, some (ctx'.release mem), some out⟩
                | some pixels =>
                    if ¬imgBoundsCheck mem required mem ctx.blockSize then
                      ⟨.error .finalBounds, some (ctx'.release mem), some out⟩
                    else ⟨.ok (), some ctx', some {
                      data := mem
                      bytes := writeRows (ctx.stale mem) pixels required
                      width := w.toUInt32
                      height := h.toUInt32
                      channels := 3
                      stride := stride.toUInt32 }⟩

def imgDecodeToBuffer (tj : TurboJpeg) (ctx : Option ImgCtx) (input : Input)
    (out : Option ImgBuffer) : Decoded DecodeExit :=
  let fail e := ⟨.error e, ctx, out⟩
  match ctx, out with
  | some ctx, some out =>
      if input.ptr = 0 ∨ input.size = 0 then fail .arguments
      else if ¬imgBoundsCheck input.ptr input.size input.ptr input.size then fail .inputBounds
      else if ¬tj.initDecompress then fail .init
      else match tj.decompressHeader input.bytes with
        | none => fail .header
        | some (w, h) =>
            match imgSecurityValidateRequest w.toUInt32 h.toUInt32 input.size with
            | .error e => fail (.gate e)
            | .ok () => decodePixels tj ctx input out w h
  | _, _ => fail .arguments

end ImgEngine.Io
