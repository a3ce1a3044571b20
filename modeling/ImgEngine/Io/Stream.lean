import ImgEngine.Io.Decoder

namespace ImgEngine.Io

open ImgEngine.Security

-- img_stream_t, with the bytes that data points to.
structure ImgStream where
  data : Ptr
  bytes : List UInt8
  size : UInt64
  pos : UInt64

def imgVfsOpenMem (input : Input) : Except ImgError ImgStream :=
  if input.ptr = 0 ∨ input.size = 0 then .error .format
  else .ok { data := input.ptr, bytes := input.bytes, size := input.size, pos := 0 }

-- What a read copies, *read_bytes and the stream behind it.
structure StreamRead where
  ret : Except ImgError Unit
  copied : List UInt8
  readBytes : UInt64
  stream : ImgStream

-- A short read copies what there is and fails.
def imgVfsRead (stream : ImgStream) (n : UInt64) : StreamRead :=
  let available := stream.size - stream.pos
  let toCopy := if n < available then n else available
  { ret := if toCopy = n then .ok () else .error .format
    copied := (stream.bytes.drop stream.pos.toNat).take toCopy.toNat
    readBytes := toCopy
    stream := { stream with pos := stream.pos + toCopy } }

def HEADER_SIZE : UInt64 := 1024

-- From the allocations on.
def decodeStreamPixels (tj : TurboJpeg) (ctx : ImgCtx) (stream : ImgStream) (out : ImgBuffer)
    (w h : Int32) (stride required : UInt64) : Decoded Unit :=
  let fail ctx := ⟨.error (), some ctx, some out⟩
  match ctx.alloc with
  | none => fail ctx
  | some (mem, ctx₁) =>
      match ctx₁.alloc with
      | none => fail (ctx₁.release mem)
      | some (tmp, ctx₂) =>
          let cleaned := (ctx₂.release tmp).release mem
          let read := imgVfsRead stream required
          match read.ret with
          | .error _ => fail cleaned
          | .ok () =>
              if ¬imgBoundsCheck tmp read.readBytes stream.data stream.size then fail cleaned
              else match tj.decompress read.copied w stride.toUInt32.toInt32 h with
                | none => fail cleaned
                | some pixels => ⟨.ok (), some (ctx₂.release tmp), some {
                    data := mem
                    bytes := writeRows (ctx.stale mem) pixels required
                    width := w.toUInt32
                    height := h.toUInt32
                    channels := 3
                    stride := (w * 3).toUInt32 }⟩

-- The result -1 is the error.
def imgDecodeStream (tj : TurboJpeg) (ctx : Option ImgCtx) (stream : Option ImgStream)
    (out : Option ImgBuffer) : Decoded Unit :=
  let fail := ⟨.error (), ctx, out⟩
  match ctx, stream, out with
  | some ctx, some stream, some out =>
      let read := imgVfsRead stream HEADER_SIZE
      match read.ret with
      | .error _ => fail
      | .ok () =>
          if ¬tj.initDecompress then fail
          else match tj.decompressHeader read.copied with
            | none => fail
            | some (w, h) =>
                match imgSecurityValidateRequest w.toUInt32 h.toUInt32 stream.size with
                | .error _ => fail
                | .ok () =>
                    let stride := intToSize (w * 3)
                    let required := stride * intToSize h
                    if required > ctx.blockSize then fail
                    else decodeStreamPixels tj ctx read.stream out w h stride required
  | _, _, _ => fail

end ImgEngine.Io
