import ImgEngine.Core.Buffer
import ImgEngine.Library.Loop

namespace ImgEngine.Arch

open ImgEngine.Library.Loop

-- resize_params_t as the kernels for OP_RESIZE_H and OP_RESIZE_V read it, with a source
-- that lies apart from the destination. A null pointer is none.
structure ResizeMaps where
  src : Option ImgBuffer
  xIndex : Option (UInt32 → UInt32)
  yIndex : Option (UInt32 → UInt32)

-- A kernel that reads through a null pointer or does not return has no result. Only
-- the scalar kernels check for null pointers.

-- The columns.

def copyColumn (src : ImgBuffer) (xIndex : UInt32 → UInt32) (srcRow dstRow : Nat) (x : UInt32)
    (bytes : Bytes) : Bytes :=
  let sx := xIndex x
  forRange src.channels.toNat (fun c (bytes : Bytes) =>
    Function.update bytes (dstRow + (x * src.channels + UInt32.ofNat c).toNat)
      (src.bytes (srcRow + (sx * src.channels + UInt32.ofNat c).toNat))) bytes

def imgArchResizeHScalar (params : Option ResizeMaps) (dst : ImgBuffer) : ImgBuffer :=
  match params with
  | none => dst
  | some p =>
      match p.src, p.xIndex with
      | some src, some xIndex =>
          { dst with
            bytes := forRange src.height.toNat (fun y bytes =>
              let srcRow := (UInt32.ofNat y * src.stride).toNat
              let dstRow := (UInt32.ofNat y * dst.stride).toNat
              forRange dst.width.toNat (fun x bytes =>
                copyColumn src xIndex srcRow dstRow (.ofNat x) bytes) bytes) dst.bytes }
      | _, _ => dst

-- One row from column x on, 32 columns at a time with 32 bytes for them, and then the
-- rest one by one. The addition x + 32 wraps.
def resizeHRow (src : ImgBuffer) (xIndex : UInt32 → UInt32) (channels : UInt32)
    (srcRow dstRow : Nat) (width : UInt32) : Nat → UInt32 → Bytes → Option Bytes
  | 0, _, _ => none
  | fuel + 1, x, bytes =>
      if x + 32 ≤ width then
        let sx := xIndex x
        resizeHRow src xIndex channels srcRow dstRow width fuel (x + 32)
          (bytes.memcpy (dstRow + (x * channels).toNat) src.bytes
            (srcRow + (sx * src.channels).toNat) 32)
      else
        some (forRange (width.toNat - x.toNat) (fun k bytes =>
          copyColumn src xIndex srcRow dstRow (x + UInt32.ofNat k) bytes) bytes)

-- After 2^27 rounds of 32 columns x is back at 0, so a row that takes more never ends.
-- A row without columns does not read the map.
def imgArchResizeHAvx2 (params : Option ResizeMaps) (dst : ImgBuffer) : Option ImgBuffer :=
  params.bind fun p => p.src.bind fun src =>
    ((List.range src.height.toNat).foldlM (fun bytes y =>
      let srcRow := (UInt32.ofNat y * src.stride).toNat
      let dstRow := (UInt32.ofNat y * dst.stride).toNat
      if dst.width = 0 then some bytes
      else p.xIndex.bind fun xIndex =>
        resizeHRow src xIndex dst.channels srcRow dstRow dst.width (2 ^ 27 + 1) 0 bytes)
      dst.bytes).map fun bytes => { dst with bytes }

-- The rows.

def imgArchResizeVScalar (params : Option ResizeMaps) (dst : ImgBuffer) : ImgBuffer :=
  match params with
  | none => dst
  | some p =>
      match p.src, p.yIndex with
      | some src, some yIndex =>
          { dst with
            bytes := forRange dst.height.toNat (fun y bytes =>
              let sy := yIndex (.ofNat y)
              bytes.memcpy (UInt32.ofNat y * dst.stride).toNat src.bytes (sy * src.stride).toNat
                (dst.width * dst.channels).toNat) dst.bytes }
      | _, _ => dst

-- One row from byte i on, 32 bytes at a time and then the rest one by one. The addition
-- i + 32 wraps.
def copyRow (src : Bytes) (srcRow dstRow : Nat) (size : UInt32) :
    Nat → UInt32 → Bytes → Option Bytes
  | 0, _, _ => none
  | fuel + 1, i, bytes =>
      if i + 32 ≤ size then
        copyRow src srcRow dstRow size fuel (i + 32)
          (bytes.memcpy (dstRow + i.toNat) src (srcRow + i.toNat) 32)
      else
        some (forRange (size.toNat - i.toNat) (fun k (bytes : Bytes) =>
          Function.update bytes (dstRow + i.toNat + k) (src (srcRow + i.toNat + k))) bytes)

-- After 2^27 rounds of 32 bytes i is back at 0, so a row that takes more never ends.
def imgArchResizeVAvx2 (params : Option ResizeMaps) (dst : ImgBuffer) : Option ImgBuffer :=
  ((List.range dst.height.toNat).foldlM (fun bytes y =>
    params.bind fun p => p.yIndex.bind fun yIndex => p.src.bind fun src =>
      let sy := yIndex (.ofNat y)
      copyRow src.bytes (sy * src.stride).toNat (UInt32.ofNat y * dst.stride).toNat
        (dst.width * dst.channels) (2 ^ 27 + 1) 0 bytes) dst.bytes).map fun bytes =>
          { dst with bytes }

-- The buffers of the batch share no bytes. Reads p before the rows of an image.
def imgBatchResizeFusedAvx2 (params : Option ResizeMaps) (batch : List (Option ImgBuffer)) :
    Option (List (Option ImgBuffer)) :=
  batch.mapM fun entry => entry.bind fun dst => params.bind fun p =>
    ((List.range dst.height.toNat).foldlM (fun bytes y =>
      p.yIndex.bind fun yIndex => p.src.bind fun src =>
        let sy := yIndex (.ofNat y)
        copyRow src.bytes (sy * src.stride).toNat (UInt32.ofNat y * dst.stride).toNat
          (dst.width * dst.channels) (2 ^ 27 + 1) 0 bytes) dst.bytes).map fun bytes =>
            some { dst with bytes }

end ImgEngine.Arch
