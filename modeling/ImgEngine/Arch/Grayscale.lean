import ImgEngine.Pipeline.Fuse

namespace ImgEngine.Arch

open ImgEngine.Library.Loop ImgEngine.Pipeline

-- img_arch_grayscale_scalar. The indices are computed in 32 bits.

def lumaScalar (r g b : UInt8) : UInt8 :=
  ((r.toUInt32 * 77 + g.toUInt32 * 150 + b.toUInt32 * 29) >>> 8).toUInt8

def scalarPixel (row : Nat) (i : UInt32) (bytes : Bytes) : Bytes :=
  let g := lumaScalar (bytes (row + i.toNat)) (bytes (row + (i + 1).toNat))
    (bytes (row + (i + 2).toNat))
  let bytes := Function.update bytes (row + (i + 2).toNat) g
  let bytes := Function.update bytes (row + (i + 1).toNat) g
  Function.update bytes (row + i.toNat) g

def imgArchGrayscaleScalar (buf : ImgBuffer) : ImgBuffer :=
  { buf with
    bytes := forRange buf.height.toNat (fun y bytes =>
      let row := (UInt32.ofNat y * buf.stride).toNat
      forRange buf.width.toNat (fun x bytes =>
        scalarPixel row (UInt32.ofNat x * buf.channels) bytes) bytes) buf.bytes }

-- img_arch_grayscale_avx2

-- One byte of a vector as a lane of 16 bits. _mm256_packus_epi16 puts the lanes back
-- where _mm256_unpacklo_epi8 and _mm256_unpackhi_epi8 took them from.
def grayLane (px : UInt8) : UInt8 := packusEpi16 ((px.toUInt16 * 77) >>> 8)

-- The vector loop from x on: where it stops and what it leaves. The addition x + 32
-- wraps.
def grayVector (row : Nat) (rowBytes : UInt32) : Nat → UInt32 → Bytes → Option (UInt32 × Bytes)
  | 0, _, _ => none
  | fuel + 1, x, bytes =>
      if x + 32 ≤ rowBytes then
        grayVector row rowBytes fuel (x + 32) (forRange 32 (fun i (bytes : Bytes) =>
          Function.update bytes (row + x.toNat + i) (grayLane (bytes (row + x.toNat + i)))) bytes)
      else some (x, bytes)

def lumaTail (r g b : UInt8) : UInt8 :=
  let gray := (r.toUInt32 * 77 + g.toUInt32 * 150 + b.toUInt32 * 29).toUInt16 >>> 8
  if gray > 255 then 255 else gray.toUInt8

-- Where the vector loop has stopped, i + 3 does not wrap.
def grayTail (row : Nat) (rowBytes x : UInt32) (bytes : Bytes) : Bytes :=
  let pxStart := x / 3 * 3
  forRange ((rowBytes.toNat - pxStart.toNat) / 3) (fun k (bytes : Bytes) =>
    let i := row + (pxStart.toNat + k * 3)
    let g := lumaTail (bytes i) (bytes (i + 1)) (bytes (i + 2))
    bytes.setRgb i ⟨g, g, g⟩) bytes

-- After 2^27 rounds of 32 bytes x is back at 0, so a row that takes more never ends.
def imgArchGrayscaleAvx2 (buf : ImgBuffer) : Option ImgBuffer :=
  ((List.range buf.height.toNat).foldlM (fun bytes y =>
    let row := y * buf.stride.toNat
    let rowBytes := buf.width * buf.channels
    (grayVector row rowBytes (2 ^ 27 + 1) 0 bytes).map fun (x, bytes) =>
      grayTail row rowBytes x bytes) buf.bytes).map fun bytes => { buf with bytes }

end ImgEngine.Arch
