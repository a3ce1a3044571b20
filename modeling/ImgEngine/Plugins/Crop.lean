import ImgEngine.Core.Buffer

namespace ImgEngine.Plugins

structure CropParams where
  x : UInt32
  y : UInt32
  w : UInt32
  h : UInt32

-- A null pointer is none. A view shares its bytes with the image, of which it starts
-- at an offset of 32 bits.
def pluginCropSingle (buf : Option ImgBuffer) (params : Option CropParams) : Option ImgBuffer :=
  match buf, params with
  | some buf, some p =>
      if p.x + p.w > buf.width ∨ p.y + p.h > buf.height then some buf
      else
        let offset := p.y * buf.stride + p.x * buf.channels
        some { buf with
          data := buf.data + offset.toUInt64
          bytes := fun i => buf.bytes (offset.toNat + i)
          width := p.w
          height := p.h }
  | _, _ => buf

-- Rectangles of natural numbers.

def Contained (width height : UInt32) (p : CropParams) : Prop :=
  p.x.toNat + p.w.toNat ≤ width.toNat ∧ p.y.toNat + p.h.toNat ≤ height.toNat

instance (width height : UInt32) (p : CropParams) : Decidable (Contained width height p) :=
  inferInstanceAs (Decidable (_ ∧ _))

-- A rectangle of a rectangle.
def CropParams.inside (p q : CropParams) : CropParams where
  x := p.x + q.x
  y := p.y + q.y
  w := q.w
  h := q.h

def pixelOffset (buf : ImgBuffer) (x y : Nat) : Nat :=
  y * buf.stride.toNat + x * buf.channels.toNat

def pixelAddress (buf : ImgBuffer) (x y : Nat) : Ptr := buf.data + .ofNat (pixelOffset buf x y)

end ImgEngine.Plugins
