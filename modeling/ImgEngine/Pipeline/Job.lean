import ImgEngine.Core.Buffer
import ImgEngine.Core.Float

namespace ImgEngine.Pipeline

inductive ImgScaleMode where
  | fit
  | fill
deriving DecidableEq

structure ImgJob (F : Type) where
  abiVersion : UInt32
  photoWCm : F
  photoHCm : F
  dpi : UInt32
  cols : UInt32
  rows : UInt32
  gap : UInt32
  padding : UInt32
  borderPx : UInt32
  bleedPx : UInt32
  cropMarkPx : UInt32
  cropThickness : UInt32
  cropOffsetPx : UInt32
  mode : ImgScaleMode
  bg : Rgb

def IMG_JOB_ABI_VERSION : UInt32 := 1

def imgJobDefaults {F : Type} [FloatType F] : ImgJob F where
  abiVersion := IMG_JOB_ABI_VERSION
  photoWCm := 4.5
  photoHCm := 3.5
  dpi := 300
  cols := 2
  rows := 3
  gap := 15
  padding := 20
  borderPx := 2
  bleedPx := 10
  cropMarkPx := 20
  cropThickness := 2
  cropOffsetPx := 8
  mode := .fill
  bg := ⟨255, 255, 255⟩

end ImgEngine.Pipeline
