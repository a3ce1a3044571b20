import ImgEngine.Pipeline.Layout

namespace ImgEngine.Pipeline

open ImgEngine.Library.Loop

variable {F : Type}

def setPx (c : ImgBuffer) (x y : Int) (color : Rgb) : ImgBuffer :=
  if x < 0 ∨ y < 0 ∨ x ≥ c.width.toNat ∨ y ≥ c.height.toNat then c
  else c.setPixel x y color

def drawH (c : ImgBuffer) (x y len : Int) (th : UInt32) (color : Rgb) : ImgBuffer :=
  forRange th.toNat (fun t c =>
    forUp 0 len (fun i c => setPx c (x + i) (y + int32 (.ofNat t)) color) c) c

def drawV (c : ImgBuffer) (x y len : Int) (th : UInt32) (color : Rgb) : ImgBuffer :=
  forRange th.toNat (fun t c =>
    forUp 0 len (fun i c => setPx c (x + int32 (.ofNat t)) (y + i) color) c) c

-- The eight bars of one cell.
def drawCropMarks (canvas : ImgBuffer) (c : ImgCell) (off len : Int) (th : UInt32) : ImgBuffer :=
  let x := int32 c.x
  let y := int32 c.y
  let x2 := x + int32 c.w
  let y2 := y + int32 c.h
  -- top left
  let canvas := drawH canvas (x - off - len) (y - off - int32 th) len th .black
  let canvas := drawV canvas (x - off - int32 th) (y - off - len) len th .black
  -- top right
  let canvas := drawH canvas (x2 + off) (y - off - int32 th) len th .black
  let canvas := drawV canvas (x2 + off) (y - off - len) len th .black
  -- bottom left
  let canvas := drawH canvas (x - off - len) (y2 + off) len th .black
  let canvas := drawV canvas (x - off - int32 th) (y2 + off) len th .black
  -- bottom right
  let canvas := drawH canvas (x2 + off) (y2 + off) len th .black
  drawV canvas (x2 + off) (y2 + off) len th .black

def imgDrawCropMarks (canvas : ImgBuffer) (layout : ImgLayout) (job : ImgJob F) :
    Except ImgError ImgBuffer :=
  if job.cropMarkPx = 0 then .ok canvas
  else
    let off := int32 job.cropOffsetPx
    let len := int32 job.cropMarkPx
    let th := if job.cropThickness ≠ 0 then job.cropThickness else 1
    .ok (forRange layout.count.toNat (fun i canvas =>
      drawCropMarks canvas (layout.cells.get (.ofNat i)) off len th) canvas)

end ImgEngine.Pipeline
