import ImgEngine.Pipeline.Layout

namespace ImgEngine.Pipeline

open ImgEngine.Library.Loop

def fillRect (canvas : ImgBuffer) (x y w h : Int) (color : Rgb) : ImgBuffer :=
  let cw := int32 canvas.width
  let cht := int32 canvas.height
  forUp y (y + h) (fun py canvas =>
    if py < 0 ∨ py ≥ cht then canvas
    else forUp x (x + w) (fun px canvas =>
      if px < 0 ∨ px ≥ cw then canvas
      else canvas.setPixel px py color) canvas) canvas

-- The four edges of one cell.
def drawBorder (canvas : ImgBuffer) (c : ImgCell) (bp : Int) : ImgBuffer :=
  let x := int32 c.x
  let y := int32 c.y
  let w := int32 c.w
  let h := int32 c.h
  let canvas := fillRect canvas x y w bp .black
  let canvas := fillRect canvas x (y + h - bp) w bp .black
  let canvas := fillRect canvas x y bp h .black
  fillRect canvas (x + w - bp) y bp h .black

def imgDrawBorders (canvas : ImgBuffer) (layout : ImgLayout) (borderPx : UInt32) :
    Except ImgError ImgBuffer :=
  if borderPx = 0 then .ok canvas
  else .ok (forRange layout.count.toNat (fun i canvas =>
    drawBorder canvas (layout.cells.get (.ofNat i)) (int32 borderPx)) canvas)

end ImgEngine.Pipeline
