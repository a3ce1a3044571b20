import ImgEngine.Pipeline.Layout

namespace ImgEngine.Pipeline

open ImgEngine.Library.Loop

-- The end of the buffer, up to which a pixel may be stored.
def bufEnd (canvas : ImgBuffer) : Nat := sizeT (int32 canvas.height) * canvas.stride.toNat

-- One round of the loops above and below a cell: row srcY is copied to row ty.
def bleedRow (canvas : ImgBuffer) (cx cw2 srcY ty : Int) : ImgBuffer :=
  let cw := int32 canvas.width
  forUp cx (cx + cw2) (fun x canvas =>
    if x < 0 ∨ x ≥ cw then canvas
    else
      let dst := canvas.offset x ty
      let src := canvas.offset x srcY
      if dst + 3 > bufEnd canvas then canvas
      else canvas.copyPixel dst src) canvas

def bleedTop (canvas : ImgBuffer) (cx cy cw2 bp : Int) : ImgBuffer :=
  forUpBreak 1 (bp + 1) (fun b canvas =>
    let ty := cy - b
    if ty < 0 then none
    else some (bleedRow canvas cx cw2 cy ty)) canvas

def bleedBottom (canvas : ImgBuffer) (cx cy cw2 ch2 bp : Int) : ImgBuffer :=
  let cht := int32 canvas.height
  forUpBreak 1 (bp + 1) (fun b canvas =>
    let ty := cy + ch2 - 1 + b
    if ty ≥ cht then none
    else some (bleedRow canvas cx cw2 (cy + ch2 - 1) ty)) canvas

def bleedLeft (canvas : ImgBuffer) (cx py bp : Int) : ImgBuffer :=
  if cx ≥ 0 ∧ cx < int32 canvas.width then
    let sl := canvas.offset cx py
    forUpBreak 1 (bp + 1) (fun b canvas =>
      let tx := cx - b
      if tx < 0 then none
      else
        let d := canvas.offset tx py
        if d + 3 > bufEnd canvas then none
        else some (canvas.copyPixel d sl)) canvas
  else canvas

def bleedRight (canvas : ImgBuffer) (rx py bp : Int) : ImgBuffer :=
  let cw := int32 canvas.width
  if rx ≥ 0 ∧ rx < cw then
    let sr := canvas.offset rx py
    forUpBreak 1 (bp + 1) (fun b canvas =>
      let tx := rx + b
      if tx ≥ cw then none
      else
        let d := canvas.offset tx py
        if d + 3 > bufEnd canvas then none
        else some (canvas.copyPixel d sr)) canvas
  else canvas

def bleedSides (canvas : ImgBuffer) (cx cy cw2 ch2 bp : Int) : ImgBuffer :=
  let cht := int32 canvas.height
  let ry0 := if cy - bp < 0 then 0 else cy - bp
  let ry1 := if cy + ch2 + bp > cht then cht else cy + ch2 + bp
  forUp ry0 ry1 (fun py canvas =>
    bleedRight (bleedLeft canvas cx py bp) (cx + cw2 - 1) py bp) canvas

def bleedCell (canvas : ImgBuffer) (c : ImgCell) (bp : Int) : ImgBuffer :=
  let cx := int32 c.x
  let cy := int32 c.y
  let cw2 := int32 c.w
  let ch2 := int32 c.h
  let canvas := bleedTop canvas cx cy cw2 bp
  let canvas := bleedBottom canvas cx cy cw2 ch2 bp
  bleedSides canvas cx cy cw2 ch2 bp

def imgApplyBleed (canvas : ImgBuffer) (layout : ImgLayout) (bleedPx : UInt32) :
    Except ImgError ImgBuffer :=
  if bleedPx = 0 then .ok canvas
  else .ok (forRange layout.count.toNat (fun i canvas =>
    bleedCell canvas (layout.cells.get (.ofNat i)) (int32 bleedPx)) canvas)

end ImgEngine.Pipeline
