import ImgEngine.Library.Loop
import ImgEngine.Memory.Heap
import ImgEngine.Pipeline.Job

namespace ImgEngine.Pipeline

open ImgEngine.Library.Loop ImgEngine.Memory

variable {F : Type} [FloatType F]

structure ImgCanvas where
  buf : ImgBuffer
  pageWPx : UInt32
  pageHPx : UInt32
  photoWPx : UInt32
  photoHPx : UInt32
  startX : UInt32
  startY : UInt32

def imgCmToPx (cm : F) (dpi : UInt32) : UInt32 := toUInt32 (cm * ofUInt32 dpi / 2.54 + 0.5)

-- The quantities that img_canvas_init computes from a job, one by one.

namespace ImgJob

variable (job : ImgJob F)

def pageW : UInt32 := imgCmToPx (21.0 : F) job.dpi

def pageH : UInt32 := imgCmToPx (29.7 : F) job.dpi

def pad2 : UInt32 := job.padding * 2

def hGaps : UInt32 := if job.cols > 1 then (job.cols - 1) * job.gap else 0

def vGaps : UInt32 := if job.rows > 1 then (job.rows - 1) * job.gap else 0

def availW : UInt32 :=
  if job.pageW > job.pad2 + job.hGaps then job.pageW - job.pad2 - job.hGaps else 1

def availH : UInt32 :=
  if job.pageH > job.pad2 + job.vGaps then job.pageH - job.pad2 - job.vGaps else 1

def maxPw : UInt32 := job.availW / job.cols

def maxPh : UInt32 := job.availH / job.rows

def scaleDown (photoW photoH : UInt32) : UInt32 × UInt32 :=
  if photoW > job.maxPw ∨ photoH > job.maxPh then
    let sx : F := if job.maxPw > 0 then ofUInt32 job.maxPw / ofUInt32 photoW else 1.0
    let sy : F := if job.maxPh > 0 then ofUInt32 job.maxPh / ofUInt32 photoH else 1.0
    let s := if FloatType.lt sx sy then sx else sy
    (toUInt32 (ofUInt32 photoW * s), toUInt32 (ofUInt32 photoH * s))
  else (photoW, photoH)

def photoSize : UInt32 × UInt32 :=
  let (photoW, photoH) :=
    job.scaleDown (imgCmToPx job.photoWCm job.dpi) (imgCmToPx job.photoHCm job.dpi)
  (if photoW = 0 then 1 else photoW, if photoH = 0 then 1 else photoH)

def gridW : UInt32 := job.cols * job.photoSize.1 + job.hGaps

def startX : UInt32 := if job.pageW > job.gridW then (job.pageW - job.gridW) / 2 else job.padding

end ImgJob

-- The loop that sets the background, in img_canvas_init and in prepare_fit.
def fillBackground (bytes : Bytes) (required : UInt64) (bg : Rgb) : Bytes :=
  forRange ((required.toNat + 2) / 3) (fun i bytes => bytes.setRgb (3 * i) bg) bytes

-- width * height * 3 in size_t
def rgbSize (width height : UInt32) : UInt64 := width.toUInt64 * height.toUInt64 * 3

-- An RGB buffer in a block of its own.
def rgbBuffer (data : Ptr) (width height : UInt32) (bytes : Bytes) : ImgBuffer where
  data := data
  bytes := bytes
  width := width
  height := height
  channels := 3
  stride := width * 3

def newCanvas (job : ImgJob F) (mem : Ptr) (stale : Bytes) : ImgCanvas where
  buf := rgbBuffer mem job.pageW job.pageH
    (fillBackground stale (rgbSize job.pageW job.pageH) job.bg)
  pageWPx := job.pageW
  pageHPx := job.pageH
  photoWPx := job.photoSize.1
  photoHPx := job.photoSize.2
  startX := job.startX
  startY := job.padding

-- A division by zero has no result.
def imgCanvasInit (heap : Heap) (job : ImgJob F) : Option (Except ImgError ImgCanvas × Heap) :=
  if job.cols = 0 ∨ job.rows = 0 then none
  else if rgbSize job.pageW job.pageH > heap.pool.blockSize then some (.error .nomem, heap)
  else match heap.alloc with
    | none => some (.error .nomem, heap)
    | some (mem, heap') => some (.ok (newCanvas job mem (heap.stale mem)), heap')

def imgCanvasFree (canvas : ImgCanvas) (heap : Heap) : ImgCanvas × Heap :=
  if canvas.buf.data ≠ 0 then
    ({ canvas with buf := { canvas.buf with data := 0 } }, heap.release canvas.buf.data)
  else (canvas, heap)

end ImgEngine.Pipeline
