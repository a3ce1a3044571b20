import ImgEngine.Memory.Arena
import ImgEngine.Pipeline.Canvas

namespace ImgEngine.Pipeline

open ImgEngine.Library.Loop ImgEngine.Memory

variable {F : Type} [FloatType F]

structure ImgCell where
  x : UInt32
  y : UInt32
  w : UInt32
  h : UInt32
deriving DecidableEq, Repr

-- An array of cells in arena memory. The entries not written yet hold what the
-- memory held before.
structure CellArray where
  stale : UInt32 → ImgCell
  written : UInt32 → Option ImgCell

namespace CellArray

def get (cells : CellArray) (i : UInt32) : ImgCell := (cells.written i).getD (cells.stale i)

def set (cells : CellArray) (i : UInt32) (cell : ImgCell) : CellArray :=
  { cells with written := Function.update cells.written i (some cell) }

-- the array at an offset of the arena, four words a cell
def inArena (arena : ImgArena) (offset : UInt64) : CellArray where
  stale i :=
    let word k := arena.word (offset.toNat / 4 + 4 * i.toNat + k)
    ⟨word 0, word 1, word 2, word 3⟩
  written _ := none

end CellArray

-- One call of img_blit_avx2, with the offsets and bytes that it stored.
structure Blit where
  x : UInt32
  y : UInt32
  stores : List (Nat × UInt8)

-- The blits are a record of this model.
structure ImgLayout where
  cells : CellArray
  count : UInt32
  blits : List Blit

-- The offset in the source image of the pixel for column dx and row dy.
def nearestOffset (src : ImgBuffer) (newW newH dx dy : UInt32) : Nat :=
  let sx := (dx * src.width) / newW
  let sy := (dy * src.height) / newH
  let sx := if sx ≥ src.width then src.width - 1 else sx
  let sy := if sy ≥ src.height then src.height - 1 else sy
  (sy * src.stride).toNat + (sx * 3).toNat

def resizeNearest (src : ImgBuffer) (newW newH : UInt32) (heap : Heap) :
    Except ImgError ImgBuffer × Heap :=
  if newW = 0 ∨ newH = 0 then (.error .format, heap)
  else if rgbSize newW newH > heap.pool.blockSize then (.error .nomem, heap)
  else match heap.alloc with
    | none => (.error .nomem, heap)
    | some (mem, heap) =>
        let bytes := forRange newH.toNat (fun dy => forRange newW.toNat (fun dx bytes =>
          bytes.setRgb ((UInt32.ofNat dy * (newW * 3)).toNat + (UInt32.ofNat dx * 3).toNat)
            (src.bytes.getRgb (nearestOffset src newW newH (.ofNat dx) (.ofNat dy))))) (heap.stale mem)
        (.ok (rgbBuffer mem newW newH bytes), heap)

-- Rows of one buffer copied into another, at 32-bit offsets.
def copyRows (dst src : Bytes) (rows size : UInt32) (dstOffset srcOffset : UInt32 → Nat) : Bytes :=
  forRange rows.toNat (fun dy dst =>
    dst.memcpy (dstOffset (.ofNat dy)) src (srcOffset (.ofNat dy)) size.toNat) dst

-- The size that covers the cell.
def coverSize (F : Type) [FloatType F] (src : ImgBuffer) (cellW cellH : UInt32) : UInt32 × UInt32 :=
  let sx : F := ofUInt32 cellW / ofUInt32 src.width
  let sy : F := ofUInt32 cellH / ofUInt32 src.height
  let s := if FloatType.lt sy sx then sx else sy
  let scaledW := toUInt32 (ofUInt32 src.width * s)
  let scaledH := toUInt32 (ofUInt32 src.height * s)
  (if scaledW < cellW then cellW else scaledW, if scaledH < cellH then cellH else scaledH)

def prepareFill (F : Type) [FloatType F] (src : ImgBuffer) (cellW cellH : UInt32) (heap : Heap) :
    Except ImgError ImgBuffer × Heap :=
  let (scaledW, scaledH) := coverSize F src cellW cellH
  match resizeNearest src scaledW scaledH heap with
  | (.error e, heap) => (.error e, heap)
  | (.ok tmp, heap) =>
      let cx := (scaledW - cellW) / 2
      let cy := (scaledH - cellH) / 2
      if rgbSize cellW cellH > heap.pool.blockSize then (.error .nomem, heap.release tmp.data)
      else match heap.alloc with
        | none => (.error .nomem, heap.release tmp.data)
        | some (mem, heap) =>
            let bytes := copyRows (heap.stale mem) tmp.bytes cellH (cellW * 3)
              (fun dy => (dy * (cellW * 3)).toNat)
              (fun dy => ((cy + dy) * tmp.stride).toNat + (cx * 3).toNat)
            (.ok (rgbBuffer mem cellW cellH bytes), heap.release tmp.data)

-- The size that fits within the cell.
def fitSize (F : Type) [FloatType F] (src : ImgBuffer) (cellW cellH : UInt32) : UInt32 × UInt32 :=
  let sx : F := ofUInt32 cellW / ofUInt32 src.width
  let sy : F := ofUInt32 cellH / ofUInt32 src.height
  let s := if FloatType.lt sx sy then sx else sy
  let fitW := toUInt32 (ofUInt32 src.width * s)
  let fitH := toUInt32 (ofUInt32 src.height * s)
  let fitW := if fitW = 0 then 1 else fitW
  let fitH := if fitH = 0 then 1 else fitH
  (if fitW > cellW then cellW else fitW, if fitH > cellH then cellH else fitH)

def prepareFit (F : Type) [FloatType F] (src : ImgBuffer) (cellW cellH : UInt32) (heap : Heap)
    (bg : Rgb) : Except ImgError ImgBuffer × Heap :=
  let (fitW, fitH) := fitSize F src cellW cellH
  if rgbSize cellW cellH > heap.pool.blockSize then (.error .nomem, heap)
  else match heap.alloc with
    | none => (.error .nomem, heap)
    | some (mem, heap) =>
        let filled := fillBackground (heap.stale mem) (rgbSize cellW cellH) bg
        match resizeNearest src fitW fitH heap with
        | (.error e, heap) => (.error e, heap.release mem)
        | (.ok tmp, heap) =>
            let offX := (cellW - fitW) / 2
            let offY := (cellH - fitH) / 2
            let bytes := copyRows filled tmp.bytes fitH (fitW * 3)
              (fun dy => ((offY + dy) * (cellW * 3)).toNat + (offX * 3).toNat)
              (fun dy => (dy * tmp.stride).toNat)
            (.ok (rgbBuffer mem cellW cellH bytes), heap.release tmp.data)

-- The offsets within a row that img_blit_avx2 copies: first 32 bytes at a time, then
-- byte by byte. From 2^32 - 32 bytes on x + 32 wraps and the first loop does not end,
-- and the rounds after the 2^27 ones here would repeat the same stores.

def vectorOffsets (rowBytes : UInt32) : Nat → UInt32 → List Nat × UInt32
  | 0, x => ([], x)
  | fuel + 1, x =>
      if x + 32 ≤ rowBytes then
        let rest := vectorOffsets rowBytes fuel (x + 32)
        ((List.range 32).map (x.toNat + ·) ++ rest.1, rest.2)
      else ([], x)

def rowOffsets (rowBytes : UInt32) : List Nat :=
  let vector := vectorOffsets rowBytes (2 ^ 27) 0
  vector.1 ++ (List.range (rowBytes.toNat - vector.2.toNat)).map (vector.2.toNat + ·)

def blitStores (dst src : ImgBuffer) (dstX dstY : UInt32) : List (Nat × UInt8) :=
  if dst.data = 0 ∨ src.data = 0 then []
  else
    let rows := if dstY + src.height > dst.height then dst.height - dstY else src.height
    let cols := if dstX + src.width > dst.width then dst.width - dstX else src.width
    (List.range rows.toNat).flatMap fun y =>
      let srcRow := y * src.stride.toNat
      let dstRow := (dstY + .ofNat y).toNat * dst.stride.toNat + dstX.toNat * 3
      (rowOffsets (cols * 3)).map fun x => (dstRow + x, src.bytes (srcRow + x))

def imgBlitAvx2 (dst src : ImgBuffer) (dstX dstY : UInt32) : ImgBuffer :=
  let bytes := (blitStores dst src dstX dstY).foldl
    (fun bytes store => Function.update bytes store.1 store.2) dst.bytes
  { dst with bytes }

-- The loop over the grid.

structure GridState where
  buf : ImgBuffer
  cells : CellArray
  blits : List Blit

def gridX (canvas : ImgCanvas) (job : ImgJob F) (col : Nat) : UInt32 :=
  canvas.startX + .ofNat col * (canvas.photoWPx + job.gap)

def gridY (canvas : ImgCanvas) (job : ImgJob F) (row : Nat) : UInt32 :=
  canvas.startY + .ofNat row * (canvas.photoHPx + job.gap)

def placeCell (canvas : ImgCanvas) (scaled : ImgBuffer) (job : ImgJob F) (row col : Nat)
    (s : GridState) : GridState :=
  let x := gridX canvas job col
  let y := gridY canvas job row
  if x + canvas.photoWPx > s.buf.width then s
  else if y + canvas.photoHPx > s.buf.height then s
  else
    let idx := .ofNat row * job.cols + .ofNat col
    { buf := imgBlitAvx2 s.buf scaled x y
      cells := s.cells.set idx ⟨x, y, canvas.photoWPx, canvas.photoHPx⟩
      blits := s.blits ++ [⟨x, y, blitStores s.buf scaled x y⟩] }

def placeCells (canvas : ImgCanvas) (scaled : ImgBuffer) (job : ImgJob F) (cells : CellArray) :
    GridState :=
  forRange job.rows.toNat
    (fun row => forRange job.cols.toNat (fun col => placeCell canvas scaled job row col))
    { buf := canvas.buf, cells, blits := [] }

def prepareCell (canvas : ImgCanvas) (photo : ImgBuffer) (job : ImgJob F) (heap : Heap) :
    Except ImgError ImgBuffer × Heap :=
  match job.mode with
  | .fit => prepareFit F photo canvas.photoWPx canvas.photoHPx heap job.bg
  | .fill => prepareFill F photo canvas.photoWPx canvas.photoHPx heap

-- The result is the canvas with the photos on it and the layout.
def imgLayoutGrid (canvas : ImgCanvas) (photo : ImgBuffer) (job : ImgJob F) (arena : ImgArena)
    (heap : Heap) : Except ImgError (ImgCanvas × ImgLayout) × Heap :=
  match prepareCell canvas photo job heap with
  | (.error e, heap) => (.error e, heap)
  | (.ok scaled, heap) =>
      let total := job.cols * job.rows
      -- sizeof(img_cell_t) * total
      match imgArenaAlloc arena (16 * total.toUInt64) with
      | none => (.error .nomem, heap.release scaled.data)
      | some (offset, arena) =>
          let s := placeCells canvas scaled job (CellArray.inArena arena offset)
          (.ok ({ canvas with buf := s.buf }, { cells := s.cells, count := total, blits := s.blits }),
            heap.release scaled.data)

-- The canvas before and after a layout, where both calls succeed.
def initAndLayout (heap : Heap) (job : ImgJob F) (photo : ImgBuffer) (arena : ImgArena) :
    Option (ImgCanvas × ImgCanvas × ImgLayout) :=
  match imgCanvasInit heap job with
  | some (.ok canvas, heap) =>
      match imgLayoutGrid canvas photo job arena heap with
      | (.ok (canvas', layout), _) => some (canvas, canvas', layout)
      | (.error _, _) => none
  | _ => none

end ImgEngine.Pipeline
