import ImgEngine.Pipeline.Sheet
import ImgEngine.Security

namespace ImgEngine.Api

open ImgEngine.Memory ImgEngine.Pipeline ImgEngine.Security

variable {F : Type} [FloatType F]

-- A string of C, without its end. The result of strrchr starts at the last c.
def strrchr (c : Char) : List Char → Option (List Char)
  | [] => none
  | first :: rest =>
      match strrchr c rest with
      | some found => some found
      | none => if first = c then some (first :: rest) else none

def isPdfOutput (path : List Char) : Bool :=
  match strrchr '.' path with
  | none => false
  | some dot =>
      (dot[1]? = some 'p' ∨ dot[1]? = some 'P') ∧ (dot[2]? = some 'd' ∨ dot[2]? = some 'D') ∧
        (dot[3]? = some 'f' ∨ dot[3]? = some 'F') ∧ dot[4]? = none

-- What the calls outside of the engine answer in one run.
structure Outside where
  -- open, lseek and mmap of the input
  opened : Bool
  endOffset : Int64
  mapped : Bool
  -- the memory of the arena
  arenaMemory : Option (Nat → UInt32)
  -- g_io_vtable.decode on the mapped file and a pool
  decode : Heap → Except ImgError ImgBuffer × Heap
  -- g_io_vtable.encode_pdf and g_io_vtable.encode, which says whether out is set
  encodePdf : ImgBuffer → UInt32 → Except ImgError Unit
  encode : ImgBuffer → Except ImgError Bool
  -- fopen of the output
  outputOpened : Bool

def loadFileMmap (outside : Outside) : Except ImgError UInt64 :=
  if ¬outside.opened then .error .io
  else if outside.endOffset ≤ 0 then .error .io
  else if ¬outside.mapped then .error .io
  else .ok outside.endOffset.toUInt64

def encodeOutput (outside : Outside) (outputPath : List Char) (canvas : ImgCanvas) (dpi : UInt32) :
    Except ImgError Unit :=
  if isPdfOutput outputPath then outside.encodePdf canvas.buf dpi
  else
    match outside.encode canvas.buf with
    | .ok true => if outside.outputOpened then .ok () else .error .io
    | .ok false => .ok ()
    | .error e => .error e

-- From the layout on. The canvas is freed on every way out.
def layoutAndEncode (outside : Outside) (arena : ImgArena) (outputPath : List Char)
    (job : ImgJob F) (photo : ImgBuffer) (canvas : ImgCanvas) (heap : Heap) :
    Except ImgError Unit × Heap :=
  let (laid, heap) := imgLayoutGrid canvas photo job arena heap
  let heap := heap.release photo.data
  match laid with
  | .error e => (.error e, (imgCanvasFree canvas heap).2)
  | .ok (canvas, layout) =>
      match finishSheet canvas.buf layout job with
      | .error e => (.error e, (imgCanvasFree canvas heap).2)
      | .ok buf =>
          let canvas := { canvas with buf }
          (encodeOutput outside outputPath canvas job.dpi, (imgCanvasFree canvas heap).2)

-- The null pointers are 0 and none. engine->global_pool is the heap. A division
-- by zero has no result.
def imgApiRunJob (outside : Outside) (engine : Ptr) (inputPath outputPath : Option (List Char))
    (job : Option (ImgJob F)) (heap : Heap) : Option (Except ImgError Unit × Heap) :=
  match inputPath, outputPath, job with
  | some _, some outputPath, some job =>
      if engine = 0 then some (.error .security, heap)
      else if job.abiVersion ≠ IMG_JOB_ABI_VERSION then some (.error .internal, heap)
      else match loadFileMmap outside with
        | .error e => some (.error e, heap)
        | .ok fileSize =>
            match imgSecurityValidateRequest 16384 16384 fileSize with
            | .error e => some (.error e, heap)
            | .ok () =>
                match imgArenaCreate outside.arenaMemory (1 * 1024 * 1024) with
                | none => some (.error .nomem, heap)
                | some arena =>
                    match outside.decode heap with
                    | (.error e, heap) => some (.error e, heap)
                    | (.ok photo, heap) =>
                        match imgCanvasInit heap job with
                        | none => none
                        | some (.error e, heap) => some (.error e, heap.release photo.data)
                        | some (.ok canvas, heap) =>
                            some (layoutAndEncode outside arena outputPath job photo canvas heap)
  | _, _, _ => some (.error .security, heap)

end ImgEngine.Api
