import ImgEngine.Api.RunJob
import ImgEngine.Io.Pdf.Writes

namespace ImgEngine.Api

open ImgEngine.Io ImgEngine.Library.PartialWrites ImgEngine.Memory ImgEngine.Pipeline

variable {F : Type} [FloatType F]

-- The encoders with the bytes that they make, and the file layer below them. The JPEG
-- encoder may succeed without setting out.
structure Writers (F : Type) where
  encode : ImgBuffer → Except ImgError (Option (List UInt8))
  pdf : PdfOutside F
  layer : Layer UInt8

-- What a job with this output path finds outside of the engine.
def Outside.writing (outside : Outside) (writers : Writers F) (outputPath : List Char) : Outside :=
  { outside with
    encodePdf := fun buf dpi =>
      (imgEncodePdfTo writers.layer writers.pdf (some buf) (some outputPath) dpi).map fun _ => ()
    encode := fun buf => (writers.encode buf).map Option.isSome }

-- The picture that the last step of a job encodes, if the job gets there.

def laidSheet (arena : ImgArena) (job : ImgJob F) (photo : ImgBuffer) (canvas : ImgCanvas)
    (heap : Heap) : Option ImgBuffer :=
  match (imgLayoutGrid canvas photo job arena heap).1 with
  | .error _ => none
  | .ok (canvas, layout) => (finishSheet canvas.buf layout job).toOption

def decodedSheet (arena : ImgArena) (job : ImgJob F) :
    Except ImgError ImgBuffer × Heap → Option ImgBuffer
  | (.error _, _) => none
  | (.ok photo, heap) =>
      match imgCanvasInit heap job with
      | some (.ok canvas, heap) => laidSheet arena job photo canvas heap
      | _ => none

def jobSheet (outside : Outside) (job : ImgJob F) (heap : Heap) : Option ImgBuffer :=
  match imgArenaCreate outside.arenaMemory (1 * 1024 * 1024) with
  | none => none
  | some arena => decodedSheet arena job (outside.decode heap)

section Files

variable (writers : Writers F) (outputPath : List Char) (sheet : ImgBuffer) (dpi : UInt32)

-- What the last step leaves in the output file, with none if it writes no file.
def outputFile (outputOpened : Bool) : Option (List UInt8) :=
  if isPdfOutput outputPath then
    (imgEncodePdfTo writers.layer writers.pdf (some sheet) (some outputPath) dpi).toOption
  else
    match writers.encode sheet with
    | .ok (some bytes) =>
        if outputOpened then
          some ((Output.empty.write writers.layer bytes).close writers.layer)
        else none
    | _ => none

-- The PDF bytes that img_encode_pdf composes, or the JPEG bytes that the encoder made.
def completeOutput : Option (List UInt8) :=
  if isPdfOutput outputPath then
    (imgEncodePdf writers.pdf (some sheet) (some outputPath) dpi).toOption
  else
    match writers.encode sheet with
    | .ok bytes => bytes
    | .error _ => none

-- The texts of the write calls when each of them takes its text.
def outputTexts : List (List UInt8) :=
  if isPdfOutput outputPath then pdfTexts writers.pdf sheet dpi
  else
    match writers.encode sheet with
    | .ok (some bytes) => [bytes]
    | _ => []

-- The encoder sets out, every write takes its text, and fclose succeeds or has nothing
-- left to lose.
structure FullyWritten : Prop where
  encoded : (completeOutput writers outputPath sheet dpi).isSome
  takes : writers.layer.Takes (outputTexts writers outputPath sheet dpi)
  keeps : ∀ bytes, completeOutput writers outputPath sheet dpi = some bytes →
    writers.layer.Keeps bytes.length

end Files

end ImgEngine.Api
