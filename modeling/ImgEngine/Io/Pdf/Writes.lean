import ImgEngine.Io.Pdf
import ImgEngine.Library.PartialWrites

namespace ImgEngine.Io

open ImgEngine.Library.Decimal ImgEngine.Library.Loop ImgEngine.Library.PartialWrites

variable {F : Type} [FloatType F]

-- img_encode_pdf on a file layer whose calls may fall short. No result of a write or
-- of fclose is looked at, and ftell gives the bytes that are there.
structure PdfOut where
  out : Output UInt8
  obj : Nat
  offsets : Nat → Nat

namespace PdfOut

variable (layer : Layer UInt8)

def ftell (f : PdfOut) : Nat := f.out.data.length

def fprintf (f : PdfOut) (text : List UInt8) : PdfOut := { f with out := f.out.write layer text }

def printObject (f : PdfOut) (text : List UInt8) : PdfOut :=
  { out := f.out.write layer (decimal f.obj ++ ascii " 0 obj\n" ++ text)
    obj := f.obj + 1
    offsets := Function.update f.offsets f.obj f.ftell }

end PdfOut

def writeObjectsTo (layer : Layer UInt8) (buf : ImgBuffer) (jpeg ptW ptH : List UInt8) : PdfOut :=
  let f : PdfOut := { out := .empty, obj := 1, offsets := fun _ => 0 }
  let f := f.fprintf layer (ascii "%PDF-1.4\n%" ++ [0xe2, 0xe3, 0xcf, 0xd3] ++ ascii "\n")
  let f := f.printObject layer (ascii "<< /Type /Catalog /Pages 2 0 R >>\nendobj\n")
  let f := f.printObject layer (ascii "<< /Type /Pages /Kids [3 0 R] /Count 1 >>\nendobj\n")
  let f := f.printObject layer (pageText ptW ptH)
  let (contentLen, content) := snprintf 256 (contentText ptW ptH)
  let f := f.printObject layer (streamText contentLen (printString content))
  let f := f.printObject layer (imageText buf.width buf.height jpeg.length)
  let f := f.fprintf layer jpeg
  f.fprintf layer (ascii "\nendstream\nendobj\n")

def xrefHead (obj : Nat) : List UInt8 :=
  ascii "xref\n0 " ++ decimal obj ++ ascii "\n" ++ ascii "0000000000 65535 f \n"

def trailerText (obj xrefOffset : Nat) : List UInt8 :=
  ascii "trailer\n<< /Size " ++ decimal obj ++ ascii " /Root 1 0 R >>\n" ++
    ascii "startxref\n" ++ decimal xrefOffset ++ ascii "\n%%EOF\n"

def writeTableTo (layer : Layer UInt8) (n : Nat) (f : PdfOut) : PdfOut :=
  forRange n (fun i f => f.fprintf layer (padded 10 (f.offsets (i + 1)) ++ ascii " 00000 n \n")) f

def writeXrefTo (layer : Layer UInt8) (f : PdfOut) : PdfOut :=
  let head := f.fprintf layer (xrefHead f.obj)
  let table := writeTableTo layer (f.obj - 1) head
  table.fprintf layer (trailerText f.obj f.ftell)

-- The file, if it gets as far as fopen and this succeeds.
def pdfOut (layer : Layer UInt8) (outside : PdfOutside F) (buf : ImgBuffer) (jpeg : List UInt8)
    (dpi : UInt32) : PdfOut :=
  let ptW := outside.printFixed (ofUInt32 buf.width * 72.0 / ofUInt32 dpi)
  let ptH := outside.printFixed (ofUInt32 buf.height * 72.0 / ofUInt32 dpi)
  writeXrefTo layer (writeObjectsTo layer buf jpeg ptW.bytes ptH.bytes)

-- The result holds the bytes of the output file after fclose.
def imgEncodePdfTo (layer : Layer UInt8) (outside : PdfOutside F) (buf : Option ImgBuffer)
    (outputPath : Option (List Char)) (dpi : UInt32) : Except ImgError (List UInt8) :=
  match buf, outputPath with
  | some buf, some _ =>
      if buf.data = 0 then .error .security
      else if ¬outside.initCompress then .error .nomem
      else match outside.compress buf with
        | none => .error .io
        | some jpeg =>
            if ¬outside.opened then .error .io
            else .ok ((pdfOut layer outside buf jpeg dpi).out.close layer)
  | _, _ => .error .security

-- The texts that img_encode_pdf writes when every write takes its text.
def pdfTexts (outside : PdfOutside F) (buf : ImgBuffer) (dpi : UInt32) : List (List UInt8) :=
  match outside.compress buf with
  | none => []
  | some jpeg => (pdfOut .perfect outside buf jpeg dpi).out.texts

end ImgEngine.Io
