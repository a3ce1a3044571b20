import ImgEngine.Core.Buffer
import ImgEngine.Core.Float
import ImgEngine.Library.Decimal
import ImgEngine.Library.Loop

namespace ImgEngine.Io

open ImgEngine.Library.Decimal ImgEngine.Library.Loop

variable {F : Type} [FloatType F]

-- The bytes of a text in ASCII.
def ascii (text : String) : List UInt8 := text.toList.map fun c => c.toNat.toUInt8

-- A string of C up to its end.
structure CString where
  bytes : List UInt8
  noNul : 0 ∉ bytes

-- What the calls of img_encode_pdf outside of the engine answer.
structure PdfOutside (F : Type) where
  initCompress : Bool
  -- the JPEG bytes of tjCompress2, with none for a failure or no bytes
  compress : ImgBuffer → Option (List UInt8)
  opened : Bool
  -- what %.2f prints
  printFixed : F → CString

-- The file as it is written, with the object counter and long offsets[8].
structure PdfFile where
  bytes : List UInt8
  obj : Nat
  offsets : Nat → Nat

namespace PdfFile

def ftell (f : PdfFile) : Nat := f.bytes.length

def fprintf (f : PdfFile) (text : List UInt8) : PdfFile := { f with bytes := f.bytes ++ text }

-- offsets[obj] = ftell(f), and a print that starts with "%d 0 obj\n" for obj++
def printObject (f : PdfFile) (text : List UInt8) : PdfFile :=
  { bytes := f.bytes ++ (decimal f.obj ++ ascii " 0 obj\n" ++ text)
    obj := f.obj + 1
    offsets := Function.update f.offsets f.obj f.ftell }

end PdfFile

-- The length of the text and what the buffer holds of it.
def snprintf (size : Nat) (text : List UInt8) : Nat × List UInt8 := (text.length, text.take (size - 1))

-- What %s prints of a buffer.
def printString (buffer : List UInt8) : List UInt8 := buffer.takeWhile (· ≠ 0)

def pageText (ptW ptH : List UInt8) : List UInt8 :=
  ascii "<< /Type /Page /Parent 2 0 R\n   /MediaBox [0 0 " ++ ptW ++ ascii " " ++ ptH ++
    ascii "]\n   /Contents 4 0 R\n   /Resources << /XObject << /Im0 5 0 R >> >> >>\nendobj\n"

def contentText (ptW ptH : List UInt8) : List UInt8 :=
  ascii "q\n" ++ ptW ++ ascii " 0 0 " ++ ptH ++ ascii " 0 0 cm\n/Im0 Do\nQ\n"

def streamText (contentLen : Nat) (content : List UInt8) : List UInt8 :=
  ascii "<< /Length " ++ decimal contentLen ++ ascii " >>\nstream\n" ++ content ++
    ascii "endstream\nendobj\n"

def imageText (width height : UInt32) (jpegSize : Nat) : List UInt8 :=
  ascii "<< /Type /XObject /Subtype /Image\n   /Width " ++ decimal width.toNat ++
    ascii " /Height " ++ decimal height.toNat ++
    ascii "\n   /ColorSpace /DeviceRGB\n   /BitsPerComponent 8\n   /Filter /DCTDecode\n" ++
    ascii "   /Length " ++ decimal jpegSize ++ ascii " >>\nstream\n"

-- The header and the five objects.
def writeObjects (buf : ImgBuffer) (jpeg ptW ptH : List UInt8) : PdfFile :=
  let f : PdfFile := { bytes := [], obj := 1, offsets := fun _ => 0 }
  let f := f.fprintf (ascii "%PDF-1.4\n%" ++ [0xe2, 0xe3, 0xcf, 0xd3] ++ ascii "\n")
  let f := f.printObject (ascii "<< /Type /Catalog /Pages 2 0 R >>\nendobj\n")
  let f := f.printObject (ascii "<< /Type /Pages /Kids [3 0 R] /Count 1 >>\nendobj\n")
  let f := f.printObject (pageText ptW ptH)
  let (contentLen, content) := snprintf 256 (contentText ptW ptH)
  let f := f.printObject (streamText contentLen (printString content))
  let f := f.printObject (imageText buf.width buf.height jpeg.length)
  let f := f.fprintf jpeg
  f.fprintf (ascii "\nendstream\nendobj\n")

-- The table of offsets and the trailer.
def writeXref (f : PdfFile) : PdfFile :=
  let xrefOffset := f.ftell
  let f := f.fprintf (ascii "xref\n0 " ++ decimal f.obj ++ ascii "\n" ++ ascii "0000000000 65535 f \n")
  let f := forRange (f.obj - 1) (fun i f =>
    f.fprintf (padded 10 (f.offsets (i + 1)) ++ ascii " 00000 n \n")) f
  f.fprintf (ascii "trailer\n<< /Size " ++ decimal f.obj ++ ascii " /Root 1 0 R >>\n" ++
    ascii "startxref\n" ++ decimal xrefOffset ++ ascii "\n%%EOF\n")

-- The result holds the bytes of the output file.
def imgEncodePdf (outside : PdfOutside F) (buf : Option ImgBuffer) (outputPath : Option (List Char))
    (dpi : UInt32) : Except ImgError (List UInt8) :=
  match buf, outputPath with
  | some buf, some _ =>
      if buf.data = 0 then .error .security
      else if ¬outside.initCompress then .error .nomem
      else match outside.compress buf with
        | none => .error .io
        | some jpeg =>
            if ¬outside.opened then .error .io
            else
              let ptW := outside.printFixed (ofUInt32 buf.width * 72.0 / ofUInt32 dpi)
              let ptH := outside.printFixed (ofUInt32 buf.height * 72.0 / ofUInt32 dpi)
              .ok (writeXref (writeObjects buf jpeg ptW.bytes ptH.bytes)).bytes
  | _, _ => .error .security

end ImgEngine.Io
