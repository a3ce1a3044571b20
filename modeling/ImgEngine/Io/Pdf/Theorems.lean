import ImgEngine.Io.Pdf

namespace ImgEngine.Io

open ImgEngine.Library.Decimal ImgEngine.Library.Loop

-- The text is found at this position of the file.
def At (file : List UInt8) (pos : Nat) (text : List UInt8) : Prop := text <+: file.drop pos

section Positions

variable {file text : List UInt8} {pos : Nat}

theorem At.append (h : At file pos text) (more : List UInt8) : At (file ++ more) pos text := by
  rw [At, List.drop_append]
  exact h.trans (List.prefix_append _ _)

theorem at_length (file text : List UInt8) : At (file ++ text) file.length text := by
  rw [At, List.drop_left]

theorem At.start {rest : List UInt8} (h : At file pos (text ++ rest)) : At file pos text :=
  (List.prefix_append _ _).trans h

end Positions

-- The objects printed so far, by what follows their numbers.
structure Written (f : PdfFile) (objects : List (List UInt8)) : Prop where
  obj : f.obj = objects.length + 1
  found : ∀ i (h : i < objects.length), At f.bytes (f.offsets (i + 1)) (decimal (i + 1) ++ ascii " 0 obj\n" ++ objects[i])
  inside : ∀ i < objects.length, f.offsets (i + 1) ≤ f.bytes.length

section Writing

variable {f : PdfFile} {objects : List (List UInt8)}

theorem Written.fprintf (h : Written f objects) (text : List UInt8) :
    Written (f.fprintf text) objects := by
  refine ⟨h.obj, fun i hi => (h.found i hi).append text, fun i hi => ?_⟩
  change _ ≤ (f.bytes ++ text).length
  rw [List.length_append]
  exact Nat.le_add_right_of_le (h.inside i hi)

theorem Written.printObject (h : Written f objects) (text : List UInt8) :
    Written (f.printObject text) (objects ++ [text]) := by
  have hlength : (objects ++ [text]).length = objects.length + 1 := List.length_append
  have hlast : (f.printObject text).offsets (objects.length + 1) = f.bytes.length := by
    rw [← h.obj]
    exact Function.update_self _ _ _
  have hold : ∀ i < objects.length, (f.printObject text).offsets (i + 1) = f.offsets (i + 1) := by
    intro i hi
    refine Function.update_of_ne ?_ _ _
    rw [h.obj]
    omega
  refine ⟨?_, fun i hi => ?_, fun i hi => ?_⟩
  · rw [hlength, ← h.obj]
    rfl
  · rcases Nat.lt_succ_iff_lt_or_eq.mp (hlength ▸ hi) with hi | rfl
    · rw [hold i hi, List.getElem_append_left hi]
      exact (h.found i hi).append _
    · rw [hlast, List.getElem_concat_length rfl]
      rw [← h.obj]
      exact at_length f.bytes (decimal f.obj ++ ascii " 0 obj\n" ++ text)
  · change _ ≤ (f.bytes ++ (decimal f.obj ++ ascii " 0 obj\n" ++ text)).length
    rw [List.length_append]
    rcases Nat.lt_succ_iff_lt_or_eq.mp (hlength ▸ hi) with hi | rfl
    · rw [hold i hi]
      exact Nat.le_add_right_of_le (h.inside i hi)
    · rw [hlast]
      exact Nat.le_add_right _ _

-- What is printed behind an object belongs to it.
theorem fprintf_printObject (f : PdfFile) (object text : List UInt8) :
    (f.printObject object).fprintf text = f.printObject (object ++ text) := by
  simp only [PdfFile.fprintf, PdfFile.printObject, List.append_assoc]

-- The loop over the table prints one entry after the other.
theorem forRange_fprintf (entry : (Nat → Nat) → Nat → List UInt8) (n : Nat) (f : PdfFile) :
    forRange n (fun i f => f.fprintf (entry f.offsets i)) f =
      f.fprintf ((List.range n).flatMap (entry f.offsets)) := by
  induction n with
  | zero => simp [PdfFile.fprintf]
  | succ n ih =>
      rw [forRange_succ, ih, List.range_succ, List.flatMap_append, List.flatMap_singleton]
      simp only [PdfFile.fprintf, List.append_assoc]

end Writing

-- Every text follows the number of its object, and the data of the last two is
-- between `stream` and its end.
def objectTexts (buf : ImgBuffer) (jpeg ptW ptH : List UInt8) : List (List UInt8) :=
  [ascii "<< /Type /Catalog /Pages 2 0 R >>\nendobj\n",
    ascii "<< /Type /Pages /Kids [3 0 R] /Count 1 >>\nendobj\n",
    pageText ptW ptH,
    streamText (contentText ptW ptH).length (contentText ptW ptH),
    imageText buf.width buf.height jpeg.length ++ jpeg ++ ascii "\nendstream\nendobj\n"]

def tableEntry (f : PdfFile) (i : Nat) : List UInt8 :=
  if i = 0 then ascii "0000000000 65535 f \n" else padded 10 (f.offsets i) ++ ascii " 00000 n \n"

theorem writeXref_bytes {f : PdfFile} (hobj : f.obj = 6) :
    (writeXref f).bytes = f.bytes ++ (ascii "xref\n0 " ++ (decimal 6 ++ (ascii "\n" ++
      ((List.range 6).flatMap (tableEntry f) ++ (ascii "trailer\n<< /Size " ++ (decimal 6 ++
        (ascii " /Root 1 0 R >>\n" ++ (ascii "startxref\n" ++ (decimal f.bytes.length ++
          ascii "\n%%EOF\n"))))))))) := by
  have htable : (List.range 6).flatMap (tableEntry f) = ascii "0000000000 65535 f \n" ++
      (List.range 5).flatMap fun i => padded 10 (f.offsets (i + 1)) ++ ascii " 00000 n \n" := rfl
  simp only [writeXref]
  rw [forRange_fprintf (fun offsets i => padded 10 (offsets (i + 1)) ++ ascii " 00000 n \n"), htable]
  simp only [PdfFile.fprintf, PdfFile.ftell, hobj, List.append_assoc]

theorem printString_of_fits {text : List UInt8} (hfit : text.length < 256) (hnul : 0 ∉ text) :
    printString (snprintf 256 text).2 = text := by
  have htake : (snprintf 256 text).2 = text := List.take_of_length_le (by omega)
  rw [htake, printString, List.takeWhile_eq_self_iff]
  intro c hc
  rw [decide_eq_true_iff]
  rintro rfl
  exact hnul hc

theorem contentText_noNul (ptW ptH : CString) : 0 ∉ contentText ptW.bytes ptH.bytes := by
  simp only [contentText, List.mem_append, not_or]
  exact ⟨⟨⟨⟨by decide, ptW.noNul⟩, by decide⟩, ptH.noNul⟩, by decide⟩

theorem writeObjects_written (buf : ImgBuffer) (jpeg : List UInt8) (ptW ptH : CString)
    (hfit : (contentText ptW.bytes ptH.bytes).length < 256) :
    Written (writeObjects buf jpeg ptW.bytes ptH.bytes)
      (objectTexts buf jpeg ptW.bytes ptH.bytes) := by
  have hcontent := printString_of_fits hfit (contentText_noNul ptW ptH)
  have hstart : Written { bytes := [], obj := 1, offsets := fun _ => 0 } [] := ⟨rfl, nofun, nofun⟩
  simp only [writeObjects, hcontent, fprintf_printObject]
  exact (((((hstart.fprintf _).printObject _).printObject _).printObject _).printObject _).printObject _

-- /Length is the number of bytes of the data.
def StreamAt (file : List UInt8) (pos : Nat) (head data tail : List UInt8) : Prop :=
  ∃ length, At file pos (head ++ length ++ ascii " >>\nstream\n" ++ data ++ tail) ∧
    Denotes length data.length

-- A file whose offsets and lengths are those of its parts.
structure Consistent (file : List UInt8) (width height : UInt32) (content jpeg : List UInt8)
    (xref : Nat) (entry : Nat → List UInt8) (offset : Nat → Nat) : Prop where
  startxref : ∃ before digits, Denotes digits xref ∧
    file = before ++ (ascii "startxref\n" ++ (digits ++ ascii "\n%%EOF\n"))
  table : At file xref (ascii "xref\n0 " ++ (decimal 6 ++ (ascii "\n" ++
    ((List.range 6).flatMap entry ++ ascii "trailer\n<< /Size "))))
  entrySize : ∀ i < 6, (entry i).length = 20
  entryOffset : ∀ i, 1 ≤ i → i ≤ 5 → ∃ digits, Denotes digits (offset i) ∧
    entry i = digits ++ ascii " 00000 n \n"
  object : ∀ i, 1 ≤ i → i ≤ 5 → At file (offset i) (decimal i ++ ascii " 0 obj\n")
  content : StreamAt file (offset 4) (decimal 4 ++ ascii " 0 obj\n" ++ ascii "<< /Length ") content
    (ascii "endstream\nendobj\n")
  image : StreamAt file (offset 5) (decimal 5 ++ ascii " 0 obj\n" ++
    (ascii "<< /Type /XObject /Subtype /Image\n   /Width " ++ decimal width.toNat ++
      ascii " /Height " ++ decimal height.toNat ++
      ascii "\n   /ColorSpace /DeviceRGB\n   /BitsPerComponent 8\n   /Filter /DCTDecode\n" ++
      ascii "   /Length ")) jpeg (ascii "\nendstream\nendobj\n")

theorem writeXref_consistent {f : PdfFile} {buf : ImgBuffer} {jpeg ptW ptH : List UInt8}
    (h : Written f (objectTexts buf jpeg ptW ptH)) (hsize : (writeXref f).bytes.length < 10 ^ 10) :
    Consistent (writeXref f).bytes buf.width buf.height (contentText ptW ptH) jpeg f.bytes.length
      (tableEntry f) f.offsets := by
  have hfile := writeXref_bytes h.obj
  have hfound : ∀ i (hi : i < 5), At (writeXref f).bytes (f.offsets (i + 1))
      (decimal (i + 1) ++ ascii " 0 obj\n" ++ (objectTexts buf jpeg ptW ptH)[i]) := by
    intro i hi
    rw [hfile]
    exact (h.found i hi).append _
  have hsmall : ∀ i, 1 ≤ i → i ≤ 5 → f.offsets i < 10 ^ 10 := by
    intro i hi hi'
    have hinside := h.inside (i - 1) (by change i - 1 < 5; omega)
    rw [Nat.sub_add_cancel hi] at hinside
    rw [hfile, List.length_append] at hsize
    omega
  have hentry : ∀ i, 1 ≤ i → tableEntry f i = padded 10 (f.offsets i) ++ ascii " 00000 n \n" :=
    fun i hi => if_neg (by omega)
  refine ⟨?_, ?_, ?_, ?_, ?_, ?_, ?_⟩
  · refine ⟨f.bytes ++ (ascii "xref\n0 " ++ (decimal 6 ++ (ascii "\n" ++
      ((List.range 6).flatMap (tableEntry f) ++ (ascii "trailer\n<< /Size " ++ (decimal 6 ++
        ascii " /Root 1 0 R >>\n")))))), decimal f.bytes.length, denotes_decimal _, ?_⟩
    rw [hfile]
    simp only [List.append_assoc]
  · rw [hfile]
    have hat := at_length f.bytes (ascii "xref\n0 " ++ (decimal 6 ++ (ascii "\n" ++
      ((List.range 6).flatMap (tableEntry f) ++ ascii "trailer\n<< /Size "))))
    have hmore := hat.append (decimal 6 ++ (ascii " /Root 1 0 R >>\n" ++ (ascii "startxref\n" ++
      (decimal f.bytes.length ++ ascii "\n%%EOF\n"))))
    simpa only [List.append_assoc] using hmore
  · intro i hi
    rcases Nat.eq_zero_or_pos i with rfl | hpos
    · rfl
    · rw [hentry i hpos, List.length_append, length_padded (by decide) (hsmall i hpos (by omega))]
      rfl
  · exact fun i hi _ => ⟨_, denotes_padded _ _, hentry i hi⟩
  · intro i hi hi'
    have hfound := (hfound (i - 1) (by omega)).start
    rwa [Nat.sub_add_cancel hi] at hfound
  · refine ⟨decimal (contentText ptW ptH).length, ?_, denotes_decimal _⟩
    have hfound := hfound 3 (by decide)
    simp only [objectTexts, List.getElem_cons_succ, List.getElem_cons_zero, streamText] at hfound
    simpa only [List.append_assoc] using hfound
  · refine ⟨decimal jpeg.length, ?_, denotes_decimal _⟩
    have hfound := hfound 4 (by decide)
    simp only [objectTexts, List.getElem_cons_succ, List.getElem_cons_zero, imageText] at hfound
    simpa only [List.append_assoc] using hfound

variable {F : Type} [FloatType F]

-- Whatever %.2f prints and whatever bytes the JPEG has.
theorem imgEncodePdf_consistent {outside : PdfOutside F} {buf : ImgBuffer}
    {outputPath : Option (List Char)} {dpi : UInt32} {jpeg file : List UInt8} {ptW ptH : CString}
    (hjpeg : outside.compress buf = some jpeg)
    (hptW : outside.printFixed (ofUInt32 buf.width * 72.0 / ofUInt32 dpi) = ptW)
    (hptH : outside.printFixed (ofUInt32 buf.height * 72.0 / ofUInt32 dpi) = ptH)
    (hfit : (contentText ptW.bytes ptH.bytes).length < 256)
    (hfile : imgEncodePdf outside (some buf) outputPath dpi = .ok file)
    (hsize : file.length < 10 ^ 10) :
    ∃ xref entry offset, Consistent file buf.width buf.height (contentText ptW.bytes ptH.bytes) jpeg
      xref entry offset := by
  unfold imgEncodePdf at hfile
  cases outputPath with
  | none => cases hfile
  | some path =>
      simp only [hjpeg, hptW, hptH] at hfile
      split_ifs at hfile
      cases hfile
      exact ⟨_, _, _, writeXref_consistent (writeObjects_written buf jpeg ptW ptH hfit) hsize⟩

def smallPdfOutside : PdfOutside Float32 where
  initCompress := true
  compress _ := some [0xff, 0xd8, 0x0a, 0x65, 0x6e, 0x64, 0xff, 0xd9]
  opened := true
  printFixed _ := ⟨ascii "0.24", by decide⟩

def onePixel : ImgBuffer where
  data := 64
  bytes _ := 0
  width := 1
  height := 1
  channels := 3
  stride := 3

theorem imgEncodePdf_consistent_small :
    ∃ file xref entry offset,
      imgEncodePdf smallPdfOutside (some onePixel) (some ['a']) 300 = .ok file ∧
      Consistent file 1 1 (contentText (ascii "0.24") (ascii "0.24"))
        [0xff, 0xd8, 0x0a, 0x65, 0x6e, 0x64, 0xff, 0xd9] xref entry offset := by
  have hsize : (writeXref (writeObjects onePixel [0xff, 0xd8, 0x0a, 0x65, 0x6e, 0x64, 0xff, 0xd9]
      (ascii "0.24") (ascii "0.24"))).bytes.length < 10 ^ 10 := by decide +kernel
  have hrun : imgEncodePdf smallPdfOutside (some onePixel) (some ['a']) 300 = .ok _ := rfl
  obtain ⟨xref, entry, offset, hconsistent⟩ :=
    imgEncodePdf_consistent rfl rfl rfl (by decide +kernel) hrun hsize
  exact ⟨_, xref, entry, offset, rfl, hconsistent⟩

end ImgEngine.Io
