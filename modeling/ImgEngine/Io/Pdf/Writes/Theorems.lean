import ImgEngine.Io.Pdf.Writes

namespace ImgEngine.Io

open ImgEngine.Library.Decimal ImgEngine.Library.Loop ImgEngine.Library.PartialWrites

variable {F : Type} [FloatType F] {layer : Layer UInt8}

-- With a perfect layer the writer is the one that composes the file.

section Perfect

def PdfOut.file (f : PdfOut) : PdfFile where
  bytes := f.out.data
  obj := f.obj
  offsets := f.offsets

@[simp] theorem file_fprintf (f : PdfOut) (text : List UInt8) :
    (f.fprintf .perfect text).file = f.file.fprintf text := by
  simp [PdfOut.file, PdfOut.fprintf, PdfFile.fprintf]

@[simp] theorem file_printObject (f : PdfOut) (text : List UInt8) :
    (f.printObject .perfect text).file = f.file.printObject text := by
  simp [PdfOut.file, PdfOut.printObject, PdfFile.printObject, PdfOut.ftell, PdfFile.ftell]

theorem file_writeObjectsTo (buf : ImgBuffer) (jpeg ptW ptH : List UInt8) :
    (writeObjectsTo .perfect buf jpeg ptW ptH).file = writeObjects buf jpeg ptW ptH := by
  simp only [writeObjectsTo, writeObjects, file_fprintf, file_printObject]
  rfl

theorem file_writeTableTo (n : Nat) (f : PdfOut) :
    (writeTableTo .perfect n f).file =
      forRange n (fun i f => f.fprintf (padded 10 (f.offsets (i + 1)) ++ ascii " 00000 n \n"))
        f.file := by
  induction n with
  | zero => rfl
  | succ n ih =>
      rw [writeTableTo, forRange_succ, forRange_succ, file_fprintf, ← ih]
      rfl

theorem file_writeXrefTo (f : PdfOut) : (writeXrefTo .perfect f).file = writeXref f.file := by
  have htable := file_writeTableTo (f.obj - 1) (f.fprintf .perfect (xrefHead f.obj))
  rw [file_fprintf] at htable
  have hobj : (writeTableTo .perfect (f.obj - 1) (f.fprintf .perfect (xrefHead f.obj))).file.obj =
      f.obj := by
    rw [htable]
    refine forRange_invariant (fun _ (file : PdfFile) => file.obj = f.obj) rfl ?_
    intro i _ file hobj
    exact hobj
  rw [htable] at hobj
  rw [writeXrefTo, file_fprintf, htable, writeXref]
  refine (congrArg (PdfFile.fprintf _) ?_).trans rfl
  rw [← hobj]
  rfl

theorem file_pdfOut (outside : PdfOutside F) (buf : ImgBuffer) (jpeg : List UInt8) (dpi : UInt32) :
    (pdfOut .perfect outside buf jpeg dpi).file =
      writeXref (writeObjects buf jpeg
        (outside.printFixed (ofUInt32 buf.width * 72.0 / ofUInt32 dpi)).bytes
        (outside.printFixed (ofUInt32 buf.height * 72.0 / ofUInt32 dpi)).bytes) := by
  rw [pdfOut, file_writeXrefTo, file_writeObjectsTo]

theorem data_pdfOut (outside : PdfOutside F) (buf : ImgBuffer) (jpeg : List UInt8) (dpi : UInt32) :
    (pdfOut .perfect outside buf jpeg dpi).out.data =
      (writeXref (writeObjects buf jpeg
        (outside.printFixed (ofUInt32 buf.width * 72.0 / ofUInt32 dpi)).bytes
        (outside.printFixed (ofUInt32 buf.height * 72.0 / ofUInt32 dpi)).bytes)).bytes :=
  congrArg PdfFile.bytes (file_pdfOut outside buf jpeg dpi)

theorem imgEncodePdfTo_perfect (outside : PdfOutside F) (buf : Option ImgBuffer)
    (outputPath : Option (List Char)) (dpi : UInt32) :
    imgEncodePdfTo .perfect outside buf outputPath dpi =
      imgEncodePdf outside buf outputPath dpi := by
  cases buf with
  | none => rfl
  | some buf =>
      cases outputPath with
      | none => rfl
      | some outputPath =>
          rw [imgEncodePdfTo, imgEncodePdf]
          cases outside.compress buf with
          | none => rfl
          | some jpeg =>
              simp only [close_perfect, data_pdfOut]

end Perfect

-- How a file with shortfalls compares with the composed one.

section Short

theorem decimal_length_mono {m n : Nat} (h : m ≤ n) : (decimal m).length ≤ (decimal n).length := by
  have hpos : ∀ n, n ≠ 0 → 1 ≤ (Nat.digits 10 n).length := by
    intro n hn
    exact List.length_pos_iff.mpr (Nat.digits_ne_nil_iff_ne_zero.mpr hn)
  unfold decimal
  split_ifs with hm hn hn
  · exact Nat.le_refl _
  · simpa using hpos n hn
  · omega
  · simpa using Nat.le_length_digits_le 10 m n h

theorem padded_length_mono (width : Nat) {m n : Nat} (h : m ≤ n) :
    (padded width m).length ≤ (padded width n).length := by
  have hlength := decimal_length_mono h
  simp only [padded, List.length_append, List.length_replicate]
  omega

structure PdfLags (layer : Layer UInt8) (f ideal : PdfOut) : Prop where
  out : Lags layer f.out ideal.out
  obj : f.obj = ideal.obj
  offsets : ∀ i, f.offsets i ≤ ideal.offsets i
  same : f.out = ideal.out → f = ideal

variable {f ideal : PdfOut} {text text' : List UInt8}

theorem PdfLags.ftell (h : PdfLags layer f ideal) : f.ftell ≤ ideal.ftell := by
  obtain ⟨heq, -⟩ | ⟨hshort, -⟩ := h.out.state
  · exact Nat.le_of_eq (congrArg (fun o => o.data.length) heq)
  · exact Nat.le_of_lt hshort

theorem PdfLags.fprintf (h : PdfLags layer f ideal) (hsame : f = ideal → text = text')
    (hlength : text.length ≤ text'.length) :
    PdfLags layer (f.fprintf layer text) (ideal.fprintf .perfect text') := by
  refine ⟨h.out.write (fun heq => hsame (h.same heq)) hlength, h.obj, h.offsets, ?_⟩
  intro hout
  obtain rfl := h.same (h.out.eq_of_write hlength hout)
  exact congrArg (fun out => { f with out }) hout

theorem PdfLags.printObject (h : PdfLags layer f ideal) (text : List UInt8) :
    PdfLags layer (f.printObject layer text) (ideal.printObject .perfect text) := by
  have hsame : f.out = ideal.out → decimal f.obj ++ ascii " 0 obj\n" ++ text =
      decimal ideal.obj ++ ascii " 0 obj\n" ++ text := by
    intro _
    rw [h.obj]
  have hlength : (decimal f.obj ++ ascii " 0 obj\n" ++ text).length ≤
      (decimal ideal.obj ++ ascii " 0 obj\n" ++ text).length := by
    rw [h.obj]
  refine ⟨h.out.write hsame hlength, congrArg (· + 1) h.obj, ?_, ?_⟩
  · intro i
    change Function.update f.offsets f.obj f.ftell i ≤
      Function.update ideal.offsets ideal.obj ideal.ftell i
    rw [h.obj]
    by_cases hi : i = ideal.obj
    · subst hi
      rw [Function.update_self, Function.update_self]
      exact h.ftell
    · rw [Function.update_of_ne hi, Function.update_of_ne hi]
      exact h.offsets i
  · intro hout
    obtain rfl := h.same (h.out.eq_of_write hlength hout)
    exact congrArg (fun out => { f.printObject layer text with out }) hout

theorem writeObjectsTo_lags (layer : Layer UInt8) (buf : ImgBuffer) (jpeg ptW ptH : List UInt8) :
    PdfLags layer (writeObjectsTo layer buf jpeg ptW ptH)
      (writeObjectsTo .perfect buf jpeg ptW ptH) := by
  have hstart : PdfLags layer { out := .empty, obj := 1, offsets := fun _ => 0 }
      { out := .empty, obj := 1, offsets := fun _ => 0 } :=
    ⟨lags_empty layer, rfl, fun _ => Nat.le_refl 0, fun _ => rfl⟩
  have hheader := hstart.fprintf (fun _ => rfl)
    (Nat.le_refl (ascii "%PDF-1.4\n%" ++ [0xe2, 0xe3, 0xcf, 0xd3] ++ ascii "\n").length)
  have himage := ((((hheader.printObject (ascii "<< /Type /Catalog /Pages 2 0 R >>\nendobj\n")
    ).printObject (ascii "<< /Type /Pages /Kids [3 0 R] /Count 1 >>\nendobj\n")
    ).printObject (pageText ptW ptH)
    ).printObject (streamText (snprintf 256 (contentText ptW ptH)).1
      (printString (snprintf 256 (contentText ptW ptH)).2))
    ).printObject (imageText buf.width buf.height jpeg.length)
  exact (himage.fprintf (fun _ => rfl) (Nat.le_refl jpeg.length)).fprintf (fun _ => rfl)
    (Nat.le_refl (ascii "\nendstream\nendobj\n").length)

theorem PdfLags.writeTableTo (h : PdfLags layer f ideal) (n : Nat) :
    PdfLags layer (writeTableTo layer n f) (writeTableTo .perfect n ideal) := by
  induction n with
  | zero => exact h
  | succ n ih =>
      simp only [Io.writeTableTo, forRange_succ] at ih ⊢
      refine ih.fprintf (fun heq => by rw [heq]) ?_
      simp only [List.length_append]
      exact Nat.add_le_add_right (padded_length_mono 10 (ih.offsets (n + 1))) _

theorem PdfLags.eq_of_writeTableTo (h : PdfLags layer f ideal) {n : Nat}
    (hout : (Io.writeTableTo layer n f).out = (Io.writeTableTo .perfect n ideal).out) :
    f.out = ideal.out := by
  induction n with
  | zero => exact hout
  | succ n ih =>
      have hlags := h.writeTableTo n
      simp only [Io.writeTableTo, forRange_succ] at ih hlags hout
      refine ih (hlags.out.eq_of_write ?_ hout)
      simp only [List.length_append]
      exact Nat.add_le_add_right (padded_length_mono 10 (hlags.offsets (n + 1))) _

theorem trailerText_length_mono (obj : Nat) {m n : Nat} (h : m ≤ n) :
    (trailerText obj m).length ≤ (trailerText obj n).length := by
  have hlength := decimal_length_mono h
  simp only [trailerText, List.length_append]
  omega

theorem PdfLags.writeXrefTo (h : PdfLags layer f ideal) :
    PdfLags layer (writeXrefTo layer f) (writeXrefTo .perfect ideal) := by
  have hhead : PdfLags layer (f.fprintf layer (xrefHead f.obj))
      (ideal.fprintf .perfect (xrefHead ideal.obj)) :=
    h.fprintf (fun heq => by rw [heq]) (by rw [h.obj])
  have htable := hhead.writeTableTo (f.obj - 1)
  rw [Io.writeXrefTo, Io.writeXrefTo, ← h.obj]
  rw [← h.obj] at hhead htable
  refine htable.fprintf (fun heq => ?_) (trailerText_length_mono _ h.ftell)
  have hout := hhead.eq_of_writeTableTo (congrArg PdfOut.out heq)
  rw [h.same (h.out.eq_of_write (Nat.le_refl _) hout)]

-- The file after fclose is the composed one exactly if the layer fails nowhere.
theorem pdfOut_close_eq_iff (layer : Layer UInt8) (outside : PdfOutside F) (buf : ImgBuffer)
    (jpeg : List UInt8) (dpi : UInt32) :
    (pdfOut layer outside buf jpeg dpi).out.close layer =
        (pdfOut .perfect outside buf jpeg dpi).out.data ↔
      layer.Takes (pdfOut .perfect outside buf jpeg dpi).out.texts ∧
        layer.Keeps (pdfOut .perfect outside buf jpeg dpi).out.data.length :=
  (writeObjectsTo_lags layer buf jpeg _ _).writeXrefTo.out.close_eq_iff

end Short

end ImgEngine.Io
