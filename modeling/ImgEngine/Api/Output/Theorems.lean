import ImgEngine.Api.Output
import ImgEngine.Api.Vtable.Theorems
import ImgEngine.Io.Pdf.Theorems
import ImgEngine.Io.Pdf.Writes.Theorems

namespace ImgEngine.Api

open ImgEngine.Io ImgEngine.Library.PartialWrites ImgEngine.Memory ImgEngine.Pipeline
open ImgEngine.Security

variable {F : Type} [FloatType F] {outside : Outside} {writers : Writers F}
  {outputPath : List Char} {job : ImgJob F} {sheet : ImgBuffer} {dpi : UInt32} {heap heap' : Heap}

-- A job that succeeds has encoded its sheet.

theorem layoutAndEncode_ok {arena : ImgArena} {photo : ImgBuffer} {canvas : ImgCanvas}
    (hrun : layoutAndEncode outside arena outputPath job photo canvas heap = (.ok (), heap')) :
    ∃ canvas', laidSheet arena job photo canvas heap = some canvas'.buf ∧
      encodeOutput outside outputPath canvas' job.dpi = .ok () := by
  unfold layoutAndEncode at hrun
  unfold laidSheet
  cases hlaid : (imgLayoutGrid canvas photo job arena heap).1 with
  | error e =>
      simp only [hlaid] at hrun
      cases hrun
  | ok laid =>
      simp only [hlaid] at hrun ⊢
      cases hfinish : finishSheet laid.1.buf laid.2 job with
      | error e =>
          simp only [hfinish] at hrun
          cases hrun
      | ok buf =>
          simp only [hfinish] at hrun
          exact ⟨{ laid.1 with buf }, rfl, (Prod.mk.inj hrun).1⟩

theorem imgApiRunJob_ok {engine : Ptr} {inputPath : Option (List Char)}
    (hrun : imgApiRunJob outside engine inputPath (some outputPath) (some job) heap =
      some (.ok (), heap')) :
    ∃ canvas, jobSheet outside job heap = some canvas.buf ∧
      encodeOutput outside outputPath canvas job.dpi = .ok () := by
  rw [imgApiRunJob_eq] at hrun
  cases hchecked : checked outside engine inputPath (some outputPath) (some job) with
  | error e =>
      rw [hchecked] at hrun
      cases hrun
  | ok passed =>
      obtain ⟨arena, path, given⟩ := passed
      obtain ⟨-, -, hpath, hgiven, -, -, harena⟩ := checked_ok_iff.mp hchecked
      cases hpath
      cases hgiven
      rw [hchecked] at hrun
      simp only [jobSheet, harena] at hrun ⊢
      generalize outside.decode heap = decoded at hrun ⊢
      obtain ⟨_ | photo, heap₁⟩ := decoded
      · cases hrun
      · simp only [afterDecode, decodedSheet] at hrun ⊢
        cases hinit : imgCanvasInit heap₁ job with
        | none =>
            rw [hinit] at hrun
            cases hrun
        | some init =>
            rw [hinit] at hrun
            obtain ⟨_ | canvas, heap₂⟩ := init
            · cases hrun
            · exact layoutAndEncode_ok (Option.some.inj hrun)

-- The two ways of writing it.

theorem imgEncodePdfTo_ok {layer : Layer UInt8} {pdf : PdfOutside F} {file : List UInt8}
    (h : imgEncodePdfTo layer pdf (some sheet) (some outputPath) dpi = .ok file) :
    ∃ jpeg, pdf.compress sheet = some jpeg ∧
      file = (pdfOut layer pdf sheet jpeg dpi).out.close layer ∧
      imgEncodePdf pdf (some sheet) (some outputPath) dpi =
        .ok (pdfOut .perfect pdf sheet jpeg dpi).out.data := by
  rw [← imgEncodePdfTo_perfect]
  simp only [imgEncodePdfTo] at h ⊢
  by_cases hdata : sheet.data = 0
  · rw [if_pos hdata] at h
    cases h
  · by_cases hinit : ¬pdf.initCompress = true
    · rw [if_neg hdata, if_pos hinit] at h
      cases h
    · rw [if_neg hdata, if_neg hinit] at h ⊢
      cases hjpeg : pdf.compress sheet with
      | none =>
          rw [hjpeg] at h
          cases h
      | some jpeg =>
          simp only [hjpeg] at h ⊢
          by_cases hopened : ¬pdf.opened = true
          · rw [if_pos hopened] at h
            cases h
          · rw [if_neg hopened] at h ⊢
            exact ⟨jpeg, rfl, (Except.ok.inj h).symm, congrArg Except.ok (close_perfect _)⟩

-- The claim of success holds of a file exactly if the layer took all of it.
theorem holds_iff {layer : Layer UInt8} {file complete : List UInt8} {texts : List (List UInt8)}
    (hfile : file = complete ↔ layer.Takes texts ∧ layer.Keeps complete.length) :
    (∃ bytes, some complete = some bytes ∧ some file = some bytes) ↔
      layer.Takes texts ∧ ∀ bytes, some complete = some bytes → layer.Keeps bytes.length := by
  constructor
  · intro ⟨bytes, hcomplete, hbytes⟩
    cases hcomplete
    obtain ⟨htakes, hkeeps⟩ := hfile.mp (Option.some.inj hbytes)
    refine ⟨htakes, fun bytes hcomplete => ?_⟩
    cases hcomplete
    exact hkeeps
  · intro ⟨htakes, hkeeps⟩
    exact ⟨complete, rfl, congrArg some (hfile.mpr ⟨htakes, hkeeps complete rfl⟩)⟩

theorem fullyWritten_iff {complete : List UInt8}
    (hcomplete : completeOutput writers outputPath sheet dpi = some complete) :
    FullyWritten writers outputPath sheet dpi ↔
      writers.layer.Takes (outputTexts writers outputPath sheet dpi) ∧
        ∀ bytes, some complete = some bytes → writers.layer.Keeps bytes.length := by
  constructor
  · intro h
    refine ⟨h.takes, ?_⟩
    rw [← hcomplete]
    exact h.keeps
  · intro ⟨htakes, hkeeps⟩
    refine ⟨by rw [hcomplete]; rfl, htakes, ?_⟩
    rw [hcomplete]
    exact hkeeps

theorem outputFile_pdf_iff (hpdf : isPdfOutput outputPath = true) {file : List UInt8}
    (hrun : imgEncodePdfTo writers.layer writers.pdf (some sheet) (some outputPath) dpi = .ok file)
    (opened : Bool) :
    (∃ bytes, completeOutput writers outputPath sheet dpi = some bytes ∧
      outputFile writers outputPath sheet dpi opened = some bytes) ↔
    FullyWritten writers outputPath sheet dpi := by
  obtain ⟨jpeg, hjpeg, rfl, hcomposed⟩ := imgEncodePdfTo_ok hrun
  have hcomplete : completeOutput writers outputPath sheet dpi =
      some (pdfOut .perfect writers.pdf sheet jpeg dpi).out.data := by
    rw [completeOutput, if_pos hpdf, hcomposed]
    rfl
  have hfile : outputFile writers outputPath sheet dpi opened =
      some ((pdfOut writers.layer writers.pdf sheet jpeg dpi).out.close writers.layer) := by
    rw [outputFile, if_pos hpdf, hrun]
    rfl
  have htexts : outputTexts writers outputPath sheet dpi =
      (pdfOut .perfect writers.pdf sheet jpeg dpi).out.texts := by
    rw [outputTexts, if_pos hpdf, pdfTexts, hjpeg]
  rw [fullyWritten_iff hcomplete, hcomplete, hfile, htexts]
  exact holds_iff (pdfOut_close_eq_iff writers.layer writers.pdf sheet jpeg dpi)

theorem outputFile_jpeg_iff (hpdf : ¬isPdfOutput outputPath = true) {bytes : List UInt8}
    (hencode : writers.encode sheet = .ok (some bytes)) :
    (∃ bytes, completeOutput writers outputPath sheet dpi = some bytes ∧
      outputFile writers outputPath sheet dpi true = some bytes) ↔
    FullyWritten writers outputPath sheet dpi := by
  have hcomplete : completeOutput writers outputPath sheet dpi = some bytes := by
    rw [completeOutput, if_neg hpdf, hencode]
  have hfile : outputFile writers outputPath sheet dpi true =
      some ((Output.empty.write writers.layer bytes).close writers.layer) := by
    rw [outputFile, if_neg hpdf, hencode]
    rfl
  have htexts : outputTexts writers outputPath sheet dpi = [bytes] := by
    rw [outputTexts, if_neg hpdf, hencode]
  rw [fullyWritten_iff hcomplete, hcomplete, hfile, htexts]
  have hlags := (lags_empty writers.layer).write (fun _ => rfl) (Nat.le_refl bytes.length)
  have hclose := hlags.close_eq_iff
  rw [write_perfect_data] at hclose
  exact holds_iff hclose

theorem encodeOutput_pdf_ok (hpdf : isPdfOutput outputPath = true) {canvas : ImgCanvas}
    (hencode : encodeOutput (outside.writing writers outputPath) outputPath canvas dpi = .ok ()) :
    ∃ file, imgEncodePdfTo writers.layer writers.pdf (some canvas.buf) (some outputPath) dpi =
      .ok file := by
  rw [encodeOutput, if_pos hpdf] at hencode
  simp only [Outside.writing] at hencode
  cases hto : imgEncodePdfTo writers.layer writers.pdf (some canvas.buf) (some outputPath) dpi with
  | error e =>
      rw [hto] at hencode
      cases hencode
  | ok file => exact ⟨file, rfl⟩

theorem encodeOutput_jpeg_ok (hpdf : ¬isPdfOutput outputPath = true) {canvas : ImgCanvas}
    (hencode : encodeOutput (outside.writing writers outputPath) outputPath canvas dpi = .ok ()) :
    ∃ out, writers.encode canvas.buf = .ok out ∧
      (out.isSome = true → outside.outputOpened = true) := by
  have hentry : (outside.writing writers outputPath).encode canvas.buf =
    (writers.encode canvas.buf).map Option.isSome := rfl
  rw [encodeOutput, if_neg hpdf, hentry] at hencode
  cases hjpeg : writers.encode canvas.buf with
  | error e =>
      rw [hjpeg] at hencode
      cases hencode
  | ok out =>
      refine ⟨out, rfl, fun hout => ?_⟩
      by_contra hclosed
      have hclosed : ¬(outside.writing writers outputPath).outputOpened = true := hclosed
      rw [hjpeg] at hencode
      simp only [Except.map, hout, if_neg hclosed] at hencode
      cases hencode

-- A job that succeeds leaves the complete output in the file exactly if every write
-- took its text and fclose lost nothing.
theorem imgApiRunJob_writes_iff {engine : Ptr} {inputPath : Option (List Char)}
    (hrun : imgApiRunJob (outside.writing writers outputPath) engine inputPath (some outputPath)
      (some job) heap = some (.ok (), heap')) :
    ∃ sheet, jobSheet outside job heap = some sheet ∧
      ((∃ bytes, completeOutput writers outputPath sheet job.dpi = some bytes ∧
        outputFile writers outputPath sheet job.dpi outside.outputOpened = some bytes) ↔
      FullyWritten writers outputPath sheet job.dpi) := by
  obtain ⟨canvas, hsheet, hencode⟩ := imgApiRunJob_ok hrun
  refine ⟨canvas.buf, hsheet, ?_⟩
  by_cases hpdf : isPdfOutput outputPath = true
  · obtain ⟨file, hto⟩ := encodeOutput_pdf_ok hpdf hencode
    exact outputFile_pdf_iff hpdf hto _
  · obtain ⟨out, hjpeg, hopened⟩ := encodeOutput_jpeg_ok hpdf hencode
    cases out with
    | some bytes =>
        rw [hopened rfl]
        exact outputFile_jpeg_iff hpdf hjpeg
    | none =>
        -- success without a file
        have hcomplete : completeOutput writers outputPath canvas.buf job.dpi = none := by
          rw [completeOutput, if_neg hpdf, hjpeg]
        constructor
        · intro h
          obtain ⟨bytes, hbytes, -⟩ := h
          rw [hcomplete] at hbytes
          cases hbytes
        · intro h
          have hencoded := h.encoded
          rw [hcomplete] at hencoded
          cases hencoded

-- The same job on a good disk and on one that is full after the first byte.

section Disks

def diskWriters (layer : Layer UInt8) : Writers Float32 where
  encode _ := .ok (some [0xff, 0xd8])
  pdf := smallPdfOutside
  layer := layer

def fullDisk : Layer UInt8 where
  accepts _ _ := 1
  closes := true
  kept := 0

theorem AgreeOn.writing {writers' : Writers F} {slots : List Slot}
    (hencode : writers'.encode = writers.encode) (hslots : Slot.encodePdf ∉ slots) :
    AgreeOn slots (outside.writing writers outputPath) (outside.writing writers' outputPath) where
  file := rfl
  arena := rfl
  output := rfl
  decode := fun _ => rfl
  encode := fun _ => by simp only [Outside.writing, hencode]
  encodePdf := fun h => absurd h hslots

-- The layer does not matter for the result, because no PDF is written.
theorem diskWriters_ok (layer : Layer UInt8) : ∃ heap',
    imgApiRunJob (smallOutside.writing (diskWriters layer) ['b']) 1 (some ['a']) (some ['b'])
      (some smallJob) apiHeap = some (.ok (), heap') := by
  have hany : (imgApiRunJob (smallOutside.writing (diskWriters .perfect) ['b']) 1 (some ['a'])
      (some ['b']) (some smallJob) apiHeap).any fun r => r.1 = .ok () := by decide +kernel
  have hslots : imgApiRunJobSlots (smallOutside.writing (diskWriters .perfect) ['b']) 1
      (some ['a']) (some ['b']) (some smallJob) apiHeap = [.decode, .encode] := by decide +kernel
  obtain ⟨⟨result, heap'⟩, hrun, hresult⟩ := (Option.any_eq_true _ _).mp hany
  obtain rfl := of_decide_eq_true hresult
  refine ⟨heap', (imgApiRunJob_stable ?_).trans hrun⟩
  rw [hslots]
  exact AgreeOn.writing rfl (by decide)

theorem imgApiRunJob_writes_iff_perfect : ∃ heap' sheet,
    imgApiRunJob (smallOutside.writing (diskWriters .perfect) ['b']) 1 (some ['a']) (some ['b'])
      (some smallJob) apiHeap = some (.ok (), heap') ∧
    ((∃ bytes, completeOutput (diskWriters .perfect) ['b'] sheet smallJob.dpi = some bytes ∧
      outputFile (diskWriters .perfect) ['b'] sheet smallJob.dpi true = some bytes) ↔
    FullyWritten (diskWriters .perfect) ['b'] sheet smallJob.dpi) := by
  obtain ⟨heap', hrun⟩ := diskWriters_ok .perfect
  obtain ⟨sheet, -, hiff⟩ := imgApiRunJob_writes_iff hrun
  exact ⟨heap', sheet, hrun, hiff⟩

-- The job reports success, and one of two bytes is in the file.
theorem imgApiRunJob_truncates : ∃ heap' sheet,
    imgApiRunJob (smallOutside.writing (diskWriters fullDisk) ['b']) 1 (some ['a']) (some ['b'])
      (some smallJob) apiHeap = some (.ok (), heap') ∧
    jobSheet smallOutside smallJob apiHeap = some sheet ∧
    completeOutput (diskWriters fullDisk) ['b'] sheet smallJob.dpi = some [0xff, 0xd8] ∧
    outputFile (diskWriters fullDisk) ['b'] sheet smallJob.dpi true = some [0xff] := by
  obtain ⟨heap', hrun⟩ := diskWriters_ok fullDisk
  obtain ⟨canvas, hsheet, -⟩ := imgApiRunJob_ok hrun
  exact ⟨heap', canvas.buf, hrun, hsheet, rfl, rfl⟩

end Disks

end ImgEngine.Api
