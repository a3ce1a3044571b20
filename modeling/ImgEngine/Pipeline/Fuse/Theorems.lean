import ImgEngine.Pipeline.Fuse.Rows

namespace ImgEngine.Pipeline

open ImgEngine.Library.ByteMemory ImgEngine.Library.Loop ImgEngine.Library.Strips

-- The loop of the kernels changes the first n bytes one by one.

def mapBytes (n : Nat) (f : UInt8 → UInt8) (bytes : Bytes) : Bytes := fun i =>
  if i < n then f (bytes i) else bytes i

theorem mapBytes_eq_window (n : Nat) (f : UInt8 → UInt8) (bytes : Bytes) :
    mapBytes n f bytes = window 0 n (fun a k => f (a k)) bytes := by
  funext i
  simp only [window, mapBytes, Nat.zero_le, true_and, Nat.zero_add, Nat.sub_zero]

theorem forRange_mapBytes (n : Nat) (f : UInt8 → UInt8) (bytes : Bytes) :
    forRange n (fun i (bytes : Bytes) => Function.update bytes i (f (bytes i))) bytes =
      mapBytes n f bytes := by
  have hloop : forRange n (fun i (bytes : Bytes) =>
      Function.update bytes (0 + i) (f (bytes (0 + i)))) bytes = _ := forRange_update 0 n f
  simp only [Nat.zero_add] at hloop
  rw [hloop, mapBytes_eq_window]

theorem mapBytes_id (n : Nat) (bytes : Bytes) : mapBytes n (fun px => px) bytes = bytes := by
  funext i
  simp [mapBytes]

def mapPixels (f : UInt8 → UInt8) (buf : ImgBuffer) : ImgBuffer :=
  { buf with bytes := mapBytes (buf.width * buf.height * buf.channels).toNat f buf.bytes }

def resized (size : UInt32 × UInt32) (buf : ImgBuffer) : ImgBuffer :=
  { buf with width := size.1, height := size.2 }

theorem mapPixels_id (buf : ImgBuffer) : mapPixels (fun px => px) buf = buf := by
  rw [mapPixels, mapBytes_id]

theorem fusedKernel_eq (doGray doBright doResize : Bool) (p : ImgFusedParams) (buf : ImgBuffer) :
    fusedKernel doGray doBright doResize p buf =
      if doResize then resized (p.newW, p.newH) (mapPixels (fusedByte doGray doBright p) buf)
      else mapPixels (fusedByte doGray doBright p) buf := by
  simp only [fusedKernel, forRange_mapBytes]
  split_ifs <;> rfl

-- The functions for single images leave the bytes alone when no flag is set, or
-- only the one for a brightness of 0.

section Quiet

def Quiet (p : ImgFusedParams) : Prop :=
  p.hasGrayscale = false ∧ (p.hasBrightness = true → p.brightnessValue = 0)

variable {p : ImgFusedParams}

theorem brighten_zero (px : UInt8) : brighten 0 px = px := by
  have hpx := px.toNat_lt
  rw [← UInt8.toNat_inj, brighten_toNat]
  change min 255 (px.toNat + 0) = px.toNat
  omega

theorem Quiet.scalarByte (h : Quiet p) (px : UInt8) : scalarByte p px = px := by
  rw [Pipeline.scalarByte, fusedByte]
  by_cases hb : p.hasBrightness = true
  · simp [h.1, hb, h.2 hb, brighten_zero]
  · simp [h.1, hb]

theorem Quiet.simdByte (h : Quiet p) (px : UInt8) : simdByte p px = px := by
  have hlt := px.toNat_lt
  refine ((simdByte_eq_iff p px).mpr fun hb => ?_).trans (h.scalarByte px)
  rw [h.1, h.2 hb]
  change px.toNat + 0 < 2 ^ 15
  omega

theorem Quiet.fusedExecScalar (h : Quiet p) (buf : ImgBuffer) :
    fusedExecScalar p buf = some buf := by
  rw [fusedExecScalar_strips, strips_keep _ _ _ _ _ fun a k _ => h.scalarByte (a k)]

theorem Quiet.fusedExecAvx2 (h : Quiet p) {buf : ImgBuffer} (hrows : RowsEnd true buf) :
    fusedExecAvx2 p buf = some buf := by
  have hbyte : ∀ len a, ∀ k < len, lanesByte p len a k = a k := by
    intro len a k _
    rw [lanesByte, h.simdByte, h.scalarByte, ite_self]
  rw [fusedExecAvx2_strips hrows, strips_keep _ _ _ _ _ (hbyte _)]

-- The member fn that img_pipeline_fuse stores.
theorem Quiet.single_iff (h : Quiet p) (avx2 : Bool) (buf result : ImgBuffer) :
    (if avx2 then Pipeline.fusedExecAvx2 else Pipeline.fusedExecScalar) p buf = some result ↔
      RowsEnd avx2 buf ∧ buf = result := by
  cases avx2 with
  | false =>
      have hrows : RowsEnd false buf := fun h => by cases h
      simp [hrows, h.fusedExecScalar]
  | true =>
      by_cases hrows : RowsEnd true buf
      · simp [hrows, h.fusedExecAvx2 hrows]
      · simp [hrows, fusedExecAvx2_stuck p hrows]

end Quiet

-- The fallback of img_pipeline_execute_fused_batch.
theorem Quiet.fallback_iff {p : ImgFusedParams} (h : Quiet p) (avx2 : Bool) (batch : ImgBatch)
    (images result : Images) :
    images.forEachM ((if avx2 then Pipeline.fusedExecAvx2 else Pipeline.fusedExecScalar) p) batch =
        some result ↔
      (∀ q, some q ∈ batch → RowsEnd avx2 (images.load q)) ∧ images = result :=
  Images.forEachM_keep_iff (h.single_iff avx2)

-- What the loop of img_pipeline_fuse gathers.

theorem hasOp_append (ops : List ImgOpDesc) (op : ImgOpDesc) (opCode : UInt32) :
    HasOp (ops ++ [op]) opCode ↔ HasOp ops opCode ∨ op.opCode = opCode := by
  simp only [HasOp, List.mem_append, List.mem_singleton, or_and_right, exists_or, exists_eq_left]

theorem lastGiven_append (ops : List ImgOpDesc) (op : ImgOpDesc) (opCode : UInt32) :
    lastGiven (ops ++ [op]) opCode =
      if op.opCode = opCode ∧ op.params ≠ 0 then some op else lastGiven ops opCode := by
  rw [lastGiven, List.filter_append]
  by_cases h : op.opCode = opCode ∧ op.params ≠ 0
  · rw [List.filter_cons_of_pos (by simpa using h), List.filter_nil, List.getLast?_concat, if_pos h]
  · rw [List.filter_cons_of_neg (by simpa using h), List.filter_nil, List.append_nil, if_neg h,
      lastGiven]

def fusedParams (mem : Memory) (ops : List ImgOpDesc) : ImgFusedParams where
  hasGrayscale := HasOp ops OP_GRAYSCALE
  hasBrightness := HasOp ops OP_BRIGHTNESS
  hasResize := HasOp ops OP_RESIZE
  brightnessValue := lastBrightness mem ops
  newW := (lastSize mem ops).1
  newH := (lastSize mem ops).2

def signature (hasGrayscale hasBrightness hasResize : Bool) : UInt32 :=
  (if hasGrayscale then SIG_OP_GRAYSCALE else 0) ||| (if hasBrightness then SIG_OP_BRIGHTNESS else 0) |||
    (if hasResize then SIG_OP_RESIZE else 0)

theorem signature_grayscale (b r g : Bool) :
    signature g b r ||| SIG_OP_GRAYSCALE = signature true b r := by
  cases g <;> cases b <;> cases r <;> rfl

theorem signature_brightness (b r g : Bool) :
    signature g b r ||| SIG_OP_BRIGHTNESS = signature g true r := by
  cases g <;> cases b <;> cases r <;> rfl

theorem signature_resize (b r g : Bool) :
    signature g b r ||| SIG_OP_RESIZE = signature g b true := by
  cases g <;> cases b <;> cases r <;> rfl

theorem foldl_fuseOp (mem : Memory) (ops : List ImgOpDesc) :
    ops.foldl (fuseOp mem) (.zero, 0) =
      (fusedParams mem ops, signature (HasOp ops OP_GRAYSCALE) (HasOp ops OP_BRIGHTNESS)
        (HasOp ops OP_RESIZE)) := by
  induction ops using List.reverseRecOn with
  | nil => rfl
  | append_singleton ops op ih =>
      have hgb : OP_GRAYSCALE ≠ OP_BRIGHTNESS := by decide
      have hgr : OP_GRAYSCALE ≠ OP_RESIZE := by decide
      have hbr : OP_BRIGHTNESS ≠ OP_RESIZE := by decide
      rw [List.foldl_append, ih, List.foldl_cons, List.foldl_nil]
      simp only [fuseOp, fusedParams, lastBrightness, lastSize, hasOp_append, lastGiven_append]
      by_cases hg : op.opCode = OP_GRAYSCALE
      · simp [hg, hgb, hgr, signature_grayscale]
      by_cases hb : op.opCode = OP_BRIGHTNESS
      · by_cases hparams : op.params = 0
        all_goals simp [hb, hgb.symm, hbr, hparams, signature_brightness]
      by_cases hr : op.opCode = OP_RESIZE
      · by_cases hparams : op.params = 0
        all_goals simp [hr, hgr.symm, hbr.symm, hparams, signature_resize]
      simp [hg, hb, hr]

-- The table has a kernel for every signature but that of resize alone.
theorem imgGetFusedKernel_signature (g b r : Bool) :
    imgGetFusedKernel (signature g b r) =
      if r && !g && !b then none else some (defineKernel g b (r && g)) := by
  cases g <;> cases b <;> cases r <;> rfl

-- What a fused pipeline does to one image.
def fusedImage (mem : Memory) (ops : List ImgOpDesc) (buf : ImgBuffer) : ImgBuffer :=
  let buf := mapPixels (onceByte mem ops) buf
  if HasOp ops OP_RESIZE ∧ HasOp ops OP_GRAYSCALE then resized (lastSize mem ops) buf else buf

theorem fusedKernel_fusedParams (mem : Memory) (ops : List ImgOpDesc) :
    fusedKernel (HasOp ops OP_GRAYSCALE) (HasOp ops OP_BRIGHTNESS)
      (decide (HasOp ops OP_RESIZE) && decide (HasOp ops OP_GRAYSCALE)) (fusedParams mem ops) =
      fusedImage mem ops := by
  have hbyte : fusedByte (HasOp ops OP_GRAYSCALE) (HasOp ops OP_BRIGHTNESS) (fusedParams mem ops) =
      onceByte mem ops := by
    funext px
    simp [fusedByte, onceByte, fusedParams]
  funext buf
  rw [fusedKernel_eq, hbyte]
  simp [fusedImage, fusedParams]

-- A compiled pipeline does what the parameters say that it is given at the time.
theorem imgPipelineExecuteFusedBatch_fuse (p : ImgFusedParams) (avx2 : Bool) (mem : Memory)
    (pipe : ImgPipelineDesc) (batch : ImgBatch) (images : Images) :
    imgPipelineExecuteFusedBatch p (imgPipelineFuse avx2 mem pipe).2 batch images =
      if HasOp pipe.ops OP_RESIZE ∧ ¬HasOp pipe.ops OP_GRAYSCALE ∧ ¬HasOp pipe.ops OP_BRIGHTNESS then
        images.forEachM ((if avx2 then fusedExecAvx2 else fusedExecScalar) p) batch
      else
        some (images.forEach (fusedKernel (HasOp pipe.ops OP_GRAYSCALE)
          (HasOp pipe.ops OP_BRIGHTNESS)
          (decide (HasOp pipe.ops OP_RESIZE) && decide (HasOp pipe.ops OP_GRAYSCALE)) p) batch) := by
  by_cases hempty : batch = []
  · subst hempty
    simp [imgPipelineExecuteFusedBatch]
  have hlength : batch.length ≠ 0 := by simpa using hempty
  simp only [imgPipelineFuse, foldl_fuseOp, imgPipelineExecuteFusedBatch, if_neg hlength,
    imgGetFusedKernel_signature]
  by_cases halone : HasOp pipe.ops OP_RESIZE ∧ ¬HasOp pipe.ops OP_GRAYSCALE ∧
      ¬HasOp pipe.ops OP_BRIGHTNESS
  · have hkernel : (decide (HasOp pipe.ops OP_RESIZE) && !decide (HasOp pipe.ops OP_GRAYSCALE) &&
        !decide (HasOp pipe.ops OP_BRIGHTNESS)) = true := by
      simpa [and_assoc] using halone
    rw [hkernel, if_pos rfl, if_pos halone]
  · have hkernel : (decide (HasOp pipe.ops OP_RESIZE) && !decide (HasOp pipe.ops OP_GRAYSCALE) &&
        !decide (HasOp pipe.ops OP_BRIGHTNESS)) = false := by
      simpa [and_assoc] using halone
    rw [hkernel, if_neg Bool.false_ne_true, if_neg halone]
    rfl

theorem fuseAndExecute_eq (avx2 : Bool) (mem : Memory) (pipe : ImgPipelineDesc) (batch : ImgBatch)
    (images : Images) :
    fuseAndExecute avx2 mem pipe batch images =
      imgPipelineExecuteFusedBatch (fusedParams mem pipe.ops) (imgPipelineFuse avx2 mem pipe).2
        batch images := by
  simp only [fuseAndExecute, imgPipelineFuse, foldl_fuseOp]

theorem forEach_id (batch : ImgBatch) (images : Images) :
    images.forEach (fun buf => buf) batch = images := by
  have hkeep : images.forEachM (fun buf => some buf) batch = some images ↔
      (∀ p, some p ∈ batch → True) ∧ images = images :=
    Images.forEachM_keep_iff (P := fun _ => True) (by simp)
  rw [Images.forEachM_some_comp, Option.some_inj] at hkeep
  exact hkeep.mpr ⟨fun _ _ => trivial, rfl⟩

theorem fuseAndExecute_eq_some_iff (avx2 : Bool) (mem : Memory) (pipe : ImgPipelineDesc)
    (batch : ImgBatch) (images result : Images) :
    fuseAndExecute avx2 mem pipe batch images = some result ↔
      (HasOp pipe.ops OP_RESIZE → ¬HasOp pipe.ops OP_GRAYSCALE → ¬HasOp pipe.ops OP_BRIGHTNESS →
        ∀ p, some p ∈ batch → RowsEnd avx2 (images.load p)) ∧
      images.forEach (fusedImage mem pipe.ops) batch = result := by
  rw [fuseAndExecute_eq, imgPipelineExecuteFusedBatch_fuse]
  by_cases halone : HasOp pipe.ops OP_RESIZE ∧ ¬HasOp pipe.ops OP_GRAYSCALE ∧
      ¬HasOp pipe.ops OP_BRIGHTNESS
  · rw [if_pos halone]
    obtain ⟨hr, hg, hb⟩ := halone
    have hquiet : Quiet (fusedParams mem pipe.ops) := by
      simp [Quiet, fusedParams, hg, hb]
    have hid : fusedImage mem pipe.ops = fun buf => buf := by
      have honce : onceByte mem pipe.ops = fun px => px := by
        funext px
        simp [onceByte, hg, hb]
      funext buf
      simp [fusedImage, honce, mapPixels_id, hg]
    simp only [hr, hg, hb, hid, forEach_id, not_false_eq_true, forall_const]
    exact hquiet.fallback_iff avx2 batch images result
  · have hrows : HasOp pipe.ops OP_RESIZE → ¬HasOp pipe.ops OP_GRAYSCALE →
        ¬HasOp pipe.ops OP_BRIGHTNESS → ∀ p, some p ∈ batch → RowsEnd avx2 (images.load p) :=
      fun hr hg hb => absurd ⟨hr, hg, hb⟩ halone
    rw [if_neg halone, fusedKernel_fusedParams, Option.some_inj]
    exact (and_iff_right hrows).symm

-- The kernels on the bytes that the buffers of a batch share.

def mapByte (f : UInt8 → UInt8) (h : ImgHeader) (i : Nat) (px : UInt8) : UInt8 :=
  if i < (h.width * h.height * h.channels).toNat then f px else px

theorem mapPixels_bytewise (f : UInt8 → UInt8) : Images.Bytewise (mapPixels f) (mapByte f) :=
  ⟨fun _ => rfl, fun _ _ => rfl⟩

theorem byteAt_mapByte (f : UInt8 → UInt8) (h : ImgHeader) (a : Nat) (px : UInt8) :
    Images.byteAt (mapByte f) h a px = if Covers h a then f px else px := by
  simp only [Images.byteAt, mapByte, Covers]
  by_cases hdata : h.data.toNat ≤ a
  · have hlt : a - h.data.toNat < (h.width * h.height * h.channels).toNat ↔
        a < h.data.toNat + (h.width * h.height * h.channels).toNat := by omega
    simp only [hdata, if_true, true_and, hlt]
  · simp only [hdata, if_false, false_and]

-- As many rounds as the batch has entries with the byte.
theorem batchByte_mapByte (f : UInt8 → UInt8) (images : Images) (batch : ImgBatch) (a : Nat)
    (px : UInt8) :
    images.batchByte (mapByte f) batch a px = f^[covers images batch a] px :=
  Images.batchByte_iterate (fun p _ => byteAt_mapByte f (images.header p) a) px

theorem forEach_mapPixels (f : UInt8 → UInt8) (batch : ImgBatch) (images : Images) :
    images.forEach (mapPixels f) batch =
      { images with memory := fun a => f^[covers images batch a] (images.memory a) } := by
  simp only [(mapPixels_bytewise f).forEach, batchByte_mapByte]

-- An operation on its own.

theorem hasOp_alone (op : ImgOpDesc) (opCode : UInt32) :
    HasOp op.alone.ops opCode ↔ op.opCode = opCode := by
  simp [HasOp, ImgOpDesc.alone]

theorem onceByte_alone (mem : Memory) (op : ImgOpDesc) :
    onceByte mem op.alone.ops = fun px => opByte mem px op := by
  have hgb : OP_GRAYSCALE ≠ OP_BRIGHTNESS := by decide
  funext px
  simp only [onceByte, hasOp_alone, opByte]
  by_cases hg : op.opCode = OP_GRAYSCALE
  · simp [hg, hgb]
  · by_cases hb : op.opCode = OP_BRIGHTNESS
    · have hlast : lastBrightness mem op.alone.ops = brightness mem op := by
        by_cases hparams : op.params = 0
        all_goals simp [lastBrightness, lastGiven, brightness, ImgOpDesc.alone, hb, hparams]
      simp [hb, hgb.symm, hlast]
    · simp [hg, hb]

theorem fuseAndExecute_alone (avx2 : Bool) (mem : Memory) (op : ImgOpDesc) (batch : ImgBatch)
    (images result : Images) :
    fuseAndExecute avx2 mem op.alone batch images = some result ↔
      (op.opCode = OP_RESIZE → ∀ p, some p ∈ batch → RowsEnd avx2 (images.load p)) ∧
      { images with
        memory := fun a => (fun px => opByte mem px op)^[covers images batch a] (images.memory a) } =
          result := by
  have hgr : OP_GRAYSCALE ≠ OP_RESIZE := by decide
  have hbr : OP_BRIGHTNESS ≠ OP_RESIZE := by decide
  have himage : fusedImage mem op.alone.ops = mapPixels fun px => opByte mem px op := by
    funext buf
    rw [fusedImage, onceByte_alone, if_neg]
    rintro ⟨hr, hg⟩
    exact hgr (((hasOp_alone op _).mp hg).symm.trans ((hasOp_alone op _).mp hr))
  rw [fuseAndExecute_eq_some_iff, himage, forEach_mapPixels]
  simp only [hasOp_alone]
  refine and_congr_left fun _ => ⟨fun h hr => ?_, fun h hr _ _ => h hr⟩
  exact h hr (fun hg => hgr (hg.symm.trans hr)) fun hb => hbr (hb.symm.trans hr)

-- The structures are the same before every operation, and so are the bytes that the
-- buffers have.
theorem executeOneByOne_eq_some_iff (avx2 : Bool) (mem : Memory) (pipe : ImgPipelineDesc)
    (batch : ImgBatch) (images result : Images) :
    executeOneByOne avx2 mem pipe batch images = some result ↔
      (HasOp pipe.ops OP_RESIZE → ∀ p, some p ∈ batch → RowsEnd avx2 (images.load p)) ∧
      { images with
        memory := fun a => opsByte mem pipe.ops (covers images batch a) (images.memory a) } =
          result := by
  rw [executeOneByOne]
  generalize pipe.ops = ops
  induction ops generalizing images with
  | nil => simp [HasOp, opsByte]
  | cons op ops ih =>
      have hop : HasOp (op :: ops) OP_RESIZE ↔ op.opCode = OP_RESIZE ∨ HasOp ops OP_RESIZE := by
        simp [HasOp]
      simp only [List.foldlM_cons, Option.bind_eq_bind, Option.bind_eq_some_iff,
        fuseAndExecute_alone, ih, hop, or_imp]
      constructor
      · rintro ⟨_, ⟨hhead, rfl⟩, htail, rfl⟩
        exact ⟨⟨hhead, htail⟩, rfl⟩
      · rintro ⟨⟨hhead, htail⟩, rfl⟩
        exact ⟨_, ⟨hhead, rfl⟩, htail, rfl⟩

-- A pipeline that does not resize to another size does not resize.
theorem forEach_fusedImage_of_size {mem : Memory} {ops : List ImgOpDesc} {batch : ImgBatch}
    {images : Images}
    (hsize : HasOp ops OP_GRAYSCALE → HasOp ops OP_RESIZE → ∀ p, some p ∈ batch →
      ((images.header p).width, (images.header p).height) = lastSize mem ops) :
    images.forEach (fusedImage mem ops) batch =
      images.forEach (mapPixels (onceByte mem ops)) batch := by
  refine Images.forEach_congr (fun _ => rfl) fun p hp buf hbuf => ?_
  rw [fusedImage]
  split_ifs with h
  · have hsame := hsize h.2 h.1 p hp
    rw [← hbuf] at hsame
    rw [resized, ← hsame]
    rfl
  · rfl

theorem size_of_forEach_fusedImage {mem : Memory} {ops : List ImgOpDesc} {batch : ImgBatch}
    {images : Images}
    (hkeep : (images.forEach (fusedImage mem ops) batch).header = images.header)
    (hg : HasOp ops OP_GRAYSCALE) (hr : HasOp ops OP_RESIZE) {p : Ptr} (hp : some p ∈ batch) :
    ((images.header p).width, (images.header p).height) = lastSize mem ops := by
  let sized (h : ImgHeader) : Prop := (h.width, h.height) = lastSize mem ops
  have hset : ∀ buf, sized (fusedImage mem ops buf).header := by
    intro buf
    rw [fusedImage, if_pos ⟨hr, hg⟩]
    rfl
  rw [← hkeep]
  exact Images.forEach_header (P := sized) hset (.inr hp)

-- Fusing preserves the meaning of a descriptor.
theorem fuseAndExecute_eq_executeOneByOne_iff (avx2 : Bool) (mem : Memory) (pipe : ImgPipelineDesc)
    (batch : ImgBatch) (images : Images) :
    (∃ result, fuseAndExecute avx2 mem pipe batch images = some result ∧
      executeOneByOne avx2 mem pipe batch images = some result) ↔
        Fusable avx2 mem pipe batch images := by
  simp only [fuseAndExecute_eq_some_iff, executeOneByOne_eq_some_iff]
  constructor
  · rintro ⟨_, ⟨-, rfl⟩, hrows, heq⟩
    have hkeep := (congrArg Images.header heq).symm
    have hsize : HasOp pipe.ops OP_GRAYSCALE → HasOp pipe.ops OP_RESIZE → ∀ p, some p ∈ batch →
        ((images.header p).width, (images.header p).height) = lastSize mem pipe.ops :=
      fun hg hr p hp => size_of_forEach_fusedImage hkeep hg hr hp
    rw [forEach_fusedImage_of_size hsize, forEach_mapPixels] at heq
    exact ⟨congrFun (congrArg Images.memory heq), hsize, hrows⟩
  · intro h
    refine ⟨_, ⟨fun hr _ _ => h.rows hr, rfl⟩, h.rows, ?_⟩
    rw [forEach_fusedImage_of_size h.size, forEach_mapPixels]
    exact congrArg (Images.mk images.header) (funext h.bytes)

-- An image with a single byte, which is also its only pixel.
def onePixel (px : UInt8) : Images where
  header _ := ⟨64, 1, 1, 1, 1⟩
  memory _ := px

def fiveAndThree : Memory := Function.update (Function.update (fun _ => 0) 16 5) 32 3

def brightnessTwice : ImgPipelineDesc where
  ops := [⟨OP_BRIGHTNESS, 16⟩, ⟨OP_BRIGHTNESS, 32⟩]
  countable := by decide

-- One by one the operations add 5 and 3, and fused only 3.
theorem fuseAndExecute_brightnessTwice :
    ((onePixel 0).header 8).stride = ((onePixel 0).header 8).width * ((onePixel 0).header 8).channels ∧
    (fuseAndExecute true fiveAndThree brightnessTwice [some 8] (onePixel 0)).map (·.memory 64) =
      some 3 ∧
    (executeOneByOne true fiveAndThree brightnessTwice [some 8] (onePixel 0)).map (·.memory 64) =
      some 8 := by
  decide

-- A buffer that stands in the batch twice goes through each operation twice.

def grayBrighten : ImgPipelineDesc where
  ops := [⟨OP_GRAYSCALE, 0⟩, ⟨OP_BRIGHTNESS, 16⟩]
  countable := by decide

example :
    (fuseAndExecute true fiveAndThree grayBrighten [some 8, some 8] (onePixel 200)).map
      (·.memory 64) = some 24 ∧
    (executeOneByOne true fiveAndThree grayBrighten [some 8, some 8] (onePixel 200)).map
      (·.memory 64) = some 28 := by
  decide

end ImgEngine.Pipeline
