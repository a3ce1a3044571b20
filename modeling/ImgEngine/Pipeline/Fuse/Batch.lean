import ImgEngine.Pipeline.Fuse.Theorems

namespace ImgEngine.Pipeline

open ImgEngine.Library.ByteMemory ImgEngine.Library.Loop ImgEngine.Library.Strips

-- The rows follow each other without gaps, and all bytes of the image are counted.
structure Contiguous (buf : ImgBuffer) : Prop where
  stride : buf.stride.toNat = buf.width.toNat * buf.channels.toNat
  size : buf.width.toNat * buf.height.toNat * buf.channels.toNat < 2 ^ 32

instance (buf : ImgBuffer) : Decidable (Contiguous buf) :=
  decidable_of_iff (buf.stride.toNat = buf.width.toNat * buf.channels.toNat ∧
    buf.width.toNat * buf.height.toNat * buf.channels.toNat < 2 ^ 32)
    ⟨fun h => ⟨h.1, h.2⟩, fun h => ⟨h.stride, h.size⟩⟩

theorem Contiguous.count {buf : ImgBuffer} (h : Contiguous buf) :
    (buf.width * buf.height * buf.channels).toNat =
      buf.height.toNat * (buf.width * buf.channels).toNat := by
  have hrow : (buf.width * buf.channels).toNat = buf.width.toNat * buf.channels.toNat :=
    uint32_toNat_mul (h.stride ▸ buf.stride.toNat_lt)
  rw [UInt32.toNat_mul, UInt32.toNat_mul, Nat.mod_mul_mod, Nat.mod_eq_of_lt h.size, hrow]
  ring

-- The loop over the rows is the flat loop of the kernels.
theorem Contiguous.fusedExecScalar {buf : ImgBuffer} (h : Contiguous buf) (p : ImgFusedParams) :
    fusedExecScalar p buf = some (mapPixels (scalarByte p) buf) := by
  have hstride : buf.stride.toNat = (buf.width * buf.channels).toNat := by
    rw [h.stride, uint32_toNat_mul (h.stride ▸ buf.stride.toNat_lt)]
  have hlocal : ∀ n, Local n fun a k => scalarByte p (a k) :=
    fun n a b hab k hk => congrArg (scalarByte p) (hab k hk)
  have hflat : strips 0 buf.stride.toNat (buf.width * buf.channels).toNat buf.height.toNat
      (fun a k => scalarByte p (a k)) buf.bytes =
        mapBytes (buf.width * buf.height * buf.channels).toNat (scalarByte p) buf.bytes := by
    rw [hstride, strips_adjacent 0 _ _ (hlocal _), h.count, mapBytes_eq_window]
    simp only [Nat.div_add_mod']
  rw [fusedExecScalar_strips, hflat]
  rfl

theorem Contiguous.congr {buf buf' : ImgBuffer} (h : Contiguous buf)
    (hheader : buf'.header = buf.header) : Contiguous buf' := by
  simp only [ImgBuffer.header, ImgHeader.mk.injEq] at hheader
  obtain ⟨-, hwidth, hheight, hchannels, hstride⟩ := hheader
  constructor
  · rw [hstride, hwidth, hchannels]
    exact h.stride
  · rw [hwidth, hheight, hchannels]
    exact h.size

-- The kernel for the signature of a descriptor does to each image what the function
-- for single images does with the flags.
theorem imgPipelineExecuteFusedBatch_eq_fallback (avx2 : Bool) (mem : Memory)
    (pipe : ImgPipelineDesc) (batch : ImgBatch) (images : Images)
    (hresize : ¬HasOp pipe.ops OP_RESIZE)
    (hbatch : ∀ p, some p ∈ batch → Contiguous (images.load p)) :
    (imgPipelineFuse avx2 mem pipe).2.fnBatch.isSome ∧
      imgPipelineExecuteFusedBatch (imgPipelineFuse avx2 mem pipe).1
        (imgPipelineFuse avx2 mem pipe).2 batch images =
          images.forEachM (fusedExecScalar (imgPipelineFuse avx2 mem pipe).1) batch := by
  have hparams : (imgPipelineFuse avx2 mem pipe).1 = fusedParams mem pipe.ops := by
    simp only [imgPipelineFuse, foldl_fuseOp]
  constructor
  · simp [imgPipelineFuse, foldl_fuseOp, imgGetFusedKernel_signature, hresize]
  · have himages : images.forEachM (fusedExecScalar (fusedParams mem pipe.ops)) batch =
        some (images.forEach (mapPixels (scalarByte (fusedParams mem pipe.ops))) batch) :=
      Images.forEachM_eq (fun _ => rfl) fun p hp _ hbuf =>
        ((hbatch p hp).congr hbuf).fusedExecScalar _
    have hkernel : fusedKernel (HasOp pipe.ops OP_GRAYSCALE) (HasOp pipe.ops OP_BRIGHTNESS) false
        (fusedParams mem pipe.ops) = mapPixels (scalarByte (fusedParams mem pipe.ops)) := by
      funext buf
      rw [fusedKernel_eq]
      rfl
    rw [hparams, imgPipelineExecuteFusedBatch_fuse, if_neg fun h => hresize h.1, himages,
      decide_eq_false hresize, Bool.false_and, hkernel]

-- A buffer that stands in the batch twice, next to a null pointer.
theorem imgPipelineExecuteFusedBatch_brightnessTwice :
    imgPipelineExecuteFusedBatch (imgPipelineFuse true fiveAndThree brightnessTwice).1
      (imgPipelineFuse true fiveAndThree brightnessTwice).2 [some 8, none, some 8] (onePixel 0) =
        (onePixel 0).forEachM
          (fusedExecScalar (imgPipelineFuse true fiveAndThree brightnessTwice).1)
          [some 8, none, some 8] := by
  refine (imgPipelineExecuteFusedBatch_eq_fallback true fiveAndThree brightnessTwice
    [some 8, none, some 8] (onePixel 0) (by decide) fun p _ => ?_).2
  change Contiguous ((onePixel 0).load 8)
  decide

end ImgEngine.Pipeline
