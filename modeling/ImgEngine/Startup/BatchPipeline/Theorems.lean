import ImgEngine.Arch.ColorNorm.Theorems
import ImgEngine.Startup.BatchPipeline
import ImgEngine.Startup.SinglePipeline.Theorems

namespace ImgEngine.Startup

open ImgEngine.Arch ImgEngine.Plugins
open ImgEngine.Pipeline hiding lastGiven

theorem SinglesOnly.batches {entries : Section} (h : SinglesOnly entries) : batches entries = [] := by
  rw [Plugins.batches, List.filterMap_eq_nil_iff]
  intro p hp
  obtain ⟨q, hq, hbatch⟩ := h _ (List.reduceOption_mem_iff.mp hp)
  obtain rfl := Option.some_inj.mp hq
  rw [given]
  split_ifs
  · rw [hbatch]
    rfl
  · rfl

theorem batchJump_kernels (caps : UInt32) {entries : Section} (h : SinglesOnly entries) :
    ∃ tables, imgEngineInit true caps entries = some tables ∧ ∀ opcode, tables.batchJump opcode =
      if imgCpuHasAvx2 caps ∧ opcode = OP_RESIZE then some .fusedResizeColorNormAvx2 else none := by
  have hnull : none ∉ entries := fun hmem => by
    obtain ⟨p, hp, -⟩ := h none hmem
    cases hp
  obtain ⟨tables, hinit, htables⟩ := imgEngineInit_loaded caps hnull
  refine ⟨tables, hinit, fun opcode => ?_⟩
  rw [(htables opcode).2, h.batches]
  change (kernelTables caps).batchJump opcode = _
  by_cases havx2 : imgCpuHasAvx2 caps = true
  · by_cases hop : opcode = OP_RESIZE
    · simp [kernelTables, imgFusedInit, havx2, hop]
    · simp only [kernelTables, imgFusedInit, havx2, if_true, Function.update_of_ne hop, hop,
        and_false, if_false, batchTableInit]
      split_ifs
      · rfl
      · exact Function.update_of_ne hop _ _
  · simp [kernelTables, imgFusedInit, havx2, batchTableInit]

theorem batchOps_rounds {Ctx : Type} (linked : BatchLinked Ctx) {caps : UInt32} {tables : Tables}
    (htable : ∀ opcode, tables.batchJump opcode =
      if imgCpuHasAvx2 caps ∧ opcode = OP_RESIZE then some .fusedResizeColorNormAvx2 else none)
    {batch : ImgBatch} {images : Images} (ctx : Ctx) (k : Nat) (ops : List ImgOpDesc)
    (hops : ∀ op ∈ ops, op.opCode < IMG_MAX_OPS)
    (hfit : ∀ op ∈ ops, op.opCode = OP_RESIZE → imgCpuHasAvx2 caps →
      ∀ entry ∈ batch, ∃ p, entry = some p ∧ RowsFit (images.header p)) :
    ops.foldl (dispatch (linked.batchJumpTable tables) (linked.call batch))
        (ctx, some (normRounds k batch images)) =
      (ctx, some (normRounds (k + if imgCpuHasAvx2 caps then
        ops.countP (fun op => op.opCode = OP_RESIZE) else 0) batch images)) := by
  induction ops generalizing k with
  | nil => simp
  | cons op ops ih =>
      have hrest := fun k => ih k (fun op hmem => hops op (List.mem_cons_of_mem _ hmem))
        fun op hmem => hfit op (List.mem_cons_of_mem _ hmem)
      rw [List.foldl_cons, List.countP_cons]
      simp only [dispatch, BatchLinked.batchJumpTable, hops op List.mem_cons_self, if_true, htable]
      by_cases hround : imgCpuHasAvx2 caps = true ∧ op.opCode = OP_RESIZE
      · have hnorm := imgFusedResizeColorNormAvx2_round k
          (hfit op List.mem_cons_self hround.2 hround.1)
        simp only [if_pos hround, Option.elim_some, linked.nonnull, if_false, linked.colorNorm,
          Option.bind_some, hnorm, hrest]
        simp only [hround, decide_true, if_true, Nat.add_right_comm k 1, Nat.add_assoc]
      · simp only [if_neg hround, Option.elim_none, if_true, hrest]
        by_cases havx2 : imgCpuHasAvx2 caps = true
        · have hop : op.opCode ≠ OP_RESIZE := fun hop => hround ⟨havx2, hop⟩
          simp [havx2, hop]
        · simp [havx2]

-- After img_engine_init the batch executor does nothing for any operation but the resize,
-- and nothing at all without AVX2. A resize does not change the size of an image: for
-- every entry of the batch it halves every byte of the rows.
theorem batchPipeline_runs {Ctx : Type} (linked : BatchLinked Ctx) (caps : UInt32)
    (entries : Section) (pipe : ImgPipelineDesc) (ctx : Ctx) (batch : ImgBatch) (images : Images)
    (hentries : SinglesOnly entries) (hpipe : ∀ op ∈ pipe.ops, op.opCode < IMG_MAX_OPS)
    (hfit : rounds caps pipe ≠ 0 →
      ∀ entry ∈ batch, ∃ p, entry = some p ∧ RowsFit (images.header p)) :
    ∃ tables images', imgEngineInit true caps entries = some tables ∧
      imgBatchExecuteRt (linked.batchJumpTable tables) (linked.call batch) pipe.runtime
        (ctx, some images) = some (pipe.ops.map ImgOpDesc.opCode, (ctx, some images')) ∧
      images'.header = images.header ∧
      ∀ a, Halved (rounds caps pipe) images batch a (images'.memory a) := by
  obtain ⟨tables, hinit, htable⟩ := batchJump_kernels caps hentries
  have hresizes : ∀ op ∈ pipe.ops, op.opCode = OP_RESIZE → imgCpuHasAvx2 caps →
      ∀ entry ∈ batch, ∃ p, entry = some p ∧ RowsFit (images.header p) := by
    intro op hmem hresize havx2
    refine hfit ?_
    rw [rounds, if_pos havx2]
    exact (List.countP_pos_iff.mpr ⟨op, hmem, by simpa using hresize⟩).ne'
  have hfold := batchOps_rounds linked htable ctx 0 pipe.ops hpipe hresizes
  rw [Nat.zero_add] at hfold
  refine ⟨tables, normRounds (rounds caps pipe) batch images, hinit, ?_, rfl,
    normRounds_halved _ batch images⟩
  rw [imgBatchExecuteRt, executeRuntime_runtime]
  exact congrArg (fun s => some (pipe.ops.map ImgOpDesc.opCode, s)) hfold

-- An image whose rows have one whole vector and a byte behind it, resized three times in
-- a batch that has it twice.

def plainBatchLink : BatchLinked Unit where
  address
    | .fusedResizeColorNormAvx2 => 0x1000
    | _ => 0x2000
  nonnull fn := by cases fn <;> simp
  beyond _ := 0
  call batch fn _ s :=
    if fn = 0x1000 then (s.1, s.2.bind (imgFusedResizeColorNormAvx2 batch)) else s
  colorNorm _ _ _ := rfl

def vectorImage : Images where
  header _ := ⟨0x8000, 11, 2, 3, 40⟩
  memory _ := 201

def resizeThrice : ImgPipelineDesc where
  ops := [⟨OP_RESIZE, 0⟩, ⟨OP_RESIZE, 0⟩, ⟨OP_GRAYSCALE, 0⟩, ⟨OP_RESIZE, 0⟩]
  countable := by decide

-- Six rounds: 201 goes to 4 in a vector and to 3 behind it.
theorem batchPipeline_runs_thrice :
    ∃ tables images', imgEngineInit true CPU_CAP_AVX2 shippedPlugins = some tables ∧
      imgBatchExecuteRt (plainBatchLink.batchJumpTable tables) (plainBatchLink.call [some 8, some 8])
        resizeThrice.runtime ((), some vectorImage) =
          some (resizeThrice.ops.map ImgOpDesc.opCode, ((), some images')) ∧
      images'.header = vectorImage.header ∧
      (images'.memory 0x8000).toNat = 4 ∧ (images'.memory 0x8020).toNat = 3 := by
  obtain ⟨tables, images', hinit, hrun, hheader, hhalved⟩ :=
    batchPipeline_runs plainBatchLink CPU_CAP_AVX2 _ resizeThrice () [some 8, some 8] vectorImage
      (fun entry hmem => ⟨grayscalePlugin, List.mem_singleton.mp hmem, rfl⟩) (by decide)
      fun _ entry hmem => ⟨8, by simpa using hmem, by decide, by decide, by decide⟩
  refine ⟨tables, images', hinit, hrun, hheader, ?_, ?_⟩
  · exact ((hhalved 0x8000).up (by decide)).trans (by decide)
  · exact ((hhalved 0x8020).down (by decide)).trans (by decide)

end ImgEngine.Startup
