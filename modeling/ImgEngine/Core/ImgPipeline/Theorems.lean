import ImgEngine.Core.ImgPipeline

namespace ImgEngine.Core

open ImgEngine.Library.ByteMemory ImgEngine.Pipeline

-- What malloc promises for 16 bytes.
structure Malloced (block : Ptr) : Prop where
  nonnull : block ≠ 0
  aligned : block.toNat % 16 = 0
  space : block.toNat + 16 ≤ 2 ^ 64

theorem Malloced.count_toNat {block : Ptr} (h : Malloced block) :
    (block + 8).toNat = block.toNat + 8 := by
  have hspace := h.space
  rw [UInt64.toNat_add]
  exact Nat.mod_eq_of_lt (by change _ + 8 < _; omega)

@[simp] theorem opAddress_zero (mem : Memory) (pipe : Ptr) :
    opAddress mem pipe 0 = load64 mem pipe := by
  simp [opAddress]

section FirstCall

variable {mem : Memory} {pipe params : Ptr} {opCode : UInt32} {result : AddOp}

-- The addresses and the memory of the first call.
theorem addOp_first (hpipe : pipe ≠ 0) (hcount : load32 mem (pipe + 8) = 0)
    (h : imgPipelineAddOp mem pipe opCode params = some result) :
    ∃ mem' op', (load64 mem pipe).toNat % 64 = 0 ∧ mem' = store32 mem (load64 mem pipe) opCode ∧
      op' = opAddress mem' pipe (load32 mem' (pipe + 8)) ∧ op'.toNat % 64 = 0 ∧
      result = ⟨0, store32 (store64 mem' (op' + 8) params) (pipe + 8)
          (load32 (store64 mem' (op' + 8) params) (pipe + 8) + 1),
        [(load64 mem pipe, 4), (op' + 8, 8)]⟩ := by
  have hroom : ¬(pipe = 0 ∨ IMG_MAX_PIPELINE_OPS ≤ load32 mem (pipe + 8)) := by
    rw [hcount]
    exact not_or.mpr ⟨hpipe, by decide⟩
  rw [imgPipelineAddOp, if_neg hroom] at h
  simp only [hcount, opAddress_zero] at h
  split_ifs at h with hop hop'
  exact ⟨_, _, not_not.mp hop, rfl, rfl, not_not.mp hop', (Option.some.inj h).symm⟩

-- Within the descriptor only its start is aligned as the operations have to be.
theorem opAddress_eq_pipe (hpipe : Malloced pipe) {op : Ptr} (halign : op.toNat % 64 = 0)
    (hinside : pipe.toNat ≤ op.toNat ∧ op.toNat + 4 ≤ pipe.toNat + 16) : op = pipe := by
  have haligned := hpipe.aligned
  exact UInt64.toNat_inj.mp (by omega)

theorem paramsAddress_eq_pipe (hpipe : Malloced pipe) {op : Ptr} (halign : op.toNat % 64 = 0)
    (hinside : pipe.toNat ≤ (op + 8).toNat ∧ (op + 8).toNat + 8 ≤ pipe.toNat + 16) :
    op = pipe := by
  have haligned := hpipe.aligned
  have hop := op.toNat_lt
  have hadd : (op + 8).toNat = op.toNat + 8 := by
    rw [UInt64.toNat_add]
    exact Nat.mod_eq_of_lt (by change _ + 8 < _; omega)
  rw [hadd] at hinside
  exact UInt64.toNat_inj.mp (by omega)

-- What is stored behind the pointer leaves it alone.
theorem load64_pipe (hpipe : Malloced pipe) (mem : Memory) (word : Ptr) (count : UInt32) :
    load64 (store32 (store64 mem (pipe + 8) word) (pipe + 8) count) pipe = load64 mem pipe := by
  have hspace := hpipe.space
  have hcount := hpipe.count_toNat
  refine load64_congr fun i hi => ?_
  have haddr : (pipe + UInt64.ofNat i).toNat = pipe.toNat + i := by
    rw [UInt64.toNat_add, UInt64.toNat_ofNat', Nat.mod_eq_of_lt (a := i) (by omega),
      Nat.mod_eq_of_lt (by omega)]
  rw [store32_of_apart (by omega) (by omega), store64_of_apart (by omega) (by omega)]

-- Where the stores stay within the descriptor, the parameters and the count share a word.
theorem addOp_not_holds (hpipe : Malloced pipe) (hcount : load32 mem (pipe + 8) = 0)
    {ops : List ImgOpDesc} (h : imgPipelineAddOp mem pipe opCode params = some result) :
    ¬HoldsOps pipe (⟨opCode, params⟩ :: ops) 0 result := by
  obtain ⟨mem', op', hop, hmem', hop', halign, rfl⟩ := addOp_first hpipe.nonnull hcount h
  intro hholds
  have hcode := hholds.stores _ List.mem_cons_self
  have hparams := hholds.stores _ (List.mem_cons_of_mem _ List.mem_cons_self)
  have hfirst : load64 mem pipe = pipe := opAddress_eq_pipe hpipe hop hcode
  have hsecond : op' = pipe := paramsAddress_eq_pipe hpipe halign hparams
  have hcount' : load32 mem' (pipe + 8) = 0 := by
    have hspace := hpipe.space
    have hword := hpipe.count_toNat
    rw [hmem', hfirst, load32_store32_of_apart (by omega) (by omega) (by omega), hcount]
  rw [hsecond, hcount', opAddress_zero] at hop'
  subst hsecond
  -- the operation is read back from where its parameters share their word with the count
  have hread := (hholds.ops 0 (by decide) _ rfl).2
  have hself : load64 (store32 (store64 mem' (op' + 8) params) (op' + 8)
      (load32 (store64 mem' (op' + 8) params) (op' + 8) + 1)) op' = op' := by
    rw [load64_pipe hpipe, ← hop']
  rw [show UInt32.ofNat 0 = 0 from rfl, opAddress_zero, hself] at hread
  have hlow := congrArg UInt64.toUInt32 hread
  rw [load64_toUInt32, load32_store32, load32_store64] at hlow
  exact absurd (UInt32.add_eq_left.mp hlow) (by decide)

end FirstCall

-- Whatever malloc left in the descriptor, a pipeline is only right as long as nothing
-- is added to it.
theorem imgPipelineCreate_builds_iff (mem mem' : Memory) (block pipe : Ptr) (ops : List ImgOpDesc)
    (hblock : Malloced block) (hcreate : imgPipelineCreate mem block = some (pipe, mem')) :
    BuildsPipeline pipe mem' ops ↔ ops = [] := by
  rw [imgPipelineCreate, if_neg hblock.nonnull, Option.some.injEq, Prod.mk.injEq] at hcreate
  obtain ⟨rfl, rfl⟩ := hcreate
  constructor
  · rintro ⟨results, hresults, hholds⟩
    cases ops with
    | nil => rfl
    | cons op ops =>
        obtain ⟨result, hresult, hrest⟩ := Option.bind_eq_some_iff.mp hresults
        obtain ⟨rest, -, rfl⟩ := Option.map_eq_some_iff.mp hrest
        exact absurd (hholds 0 result rfl)
          (addOp_not_holds hblock (load32_store32 mem _ 0) hresult)
  · rintro rfl
    exact ⟨[], rfl, nofun⟩

-- A descriptor in cleared memory, whose pointer is null.

def clearedPipeline : Memory := store32 (fun _ => 0) 4104 0

theorem malloced_4096 : Malloced 4096 := ⟨by decide, by decide, by decide⟩

theorem imgPipelineCreate_builds_empty : BuildsPipeline 4096 clearedPipeline [] :=
  (imgPipelineCreate_builds_iff (fun _ => 0) clearedPipeline 4096 4096 [] malloced_4096 rfl).mpr rfl

-- The first operation is stored at the null pointer.
theorem imgPipelineAddOp_null : imgPipelineCreate (fun _ => 0) 4096 = some (4096, clearedPipeline) ∧
    ¬BuildsPipeline 4096 clearedPipeline [⟨OP_RESIZE, 0⟩] := by
  refine ⟨rfl, ?_⟩
  rintro ⟨results, hresults, hholds⟩
  obtain ⟨result, hresult, hrest⟩ := Option.bind_eq_some_iff.mp hresults
  obtain ⟨rest, -, rfl⟩ := Option.map_eq_some_iff.mp hrest
  have hstores : (imgPipelineAddOp clearedPipeline 4096 OP_RESIZE 0).map AddOp.stores =
      some [(0, 4), (8, 8)] := by decide
  rw [hresult, Option.map_some, Option.some.injEq] at hstores
  have hinside := (hholds 0 result rfl).stores (0, 4) (hstores ▸ List.mem_cons_self)
  exact absurd hinside.1 (by decide)

end ImgEngine.Core
