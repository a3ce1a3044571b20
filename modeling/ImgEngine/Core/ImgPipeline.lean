import ImgEngine.Pipeline.Dispatch

namespace ImgEngine.Core

open ImgEngine.Library.ByteMemory ImgEngine.Pipeline

-- img_pipeline_desc_t has 16 bytes: the pointer ops at offset 0 and the count at 8.
-- `block` is what malloc finds for it, with 0 for failure, and none stands for the
-- result NULL.
def imgPipelineCreate (mem : Memory) (block : Ptr) : Option (Ptr × Memory) :=
  if block = 0 then none else some (block, store32 mem (block + 8) 0)

-- Where element i of ops lies.
def opAddress (mem : Memory) (pipe : Ptr) (i : UInt32) : Ptr :=
  load64 mem pipe + 64 * i.toUInt64

-- What a call returns and leaves, and where it stores into ops, as the address and the
-- number of bytes.
structure AddOp where
  ret : Int
  mem : Memory
  stores : List (Ptr × Nat)

-- The type img_op_desc_t is aligned to 64 bytes. A store through a pointer that is not
-- has no meaning, and no result here. Each store reads ops and count again.
def imgPipelineAddOp (mem : Memory) (pipe : Ptr) (opCode : UInt32) (params : Ptr) :
    Option AddOp :=
  if pipe = 0 ∨ IMG_MAX_PIPELINE_OPS ≤ load32 mem (pipe + 8) then some ⟨-1, mem, []⟩
  else
    let op := opAddress mem pipe (load32 mem (pipe + 8))
    if op.toNat % 64 ≠ 0 then none
    else
      let mem := store32 mem op opCode
      let op' := opAddress mem pipe (load32 mem (pipe + 8))
      if op'.toNat % 64 ≠ 0 then none
      else
        let mem := store64 mem (op' + 8) params
        let count := load32 mem (pipe + 8)
        some ⟨0, store32 mem (pipe + 8) (count + 1), [(op, 4), (op' + 8, 8)]⟩

-- The calls one after another, each with what it returns and leaves.
def addOps (pipe : Ptr) : Memory → List ImgOpDesc → Option (List AddOp)
  | _, [] => some []
  | mem, op :: ops =>
      (imgPipelineAddOp mem pipe op.opCode op.params).bind fun result =>
        (addOps pipe result.mem ops).map (result :: ·)

-- After call i the pipeline holds the operations that were added so far.
structure HoldsOps (pipe : Ptr) (ops : List ImgOpDesc) (i : Nat) (result : AddOp) : Prop where
  ret : result.ret = if i < 32 then 0 else -1
  count : (load32 result.mem (pipe + 8)).toNat = min (i + 1) 32
  ops : ∀ j < min (i + 1) 32, ∀ op, ops[j]? = some op →
    load32 result.mem (opAddress result.mem pipe (.ofNat j)) = op.opCode ∧
      load64 result.mem (opAddress result.mem pipe (.ofNat j) + 8) = op.params
  -- the stores stay within what was allocated
  stores : ∀ store ∈ result.stores, pipe.toNat ≤ store.1.toNat ∧
    store.1.toNat + store.2 ≤ pipe.toNat + 16

def BuildsPipeline (pipe : Ptr) (mem : Memory) (ops : List ImgOpDesc) : Prop :=
  ∃ results, addOps pipe mem ops = some results ∧
    ∀ i result, results[i]? = some result → HoldsOps pipe ops i result

end ImgEngine.Core
