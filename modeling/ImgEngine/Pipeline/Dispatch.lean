import ImgEngine.Core.Word
import ImgEngine.Library.ByteMemory

namespace ImgEngine.Pipeline

open ImgEngine.Library.ByteMemory

def OP_RESIZE : UInt32 := 0x01
def OP_GRAYSCALE : UInt32 := 0x03
def OP_BRIGHTNESS : UInt32 := 0x04
def OP_CUSTOM_BASE : UInt32 := 0x1000

def IMG_MAX_PIPELINE_OPS : UInt32 := 32

-- The number of entries of g_jump_table and of g_batch_jump_table.
def IMG_MAX_OPS : UInt32 := 256

structure ImgOpDesc where
  opCode : UInt32
  params : Ptr

-- The ops array of a descriptor has as many elements as its count says.
structure ImgPipelineDesc where
  ops : List ImgOpDesc
  countable : ops.length < 2 ^ 32

def ImgPipelineDesc.count (pipe : ImgPipelineDesc) : UInt32 := UInt32.ofNat pipe.ops.length

def imgValidatePipelineSafety (pipe : ImgPipelineDesc) : Bool :=
  if pipe.count = 0 ∨ IMG_MAX_PIPELINE_OPS < pipe.count then false
  else pipe.ops.all fun op => !(op.opCode = 0 ∨ OP_CUSTOM_BASE ≤ op.opCode)

-- A table maps every index to what lies there, also past its end. A null pointer
-- marks an entry that is not set.
abbrev Table := UInt32 → Ptr

-- The fields of img_pipeline_compiled_t: count at offset 0, then from offset 8 on
-- the 32 pointers of ops and from offset 264 on those of params.

def compiledOps (out : Ptr) (i : Nat) : Ptr := out + 8 + 8 * UInt64.ofNat i

def compiledParams (out : Ptr) (i : Nat) : Ptr := out + 264 + 8 * UInt64.ofNat i

-- The loop of img_pipeline_compile from operation i on: the indices at which it
-- reads the table, and the memory it leaves, or none for the result -1.
def compileFrom (jumpTable : Table) (out : Ptr) :
    Nat → List ImgOpDesc → Memory → List UInt32 × Option Memory
  | _, [], mem => ([], some mem)
  | i, op :: ops, mem =>
      let fn := jumpTable op.opCode
      if fn = 0 then ([op.opCode], none)
      else
        let mem := store64 mem (compiledOps out i) fn
        let mem := store64 mem (compiledParams out i) op.params
        let (indices, result) := compileFrom jumpTable out (i + 1) ops mem
        (op.opCode :: indices, result)

def imgPipelineCompile (jumpTable : Table) (mem : Memory) (pipe : ImgPipelineDesc) (out : Ptr) :
    List UInt32 × Option Memory :=
  if pipe.count = 0 ∨ IMG_MAX_PIPELINE_OPS < pipe.count then ([], none)
  else compileFrom jumpTable out 0 pipe.ops (store32 mem out pipe.count)

-- img_pipeline_runtime_t with the array behind ops. A read without a value faults.
structure ImgPipelineRuntime where
  count : UInt32
  opCode : Nat → Option UInt32
  params : Nat → Option Ptr

-- A descriptor has the layout of a runtime pipeline.
def ImgPipelineDesc.runtime (pipe : ImgPipelineDesc) : ImgPipelineRuntime where
  count := pipe.count
  opCode i := pipe.ops[i]?.map ImgOpDesc.opCode
  params i := pipe.ops[i]?.map ImgOpDesc.params

section Execution

-- The state is what the kernels work on: the context and the buffer or the batch.
variable {S : Type} (table : Table) (kernel : Ptr → Ptr → S → S)

-- One round of the loop. The indices are those at which the table was read.
def executeOp (pipe : ImgPipelineRuntime) (i : Nat) (t : List UInt32 × S) :
    Option (List UInt32 × S) :=
  match pipe.opCode i with
  | none => none
  | some opCode =>
      let fn := table opCode
      if fn = 0 then some (t.1 ++ [opCode], t.2)
      else (pipe.params i).map fun params => (t.1 ++ [opCode], kernel fn params t.2)

def executeFrom (pipe : ImgPipelineRuntime) :
    Nat → Nat → List UInt32 × S → Option (List UInt32 × S)
  | 0, _, t => some t
  | count + 1, i, t => (executeOp table kernel pipe i t).bind (executeFrom pipe count (i + 1))

def executeRuntime (pipe : ImgPipelineRuntime) (s : S) : Option (List UInt32 × S) :=
  executeFrom table kernel pipe pipe.count.toNat 0 ([], s)

-- The loops of the two executors differ in the table and in the type of the kernels.

def imgPipelineExecuteHot (pipe : ImgPipelineRuntime) (s : S) : Option (List UInt32 × S) :=
  executeRuntime table kernel pipe s

def imgBatchExecuteRt (pipe : ImgPipelineRuntime) (s : S) : Option (List UInt32 × S) :=
  executeRuntime table kernel pipe s

-- What an operation stands for: the kernel of its table entry, if there is one.
def dispatch (s : S) (op : ImgOpDesc) : S :=
  let fn := table op.opCode
  if fn = 0 then s else kernel fn op.params s

end Execution

-- No table is read past its end, neither by the compiler nor by an executor.
structure InTables (jumpTable batchJumpTable : Table) (pipe : ImgPipelineDesc) : Prop where
  compile : ∀ mem out, ∀ index ∈ (imgPipelineCompile jumpTable mem pipe out).1,
    index < IMG_MAX_OPS
  hot : ∀ (S : Type) (kernel : Ptr → Ptr → S → S) s indices s',
    imgPipelineExecuteHot jumpTable kernel pipe.runtime s = some (indices, s') →
      ∀ index ∈ indices, index < IMG_MAX_OPS
  batch : ∀ (S : Type) (kernel : Ptr → Ptr → S → S) s indices s',
    imgBatchExecuteRt batchJumpTable kernel pipe.runtime s = some (indices, s') →
      ∀ index ∈ indices, index < IMG_MAX_OPS

end ImgEngine.Pipeline
