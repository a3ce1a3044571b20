import ImgEngine.Pipeline.Dispatch
import ImgEngine.Security

namespace ImgEngine.Api

open ImgEngine.Library.ByteMemory
open ImgEngine.Pipeline ImgEngine.Security

-- The process when img_api_process_fast compiles the pipeline: its memory, of which
-- only some bytes can be read, the jump table, and where the local variable of type
-- img_pipeline_compiled_t lies. The variable is not initialised.
structure Process where
  mem : Memory
  readable : Ptr → Bool
  jumpTable : Table
  compiled : Ptr
  inside : compiled.toNat + 520 ≤ 2 ^ 64

namespace Process

variable (process : Process)

def reads (addr : Ptr) (count : Nat) : Bool :=
  (List.range count).all fun i => process.readable (addr + UInt64.ofNat i)

-- An array of img_op_desc_t, which are 64 bytes long, with op_code at offset 0 and
-- params at offset 8.

def opCodeAt (mem : Memory) (ops : Ptr) (i : Nat) : Option UInt32 :=
  let op := ops + 64 * UInt64.ofNat i
  if process.reads op 4 then some (load32 mem op) else none

def paramsAt (mem : Memory) (ops : Ptr) (i : Nat) : Option Ptr :=
  let op := ops + 64 * UInt64.ofNat i
  if process.reads (op + 8) 8 then some (load64 mem (op + 8)) else none

-- What lies at an address that is cast to img_pipeline_runtime_t *: ops at offset 0
-- and count at offset 8.
def castRuntime (mem : Memory) (pipe : Ptr) : ImgPipelineRuntime where
  count := load32 mem (pipe + 8)
  opCode := process.opCodeAt mem (load64 mem pipe)
  params := process.paramsAt mem (load64 mem pipe)

end Process

section Call

variable {Ctx Buf : Type}

-- The null checks at the start are left out. decode_image_secure gives the image or
-- an error. A fault has no result.
def imgApiProcessFast (process : Process) (kernel : Ptr → Ptr → Ctx × Buf → Ctx × Buf)
    (decoded : Except ImgError Buf) (ctx : Ctx) (inputSize : UInt64) (pipe : ImgPipelineDesc) :
    Option (Except ImgError Buf) :=
  match imgSecurityValidateRequest 4096 4096 inputSize with
  | .error e => some (.error e)
  | .ok () =>
      match decoded with
      | .error e => some (.error e)
      | .ok buf =>
          if imgValidatePipelineSafety pipe = false then some (.error .security)
          else
            match (imgPipelineCompile process.jumpTable process.mem pipe process.compiled).2 with
            | none => some (.error .format)
            | some mem =>
                (imgPipelineExecuteHot process.jumpTable kernel
                  (process.castRuntime mem process.compiled) (ctx, buf)).map fun t => .ok t.2.2

end Call

section Stray

variable (process : Process) (pipe : ImgPipelineDesc)

end Stray

end ImgEngine.Api
