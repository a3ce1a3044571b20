import ImgEngine.Api.FastPath
import ImgEngine.Api.ProcessRaw

namespace ImgEngine.Api

open ImgEngine.Io ImgEngine.Memory ImgEngine.Pipeline ImgEngine.Security
open ImgEngine.Api.FastPath (FastState decodeImageSecure)

-- A call of the engine with what the calls outside of it answer. A job decodes the
-- file that it maps.
inductive SessionCall (F Ctx : Type) where
  | runJob (tj : TurboJpeg) (file : Input) (outside : Outside)
      (inputPath outputPath : Option (List Char)) (job : Option (ImgJob F))
  | processRaw (tj : TurboJpeg) (tjc : TurboCompress) (input : Input) (output outputSize : Ptr)
  | processFast (process : Process) (kernel : Ptr → Ptr → Ctx × ImgBuffer → Ctx × ImgBuffer)
      (tj : TurboJpeg) (ctx : Ctx) (input : Input) (pipe : ImgPipelineDesc) (out : ImgBuffer)

inductive Answer where
  | job (result : Except ImgError Unit)
  | raw (result : Except RawError (List UInt8))
  | fast (result : Except ImgError Unit)

def Answer.failed : Answer → Bool
  | .job result => !result.isOk
  | .raw result => !result.isOk
  | .fast result => !result.isOk

-- The engine's pool, and the blocks of the images that img_api_process_fast has decoded
-- into the caller's buffers. No function of the interface takes them back.
structure EngineSession where
  heap : Heap
  kept : List Ptr

-- The block of the image, if a call gets as far as to decode it.
def decodedBlock (tj : TurboJpeg) (input : Input) (s : FastState) : Option Ptr :=
  match imgSecurityValidateRequest 4096 4096 input.size, decodeImageSecure tj input s with
  | .ok (), (.ok (), s) => some s.out.data
  | _, _ => none

namespace EngineSession

variable {F Ctx : Type} [FloatType F]

-- A fault has no result.
def step (engine : Ptr) (s : EngineSession) : SessionCall F Ctx → Option (Answer × EngineSession)
  | .runJob tj file outside inputPath outputPath job =>
      let outside := { outside with decode := decodeEntry tj file }
      (imgApiRunJob outside engine inputPath outputPath job s.heap).map fun (result, heap) =>
        (.job result, { s with heap })
  | .processRaw tj tjc input output outputSize =>
      let (result, heap) := imgApiProcessRaw tj tjc engine input output outputSize s.heap
      some (.raw result, { s with heap })
  | .processFast process kernel tj ctx input pipe out =>
      let start : FastState := ⟨⟨some s.heap⟩, out⟩
      (FastPath.imgApiProcessFast process kernel tj ctx input pipe start).map
        fun (result, after) => (.fast result, {
          heap := after.ctx.localPool.getD s.heap
          kept := (decodedBlock tj input start).toList ++ s.kept })

def run (engine : Ptr) : EngineSession → List (SessionCall F Ctx) → Option (List Answer × EngineSession)
  | s, [] => some ([], s)
  | s, call :: calls =>
      (s.step engine call).bind fun (answer, s) =>
        (run engine s calls).map fun (answers, s) => (answer :: answers, s)

end EngineSession

end ImgEngine.Api
