import ImgEngine.Api.ProcessFast
import ImgEngine.Io.Decoder

namespace ImgEngine.Api.FastPath

open ImgEngine.Io ImgEngine.Pipeline ImgEngine.Security

-- The fast path with the engine's pool and *out_buf.
structure FastState where
  ctx : ImgCtx
  out : ImgBuffer

-- With the decoder of the io layer, which is the one that is registered.
def decodeImageSecure (tj : TurboJpeg) (input : Input) (s : FastState) :
    Except ImgError Unit × FastState :=
  let decoded := imgDecodeToBuffer tj (some s.ctx) input (some s.out)
  (decoded.ret.mapError DecodeExit.code, ⟨decoded.ctx.getD s.ctx, decoded.out.getD s.out⟩)

variable {Ctx : Type}

-- The null checks at the start are left out. The kernels get a context of their own,
-- which has no pool. A fault has no result.
def imgApiProcessFast (process : Process)
    (kernel : Ptr → Ptr → Ctx × ImgBuffer → Ctx × ImgBuffer) (tj : TurboJpeg) (ctx : Ctx)
    (input : Input) (pipe : ImgPipelineDesc) (s : FastState) :
    Option (Except ImgError Unit × FastState) :=
  match imgSecurityValidateRequest 4096 4096 input.size with
  | .error e => some (.error e, s)
  | .ok () =>
      match decodeImageSecure tj input s with
      | (.error e, s) => some (.error e, s)
      | (.ok (), s) =>
          if imgValidatePipelineSafety pipe = false then some (.error .security, s)
          else
            match (imgPipelineCompile process.jumpTable process.mem pipe process.compiled).2 with
            | none => some (.error .format, s)
            | some mem =>
                (imgPipelineExecuteHot process.jumpTable kernel
                  (process.castRuntime mem process.compiled) (ctx, s.out)).map fun t =>
                    (.ok (), { s with out := t.2.2 })

-- A call that reports an error leaves the free blocks and *out_buf as they were.
def AtomicOnError (call : FastState → Option (Except ImgError Unit × FastState)) (s : FastState) :
    Prop :=
  ∀ e s', call s = some (.error e, s') →
    s'.ctx.localPool.map (·.pool) = s.ctx.localPool.map (·.pool) ∧ s'.out = s.out

end ImgEngine.Api.FastPath
