import ImgEngine.Api.RunJob.Theorems

namespace ImgEngine.Api

open ImgEngine.Io ImgEngine.Memory ImgEngine.Security

-- The calls of turbojpeg that compress. The image is given by its rows, and none stands
-- for a failure.
structure TurboCompress where
  initCompress : Bool
  compress : List (List UInt8) → Option (List UInt8)

-- What tjCompress2 reads of a buffer with three bytes a pixel. The pitch 0 means rows
-- without a gap.
def pixelRows (buf : ImgBuffer) : List (List UInt8) :=
  let row := 3 * buf.width.toNat
  let pitch := if buf.stride = 0 then row else buf.stride.toNat
  (List.range buf.height.toNat).map fun y =>
    (List.range row).map fun k => buf.bytes (y * pitch + k)

-- The result -1 is none.
def imgEncodeFromBuffer (tjc : TurboCompress) (buf : Option ImgBuffer) : Option (List UInt8) :=
  match buf with
  | none => none
  | some buf => if ¬tjc.initCompress then none else tjc.compress (pixelRows buf)

-- The -1 of the encoder is handed on, and is no img_result_t.
inductive RawError where
  | result (e : ImgError)
  | minusOne
deriving DecidableEq

-- With the decoder and the encoder that are registered. The encoded bytes are what
-- *output points to.
def imgApiProcessRaw (tj : TurboJpeg) (tjc : TurboCompress) (engine : Ptr) (input : Input)
    (output outputSize : Ptr) (heap : Heap) : Except RawError (List UInt8) × Heap :=
  if engine = 0 ∨ input.ptr = 0 ∨ output = 0 ∨ outputSize = 0 then
    (.error (.result .security), heap)
  else
    match imgSecurityValidateRequest 4096 4096 input.size with
    | .error e => (.error (.result e), heap)
    | .ok () =>
        match decodeEntry tj input heap with
        | (.error e, heap) => (.error (.result e), heap)
        | (.ok buf, heap) =>
            match imgEncodeFromBuffer tjc (some buf) with
            | none => (.error .minusOne, heap.release buf.data)
            | some bytes => (.ok bytes, heap.release buf.data)

end ImgEngine.Api
