import ImgEngine.Api.RunJob
import ImgEngine.Api.Shutdown

namespace ImgEngine.Api

open ImgEngine.Memory ImgEngine.Pipeline ImgEngine.Security

variable {F : Type} [FloatType F]

-- img_io_vtable_t
structure ImgIoVtable where
  decode : Ptr
  encode : Ptr
  encodePdf : Ptr

inductive Slot where
  | decode
  | encode
  | encodePdf
deriving DecidableEq

def ImgIoVtable.fn (vtable : ImgIoVtable) : Slot → Ptr
  | .decode => vtable.decode
  | .encode => vtable.encode
  | .encodePdf => vtable.encodePdf

-- The functions of the io layer. The address of a function is not null.
structure Codecs where
  imgDecodeToBuffer : Ptr
  imgEncodeFromBuffer : Ptr
  imgEncodePdf : Ptr
  decode_ne : imgDecodeToBuffer ≠ 0
  encode_ne : imgEncodeFromBuffer ≠ 0
  encodePdf_ne : imgEncodePdf ≠ 0

-- The globals of the process: g_io_vtable, and g_engine with its workers.
structure Globals where
  vtable : ImgIoVtable
  engine : Option Engine

-- g_io_vtable is {0} when the process starts.
def Globals.zero : Globals where
  vtable := { decode := 0, encode := 0, encodePdf := 0 }
  engine := none

def imgIoRegister (decode encode encodePdf : Ptr) (globals : Globals) : Globals :=
  { globals with vtable := { decode, encode, encodePdf } }

def imgIoRegisterDefaults (codecs : Codecs) (globals : Globals) : Globals :=
  imgIoRegister codecs.imgDecodeToBuffer codecs.imgEncodeFromBuffer codecs.imgEncodePdf globals

-- What img_engine_init does to these globals when the sandbox starts.
def imgEngineInit (codecs : Codecs) (globals : Globals) : Globals :=
  imgIoRegisterDefaults codecs globals

-- The slots of g_io_vtable that the functions of the library call through, in order,
-- when each call returns what the outside answers.

def encodeSlots (outputPath : List Char) : List Slot :=
  if isPdfOutput outputPath then [.encodePdf] else [.encode]

def layoutAndEncodeSlots (arena : ImgArena) (outputPath : List Char) (job : ImgJob F)
    (photo : ImgBuffer) (canvas : ImgCanvas) (heap : Heap) : List Slot :=
  match (imgLayoutGrid canvas photo job arena heap).1 with
  | .error _ => []
  | .ok (canvas, layout) =>
      match finishSheet canvas.buf layout job with
      | .error _ => []
      | .ok _ => encodeSlots outputPath

def decodedSlots (arena : ImgArena) (outputPath : List Char) (job : ImgJob F) :
    Except ImgError ImgBuffer × Heap → List Slot
  | (.error _, _) => []
  | (.ok photo, heap) =>
      match imgCanvasInit heap job with
      | some (.ok canvas, heap) => layoutAndEncodeSlots arena outputPath job photo canvas heap
      | _ => []

def imgApiRunJobSlots (outside : Outside) (engine : Ptr) (inputPath outputPath : Option (List Char))
    (job : Option (ImgJob F)) (heap : Heap) : List Slot :=
  match inputPath, outputPath, job with
  | some _, some outputPath, some job =>
      if engine = 0 then []
      else if job.abiVersion ≠ IMG_JOB_ABI_VERSION then []
      else match loadFileMmap outside with
        | .error _ => []
        | .ok fileSize =>
            match imgSecurityValidateRequest 16384 16384 fileSize with
            | .error _ => []
            | .ok () =>
                match imgArenaCreate outside.arenaMemory (1 * 1024 * 1024) with
                | none => []
                | some arena => .decode :: decodedSlots arena outputPath job (outside.decode heap)
  | _, _, _ => []

-- The arguments of img_api_process_raw, and whether the decoder succeeds.
structure RawCall where
  engine : Ptr
  input : Ptr
  inputSize : UInt64
  output : Ptr
  outputSize : Ptr
  decodes : Bool

def imgApiProcessRawSlots (call : RawCall) : List Slot :=
  if call.engine = 0 ∨ call.input = 0 ∨ call.output = 0 ∨ call.outputSize = 0 then []
  else
    match imgSecurityValidateRequest 4096 4096 call.inputSize with
    | .error _ => []
    | .ok () => if call.decodes then [.decode, .encode] else [.decode]

-- The arguments of img_api_process_fast.
structure FastCall where
  engine : Ptr
  input : Ptr
  inputSize : UInt64
  pipe : Ptr
  outBuf : Ptr

def imgApiProcessFastSlots (call : FastCall) : List Slot :=
  if call.engine = 0 ∨ call.input = 0 ∨ call.pipe = 0 ∨ call.outBuf = 0 then []
  else
    match imgSecurityValidateRequest 4096 4096 call.inputSize with
    | .error _ => []
    | .ok () => [.decode]

-- One call of a program that uses the public API. A job finds the pool as the calls
-- before it and beside it have left it.
inductive Call (F : Type) where
  | init (sandbox : Bool) (workers : UInt32) (slab : Bool)
  | runJob (outside : Outside) (engine : Ptr) (inputPath outputPath : Option (List Char))
      (job : Option (ImgJob F)) (heap : Heap)
  | processRaw (call : RawCall)
  | processFast (call : FastCall)
  | shutdown (engine : Ptr)
  | encodedFree (ptr : Ptr)

namespace Call

def slots : Call F → List Slot
  | .runJob outside engine inputPath outputPath job heap =>
      imgApiRunJobSlots outside engine inputPath outputPath job heap
  | .processRaw call => imgApiProcessRawSlots call
  | .processFast call => imgApiProcessFastSlots call
  | .init _ _ _ | .shutdown _ | .encodedFree _ => []

def initialised : Call F → Option Engine
  | .init sandbox workers slab => if sandbox ∧ slab then imgApiInit workers else none
  | _ => none

-- What a call leaves in the globals. Only img_api_init touches them.
def step (globals : Globals) (call : Call F) : Globals :=
  match call.initialised with
  | some engine => { globals with engine := some engine }
  | none => globals

def isShutdown : Call F → Bool
  | .shutdown _ => true
  | _ => false

def usesCodecs : Call F → Bool
  | .runJob _ _ _ _ _ _ | .processRaw _ | .processFast _ => true
  | _ => false

-- The checks that come before the decoder.
structure RunJobAdmitted (outside : Outside) (engine : Ptr)
    (inputPath outputPath : Option (List Char)) (job : Option (ImgJob F)) : Prop where
  engine : engine ≠ 0
  inputPath : inputPath.isSome
  outputPath : outputPath.isSome
  job : ∃ given, job = some given ∧ given.abiVersion = IMG_JOB_ABI_VERSION
  file : ∃ size, loadFileMmap outside = .ok size ∧
    imgSecurityValidateRequest 16384 16384 size = .ok ()
  arena : outside.arenaMemory.isSome

def Admitted : Call F → Prop
  | .runJob outside engine inputPath outputPath job _ =>
      RunJobAdmitted outside engine inputPath outputPath job
  | .processRaw call =>
      (call.engine ≠ 0 ∧ call.input ≠ 0 ∧ call.output ≠ 0 ∧ call.outputSize ≠ 0) ∧
        imgSecurityValidateRequest 4096 4096 call.inputSize = .ok ()
  | .processFast call =>
      (call.engine ≠ 0 ∧ call.input ≠ 0 ∧ call.pipe ≠ 0 ∧ call.outBuf ≠ 0) ∧
        imgSecurityValidateRequest 4096 4096 call.inputSize = .ok ()
  | .init _ _ _ | .shutdown _ | .encodedFree _ => False

end Call

-- The pointers that the slots are called through. A call through a null pointer ends
-- the process.
def callThrough (vtable : ImgIoVtable) : List Slot → List Ptr × Bool
  | [] => ([], true)
  | slot :: slots =>
      if vtable.fn slot = 0 then ([0], false)
      else
        let (called, alive) := callThrough vtable slots
        (vtable.fn slot :: called, alive)

def runCalls (globals : Globals) : List (Call F) → List Ptr
  | [] => []
  | call :: calls =>
      let (called, alive) := callThrough globals.vtable call.slots
      called ++ if alive then runCalls (call.step globals) calls else []

-- The programs in question: they start with a successful img_api_init and use the
-- codecs only before img_api_shutdown.
structure Session (F : Type) [FloatType F] where
  calls : List (Call F)
  starts : calls.head?.any (fun call => call.initialised.isSome) = true
  beforeShutdown : (calls.dropWhile fun call => !call.isShutdown).any Call.usesCodecs = false

end ImgEngine.Api
