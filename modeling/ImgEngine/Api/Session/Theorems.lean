import ImgEngine.Api.FastPath.Theorems
import ImgEngine.Api.Session

namespace ImgEngine.Api

open ImgEngine.Io ImgEngine.Memory ImgEngine.Pipeline ImgEngine.Security
open ImgEngine.Api.FastPath (FastState decodeImageSecure)

variable {F Ctx : Type} [FloatType F]

-- What a call takes from the pool and gives back to it.

section Pool

variable {limit : Nat} {start : BlockPool} {held : List Ptr} {heap heap' : Heap} {tj : TurboJpeg}
  {input : Input}

-- A whole job gives back what it takes, whatever is held before it.
theorem imgApiRunJob_bracket (outside : Outside)
    (hdecode : ∀ heap, TakesOne heap (outside.decode heap)) {engine : Ptr}
    {inputPath outputPath : Option (List Char)} {job : Option (ImgJob F)}
    {result : Except ImgError Unit} (h : Bracket limit start held heap)
    (hroom : held.length + 4 ≤ limit)
    (hrun : imgApiRunJob outside engine inputPath outputPath job heap = some (result, heap')) :
    Bracket limit start held heap' := by
  rw [imgApiRunJob_eq] at hrun
  split at hrun
  · cases hrun
    exact h
  · have hdecoded := (hdecode heap).acquired h (by omega)
    generalize outside.decode heap = decoded at hdecoded hrun
    obtain ⟨_ | photo, heap₁⟩ := decoded
    · cases hrun
      exact hdecoded
    · simp only [afterDecode] at hrun
      have hphoto : (photo.data :: held).length < limit := by simp only [List.length_cons]; omega
      split at hrun
      · cases hrun
      · next hinit =>
          cases hrun
          exact (imgCanvasInit_acquired hdecoded hphoto hinit).releaseFirst
      · next hinit =>
          have hcanvas := imgCanvasInit_acquired hdecoded hphoto hinit
          obtain ⟨-, rfl⟩ := Prod.ext_iff.mp (Option.some.inj hrun)
          exact layoutAndEncode_bracket hcanvas hroom _ _ _ _

theorem imgApiProcessRaw_bracket (h : Bracket limit start held heap) (hroom : held.length < limit)
    (tjc : TurboCompress) (engine output outputSize : Ptr) :
    Bracket limit start held
      (imgApiProcessRaw tj tjc engine input output outputSize heap).2 := by
  unfold imgApiProcessRaw
  split_ifs
  · exact h
  · cases imgSecurityValidateRequest 4096 4096 input.size with
    | error e => exact h
    | ok =>
        have hdecoded := (decodeEntry_takesOne tj input heap).acquired h hroom
        simp only
        generalize decodeEntry tj input heap = decoded at hdecoded ⊢
        obtain ⟨_ | buf, heap₁⟩ := decoded
        · exact hdecoded
        · simp only
          split
          · exact hdecoded.releaseFirst
          · exact hdecoded.releaseFirst

-- The secure entry decodes as the registered decoder does, into another buffer.
theorem decodeImageSecure_takesOne (tj : TurboJpeg) (input : Input) (heap : Heap)
    (out : ImgBuffer) :
    ∃ heap', (decodeImageSecure tj input ⟨⟨some heap⟩, out⟩).2.ctx = ⟨some heap'⟩ ∧
      TakesOne heap ((decodeImageSecure tj input ⟨⟨some heap⟩, out⟩).1.map
        fun _ => (decodeImageSecure tj input ⟨⟨some heap⟩, out⟩).2.out, heap') := by
  have hcase := imgDecodeToBuffer_cases tj (some ⟨some heap⟩) input (some out)
  unfold decodeImageSecure
  simp only
  generalize hctx : some (ImgCtx.mk (some heap)) = ctx at hcase ⊢
  generalize hout : some out = given at hcase ⊢
  generalize imgDecodeToBuffer tj ctx input given = decoded at hcase ⊢
  cases hcase with
  | refused e _ =>
      cases hctx
      exact ⟨heap, rfl, .inl rfl⟩
  | pixels _ _ _ _ _ _ hcase =>
      cases hctx
      cases hcase with
      | blockSize _ => exact ⟨heap, rfl, .inl rfl⟩
      | noBlock _ _ => exact ⟨heap, rfl, .inl rfl⟩
      | decompress _ halloc _ =>
          obtain ⟨first, taken, hfirst, rfl, halloc⟩ := ImgCtx.alloc_some halloc
          cases hfirst
          exact ⟨_, rfl, .inr ⟨_, taken, halloc, rfl⟩⟩
      | ok _ halloc _ =>
          obtain ⟨first, taken, hfirst, rfl, halloc⟩ := ImgCtx.alloc_some halloc
          cases hfirst
          exact ⟨taken, rfl, halloc⟩

-- After the decoder, the fast path leaves the pool alone.
theorem imgApiProcessFast_after {process : Process}
    {kernel : Ptr → Ptr → Ctx × ImgBuffer → Ctx × ImgBuffer} {ctx : Ctx} {pipe : ImgPipelineDesc}
    {s after : FastState} {result : Except ImgError Unit}
    (h : FastPath.imgApiProcessFast process kernel tj ctx input pipe s = some (result, after)) :
    after.ctx =
      match imgSecurityValidateRequest 4096 4096 input.size with
      | .error _ => s.ctx
      | .ok () => (decodeImageSecure tj input s).2.ctx := by
  unfold FastPath.imgApiProcessFast at h
  cases hgate : imgSecurityValidateRequest 4096 4096 input.size with
  | error e =>
      rw [hgate] at h
      cases h
      rfl
  | ok =>
      rw [hgate] at h
      cases hdecoded : decodeImageSecure tj input s with
      | mk ret next =>
          rw [hdecoded] at h
          cases ret with
          | error e =>
              cases h
              rfl
          | ok =>
              simp only at h
              split_ifs at h
              · cases h
                rfl
              · split at h
                · cases h
                  rfl
                · obtain ⟨t, -, ht⟩ := Option.map_eq_some_iff.mp h
                  cases ht
                  rfl

end Pool

-- The size of the blocks stays.

section BlockSize

variable {heap heap' : Heap}

theorem release_blockSize (heap : Heap) (block : Ptr) :
    (heap.release block).pool.blockSize = heap.pool.blockSize := by
  unfold Heap.release
  split_ifs with hblock
  · rfl
  · simp only [BlockPool.release, if_neg hblock]

theorem TakesOne.blockSize {result : Except ImgError ImgBuffer × Heap} (h : TakesOne heap result) :
    result.2.pool.blockSize = heap.pool.blockSize := by
  obtain ⟨photo | photo, heap'⟩ := result
  · rcases h with rfl | ⟨block, taken, halloc, rfl⟩
    · rfl
    · rw [release_blockSize]
      exact (Heap.alloc_some halloc).2
  · exact (Heap.alloc_some h).2

theorem ends_blockSize {cellW cellH : UInt32} {make : Bytes → Bytes → Bytes → Bytes}
    {run : Bytes → Except ImgError ImgBuffer × Heap} (hends : Ends heap cellW cellH make run)
    (bytes : Bytes) : (run bytes).2.pool.blockSize = heap.pool.blockSize := by
  cases hends with
  | early e hrun => rw [hrun]
  | late e halloc hrun =>
      rw [hrun, release_blockSize]
      exact (Heap.alloc_some halloc).2
  | done stale tmpStale halloc halloc' hblocks hsize hrun =>
      rw [hrun, release_blockSize, (Heap.alloc_some halloc').2]
      exact (Heap.alloc_some halloc).2

theorem imgLayoutGrid_blockSize (canvas : ImgCanvas) (photo : ImgBuffer) (job : ImgJob F)
    (arena : ImgArena) (heap : Heap) :
    (imgLayoutGrid canvas photo job arena heap).2.pool.blockSize = heap.pool.blockSize := by
  have hcell : (prepareCell canvas photo job heap).2.pool.blockSize = heap.pool.blockSize := by
    unfold prepareCell
    cases job.mode with
    | fit => exact ends_blockSize (prepareFit_ends photo _ _ heap job.bg) photo.bytes
    | fill => exact ends_blockSize (prepareFill_ends photo _ _ heap) photo.bytes
  unfold imgLayoutGrid
  generalize prepareCell canvas photo job heap = prepared at hcell ⊢
  obtain ⟨scaled | scaled, heap₁⟩ := prepared
  · exact hcell
  · simp only
    split
    · rw [release_blockSize]
      exact hcell
    · rw [release_blockSize]
      exact hcell

theorem imgCanvasFree_blockSize (canvas : ImgCanvas) (heap : Heap) :
    (imgCanvasFree canvas heap).2.pool.blockSize = heap.pool.blockSize := by
  unfold imgCanvasFree
  split_ifs
  · exact release_blockSize heap _
  · rfl

theorem layoutAndEncode_blockSize (outside : Outside) (arena : ImgArena) (outputPath : List Char)
    (job : ImgJob F) (photo : ImgBuffer) (canvas : ImgCanvas) (heap : Heap) :
    (layoutAndEncode outside arena outputPath job photo canvas heap).2.pool.blockSize =
      heap.pool.blockSize := by
  have hlaid := imgLayoutGrid_blockSize canvas photo job arena heap
  unfold layoutAndEncode
  generalize imgLayoutGrid canvas photo job arena heap = laid at hlaid ⊢
  obtain ⟨_ | ⟨canvas', layout⟩, heap₁⟩ := laid
  · rw [imgCanvasFree_blockSize, release_blockSize]
    exact hlaid
  · simp only
    cases finishSheet canvas'.buf layout job with
    | error e =>
        rw [imgCanvasFree_blockSize, release_blockSize]
        exact hlaid
    | ok sheet =>
        rw [imgCanvasFree_blockSize, release_blockSize]
        exact hlaid

theorem imgCanvasInit_blockSize {job : ImgJob F} {result : Except ImgError ImgCanvas}
    (h : imgCanvasInit heap job = some (result, heap')) :
    heap'.pool.blockSize = heap.pool.blockSize := by
  unfold imgCanvasInit at h
  split_ifs at h
  · cases h
    rfl
  · cases halloc : heap.alloc with
    | none =>
        rw [halloc] at h
        cases h
        rfl
    | some taken =>
        rw [halloc] at h
        cases h
        exact (Heap.alloc_some halloc).2

theorem imgApiRunJob_blockSize (outside : Outside)
    (hdecode : ∀ heap, TakesOne heap (outside.decode heap)) {engine : Ptr}
    {inputPath outputPath : Option (List Char)} {job : Option (ImgJob F)}
    {result : Except ImgError Unit}
    (hrun : imgApiRunJob outside engine inputPath outputPath job heap = some (result, heap')) :
    heap'.pool.blockSize = heap.pool.blockSize := by
  rw [imgApiRunJob_eq] at hrun
  split at hrun
  · cases hrun
    rfl
  · have hdecoded := (hdecode heap).blockSize
    generalize outside.decode heap = decoded at hdecoded hrun
    obtain ⟨_ | photo, heap₁⟩ := decoded
    · cases hrun
      exact hdecoded
    · simp only [afterDecode] at hrun
      split at hrun
      · cases hrun
      · next hinit =>
          cases hrun
          rw [release_blockSize, imgCanvasInit_blockSize hinit]
          exact hdecoded
      · next hinit =>
          obtain ⟨-, rfl⟩ := Prod.ext_iff.mp (Option.some.inj hrun)
          rw [layoutAndEncode_blockSize, imgCanvasInit_blockSize hinit]
          exact hdecoded

theorem imgApiProcessRaw_blockSize (tj : TurboJpeg) (tjc : TurboCompress) (engine : Ptr)
    (input : Input) (output outputSize : Ptr) (heap : Heap) :
    (imgApiProcessRaw tj tjc engine input output outputSize heap).2.pool.blockSize =
      heap.pool.blockSize := by
  unfold imgApiProcessRaw
  split_ifs
  · rfl
  · cases imgSecurityValidateRequest 4096 4096 input.size with
    | error e => rfl
    | ok =>
        have hdecoded := (decodeEntry_takesOne tj input heap).blockSize
        simp only
        generalize decodeEntry tj input heap = decoded at hdecoded ⊢
        obtain ⟨_ | buf, heap₁⟩ := decoded
        · exact hdecoded
        · simp only
          split
          · rw [release_blockSize]
            exact hdecoded
          · rw [release_blockSize]
            exact hdecoded

end BlockSize

section Steps

variable {limit : Nat} {start : BlockPool} {engine : Ptr} {s s' : EngineSession} {answer : Answer}

theorem step_bracket (call : SessionCall F Ctx) (h : Bracket limit start s.kept s.heap)
    (hroom : s.kept.length + 4 ≤ limit) (hstep : s.step engine call = some (answer, s')) :
    Bracket limit start s'.kept s'.heap := by
  cases call with
  | runJob tj file outside inputPath outputPath job =>
      obtain ⟨⟨result, heap⟩, hrun, heq⟩ := Option.map_eq_some_iff.mp hstep
      cases heq
      exact imgApiRunJob_bracket { outside with decode := decodeEntry tj file }
        (decodeEntry_takesOne tj file) h hroom hrun
  | processRaw tj tjc input output outputSize =>
      cases hstep
      exact imgApiProcessRaw_bracket h (by omega) tjc engine output outputSize
  | processFast process kernel tj ctx input pipe out =>
      obtain ⟨⟨result, after⟩, hrun, heq⟩ := Option.map_eq_some_iff.mp hstep
      cases heq
      have hafter := imgApiProcessFast_after hrun
      simp only [decodedBlock]
      cases hgate : imgSecurityValidateRequest 4096 4096 input.size with
      | error e =>
          rw [hgate] at hafter
          simp only [hafter]
          exact h
      | ok =>
          rw [hgate] at hafter
          obtain ⟨heap', hctx, htakes⟩ := decodeImageSecure_takesOne tj input s.heap out
          have hacquired := htakes.acquired h (by omega)
          rw [hctx] at hafter
          simp only [hafter]
          cases hdecoded : decodeImageSecure tj input ⟨⟨some s.heap⟩, out⟩ with
          | mk ret next =>
              rw [hdecoded] at hacquired
              cases ret with
              | error e => exact hacquired
              | ok => exact hacquired

theorem bracket_length {held : List Ptr} {heap : Heap} (h : Bracket limit start held heap) :
    held.length + heap.pool.free.length = start.free.length := by
  rw [← List.length_append]
  exact h.blocks.length_eq

theorem run_bracket (calls : List (SessionCall F Ctx)) {answers : List Answer}
    (hlimit : start.free.length + 4 ≤ limit) (h : Bracket limit start s.kept s.heap)
    (hrun : s.run engine calls = some (answers, s')) : Bracket limit start s'.kept s'.heap := by
  induction calls generalizing s answers with
  | nil =>
      cases hrun
      exact h
  | cons call calls ih =>
      obtain ⟨⟨answer, next⟩, hstep, hrest⟩ := Option.bind_eq_some_iff.mp hrun
      obtain ⟨⟨answers, last⟩, hrun, heq⟩ := Option.map_eq_some_iff.mp hrest
      cases heq
      have hlength := bracket_length h
      exact ih (step_bracket call h (by omega) hstep) hrun

end Steps

-- What the decoder answers as long as a block is free. Of the pool only the size of its
-- blocks matters.

def rowsOf (pixels : Bytes) (w h : Nat) : List (List UInt8) :=
  (List.range h).map fun y => (List.range (3 * w)).map fun k => pixels (y * (3 * w) + k)

def decodedRows (tj : TurboJpeg) (input : Input) (blockSize : UInt64) :
    Except ImgError (List (List UInt8)) :=
  if input.ptr = 0 ∨ input.size = 0 then .error .security
  else if ¬tj.initDecompress then .error .nomem
  else
    match tj.decompressHeader input.bytes with
    | none => .error .format
    | some (w, h) =>
        match imgSecurityValidateRequest w.toUInt32 h.toUInt32 input.size with
        | .error e => .error e
        | .ok () =>
            if blockSize.toNat < 3 * w.toUInt32.toNat * h.toUInt32.toNat then .error .nomem
            else
              match tj.decompress input.bytes w (3 * w) h with
              | none => .error .format
              | some pixels => .ok (rowsOf pixels w.toUInt32.toNat h.toUInt32.toNat)

section Answers

variable {tj : TurboJpeg} {input : Input} {heap : Heap} {out : ImgBuffer} {w h : Int32}
  {stride required : UInt64}

theorem pixelRows_packed {buf : ImgBuffer} (h : buf.stride.toNat = 3 * buf.width.toNat) :
    pixelRows buf = rowsOf buf.bytes buf.width.toNat buf.height.toNat := by
  simp only [pixelRows, rowsOf]
  split_ifs
  · rfl
  · rw [h]

-- The encoder does not see what the block held before.
theorem pixelRows_decoded (sizes : ExactSizes w h stride required) (mem : Ptr)
    (stale pixels : Bytes) :
    pixelRows (decodedBuffer mem (writeRows stale pixels required) w h stride) =
      rowsOf pixels w.toUInt32.toNat h.toUInt32.toNat := by
  rw [pixelRows_packed sizes.word]
  refine List.map_congr_left fun y hy => List.map_congr_left fun k hk => ?_
  have hy : y < h.toUInt32.toNat := List.mem_range.mp hy
  have hk : k < 3 * w.toUInt32.toNat := List.mem_range.mp hk
  refine if_pos ?_
  rw [sizes.requiredSize]
  calc
    y * (3 * w.toUInt32.toNat) + k < (y + 1) * (3 * w.toUInt32.toNat) := by
      rw [Nat.succ_mul y]
      omega
    _ ≤ h.toUInt32.toNat * (3 * w.toUInt32.toNat) := Nat.mul_le_mul_right _ hy
    _ = 3 * w.toUInt32.toNat * h.toUInt32.toNat := Nat.mul_comm _ _

-- The answer as the caller of the decoder sees it.
def Decoded.answer (decoded : Decoded DecodeExit) : Except ImgError (List (List UInt8)) :=
  (decoded.ret.mapError DecodeExit.code).map fun _ => pixelRows (decoded.out.getD .zero)

theorem imgDecodeToBuffer_answer (tj : TurboJpeg) (input : Input) (out : ImgBuffer)
    (hfree : heap.pool.free ≠ []) :
    Decoded.answer (imgDecodeToBuffer tj (some ⟨some heap⟩) input (some out)) =
      decodedRows tj input heap.pool.blockSize := by
  simp only [imgDecodeToBuffer, decodedRows, imgBoundsCheck_self input.ptr (UInt64.le_refl _),
    not_true_eq_false, if_false]
  split_ifs
  · rfl
  · cases tj.decompressHeader input.bytes with
    | none => rfl
    | some size =>
        obtain ⟨w, h⟩ := size
        simp only
        cases hgate : imgSecurityValidateRequest w.toUInt32 h.toUInt32 input.size with
        | error e => rfl
        | ok =>
            obtain ⟨stride, required, sizes⟩ := exactSizes hgate
            have hcase := decodePixels_cases tj ⟨some heap⟩ input out sizes
            have hfits : heap.pool.blockSize.toNat < 3 * w.toUInt32.toNat * h.toUInt32.toNat ↔
                heap.pool.blockSize < required := by
              rw [UInt64.lt_iff_toNat_lt, sizes.requiredSize]
            simp only [hfits, ← sizes.pitch]
            generalize decodePixels tj ⟨some heap⟩ input out w h = decoded at hcase ⊢
            cases hcase with
            | blockSize hsize =>
                have hsize : heap.pool.blockSize < required := hsize
                rw [if_pos hsize]
                rfl
            | noBlock _ halloc =>
                simp only [ImgCtx.alloc, Option.map_eq_none_iff] at halloc
                exact absurd (Heap.alloc_eq_none_iff.mp halloc) hfree
            | decompress hsize _ hnone =>
                have hsize : required ≤ heap.pool.blockSize := hsize
                rw [if_neg (UInt64.not_lt.mpr hsize), hnone]
                rfl
            | ok hsize _ htj =>
                have hsize : required ≤ heap.pool.blockSize := hsize
                rw [if_neg (UInt64.not_lt.mpr hsize), htj]
                exact congrArg Except.ok (pixelRows_decoded sizes _ _ _)
  · rfl

theorem decodeEntry_rows (tj : TurboJpeg) (input : Input) (hfree : heap.pool.free ≠ []) :
    (decodeEntry tj input heap).1.map pixelRows = decodedRows tj input heap.pool.blockSize := by
  rw [← imgDecodeToBuffer_answer tj input .zero hfree, Decoded.answer, decodeEntry]
  cases (imgDecodeToBuffer tj (some ⟨some heap⟩) input (some .zero)).ret with
  | error e => rfl
  | ok => rfl

theorem decodeImageSecure_rows (tj : TurboJpeg) (input : Input) (out : ImgBuffer)
    (hfree : heap.pool.free ≠ []) :
    (decodeImageSecure tj input ⟨⟨some heap⟩, out⟩).1 =
      (decodedRows tj input heap.pool.blockSize).map fun _ => () := by
  rw [← imgDecodeToBuffer_answer tj input out hfree, Decoded.answer, decodeImageSecure]
  cases (imgDecodeToBuffer tj (some ⟨some heap⟩) input (some out)).ret with
  | error e => rfl
  | ok => rfl

-- The answers of the two calls that decode and do no more with the pool.

def encodeRows (tjc : TurboCompress) (rows : List (List UInt8)) : Except RawError (List UInt8) :=
  match if ¬tjc.initCompress then none else tjc.compress rows with
  | none => .error .minusOne
  | some bytes => .ok bytes

theorem imgApiProcessRaw_answer (tj : TurboJpeg) (tjc : TurboCompress) (engine : Ptr)
    (input : Input) (output outputSize : Ptr) (hfree : heap.pool.free ≠ []) :
    (imgApiProcessRaw tj tjc engine input output outputSize heap).1 =
      if engine = 0 ∨ input.ptr = 0 ∨ output = 0 ∨ outputSize = 0 then .error (.result .security)
      else
        match imgSecurityValidateRequest 4096 4096 input.size with
        | .error e => .error (.result e)
        | .ok () =>
            match decodedRows tj input heap.pool.blockSize with
            | .error e => .error (.result e)
            | .ok rows => encodeRows tjc rows := by
  unfold imgApiProcessRaw
  split_ifs
  · rfl
  · cases imgSecurityValidateRequest 4096 4096 input.size with
    | error e => rfl
    | ok =>
        rw [← decodeEntry_rows tj input hfree]
        generalize decodeEntry tj input heap = decoded
        obtain ⟨_ | buf, heap₁⟩ := decoded
        · rfl
        · simp only [Except.map, encodeRows, imgEncodeFromBuffer]
          cases (if ¬tjc.initCompress then none else tjc.compress (pixelRows buf)) with
          | none => rfl
          | some bytes => rfl

-- Whether the executor faults does not depend on the image either.
theorem imgApiProcessFast_answer (process : Process)
    (kernel : Ptr → Ptr → Ctx × ImgBuffer → Ctx × ImgBuffer) (tj : TurboJpeg) (ctx : Ctx)
    (input : Input) (pipe : ImgPipelineDesc) (out : ImgBuffer) (hfree : heap.pool.free ≠ []) :
    (FastPath.imgApiProcessFast process kernel tj ctx input pipe ⟨⟨some heap⟩, out⟩).map Prod.fst =
      match imgSecurityValidateRequest 4096 4096 input.size with
      | .error e => some (.error e)
      | .ok () =>
          match decodedRows tj input heap.pool.blockSize with
          | .error e => some (.error e)
          | .ok _ =>
              if imgValidatePipelineSafety pipe = false then some (.error .security)
              else
                match (imgPipelineCompile process.jumpTable process.mem pipe process.compiled).2 with
                | none => some (.error .format)
                | some mem =>
                    (executeRuntime process.jumpTable note
                      (process.castRuntime mem process.compiled) []).map fun _ => .ok () := by
  unfold FastPath.imgApiProcessFast
  cases imgSecurityValidateRequest 4096 4096 input.size with
  | error e => rfl
  | ok =>
      have hrows := decodeImageSecure_rows tj input out hfree
      simp only
      generalize decodeImageSecure tj input ⟨⟨some heap⟩, out⟩ = decoded at hrows ⊢
      obtain ⟨ret, s⟩ := decoded
      cases hanswer : decodedRows tj input heap.pool.blockSize with
      | error e =>
          rw [hanswer] at hrows
          obtain rfl : ret = .error e := hrows
          rfl
      | ok rows =>
          rw [hanswer] at hrows
          obtain rfl : ret = .ok () := hrows
          simp only
          split_ifs
          · rfl
          · cases (imgPipelineCompile process.jumpTable process.mem pipe process.compiled).2 with
            | none => rfl
            | some mem =>
                simp only [imgPipelineExecuteHot]
                rw [executeRuntime_replay, Option.map_map, Option.map_map]
                rfl

end Answers

-- Raw and fast calls only decode.
def SessionCall.decodes : SessionCall F Ctx → Bool
  | .runJob .. => false
  | .processRaw .. => true
  | .processFast .. => true

section Sessions

variable {engine : Ptr} {s s' : EngineSession} {answer : Answer} {answers : List Answer}

theorem step_blockSize (call : SessionCall F Ctx) (hstep : s.step engine call = some (answer, s')) :
    s'.heap.pool.blockSize = s.heap.pool.blockSize := by
  cases call with
  | runJob tj file outside inputPath outputPath job =>
      obtain ⟨⟨result, heap⟩, hrun, heq⟩ := Option.map_eq_some_iff.mp hstep
      cases heq
      exact imgApiRunJob_blockSize { outside with decode := decodeEntry tj file }
        (decodeEntry_takesOne tj file) hrun
  | processRaw tj tjc input output outputSize =>
      cases hstep
      exact imgApiProcessRaw_blockSize tj tjc engine input output outputSize s.heap
  | processFast process kernel tj ctx input pipe out =>
      obtain ⟨⟨result, after⟩, hrun, heq⟩ := Option.map_eq_some_iff.mp hstep
      cases heq
      have hafter := imgApiProcessFast_after hrun
      cases hgate : imgSecurityValidateRequest 4096 4096 input.size with
      | error e =>
          rw [hgate] at hafter
          simp only [hafter]
          rfl
      | ok =>
          rw [hgate] at hafter
          obtain ⟨heap', hctx, htakes⟩ := decodeImageSecure_takesOne tj input s.heap out
          rw [hctx] at hafter
          simp only [hafter]
          exact htakes.blockSize

theorem run_blockSize (calls : List (SessionCall F Ctx))
    (hrun : s.run engine calls = some (answers, s')) :
    s'.heap.pool.blockSize = s.heap.pool.blockSize := by
  induction calls generalizing s answers with
  | nil =>
      cases hrun
      rfl
  | cons call calls ih =>
      obtain ⟨⟨answer, next⟩, hstep, hrest⟩ := Option.bind_eq_some_iff.mp hrun
      obtain ⟨⟨answers, last⟩, hrun, heq⟩ := Option.map_eq_some_iff.mp hrest
      cases heq
      rw [ih hrun, step_blockSize call hstep]

-- With a block free, the answer does not tell one session from another.
theorem step_answer (call : SessionCall F Ctx) (hcall : call.decodes = true)
    (hsize : s'.heap.pool.blockSize = s.heap.pool.blockSize) (hfree : s.heap.pool.free ≠ [])
    (hfree' : s'.heap.pool.free ≠ []) :
    (s'.step engine call).map Prod.fst = (s.step engine call).map Prod.fst := by
  cases call with
  | runJob => cases hcall
  | processRaw tj tjc input output outputSize =>
      simp only [EngineSession.step, Option.map_some, imgApiProcessRaw_answer _ _ _ _ _ _ hfree,
        imgApiProcessRaw_answer _ _ _ _ _ _ hfree', hsize]
  | processFast process kernel tj ctx input pipe out =>
      have hanswer : ∀ t : EngineSession, (t.step engine
            (.processFast process kernel tj ctx input pipe out : SessionCall F Ctx)).map Prod.fst =
          ((FastPath.imgApiProcessFast process kernel tj ctx input pipe
            ⟨⟨some t.heap⟩, out⟩).map Prod.fst).map Answer.fast := by
        intro t
        simp only [EngineSession.step, Option.map_map]
        rfl
      rw [hanswer, hanswer, imgApiProcessFast_answer _ _ _ _ _ _ _ hfree,
        imgApiProcessFast_answer _ _ _ _ _ _ _ hfree', hsize]

-- Without a free block the decoder fails, and with it every call.

theorem decodeEntry_exhausted (tj : TurboJpeg) (input : Input) {heap : Heap}
    (hfree : heap.pool.free = []) : ∃ e, decodeEntry tj input heap = (.error e, heap) := by
  have htakes := decodeEntry_takesOne tj input heap
  have hnone := Heap.alloc_eq_none_iff.mpr hfree
  generalize decodeEntry tj input heap = decoded at htakes ⊢
  obtain ⟨e | photo, heap'⟩ := decoded
  · rcases htakes with rfl | ⟨block, taken, halloc, -⟩
    · exact ⟨e, rfl⟩
    · cases hnone.symm.trans halloc
  · cases hnone.symm.trans htakes

theorem step_exhausted (engine : Ptr) (call : SessionCall F Ctx) (hfree : s.heap.pool.free = []) :
    ∃ answer, s.step engine call = some (answer, s) ∧ answer.failed = true := by
  cases call with
  | runJob tj file outside inputPath outputPath job =>
      obtain ⟨e, hdecode⟩ := decodeEntry_exhausted tj file hfree
      simp only [EngineSession.step, imgApiRunJob_eq, hdecode]
      split
      · exact ⟨_, rfl, rfl⟩
      · exact ⟨_, rfl, rfl⟩
  | processRaw tj tjc input output outputSize =>
      obtain ⟨e, hdecode⟩ := decodeEntry_exhausted tj input hfree
      simp only [EngineSession.step, imgApiProcessRaw, hdecode]
      split_ifs
      · exact ⟨_, rfl, rfl⟩
      · cases imgSecurityValidateRequest 4096 4096 input.size with
        | error e => exact ⟨_, rfl, rfl⟩
        | ok => exact ⟨_, rfl, rfl⟩
  | processFast process kernel tj ctx input pipe out =>
      obtain ⟨heap', hctx, htakes⟩ := decodeImageSecure_takesOne tj input s.heap out
      have hnone := Heap.alloc_eq_none_iff.mpr hfree
      simp only [EngineSession.step, FastPath.imgApiProcessFast, decodedBlock]
      cases imgSecurityValidateRequest 4096 4096 input.size with
      | error e => exact ⟨_, rfl, rfl⟩
      | ok =>
          simp only
          generalize decodeImageSecure tj input ⟨⟨some s.heap⟩, out⟩ = decoded at hctx htakes ⊢
          obtain ⟨e | ret, ⟨ctx', out'⟩⟩ := decoded
          · rcases htakes with rfl | ⟨block, taken, halloc, -⟩
            · obtain rfl : ctx' = ⟨some s.heap⟩ := hctx
              exact ⟨.fast (.error e), rfl, rfl⟩
            · cases hnone.symm.trans halloc
          · cases hnone.symm.trans htakes

theorem run_exhausted (engine : Ptr) (calls : List (SessionCall F Ctx))
    (hfree : s.heap.pool.free = []) :
    ∃ answers, s.run engine calls = some (answers, s) ∧
      ∀ answer ∈ answers, answer.failed = true := by
  induction calls with
  | nil => exact ⟨[], rfl, nofun⟩
  | cons call calls ih =>
      obtain ⟨answer, hstep, hfailed⟩ := step_exhausted engine call hfree
      obtain ⟨answers, hrun, hall⟩ := ih
      refine ⟨answer :: answers, ?_, List.forall_mem_cons.mpr ⟨hfailed, hall⟩⟩
      simp only [EngineSession.run, hstep, Option.bind_some, hrun, Option.map_some]

end Sessions

-- Whatever is called, the free blocks are those that no image of the fast path keeps, and
-- nothing is given back that is not held. While a block is free, a call that only decodes
-- answers as on a fresh engine. Once there is none, every call fails for good.
theorem session_pool (engine : Ptr) (start : Heap) (hlog : start.log = [])
    (calls : List (SessionCall F Ctx)) {answers : List Answer} {s : EngineSession}
    (hrun : EngineSession.run engine ⟨start, []⟩ calls = some (answers, s)) :
    Bracket (start.pool.free.length + 4) start.pool s.kept s.heap ∧
      (s.kept.length < start.pool.free.length → ∀ call : SessionCall F Ctx,
        call.decodes = true → (s.step engine call).map Prod.fst =
          (EngineSession.step engine ⟨start, []⟩ call).map Prod.fst) ∧
      (s.kept.length = start.pool.free.length → ∀ later : List (SessionCall F Ctx),
        ∃ answers, s.run engine later = some (answers, s) ∧
          ∀ answer ∈ answers, answer.failed = true) := by
  have hbracket : Bracket (start.pool.free.length + 4) start.pool s.kept s.heap :=
    run_bracket calls (Nat.le_refl _) (Bracket.enter start hlog) hrun
  have hlength := bracket_length hbracket
  refine ⟨hbracket, fun hkept call hcall => ?_, fun hkept later => ?_⟩
  · have hfree : s.heap.pool.free ≠ [] := List.ne_nil_of_length_pos (by omega)
    have hstart : start.pool.free ≠ [] := List.ne_nil_of_length_pos (by omega)
    exact step_answer call hcall (run_blockSize calls hrun) hstart hfree
  · exact run_exhausted engine later (List.length_eq_zero_iff.mp (by omega))

-- The pixel of the fast path, refused after it was decoded, with a session of one call.

def refusedPixel : SessionCall Float32 Unit :=
  .processFast (plainProcess (fun _ => 0) 4096) (fun _ _ t => t) onePixelTurboJpeg ()
    FastPath.longJpeg FastPath.emptyPipeline .zero

theorem run_refusedPixel {heap : Heap} (hsize : 3 ≤ heap.pool.blockSize.toNat)
    (hfree : heap.pool.free ≠ []) : ∃ answers s,
      EngineSession.run 1 ⟨heap, []⟩ [refusedPixel] = some (answers, s) ∧ s.kept.length = 1 := by
  have hlate : FastPath.RefusedLate (plainProcess (fun _ => 0) 4096) onePixelTurboJpeg
      FastPath.longJpeg FastPath.emptyPipeline ⟨⟨some heap⟩, .zero⟩ :=
    ⟨by rw [FastPath.longJpeg_size]; decide,
      ⟨heap, 1, 1, FastPath.longJpeg_decodable hsize hfree⟩, .inl (by decide)⟩
  obtain ⟨e, after, hdecoded, hcall⟩ :=
    @FastPath.RefusedLate.call Unit _ (fun _ _ t => t) _ () _ _ _ hlate
  simp only [EngineSession.run, EngineSession.step, refusedPixel, hcall, decodedBlock, hlate.gate,
    hdecoded]
  exact ⟨_, _, rfl, rfl⟩

-- An engine with a single block.
def lastBlockHeap : Heap where
  pool := { blockSize := 4096, free := [0x20000000] }
  nonnull := by decide
  stale _ _ := 0
  log := []

-- After the first call the next one has the same answer on the large pool, and fails on
-- the small one, as all that follow do.
theorem session_pool_refusedPixel :
    (∃ answers s, EngineSession.run 1 ⟨apiHeap, []⟩ [refusedPixel] = some (answers, s) ∧
      Bracket 20 apiHeap.pool s.kept s.heap ∧
      (s.step 1 refusedPixel).map Prod.fst =
        (EngineSession.step 1 ⟨apiHeap, []⟩ refusedPixel).map Prod.fst) ∧
    ∃ answers s, EngineSession.run 1 ⟨lastBlockHeap, []⟩ [refusedPixel] = some (answers, s) ∧
      Bracket 5 lastBlockHeap.pool s.kept s.heap ∧
      ∃ answers, s.run 1 [refusedPixel, refusedPixel] = some (answers, s) ∧
        ∀ answer ∈ answers, answer.failed = true := by
  constructor
  · obtain ⟨answers, s, hrun, hkept⟩ := @run_refusedPixel apiHeap (by decide) (by decide)
    have hfree : apiHeap.pool.free.length = 16 := by decide
    obtain ⟨hbracket, hanswers, -⟩ := session_pool 1 apiHeap rfl [refusedPixel] hrun
    exact ⟨answers, s, hrun, hbracket, hanswers (by omega) refusedPixel rfl⟩
  · obtain ⟨answers, s, hrun, hkept⟩ := @run_refusedPixel lastBlockHeap (by decide) (by decide)
    obtain ⟨hbracket, -, hexhausted⟩ := session_pool 1 lastBlockHeap rfl [refusedPixel] hrun
    exact ⟨answers, s, hrun, hbracket, hexhausted hkept _⟩

end ImgEngine.Api
