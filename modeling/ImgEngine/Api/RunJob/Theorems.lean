import ImgEngine.Api.RunJob
import ImgEngine.Io.Decoder.Theorems
import ImgEngine.Pipeline.Layout.Theorems
import ImgEngine.Pipeline.Sheet.Frame

namespace ImgEngine.Api

open ImgEngine.Io ImgEngine.Memory ImgEngine.Pipeline ImgEngine.Security

variable {F : Type} [FloatType F]

-- One block on success and none on failure, as the decode entry does.
def TakesOne (heap : Heap) : Except ImgError ImgBuffer × Heap → Prop
  | (.ok photo, heap') => heap.alloc = some (photo.data, heap')
  | (.error _, heap') => heap' = heap ∨
      ∃ block taken, heap.alloc = some (block, taken) ∧ heap' = taken.release block

-- img_decode_to_buffer as the decode entry of a job.
def decodeEntry (tj : TurboJpeg) (input : Input) (heap : Heap) :
    Except ImgError ImgBuffer × Heap :=
  let decoded := imgDecodeToBuffer tj (some { localPool := some heap }) input (some .zero)
  let heap' := ((decoded.ctx.bind (·.localPool)).getD heap)
  match decoded.ret with
  | .ok () => (.ok (decoded.out.getD .zero), heap')
  | .error e => (.error e.code, heap')

theorem decodeEntry_takesOne (tj : TurboJpeg) (input : Input) (heap : Heap) :
    TakesOne heap (decodeEntry tj input heap) := by
  unfold decodeEntry
  simp only
  have hcase := imgDecodeToBuffer_cases tj (some { localPool := some heap }) input (some .zero)
  generalize hctx : some (ImgCtx.mk (some heap)) = ctx at hcase ⊢
  generalize hout : some ImgBuffer.zero = out at hcase ⊢
  generalize imgDecodeToBuffer tj ctx input out = decoded at hcase ⊢
  cases hcase with
  | refused e _ =>
      cases hctx
      exact .inl rfl
  | pixels _ _ _ _ _ _ hcase =>
      cases hctx
      cases hcase with
      | blockSize _ => exact .inl rfl
      | noBlock _ _ => exact .inl rfl
      | decompress _ halloc _ =>
          obtain ⟨first, taken, hfirst, rfl, halloc⟩ := ImgCtx.alloc_some halloc
          cases hfirst
          exact .inr ⟨_, taken, halloc, rfl⟩
      | ok _ halloc _ =>
          obtain ⟨first, taken, hfirst, rfl, halloc⟩ := ImgCtx.alloc_some halloc
          cases hfirst
          exact halloc

section Brackets

variable {limit : Nat} {start : BlockPool} {held : List Ptr} {heap heap' : Heap}

-- A function that takes one block when it succeeds and none when it fails.
def Acquired (limit : Nat) (start : BlockPool) (held : List Ptr) :
    Except ImgError ImgBuffer × Heap → Prop
  | (.ok buf, heap) => Bracket limit start (buf.data :: held) heap
  | (.error _, heap) => Bracket limit start held heap

theorem TakesOne.acquired {result : Except ImgError ImgBuffer × Heap} (h : TakesOne heap result)
    (hheap : Bracket limit start held heap) (hroom : held.length < limit) :
    Acquired limit start held result := by
  obtain ⟨photo | photo, heap'⟩ := result
  · rcases h with rfl | ⟨block, taken, halloc, rfl⟩
    · exact hheap
    · exact (hheap.alloc hroom halloc).releaseFirst
  · exact hheap.alloc hroom h

theorem acquired_of_ends {cellW cellH : UInt32} {make : Bytes → Bytes → Bytes → Bytes}
    {run : Bytes → Except ImgError ImgBuffer × Heap} (hends : Ends heap cellW cellH make run)
    (h : Bracket limit start held heap) (hroom : held.length + 1 < limit) (bytes : Bytes) :
    Acquired limit start held (run bytes) := by
  cases hends with
  | early e hrun =>
      rw [hrun]
      exact h
  | late e halloc hrun =>
      rw [hrun]
      exact (h.alloc (by omega) halloc).releaseFirst
  | done stale tmpStale halloc halloc' hblocks hsize hrun =>
      rw [hrun]
      exact (((h.alloc (by omega) halloc).alloc hroom halloc').perm
        (hblocks.append_right held)).releaseFirst

theorem prepareCell_acquired (h : Bracket limit start held heap) (hroom : held.length + 1 < limit)
    (canvas : ImgCanvas) (photo : ImgBuffer) (job : ImgJob F) :
    Acquired limit start held (prepareCell canvas photo job heap) := by
  unfold prepareCell
  cases job.mode with
  | fit => exact acquired_of_ends (prepareFit_ends photo _ _ heap job.bg) h hroom photo.bytes
  | fill => exact acquired_of_ends (prepareFill_ends photo _ _ heap) h hroom photo.bytes

-- The layout gives back all that it takes, and draws on the canvas in place.
theorem imgLayoutGrid_bracket (h : Bracket limit start held heap) (hroom : held.length + 1 < limit)
    (canvas : ImgCanvas) (photo : ImgBuffer) (job : ImgJob F) (arena : ImgArena) :
    Bracket limit start held (imgLayoutGrid canvas photo job arena heap).2 := by
  unfold imgLayoutGrid
  have hcell := prepareCell_acquired h hroom canvas photo job
  generalize prepareCell canvas photo job heap = prepared at hcell ⊢
  obtain ⟨scaled | scaled, heap⟩ := prepared
  · exact hcell
  · simp only
    split
    · exact hcell.releaseFirst
    · exact hcell.releaseFirst

theorem imgLayoutGrid_data {canvas canvas' : ImgCanvas} {photo : ImgBuffer} {job : ImgJob F}
    {arena : ImgArena} {layout : ImgLayout}
    (h : imgLayoutGrid canvas photo job arena heap = (.ok (canvas', layout), heap')) :
    canvas'.buf.data = canvas.buf.data := by
  obtain ⟨scaled, heap₁, offset, arena', -, -, rfl, -⟩ := imgLayoutGrid_ok h
  rw [(placeCells_placed canvas scaled job (CellArray.inArena arena' offset) fun _ => rfl).buf]

theorem imgCanvasInit_acquired {job : ImgJob F} {result : Except ImgError ImgCanvas}
    (h : Bracket limit start held heap) (hroom : held.length < limit)
    (hinit : imgCanvasInit heap job = some (result, heap')) :
    Acquired limit start held (result.map ImgCanvas.buf, heap') := by
  unfold imgCanvasInit at hinit
  split_ifs at hinit
  · cases hinit
    exact h
  · cases halloc : heap.alloc with
    | none =>
        rw [halloc] at hinit
        cases hinit
        exact h
    | some taken =>
        rw [halloc] at hinit
        cases hinit
        exact h.alloc hroom halloc

theorem imgCanvasFree_bracket {canvas : ImgCanvas}
    (h : Bracket limit start (canvas.buf.data :: held) heap) :
    Bracket limit start held (imgCanvasFree canvas heap).2 := by
  rw [imgCanvasFree, if_pos (h.held_nonnull List.mem_cons_self)]
  exact h.releaseFirst

theorem layoutAndEncode_bracket {canvas : ImgCanvas} {photo : ImgBuffer}
    (h : Bracket limit start (canvas.buf.data :: photo.data :: held) heap)
    (hlimit : held.length + 4 ≤ limit) (outside : Outside) (arena : ImgArena)
    (outputPath : List Char) (job : ImgJob F) :
    Bracket limit start held
      (layoutAndEncode outside arena outputPath job photo canvas heap).2 := by
  unfold layoutAndEncode
  have hlaid := imgLayoutGrid_bracket h (by simp only [List.length_cons]; omega)
    canvas photo job arena
  rcases hlayout : imgLayoutGrid canvas photo job arena heap with ⟨_ | ⟨canvas', layout⟩, heap'⟩
  all_goals
    rw [hlayout] at hlaid
    have hreleased := hlaid.releaseSecond
  · exact imgCanvasFree_bracket hreleased
  · have hdata := imgLayoutGrid_data hlayout
    obtain ⟨sheet, hsheet, hkeep⟩ := finishSheet_keep (f := ImgBuffer.data) (fun _ _ => rfl)
      canvas'.buf layout job
    simp only [hsheet]
    apply imgCanvasFree_bracket
    change Bracket limit start (sheet.data :: held) _
    rw [hkeep, hdata]
    exact hreleased

end Brackets

-- A job is the checks before the decoder, which leave the heap alone, and what comes
-- after them.

section Checks

def checked (outside : Outside) (engine : Ptr) (inputPath outputPath : Option (List Char))
    (job : Option (ImgJob F)) : Except ImgError (ImgArena × List Char × ImgJob F) :=
  match inputPath, outputPath, job with
  | some _, some outputPath, some job =>
      if engine = 0 then .error .security
      else if job.abiVersion ≠ IMG_JOB_ABI_VERSION then .error .internal
      else
        match loadFileMmap outside with
        | .error e => .error e
        | .ok fileSize =>
            match imgSecurityValidateRequest 16384 16384 fileSize with
            | .error e => .error e
            | .ok () =>
                match imgArenaCreate outside.arenaMemory (1 * 1024 * 1024) with
                | none => .error .nomem
                | some arena => .ok (arena, outputPath, job)
  | _, _, _ => .error .security

def afterDecode (outside : Outside) (arena : ImgArena) (outputPath : List Char)
    (job : ImgJob F) : Except ImgError ImgBuffer × Heap → Option (Except ImgError Unit × Heap)
  | (.error e, heap) => some (.error e, heap)
  | (.ok photo, heap) =>
      match imgCanvasInit heap job with
      | none => none
      | some (.error e, heap) => some (.error e, heap.release photo.data)
      | some (.ok canvas, heap) =>
          some (layoutAndEncode outside arena outputPath job photo canvas heap)

variable (outside : Outside) (engine : Ptr) (inputPath outputPath : Option (List Char))
  (job : Option (ImgJob F))

theorem imgApiRunJob_eq (heap : Heap) :
    imgApiRunJob outside engine inputPath outputPath job heap =
      match checked outside engine inputPath outputPath job with
      | .error e => some (.error e, heap)
      | .ok (arena, outputPath, job) =>
          afterDecode outside arena outputPath job (outside.decode heap) := by
  cases inputPath with
  | none => rfl
  | some inputPath =>
      cases outputPath with
      | none => rfl
      | some outputPath =>
          cases job with
          | none => rfl
          | some job =>
              simp only [imgApiRunJob, checked]
              split_ifs
              · rfl
              · rfl
              · cases loadFileMmap outside with
                | error e => rfl
                | ok fileSize =>
                    simp only
                    cases imgSecurityValidateRequest 16384 16384 fileSize with
                    | error e => rfl
                    | ok admitted =>
                        simp only
                        cases imgArenaCreate outside.arenaMemory (1 * 1024 * 1024) with
                        | none => rfl
                        | some arena =>
                            simp only
                            generalize outside.decode heap = decoded
                            obtain ⟨_ | photo, heap'⟩ := decoded
                            · rfl
                            · rfl

-- What the checks let through.
structure Passed (arena : ImgArena) (path : List Char) (given : ImgJob F) : Prop where
  engine : engine ≠ 0
  inputPath : inputPath.isSome
  outputPath : outputPath = some path
  job : job = some given
  abiVersion : given.abiVersion = IMG_JOB_ABI_VERSION
  file : ∃ size, loadFileMmap outside = .ok size ∧
    imgSecurityValidateRequest 16384 16384 size = .ok ()
  arena : imgArenaCreate outside.arenaMemory (1 * 1024 * 1024) = some arena

variable {outside engine inputPath outputPath job}

omit [FloatType F] in
theorem checked_ok_iff {arena : ImgArena} {path : List Char} {given : ImgJob F} :
    checked outside engine inputPath outputPath job = .ok (arena, path, given) ↔
      Passed outside engine inputPath outputPath job arena path given := by
  constructor
  · intro h
    unfold checked at h
    split at h
    · next outputPath job =>
        split_ifs at h with hengine habi
        cases hfile : loadFileMmap outside with
        | error e =>
            rw [hfile] at h
            cases h
        | ok fileSize =>
            rw [hfile] at h
            simp only at h
            cases hgate : imgSecurityValidateRequest 16384 16384 fileSize with
            | error e =>
                rw [hgate] at h
                cases h
            | ok admitted =>
                rw [hgate] at h
                simp only at h
                cases harena : imgArenaCreate outside.arenaMemory (1 * 1024 * 1024) with
                | none =>
                    rw [harena] at h
                    cases h
                | some arena =>
                    rw [harena] at h
                    cases h
                    exact ⟨hengine, rfl, rfl, rfl, not_not.mp habi, ⟨fileSize, hfile, hgate⟩,
                      harena⟩
    · cases h
  · intro h
    obtain ⟨input, rfl⟩ := Option.isSome_iff_exists.mp h.inputPath
    obtain ⟨size, hfile, hgate⟩ := h.file
    simp only [checked, h.outputPath, h.job]
    rw [if_neg h.engine, if_neg (not_not.mpr h.abiVersion), hfile]
    simp only [hgate, h.arena]

end Checks

theorem imgApiRunJob_givesBack {outside : Outside}
    (hdecode : ∀ heap, TakesOne heap (outside.decode heap)) {engine : Ptr}
    {inputPath outputPath : Option (List Char)} {job : Option (ImgJob F)} {heap heap' : Heap}
    {result : Except ImgError Unit} (hlog : heap.log = [])
    (hrun : imgApiRunJob outside engine inputPath outputPath job heap = some (result, heap')) :
    GivesBack 4 heap heap' := by
  have hstart : Bracket 4 heap.pool [] heap := Bracket.enter heap hlog
  suffices h : Bracket 4 heap.pool [] heap' from h.givesBack
  rw [imgApiRunJob_eq] at hrun
  split at hrun
  · cases hrun
    exact hstart
  · have hdecoded := (hdecode heap).acquired hstart (by decide)
    generalize outside.decode heap = decoded at hdecoded hrun
    obtain ⟨_ | photo, heap₁⟩ := decoded
    · cases hrun
      exact hdecoded
    · simp only [afterDecode] at hrun
      split at hrun
      · cases hrun
      · next hinit =>
          cases hrun
          exact (imgCanvasInit_acquired hdecoded (by simp) hinit).releaseFirst
      · next hinit =>
          have hcanvas := imgCanvasInit_acquired hdecoded (by simp) hinit
          obtain ⟨-, rfl⟩ := Prod.ext_iff.mp (Option.some.inj hrun)
          exact layoutAndEncode_bracket hcanvas (Nat.le_refl 4) _ _ _ _

-- A run that gets as far as the encoder.

def smallOutside : Outside where
  opened := true
  endOffset := 1000000
  mapped := true
  arenaMemory := some fun _ => 0
  decode heap :=
    match heap.alloc with
    | none => (.error .nomem, heap)
    | some (block, heap') => (.ok { smallPhoto with data := block }, heap')
  encodePdf _ _ := .ok ()
  encode _ := .ok true
  outputOpened := true

theorem imgApiRunJob_givesBack_small :
    ∃ heap', imgApiRunJob smallOutside 1 (some ['a']) (some ['b']) (some smallJob) apiHeap =
      some (.ok (), heap') ∧ GivesBack 4 apiHeap heap' := by
  have hdecode : ∀ heap, TakesOne heap (smallOutside.decode heap) := by
    intro heap
    cases halloc : heap.alloc with
    | none => simp [smallOutside, halloc, TakesOne]
    | some taken => simp [smallOutside, halloc, TakesOne]
  have hany : (imgApiRunJob smallOutside 1 (some ['a']) (some ['b']) (some smallJob) apiHeap).any
      fun r => r.1 = .ok () := by decide +kernel
  obtain ⟨⟨result, heap'⟩, hrun, hresult⟩ := (Option.any_eq_true _ _).mp hany
  obtain rfl := of_decide_eq_true hresult
  exact ⟨heap', hrun, imgApiRunJob_givesBack hdecode rfl hrun⟩

end ImgEngine.Api
