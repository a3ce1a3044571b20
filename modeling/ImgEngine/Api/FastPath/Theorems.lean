import ImgEngine.Api.FastPath
import ImgEngine.Api.ProcessFast.Theorems
import ImgEngine.Io.Stream.Theorems

namespace ImgEngine.Api.FastPath

open ImgEngine.Io ImgEngine.Memory ImgEngine.Pipeline ImgEngine.Security
open ImgEngine.Library.ByteMemory

-- The compiler gives up at an operation without a kernel.

theorem compileFrom_eq_none_iff {jumpTable : Table} {out : Ptr} {ops : List ImgOpDesc} {i : Nat}
    {mem : Memory} : (compileFrom jumpTable out i ops mem).2 = none ↔
      ∃ op ∈ ops, jumpTable op.opCode = 0 := by
  induction ops generalizing i mem with
  | nil => simp [compileFrom]
  | cons op ops ih =>
      rw [compileFrom]
      by_cases hop : jumpTable op.opCode = 0
      · simp [hop]
      · simp [hop, ih]

theorem imgPipelineCompile_eq_none_iff {jumpTable : Table} {pipe : ImgPipelineDesc} {out : Ptr}
    {mem : Memory} (hvalid : imgValidatePipelineSafety pipe = true) :
    (imgPipelineCompile jumpTable mem pipe out).2 = none ↔
      ∃ op ∈ pipe.ops, jumpTable op.opCode = 0 := by
  have hcount : ¬(pipe.count = 0 ∨ IMG_MAX_PIPELINE_OPS < pipe.count) := by
    intro hcount
    rw [imgValidatePipelineSafety, if_pos hcount] at hvalid
    cases hvalid
  rw [imgPipelineCompile, if_neg hcount, compileFrom_eq_none_iff]

-- What is left of the state when the decoder fails, and when it succeeds.

def SamePool (s s' : FastState) : Prop :=
  s'.ctx.localPool.map (·.pool) = s.ctx.localPool.map (·.pool)

section Decode

variable {tj : TurboJpeg} {input : Input} {s s' : FastState}

theorem decodeImageSecure_ok_iff :
    (decodeImageSecure tj input s).1 = .ok () ↔
      ∃ heap w h, Decodable tj (some s.ctx) input (some s.out) heap w h := by
  rw [← imgDecodeToBuffer_ok_iff, decodeImageSecure]
  cases (imgDecodeToBuffer tj (some s.ctx) input (some s.out)).ret with
  | ok => exact iff_of_true rfl rfl
  | error e => exact iff_of_false nofun nofun

theorem decodeImageSecure_error {e : ImgError}
    (h : decodeImageSecure tj input s = (.error e, s')) : SamePool s s' ∧ s'.out = s.out := by
  obtain ⟨hret, rfl⟩ := Prod.mk.inj h
  have hcase := imgDecodeToBuffer_cases tj (some s.ctx) input (some s.out)
  have hall := imgDecodeToBuffer_atomic tj (some s.ctx) input (some s.out)
  generalize imgDecodeToBuffer tj (some s.ctx) input (some s.out) = decoded at hcase hall hret
  cases hcase with
  | refused e he => exact ⟨rfl, rfl⟩
  | pixels _ _ _ _ _ _ hcase =>
      cases hcase with
      | blockSize _ => exact ⟨rfl, rfl⟩
      | noBlock _ _ => exact ⟨rfl, rfl⟩
      | decompress _ _ _ => exact ⟨hall.2.1, rfl⟩
      | ok _ _ _ => cases hret

-- A block has been taken.
theorem decodeImageSecure_ok (h : decodeImageSecure tj input s = (.ok (), s')) : ¬SamePool s s' := by
  obtain ⟨hret, rfl⟩ := Prod.mk.inj h
  have hall := imgDecodeToBuffer_atomic tj (some s.ctx) input (some s.out)
  generalize imgDecodeToBuffer tj (some s.ctx) input (some s.out) = decoded at hall hret
  obtain ⟨ret, ctx, out⟩ := decoded
  cases ret with
  | error e => cases hret
  | ok =>
      obtain ⟨heap, heap', buf, hctx, rfl, rfl, hblock⟩ := hall
      intro hsame
      simp only [SamePool, Option.getD_some, Option.map_some, Option.some.inj hctx,
        Option.some.injEq] at hsame
      have hfree := hblock.taken
      rw [hsame] at hfree
      exact List.cons_ne_self _ _ hfree.symm

end Decode

section Call

variable {Ctx : Type} (process : Process)
  (kernel : Ptr → Ptr → Ctx × ImgBuffer → Ctx × ImgBuffer) (tj : TurboJpeg) (ctx : Ctx)
  (input : Input) (pipe : ImgPipelineDesc) (s : FastState)

-- The result is the one of the call without the pool.
theorem imgApiProcessFast_result :
    (imgApiProcessFast process kernel tj ctx input pipe s).map
        (fun r => r.1.map fun _ => r.2.out) =
      Api.imgApiProcessFast process kernel
        ((decodeImageSecure tj input s).1.map fun _ => (decodeImageSecure tj input s).2.out)
        ctx input.size pipe := by
  unfold imgApiProcessFast Api.imgApiProcessFast
  cases imgSecurityValidateRequest 4096 4096 input.size with
  | error e => rfl
  | ok =>
      obtain ⟨ret, s'⟩ := decodeImageSecure tj input s
      cases ret with
      | error e => rfl
      | ok =>
          simp only [Except.map]
          split_ifs
          · rfl
          · cases (imgPipelineCompile process.jumpTable process.mem pipe process.compiled).2 with
            | none => rfl
            | some mem =>
                simp only [Option.map_map]
                rfl

-- A request that is refused only after its image has been decoded.
structure RefusedLate : Prop where
  gate : imgSecurityValidateRequest 4096 4096 input.size = .ok ()
  decodable : ∃ heap w h, Decodable tj (some s.ctx) input (some s.out) heap w h
  refused : imgValidatePipelineSafety pipe = false ∨ ∃ op ∈ pipe.ops, process.jumpTable op.opCode = 0

variable {process kernel tj ctx input pipe s}

theorem RefusedLate.call (h : RefusedLate process tj input pipe s) : ∃ e s',
    decodeImageSecure tj input s = (.ok (), s') ∧
      imgApiProcessFast process kernel tj ctx input pipe s = some (.error e, s') := by
  obtain ⟨s', hdecoded⟩ : ∃ s', decodeImageSecure tj input s = (.ok (), s') :=
    ⟨_, Prod.ext (decodeImageSecure_ok_iff.mpr h.decodable) rfl⟩
  simp only [imgApiProcessFast, h.gate, hdecoded]
  by_cases hvalid : imgValidatePipelineSafety pipe = true
  · have hkernel := h.refused.resolve_left (by simp [hvalid])
    simp only [hvalid, (imgPipelineCompile_eq_none_iff hvalid).mpr hkernel]
    exact ⟨.format, s', rfl, rfl⟩
  · simp only [Bool.not_eq_true] at hvalid
    simp only [hvalid]
    exact ⟨.security, s', rfl, rfl⟩

theorem error_unchanged (h : ¬RefusedLate process tj input pipe s) {e : ImgError} {s' : FastState}
    (hcall : imgApiProcessFast process kernel tj ctx input pipe s = some (.error e, s')) :
    SamePool s s' ∧ s'.out = s.out := by
  unfold imgApiProcessFast at hcall
  cases hgate : imgSecurityValidateRequest 4096 4096 input.size with
  | error e =>
      rw [hgate] at hcall
      cases hcall
      exact ⟨rfl, rfl⟩
  | ok =>
      rw [hgate] at hcall
      cases hdecoded : decodeImageSecure tj input s with
      | mk ret next =>
          rw [hdecoded] at hcall
          cases ret with
          | error e =>
              cases hcall
              exact decodeImageSecure_error hdecoded
          | ok =>
              have hdecodable := decodeImageSecure_ok_iff.mp (congrArg Prod.fst hdecoded)
              have hlate := fun refused => h ⟨hgate, hdecodable, refused⟩
              simp only at hcall
              split_ifs at hcall with hvalid
              · exact absurd (.inl hvalid) hlate
              · have hvalid : imgValidatePipelineSafety pipe = true := by simpa using hvalid
                split at hcall
                · next hcompile =>
                    exact absurd (.inr ((imgPipelineCompile_eq_none_iff hvalid).mp hcompile)) hlate
                · obtain ⟨_, -, hret⟩ := Option.map_eq_some_iff.mp hcall
                  cases hret

end Call

-- The block that the decoder has taken is not given back.
theorem imgApiProcessFast_atomic_iff {Ctx : Type} (process : Process)
    (kernel : Ptr → Ptr → Ctx × ImgBuffer → Ctx × ImgBuffer) (tj : TurboJpeg) (ctx : Ctx)
    (input : Input) (pipe : ImgPipelineDesc) (s : FastState) :
    AtomicOnError (imgApiProcessFast process kernel tj ctx input pipe) s ↔
      ¬(imgSecurityValidateRequest 4096 4096 input.size = .ok () ∧
        (∃ heap w h, Decodable tj (some s.ctx) input (some s.out) heap w h) ∧
        (imgValidatePipelineSafety pipe = false ∨
          ∃ op ∈ pipe.ops, process.jumpTable op.opCode = 0)) := by
  constructor
  · rintro hatomic ⟨hgate, hdecodable, hrefused⟩
    obtain ⟨e, s', hdecoded, hcall⟩ := @RefusedLate.call Ctx process kernel tj ctx input pipe s
      ⟨hgate, hdecodable, hrefused⟩
    exact decodeImageSecure_ok hdecoded (hatomic e s' hcall).1
  · intro h e s' hcall
    exact error_unchanged (fun hlate => h ⟨hlate.gate, hlate.decodable, hlate.refused⟩) hcall

-- The pixel that turbojpeg decodes, with as many bytes behind it as the gate asks for.
def longJpeg : Input where
  ptr := 64
  bytes := onePixelJpeg ++ List.replicate (50000 - onePixelJpeg.length) 0

theorem longJpeg_size : longJpeg.size = 50000 := by
  have hlength : longJpeg.bytes.length = 50000 := by
    rw [longJpeg, List.length_append, List.length_replicate, Nat.add_sub_of_le (by decide)]
  rw [Input.size, hlength]
  rfl

theorem longJpeg_decodable {heap : Heap} (hsize : 3 ≤ heap.pool.blockSize.toNat)
    (hfree : heap.pool.free ≠ []) :
    Decodable onePixelTurboJpeg (some ⟨some heap⟩) longJpeg (some .zero) heap 1 1 := by
  have hstart : onePixelJpeg <+: longJpeg.bytes := List.prefix_append _ _
  have hheader : onePixelTurboJpeg.decompressHeader longJpeg.bytes = some (1, 1) := by
    simp only [onePixelTurboJpeg, if_pos hstart]
  have hpixels : onePixelTurboJpeg.decompress longJpeg.bytes 1 (3 * 1) 1 = some fun _ => 0x80 := by
    simp only [onePixelTurboJpeg, if_pos hstart]
  refine ⟨rfl, by simp, by decide, by rw [longJpeg_size]; decide, rfl, hheader,
    by rw [longJpeg_size]; decide, hsize, hfree, ?_⟩
  rw [hpixels]
  exact Option.some_ne_none _

def emptyPipeline : ImgPipelineDesc where
  ops := []
  countable := by decide

-- The pipeline is refused, and the image keeps its block.
theorem imgApiProcessFast_loses_block :
    ¬AtomicOnError (imgApiProcessFast (plainProcess (fun _ => 0) 4096) (fun _ _ t => t)
      onePixelTurboJpeg () longJpeg emptyPipeline) ⟨⟨some apiHeap⟩, .zero⟩ := by
  have hlate : RefusedLate (plainProcess (fun _ => 0) 4096) onePixelTurboJpeg longJpeg emptyPipeline
      ⟨⟨some apiHeap⟩, .zero⟩ :=
    ⟨by rw [longJpeg_size]; decide, ⟨apiHeap, 1, 1, longJpeg_decodable (by decide) (by decide)⟩,
      .inl (by decide)⟩
  obtain ⟨e, s', hdecoded, hcall⟩ := @RefusedLate.call Unit _ (fun _ _ t => t) _ () _ _ _ hlate
  exact fun hatomic => decodeImageSecure_ok hdecoded (hatomic e s' hcall).1

end ImgEngine.Api.FastPath
