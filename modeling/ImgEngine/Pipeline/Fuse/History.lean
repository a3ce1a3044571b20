import ImgEngine.Pipeline.Fuse.Theorems

namespace ImgEngine.Pipeline

open ImgEngine.Library.ByteMemory

-- g_fused_params and the fused pipelines of the callers, by their addresses. A
-- context is not part of the state: before each use its fused_params is set to
-- g_fused_params. Nor are the buffers, which every execution is given anew.
structure Fusion where
  gFusedParams : ImgFusedParams
  pipes : Ptr → Option ImgPipelineFused

inductive FusionCall where
  | fuse (out : Ptr) (mem : Memory) (pipe : ImgPipelineDesc)
  | execute (pipe : Ptr) (batch : ImgBatch) (images : Images)

namespace Fusion

def fuse (avx2 : Bool) (s : Fusion) (out : Ptr) (mem : Memory) (pipe : ImgPipelineDesc) : Fusion :=
  let (p, fused) := imgPipelineFuse avx2 mem pipe
  { gFusedParams := p, pipes := Function.update s.pipes out (some fused) }

def execute (s : Fusion) (pipe : Ptr) (batch : ImgBatch) (images : Images) : Option Images :=
  (s.pipes pipe).bind fun fused => imgPipelineExecuteFusedBatch s.gFusedParams fused batch images

-- After an execution that does not return there is no next call.
def call (avx2 : Bool) (s : Fusion) : FusionCall → Option Fusion
  | .fuse out mem pipe => some (s.fuse avx2 out mem pipe)
  | .execute pipe batch images => (s.execute pipe batch images).map fun _ => s

def run (avx2 : Bool) (s : Fusion) (calls : List FusionCall) : Option Fusion :=
  calls.foldlM (Fusion.call avx2) s

end Fusion

def FusionCall.Keeps (slot : Ptr) : FusionCall → Prop
  | .fuse out _ _ => out ≠ slot
  | .execute _ _ _ => True

-- A descriptor and the memory that its parameters were read from.
structure Source where
  mem : Memory
  pipe : ImgPipelineDesc

def FusionCall.source (last : Source) : FusionCall → Source
  | .fuse _ mem pipe => ⟨mem, pipe⟩
  | .execute _ _ _ => last

-- The descriptor of the last call of img_pipeline_fuse.
def lastSource (first : Source) (calls : List FusionCall) : Source :=
  calls.foldl FusionCall.source first

namespace Source

def HasOp (a : Source) (opCode : UInt32) : Prop := Pipeline.HasOp a.pipe.ops opCode

def lastBrightness (a : Source) : UInt16 := Pipeline.lastBrightness a.mem a.pipe.ops

def lastSize (a : Source) : UInt32 × UInt32 := Pipeline.lastSize a.mem a.pipe.ops

-- A pipeline that was compiled from a does the same with the parameters of b.
structure Undisturbed (a b : Source) : Prop where
  brightness : a.HasOp OP_BRIGHTNESS →
    min 255 a.lastBrightness.toNat = min 255 b.lastBrightness.toNat
  size : a.HasOp OP_GRAYSCALE → a.HasOp OP_RESIZE → a.lastSize = b.lastSize
  -- the function for single images also reads the flags
  alone : a.HasOp OP_RESIZE → ¬a.HasOp OP_GRAYSCALE → ¬a.HasOp OP_BRIGHTNESS →
    ¬b.HasOp OP_GRAYSCALE ∧ (b.HasOp OP_BRIGHTNESS → b.lastBrightness = 0)

end Source

-- What the calls leave in a slot that they keep, and in g_fused_params.
structure HoldsFused (avx2 : Bool) (slot : Ptr) (a last : Source) (s : Fusion) : Prop where
  pipe : s.pipes slot = some (imgPipelineFuse avx2 a.mem a.pipe).2
  params : s.gFusedParams = fusedParams last.mem last.pipe.ops

theorem HoldsFused.fuse (avx2 : Bool) (slot : Ptr) (a : Source) (s : Fusion) :
    HoldsFused avx2 slot a a (s.fuse avx2 slot a.mem a.pipe) where
  pipe := Function.update_self slot _ _
  params := by simp only [Fusion.fuse, imgPipelineFuse, foldl_fuseOp]

theorem HoldsFused.call {avx2 : Bool} {slot : Ptr} {a last : Source} {s s' : Fusion} {call : FusionCall}
    (h : HoldsFused avx2 slot a last s) (hkeep : call.Keeps slot) (hcall : s.call avx2 call = some s') :
    HoldsFused avx2 slot a (call.source last) s' := by
  cases call with
  | fuse out mem pipe =>
      obtain rfl := Option.some_inj.mp hcall
      have hout : slot ≠ out := fun he => hkeep he.symm
      exact ⟨(Function.update_of_ne hout _ _).trans h.pipe, (HoldsFused.fuse avx2 out ⟨mem, pipe⟩ s).params⟩
  | execute pipe batch images =>
      obtain ⟨_, _, rfl⟩ := Option.map_eq_some_iff.mp hcall
      exact h

theorem HoldsFused.run {avx2 : Bool} {slot : Ptr} {a last : Source} {s s' : Fusion}
    {calls : List FusionCall} (h : HoldsFused avx2 slot a last s)
    (hkeep : ∀ call ∈ calls, call.Keeps slot) (hrun : s.run avx2 calls = some s') :
    HoldsFused avx2 slot a (lastSource last calls) s' := by
  induction calls generalizing s last with
  | nil =>
      obtain rfl := Option.some_inj.mp hrun
      exact h
  | cons call calls ih =>
      obtain ⟨next, hcall, hrest⟩ := Option.bind_eq_some_iff.mp hrun
      exact ih (h.call (hkeep call (by simp)) hcall) (fun call hmem => hkeep call (by simp [hmem]))
        hrest

theorem HoldsFused.execute {avx2 : Bool} {slot : Ptr} {a last : Source} {s : Fusion}
    (h : HoldsFused avx2 slot a last s) (batch : ImgBatch) (images : Images) :
    s.execute slot batch images =
      imgPipelineExecuteFusedBatch (fusedParams last.mem last.pipe.ops)
        (imgPipelineFuse avx2 a.mem a.pipe).2 batch images := by
  rw [Fusion.execute, h.pipe, h.params]
  rfl

-- Two images tell the parameters apart.

theorem brighten_eq_iff {v w : UInt16} :
    brighten v = brighten w ↔ min 255 v.toNat = min 255 w.toNat := by
  constructor
  · intro h
    have hzero := congrArg UInt8.toNat (congrFun h 0)
    simpa [brighten_toNat] using hzero
  · intro h
    funext px
    rw [← UInt8.toNat_inj, brighten_toNat, brighten_toNat]
    omega

theorem quiet_iff {p : ImgFusedParams} : Quiet p ↔ scalarByte p 0 = 0 ∧ scalarByte p 255 = 255 := by
  constructor
  · intro h
    exact ⟨h.scalarByte 0, h.scalarByte 255⟩
  · rintro ⟨hzero, hmax⟩
    have hblack : grayscale 0 = 0 := rfl
    have hwhite : grayscale 255 = 76 := rfl
    have hvalue : p.hasBrightness = true → p.brightnessValue = 0 := by
      intro hb
      have hsum : brighten p.brightnessValue 0 = 0 := by
        by_cases hg : p.hasGrayscale = true
        all_goals simpa [scalarByte, fusedByte, hg, hb, hblack] using hzero
      rw [← UInt16.toNat_inj]
      have hmin := congrArg UInt8.toNat hsum
      rw [brighten_toNat] at hmin
      change min 255 (0 + _) = 0 at hmin
      change _ = 0
      omega
    refine ⟨Bool.eq_false_iff.mpr fun hg => ?_, hvalue⟩
    by_cases hb : p.hasBrightness = true
    · simp [scalarByte, fusedByte, hg, hb, hwhite, hvalue hb, brighten_zero] at hmax
    · simp [scalarByte, fusedByte, hg, hb, hwhite] at hmax

theorem single_onePixel (avx2 : Bool) (p : ImgFusedParams) (px : UInt8) :
    ((if avx2 then fusedExecAvx2 else fusedExecScalar) p ((onePixel px).load 8)).map (·.bytes 0) =
      some (scalarByte p px) := by
  cases avx2 with
  | false => rfl
  | true =>
      have hrange : List.range ((onePixel px).load 8).height.toNat = [0] := rfl
      have hrow : avx2Row p (0 * ((onePixel px).load 8).stride.toNat)
          (((onePixel px).load 8).width * ((onePixel px).load 8).channels) (2 ^ 27 + 1) 0
          ((onePixel px).load 8).bytes = some (Function.update (fun _ => px) 0 (scalarByte p px)) := by
        have hshort : ¬(0 : UInt32) + 32 ≤
            ((onePixel px).load 8).width * ((onePixel px).load 8).channels := by
          change ¬(0 : UInt32) + 32 ≤ 1 * 1
          decide
        rw [avx2Row, if_neg hshort]
        rfl
      rw [if_pos rfl, fusedExecAvx2, hrange, List.foldlM_cons, hrow]
      rfl

theorem single_header (avx2 : Bool) (p : ImgFusedParams) {buf result : ImgBuffer}
    (h : (if avx2 then fusedExecAvx2 else fusedExecScalar) p buf = some result) :
    result.header = buf.header := by
  cases avx2 with
  | false =>
      obtain rfl := Option.some_inj.mp h
      rfl
  | true =>
      obtain ⟨bytes, -, rfl⟩ := Option.map_eq_some_iff.mp h
      rfl

theorem memory_forEachM_onePixel (f : ImgBuffer → Option ImgBuffer) (px : UInt8)
    (hheader : ∀ {buf result}, f buf = some result → result.header = buf.header) :
    ((onePixel px).forEachM f [some 8]).map (·.memory 64) =
      (f ((onePixel px).load 8)).map (·.bytes 0) := by
  rw [Images.forEachM_some]
  cases hf : f ((onePixel px).load 8) with
  | none => rfl
  | some buf =>
      have hdata : buf.data = 64 := congrArg ImgHeader.data (hheader hf)
      simp only [Option.bind_some, Images.forEachM_nil, Option.map_some, Images.store, hdata]
      rfl

-- The functions for single images do nothing to any batch, as on resize alone.
theorem fallback_eq_iff {p q : ImgFusedParams} (hp : Quiet p) (avx2 : Bool) :
    (∀ batch (images : Images),
      images.forEachM ((if avx2 then fusedExecAvx2 else fusedExecScalar) q) batch =
        images.forEachM ((if avx2 then fusedExecAvx2 else fusedExecScalar) p) batch) ↔
      Quiet q := by
  constructor
  · intro h
    have hbyte : ∀ px, scalarByte q px = px := by
      intro px
      have hone := congrArg (Option.map (·.memory 64)) (h [some 8] (onePixel px))
      rw [memory_forEachM_onePixel _ _ (single_header avx2 q),
        memory_forEachM_onePixel _ _ (single_header avx2 p), single_onePixel, single_onePixel,
        hp.scalarByte, Option.some_inj] at hone
      exact hone
    exact quiet_iff.mpr ⟨hbyte 0, hbyte 255⟩
  · intro hq batch images
    apply Option.ext
    intro result
    rw [hq.fallback_iff, hp.fallback_iff]

-- The kernels read only the parameters of their operations.

theorem fusedByte_eq_iff {p q : ImgFusedParams} {g b : Bool} :
    fusedByte g b q = fusedByte g b p ↔
      (b = true → min 255 p.brightnessValue.toNat = min 255 q.brightnessValue.toNat) := by
  cases b with
  | false => exact iff_of_true rfl fun h => by cases h
  | true =>
      have hblack : (if g then grayscale 0 else 0) = 0 := by cases g <;> rfl
      simp only [forall_const, ← brighten_eq_iff]
      constructor
      · intro h
        rw [brighten_eq_iff]
        have hzero := congrArg UInt8.toNat (congrFun h 0)
        simp only [fusedByte, if_true, hblack, brighten_toNat] at hzero
        change min 255 (0 + _) = min 255 (0 + _) at hzero
        omega
      · intro h
        funext px
        simp only [fusedByte, if_true, h]

theorem kernel_eq_iff {p q : ImgFusedParams} {g b r : Bool} :
    (∀ batch (images : Images), images.forEach (fusedKernel g b r q) batch =
        images.forEach (fusedKernel g b r p) batch) ↔
      (b = true → min 255 p.brightnessValue.toNat = min 255 q.brightnessValue.toNat) ∧
      (r = true → (p.newW, p.newH) = (q.newW, q.newH)) := by
  rw [← @fusedByte_eq_iff p q g b]
  constructor
  · intro h
    constructor
    · funext px
      have hpx := congrFun (congrArg Images.memory (h [some 8] (onePixel px))) 64
      simp only [Images.forEach_some, Images.forEach_nil, fusedKernel_eq] at hpx
      cases r with
      | false => exact hpx
      | true => exact hpx
    · rintro rfl
      have hsize := congrFun (congrArg Images.header (h [some 8] (onePixel 0))) 8
      simp only [Images.forEach_some, Images.forEach_nil, fusedKernel_eq, if_true,
        Images.header_store, Function.update_self] at hsize
      exact Prod.ext (congrArg ImgHeader.width hsize).symm (congrArg ImgHeader.height hsize).symm
  · rintro ⟨hbyte, hsize⟩ batch images
    have hkernel : fusedKernel g b r q = fusedKernel g b r p := by
      funext buf
      simp only [fusedKernel_eq, hbyte]
      by_cases hr : r = true
      · rw [if_pos hr, if_pos hr, hsize hr]
      · rw [if_neg hr, if_neg hr]
    rw [hkernel]

-- Whatever was compiled and executed since, a compiled pipeline does what it does
-- when nothing was.
theorem execute_eq_fuseAndExecute_iff {avx2 : Bool} {slot : Ptr} {a : Source} {s s' : Fusion}
    {calls : List FusionCall} (hkeep : ∀ call ∈ calls, call.Keeps slot)
    (hrun : (s.fuse avx2 slot a.mem a.pipe).run avx2 calls = some s') :
    (∀ batch images,
        s'.execute slot batch images = fuseAndExecute avx2 a.mem a.pipe batch images) ↔
      a.Undisturbed (lastSource a calls) := by
  have hholds := (HoldsFused.fuse avx2 slot a s).run hkeep hrun
  simp only [hholds.execute, fuseAndExecute_eq, imgPipelineExecuteFusedBatch_fuse]
  generalize lastSource a calls = last
  by_cases halone : HasOp a.pipe.ops OP_RESIZE ∧ ¬HasOp a.pipe.ops OP_GRAYSCALE ∧
      ¬HasOp a.pipe.ops OP_BRIGHTNESS
  · simp only [if_pos halone]
    obtain ⟨hr, hg, hb⟩ := halone
    have hquiet : Quiet (fusedParams a.mem a.pipe.ops) := by
      simp [Quiet, fusedParams, hg, hb]
    have hlast : Quiet (fusedParams last.mem last.pipe.ops) ↔
        ¬last.HasOp OP_GRAYSCALE ∧ (last.HasOp OP_BRIGHTNESS → last.lastBrightness = 0) := by
      simp [Quiet, fusedParams, Source.HasOp, Source.lastBrightness]
    rw [fallback_eq_iff hquiet, hlast]
    constructor
    · intro h
      exact ⟨fun hab => absurd hab hb, fun hag => absurd hag hg, fun _ _ _ => h⟩
    · intro h
      exact h.alone hr hg hb
  · simp only [if_neg halone, Option.some_inj]
    rw [kernel_eq_iff]
    simp only [fusedParams, decide_eq_true_eq, Bool.and_eq_true, Prod.mk.eta]
    constructor
    · intro h
      exact ⟨h.1, fun hg hr => h.2 ⟨hr, hg⟩, fun hr hg hb => absurd ⟨hr, hg, hb⟩ halone⟩
    · intro h
      exact ⟨h.brightness, fun hrg => h.size hrg.2 hrg.1⟩

def brightenFive : ImgPipelineDesc where
  ops := [⟨OP_BRIGHTNESS, 16⟩]
  countable := by decide

def brightenThree : ImgPipelineDesc where
  ops := [⟨OP_BRIGHTNESS, 32⟩]
  countable := by decide

def noPipelines : Fusion where
  gFusedParams := .zero
  pipes _ := none

def afterFive : Fusion := noPipelines.fuse true 1024 fiveAndThree brightenFive

-- The other pipeline has the same brightness.
theorem execute_eq_fuseAndExecute_sameBrightness :
    Source.Undisturbed ⟨fiveAndThree, brightenFive⟩ ⟨fiveAndThree, grayBrighten⟩ ∧
      ∀ batch images,
        (afterFive.fuse true 2048 fiveAndThree grayBrighten).execute 1024 batch images =
          fuseAndExecute true fiveAndThree brightenFive batch images := by
  have hkeep : ∀ call ∈ [FusionCall.fuse 2048 fiveAndThree grayBrighten], call.Keeps 1024 := by
    intro call hcall
    obtain rfl := List.mem_singleton.mp hcall
    exact show (2048 : Ptr) ≠ 1024 by decide
  have hsame : Source.Undisturbed ⟨fiveAndThree, brightenFive⟩ ⟨fiveAndThree, grayBrighten⟩ := by
    constructor
    · exact fun _ => rfl
    · exact fun hg => absurd hg (show ¬HasOp brightenFive.ops OP_GRAYSCALE by decide)
    · exact fun hr => absurd hr (show ¬HasOp brightenFive.ops OP_RESIZE by decide)
  have hrun : afterFive.run true [.fuse 2048 fiveAndThree grayBrighten] =
      some (afterFive.fuse true 2048 fiveAndThree grayBrighten) := rfl
  exact ⟨hsame, (execute_eq_fuseAndExecute_iff (a := ⟨fiveAndThree, brightenFive⟩)
    (s := noPipelines) hkeep hrun).mpr hsame⟩

-- The pipeline with brightness 5 adds 3 after the one with 3 has been compiled.
theorem execute_brightenFive_disturbed :
    (afterFive.execute 1024 [some 8] (onePixel 0)).map (·.memory 64) = some 5 ∧
    ((afterFive.fuse true 2048 fiveAndThree brightenThree).execute 1024 [some 8]
      (onePixel 0)).map (·.memory 64) = some 3 := by
  decide

end ImgEngine.Pipeline
