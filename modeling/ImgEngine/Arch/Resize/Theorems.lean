import ImgEngine.Arch.Resize
import ImgEngine.Pipeline.Fuse.Theorems

namespace ImgEngine.Arch

open ImgEngine.Pipeline

-- A kernel changes bytes and dimensions only, and the dimensions only to those its
-- parameters ask for.
structure Resizes (op : ResizeOp) (buf buf' : ImgBuffer) : Prop where
  data : buf'.data = buf.data
  channels : buf'.channels = buf.channels
  stride : buf'.stride = buf.stride
  size : (buf'.width, buf'.height) = op.newSize.getD (buf.width, buf.height)

theorem imgArchAvx2Resize_keeps {params : Option ResizeParams} {buf buf' : ImgBuffer}
    (h : imgArchAvx2Resize params buf = some buf') : ∃ bytes, buf' = { buf with bytes } := by
  obtain ⟨p, -, h⟩ := Option.bind_eq_some_iff.mp h
  obtain ⟨src, -, h⟩ := Option.bind_eq_some_iff.mp h
  obtain ⟨bytes, -, h⟩ := Option.map_eq_some_iff.mp h
  exact ⟨bytes, h.symm⟩

theorem table_resizes {caps : UInt32} {params : Option ResizeParams} {buf buf' : ImgBuffer}
    (h : (ResizeOp.table caps params).run buf = some buf') :
    Resizes (.table caps params) buf buf' := by
  rw [ResizeOp.run, startupTable_resize] at h
  by_cases h512 : imgCpuHasAvx512 caps = true
  · rw [if_pos h512] at h
    obtain ⟨p, rfl, rfl⟩ := Option.map_eq_some_iff.mp h
    exact ⟨rfl, rfl, rfl, by rw [ResizeOp.newSize, if_pos (.inl h512)]; rfl⟩
  · rw [if_neg h512] at h
    by_cases h2 : imgCpuHasAvx2 caps = true
    · rw [if_pos h2] at h
      obtain ⟨bytes, rfl⟩ := imgArchAvx2Resize_keeps h
      refine ⟨rfl, rfl, rfl, ?_⟩
      cases params with
      | none => rfl
      | some p => simp [ResizeOp.newSize, h512, h2]
    · rw [if_neg h2] at h
      cases params with
      | none =>
          cases h
          exact ⟨rfl, rfl, rfl, rfl⟩
      | some p =>
          change (if p.src.isNone then _ else _) = _ at h
          cases hsrc : p.src with
          | none =>
              rw [hsrc] at h
              cases h
              exact ⟨rfl, rfl, rfl, by simp [ResizeOp.newSize, h512, hsrc]⟩
          | some src =>
              rw [hsrc] at h
              cases h
              exact ⟨rfl, rfl, rfl, by simp [ResizeOp.newSize, h2, hsrc]⟩

theorem fused_resizes {doGray doBright : Bool} {params : Option ImgFusedParams}
    {buf buf' : ImgBuffer} (h : (ResizeOp.fused doGray doBright params).run buf = some buf') :
    Resizes (.fused doGray doBright params) buf buf' := by
  have h := Option.some.inj h
  cases params with
  | none =>
      subst h
      exact ⟨rfl, rfl, rfl, rfl⟩
  | some p =>
      rw [Option.elim_some, fusedKernel_eq, if_pos rfl] at h
      subst h
      exact ⟨rfl, rfl, rfl, rfl⟩

theorem run_resizes {op : ResizeOp} {buf buf' : ImgBuffer} (h : op.run buf = some buf') :
    Resizes op buf buf' := by
  cases op with
  | table caps params => exact table_resizes h
  | fused doGray doBright params => exact fused_resizes h

-- Dimensions that stay within the row and the block of a buffer.
def Fits (block : Allocation) (buf : ImgBuffer) (size : UInt32 × UInt32) : Prop :=
  size.1.toNat * buf.channels.toNat ≤ buf.stride.toNat ∧
    size.2.toNat * buf.stride.toNat ≤ block.size

theorem run_wellFormed_iff {block : Allocation} {op : ResizeOp} {buf buf' : ImgBuffer}
    (hwf : WellFormed block buf) (h : op.run buf = some buf') :
    WellFormed block buf' ↔ ∀ size, op.newSize = some size → Fits block buf size := by
  have hop := run_resizes h
  have hsize := hop.size
  cases hnew : op.newSize with
  | none =>
      rw [hnew, Option.getD_none, Prod.mk.injEq] at hsize
      simp only [reduceCtorEq, false_implies, implies_true, iff_true]
      exact ⟨hop.data.trans hwf.data, by rw [hsize.1, hop.channels, hop.stride]; exact hwf.row,
        by rw [hsize.2, hop.stride]; exact hwf.rows⟩
  | some size =>
      rw [hnew, Option.getD_some] at hsize
      simp only [Option.some.injEq, forall_eq', Fits, ← hsize, ← hop.channels, ← hop.stride]
      exact ⟨fun h => ⟨h.row, h.rows⟩, fun h => ⟨hop.data.trans hwf.data, h.1, h.2⟩⟩

-- Channels, stride and block never change, so that a size fits at every step of a
-- run or at none.
theorem Resizes.fits_iff {op : ResizeOp} {buf buf' : ImgBuffer} (h : Resizes op buf buf')
    (block : Allocation) (size : UInt32 × UInt32) :
    Fits block buf' size ↔ Fits block buf size := by
  rw [Fits, Fits, h.channels, h.stride]

theorem runOps_fits {block : Allocation} {ops : List ResizeOp} :
    ∀ {buf : ImgBuffer} {left : List ImgBuffer}, WellFormed block buf → runOps ops buf = some left →
      ((∀ buf' ∈ left, WellFormed block buf') ↔
        ∀ op ∈ ops, ∀ size, op.newSize = some size → Fits block buf size) := by
  induction ops with
  | nil =>
      intro buf left _ h
      cases h
      simp
  | cons op ops ih =>
      intro buf left hwf h
      obtain ⟨next, hop, h⟩ := Option.bind_eq_some_iff.mp h
      obtain ⟨rest, hrest, rfl⟩ := Option.map_eq_some_iff.mp h
      have hstep := run_wellFormed_iff hwf hop
      have hfits := (run_resizes hop).fits_iff block
      simp only [List.mem_cons, forall_eq_or_imp]
      constructor
      · intro ⟨hnext, hleft⟩
        refine ⟨hstep.mp hnext, fun op hmem size hsize => ?_⟩
        exact (hfits size).mp ((ih hnext hrest).mp hleft op hmem size hsize)
      · intro ⟨hfirst, hlater⟩
        have hnext := hstep.mpr hfirst
        refine ⟨hnext, (ih hnext hrest).mpr fun op hmem size hsize => ?_⟩
        exact (hfits size).mpr (hlater op hmem size hsize)

-- The kernels keep a buffer well formed exactly when every size they are asked to
-- set fits the row and the block that the buffer already has.
theorem runOps_wellFormed_iff (block : Allocation) (ops : List ResizeOp) (buf : ImgBuffer)
    (left : List ImgBuffer) (hwf : WellFormed block buf) (hrun : runOps ops buf = some left) :
    (∀ buf' ∈ left, WellFormed block buf') ↔
      ∀ op ∈ ops, ∀ w h, op.newSize = some (w, h) →
        w.toNat * buf.channels.toNat ≤ buf.stride.toNat ∧
          h.toNat * buf.stride.toNat ≤ block.size := by
  rw [runOps_fits hwf hrun]
  simp only [Prod.forall, Fits]

-- One gray pixel in a block of one byte.
def onePixelBuffer : ImgBuffer where
  data := 4096
  bytes _ := 0
  width := 1
  height := 1
  channels := 1
  stride := 1

theorem onePixelBuffer_wellFormed : WellFormed ⟨4096, 1⟩ onePixelBuffer :=
  ⟨rfl, by decide, by decide⟩

-- The three ways to another size, and the AVX2 kernel, which keeps the size, on an image
-- whose rows have gaps.

def gappedImage : ImgBuffer where
  data := 4096
  bytes i := .ofNat (i * 7)
  width := 3
  height := 2
  channels := 2
  stride := 8

def sizeOf (w h : UInt32) : ResizeParams where
  src := some ⟨fun _ i => .ofNat i, 2, 8⟩
  targetW := w
  targetH := h
  scaleX := 65536
  scaleY := 65536

def fittingOps : List ResizeOp :=
  [.table CPU_CAP_AVX512 (some (sizeOf 4 1)), .fused true true (some { ImgFusedParams.zero with
    brightnessValue := 9, newW := 2, newH := 3 }), .table CPU_CAP_AVX2 (some (sizeOf 9 9)),
    .table 0 (some (sizeOf 1 3))]

theorem runOps_wellFormed_fitting : ∃ left, runOps fittingOps gappedImage = some left ∧
    (left.map fun buf => (buf.width, buf.height)) = [(4, 1), (2, 3), (2, 3), (1, 3)] ∧
    ∀ buf ∈ left, WellFormed ⟨4096, 24⟩ buf := by
  have hsizes : (runOps fittingOps gappedImage).map (List.map fun buf => (buf.width, buf.height)) =
      some [(4, 1), (2, 3), (2, 3), (1, 3)] := by decide
  obtain ⟨left, hrun, hleft⟩ := Option.map_eq_some_iff.mp hsizes
  have hwf : WellFormed ⟨4096, 24⟩ gappedImage := ⟨rfl, by decide, by decide⟩
  refine ⟨left, hrun, hleft, (runOps_wellFormed_iff ⟨4096, 24⟩ _ _ _ hwf hrun).mpr ?_⟩
  intro op hop w h hsize
  simp only [fittingOps, List.mem_cons, List.not_mem_nil, or_false] at hop
  rcases hop with rfl | rfl | rfl | rfl
  · obtain ⟨rfl, rfl⟩ := Prod.mk.inj (Option.some.inj hsize)
    decide
  · obtain ⟨rfl, rfl⟩ := Prod.mk.inj (Option.some.inj hsize)
    decide
  · cases hsize
  · obtain ⟨rfl, rfl⟩ := Prod.mk.inj (Option.some.inj hsize)
    decide

-- The scalar kernel and a fused one with sizes that do not.

def widen : ResizeOp :=
  .table 0 (some { src := some ⟨id, 1, 1⟩, targetW := 2, targetH := 1, scaleX := 0, scaleY := 0 })

def heighten : ResizeOp :=
  .fused true false (some { ImgFusedParams.zero with newW := 1, newH := 2 })

theorem runOps_leavesBlock : WellFormed ⟨4096, 1⟩ onePixelBuffer ∧
    (∃ buf, runOps [widen] onePixelBuffer = some [buf] ∧ ¬WellFormed ⟨4096, 1⟩ buf) ∧
    ∃ buf, runOps [heighten] onePixelBuffer = some [buf] ∧ ¬WellFormed ⟨4096, 1⟩ buf := by
  refine ⟨onePixelBuffer_wellFormed, ⟨_, rfl, fun h => ?_⟩, ⟨_, rfl, fun h => ?_⟩⟩
  · exact absurd h.row (by decide)
  · exact absurd h.rows (by decide)

end ImgEngine.Arch
