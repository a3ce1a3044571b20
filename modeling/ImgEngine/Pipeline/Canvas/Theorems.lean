import ImgEngine.Pipeline.Canvas

namespace ImgEngine.Pipeline

open ImgEngine.Library.Loop ImgEngine.Memory

variable {F : Type} [FloatType F] {job : ImgJob F} {heap heap' : Heap} {canvas : ImgCanvas}

theorem rgbSize_toNat (width height : UInt32) :
    (rgbSize width height).toNat = width.toNat * height.toNat * 3 % 2 ^ 64 := by
  have hwidth := width.toNat_lt
  have hheight := height.toNat_lt
  have hmul : width.toNat * height.toNat < 2 ^ 64 :=
    Nat.mul_lt_mul'' (c := 2 ^ 32) (d := 2 ^ 32) hwidth hheight
  rw [rgbSize, UInt64.toNat_mul, UInt64.toNat_mul, UInt32.toNat_toUInt64, UInt32.toNat_toUInt64,
    Nat.mod_eq_of_lt hmul]
  rfl

theorem imgCanvasInit_ok (h : imgCanvasInit heap job = some (.ok canvas, heap')) :
    job.cols ≠ 0 ∧ job.rows ≠ 0 ∧ rgbSize job.pageW job.pageH ≤ heap.pool.blockSize ∧
      ∃ mem, heap.alloc = some (mem, heap') ∧ canvas = newCanvas job mem (heap.stale mem) := by
  unfold imgCanvasInit at h
  split_ifs at h with hzero hsize
  · cases h
  · rw [not_or] at hzero
    refine ⟨hzero.1, hzero.2, UInt64.not_lt.mp hsize, ?_⟩
    cases halloc : heap.alloc with
    | none =>
        rw [halloc] at h
        cases h
    | some taken =>
        rw [halloc] at h
        cases h
        exact ⟨_, rfl, rfl⟩

theorem photoSize_pos (job : ImgJob F) :
    1 ≤ job.photoSize.1.toNat ∧ 1 ≤ job.photoSize.2.toNat := by
  have hpos : ∀ size : UInt32, 1 ≤ (if size = 0 then 1 else size).toNat := by
    intro size
    split_ifs with h
    · exact Nat.le_refl 1
    · exact Nat.one_le_iff_ne_zero.mpr fun hzero => h (UInt32.toNat_inj.mp hzero)
  exact ⟨hpos _, hpos _⟩

-- Every whole pixel of the block takes the background color.
theorem fillBackground_getRgb (bytes : Bytes) (required : UInt64) (bg : Rgb) {k : Nat}
    (hk : 3 * k < required.toNat) :
    (fillBackground bytes required bg).getRgb (3 * k) = bg := by
  have h : ∀ k < (required.toNat + 2) / 3, (fillBackground bytes required bg).getRgb (3 * k) = bg := by
    apply forRange_invariant fun i (bytes : Bytes) => ∀ k < i, bytes.getRgb (3 * k) = bg
    · intro k hk
      exact absurd hk (Nat.not_lt_zero k)
    · intro i _ bytes hbytes k hk
      rcases Nat.lt_succ_iff_lt_or_eq.mp hk with hk | rfl
      · rw [Bytes.getRgb_setRgb_of_apart _ _ (by omega)]
        exact hbytes k hk
      · exact Bytes.getRgb_setRgb _ _ _
  exact h k (by omega)

-- What is known of a canvas that img_canvas_init has set up.
structure CanvasFor (job : ImgJob F) (blockSize : UInt64) (canvas : ImgCanvas) : Prop where
  cols : job.cols ≠ 0
  rows : job.rows ≠ 0
  data : canvas.buf.data ≠ 0
  width : canvas.buf.width = job.pageW
  height : canvas.buf.height = job.pageH
  stride : canvas.buf.stride = canvas.buf.width * 3
  size : rgbSize canvas.buf.width canvas.buf.height ≤ blockSize
  background : ∀ k, 3 * k < (rgbSize canvas.buf.width canvas.buf.height).toNat →
    canvas.buf.bytes.getRgb (3 * k) = job.bg
  photoW : canvas.photoWPx = job.photoSize.1
  photoH : canvas.photoHPx = job.photoSize.2
  startX : canvas.startX = job.startX
  startY : canvas.startY = job.padding

theorem imgCanvasInit_canvas (h : imgCanvasInit heap job = some (.ok canvas, heap')) :
    CanvasFor job heap.pool.blockSize canvas ∧ heap'.pool.blockSize = heap.pool.blockSize := by
  obtain ⟨hcols, hrows, hsize, mem, halloc, rfl⟩ := imgCanvasInit_ok h
  obtain ⟨hmem, hblock⟩ := Heap.alloc_some halloc
  exact ⟨⟨hcols, hrows, hmem, rfl, rfl, rfl, hsize, fun k hk => fillBackground_getRgb _ _ _ hk,
    rfl, rfl, rfl, rfl⟩, hblock⟩

section Canvases

variable {blockSize : UInt64}

theorem CanvasFor.photoW_pos (h : CanvasFor job blockSize canvas) : 1 ≤ canvas.photoWPx.toNat := by
  rw [h.photoW]
  exact (photoSize_pos job).1

theorem CanvasFor.photoH_pos (h : CanvasFor job blockSize canvas) : 1 ≤ canvas.photoHPx.toNat := by
  rw [h.photoH]
  exact (photoSize_pos job).2

end Canvases

end ImgEngine.Pipeline
