import ImgEngine.Arch.ResizeMaps.Rows

namespace ImgEngine.Arch

open ImgEngine.Library.Loop ImgEngine.Library.Overlay

-- A buffer whose rows hold its pixels and that fits a slab block.
structure SlabSized (buf : ImgBuffer) : Prop where
  row : buf.width.toNat * buf.channels.toNat ≤ buf.stride.toNat
  size : buf.height.toNat * buf.stride.toNat ≤ 2 ^ 31

instance (buf : ImgBuffer) : Decidable (SlabSized buf) :=
  decidable_of_iff (buf.width.toNat * buf.channels.toNat ≤ buf.stride.toNat ∧
    buf.height.toNat * buf.stride.toNat ≤ 2 ^ 31) ⟨fun h => ⟨h.1, h.2⟩, fun h => ⟨h.row, h.size⟩⟩

-- Row y is row y_index[y] of the source, and no other byte changes.
structure RowsTaken (src : ImgBuffer) (yIndex : UInt32 → UInt32) (dst : ImgBuffer) (bytes : Bytes) :
    Prop where
  rows : ∀ y < dst.height.toNat, ∀ k < dst.width.toNat * dst.channels.toNat,
    bytes (y * dst.stride.toNat + k) =
      src.bytes ((yIndex (.ofNat y)).toNat * src.stride.toNat + k)
  rest : ∀ j, (∀ y < dst.height.toNat, j < y * dst.stride.toNat ∨
    y * dst.stride.toNat + dst.width.toNat * dst.channels.toNat ≤ j) → bytes j = dst.bytes j

-- The three kernels leave the same in each buffer, and it is what they are for.
structure VerticalCopies (src : ImgBuffer) (xIndex : Option (UInt32 → UInt32))
    (yIndex : UInt32 → UInt32) (dsts : List ImgBuffer) : Prop where
  batch : imgBatchResizeFusedAvx2 (some ⟨some src, xIndex, some yIndex⟩) (dsts.map some) =
    some (dsts.map fun dst => some (imgArchResizeVScalar (some ⟨some src, xIndex, some yIndex⟩) dst))
  single : ∀ dst ∈ dsts, imgArchResizeVAvx2 (some ⟨some src, xIndex, some yIndex⟩) dst =
    some (imgArchResizeVScalar (some ⟨some src, xIndex, some yIndex⟩) dst)
  rows : ∀ dst ∈ dsts, RowsTaken src yIndex dst
    (imgArchResizeVScalar (some ⟨some src, xIndex, some yIndex⟩) dst).bytes

-- What each of the kernels copies.

section Kernels

variable {src dst : ImgBuffer} {xIndex : Option (UInt32 → UInt32)} {yIndex : UInt32 → UInt32}

def rowCopy (src dst : ImgBuffer) (yIndex : UInt32 → UInt32) (y : Nat) : Nat → Option Nat :=
  span (rowStart dst.stride y) (yIndex (.ofNat y) * src.stride).toNat
    (dst.width * dst.channels).toNat

theorem imgArchResizeVScalar_overlay :
    imgArchResizeVScalar (some ⟨some src, xIndex, some yIndex⟩) dst =
      { dst with
        bytes := overlay (layers (rowCopy src dst yIndex) dst.height.toNat) src.bytes dst.bytes } := by
  simp only [imgArchResizeVScalar, memcpy_overlay]
  rw [← forRange_overlay]
  rfl

theorem SlabSized.rowBytes (h : SlabSized dst) :
    (dst.width * dst.channels).toNat = dst.width.toNat * dst.channels.toNat :=
  uint32_toNat_mul (h.row.trans_lt dst.stride.toNat_lt)

theorem SlabSized.lastRow (h : SlabSized dst) :
    (dst.height.toNat - 1) * dst.stride.toNat < 2 ^ 32 := by
  have hle := Nat.mul_le_mul_right dst.stride.toNat (Nat.sub_le dst.height.toNat 1)
  have hsize := h.size
  omega

-- A row of a buffer with any rows is shorter than the block.
theorem SlabSized.copyRow (h : SlabSized dst) {y : Nat} (hy : y < dst.height.toNat)
    (bytes : Bytes) :
    copyRow src.bytes (yIndex (.ofNat y) * src.stride).toNat (UInt32.ofNat y * dst.stride).toNat
      (dst.width * dst.channels) (2 ^ 27 + 1) 0 bytes =
        some (overlay (rowCopy src dst yIndex y) src.bytes bytes) := by
  have hone : 1 * dst.stride.toNat ≤ dst.height.toNat * dst.stride.toNat :=
    Nat.mul_le_mul_right _ (Nat.one_le_of_lt hy)
  have hrow := h.row
  have hsize := h.size
  refine copyRow_overlay _ _ _ ?_ bytes
  rw [h.rowBytes]
  omega

theorem SlabSized.rowLoop (h : SlabSized dst) :
    (List.range dst.height.toNat).foldlM (fun (bytes : Bytes) y =>
      Arch.copyRow src.bytes (yIndex (.ofNat y) * src.stride).toNat
        (UInt32.ofNat y * dst.stride).toNat (dst.width * dst.channels) (2 ^ 27 + 1) 0 bytes)
      dst.bytes =
        some (overlay (layers (rowCopy src dst yIndex) dst.height.toNat) src.bytes dst.bytes) := by
  rw [foldlM_range_eq (fun y hy bytes => h.copyRow hy bytes), forRange_overlay]

theorem SlabSized.imgArchResizeVAvx2 (h : SlabSized dst) :
    imgArchResizeVAvx2 (some ⟨some src, xIndex, some yIndex⟩) dst =
      some (imgArchResizeVScalar (some ⟨some src, xIndex, some yIndex⟩) dst) := by
  simp only [Arch.imgArchResizeVAvx2, Option.bind_some]
  rw [h.rowLoop, imgArchResizeVScalar_overlay]
  rfl

theorem imgBatchResizeFusedAvx2_eq {dsts : List ImgBuffer} (h : ∀ dst ∈ dsts, SlabSized dst) :
    imgBatchResizeFusedAvx2 (some ⟨some src, xIndex, some yIndex⟩) (dsts.map some) =
      some (dsts.map fun dst =>
        some (imgArchResizeVScalar (some ⟨some src, xIndex, some yIndex⟩) dst)) := by
  unfold imgBatchResizeFusedAvx2
  induction dsts with
  | nil => rfl
  | cons dst dsts ih =>
      rw [List.map_cons, List.mapM_cons, ih fun dst hdst => h dst (List.mem_cons_of_mem _ hdst)]
      simp only [Option.bind_some]
      rw [(h dst List.mem_cons_self).rowLoop, List.map_cons, imgArchResizeVScalar_overlay]
      rfl

end Kernels

-- The rows that the kernels copy are those of the map exactly if their offsets in the
-- source fit 32 bits.
theorem rowsTaken_iff {src dst : ImgBuffer} {xIndex : Option (UInt32 → UInt32)}
    {yIndex : UInt32 → UInt32} (h : SlabSized dst) :
    (∀ bytes, RowsTaken { src with bytes } yIndex dst
      (imgArchResizeVScalar (some ⟨some { src with bytes }, xIndex, some yIndex⟩) dst).bytes) ↔
    (1 ≤ dst.width.toNat * dst.channels.toNat → ∀ y < dst.height.toNat,
      (yIndex (.ofNat y)).toNat * src.stride.toNat < 2 ^ 32) := by
  have hoffset : ∀ y, (yIndex (.ofNat y) * src.stride).toNat =
      (yIndex (.ofNat y)).toNat * src.stride.toNat % 2 ^ 32 := fun y => UInt32.toNat_mul _ _
  have hrow := h.row
  have hin : InRows dst.stride (rowCopy src dst yIndex) := fun y j hj =>
    span_outside (by rw [h.rowBytes]; omega)
  have hcell : ∀ y < dst.height.toNat, ∀ k < dst.width.toNat * dst.channels.toNat,
      layers (rowCopy src dst yIndex) dst.height.toNat (y * dst.stride.toNat + k) =
        some ((yIndex (.ofNat y) * src.stride).toNat + k) := by
    intro y hy k hk
    have hstart := rowStart_of_lt ((mul_le_last hy).trans_lt h.lastRow)
    rw [layers_row hin h.lastRow hy (by omega), ← hstart]
    exact span_inside (h.rowBytes ▸ hk)
  constructor
  · intro hrows hwidth y hy
    have hsource : layers (rowCopy src dst yIndex) dst.height.toNat (y * dst.stride.toNat + 0) =
        some ((yIndex (.ofNat y)).toNat * src.stride.toNat + 0) :=
      (overlay_apply_iff dst.bytes).mp fun bytes => by
        have hbyte := (hrows bytes).rows y hy 0 hwidth
        rw [imgArchResizeVScalar_overlay] at hbyte
        exact hbyte
    rw [hcell y hy 0 hwidth, hoffset, Option.some.injEq] at hsource
    have := Nat.mod_lt ((yIndex (.ofNat y)).toNat * src.stride.toNat) (Nat.two_pow_pos 32)
    omega
  · intro hfit bytes
    rw [imgArchResizeVScalar_overlay]
    refine ⟨fun y hy k hk => ?_, fun j hj => ?_⟩
    · refine overlay_of_some ?_
      have hlt := hfit (by omega) y hy
      exact (hcell y hy k hk).trans (by rw [hoffset, Nat.mod_eq_of_lt hlt])
    · refine overlay_of_none (layers_outside h.lastRow (fun y j hj => span_outside ?_) hj)
      exact h.rowBytes ▸ hj

-- Each source is meant with every content of its bytes.
theorem imgResizeV_agree_iff (src : ImgBuffer) (xIndex : Option (UInt32 → UInt32))
    (yIndex : UInt32 → UInt32) (dsts : List ImgBuffer) (hdsts : ∀ dst ∈ dsts, SlabSized dst) :
    (∀ bytes, VerticalCopies { src with bytes } xIndex yIndex dsts) ↔
      ∀ dst ∈ dsts, 1 ≤ dst.width.toNat * dst.channels.toNat → ∀ y < dst.height.toNat,
        (yIndex (.ofNat y)).toNat * src.stride.toNat < 2 ^ 32 := by
  constructor
  · intro h dst hdst
    exact (rowsTaken_iff (hdsts dst hdst)).mp fun bytes => (h bytes).rows dst hdst
  · intro h bytes
    exact ⟨imgBatchResizeFusedAvx2_eq hdsts, fun dst hdst => (hdsts dst hdst).imgArchResizeVAvx2,
      fun dst hdst => (rowsTaken_iff (hdsts dst hdst)).mpr (h dst hdst) bytes⟩

-- Three rows of one byte, of which the first is white and the others are black, and
-- which are 2^31 bytes apart in the source.

def farRows (stride : UInt32) : ImgBuffer where
  data := 4096
  bytes i := if i = 0 then 255 else 0
  width := 1
  height := 3
  channels := 1
  stride := stride

def oneByte : ImgBuffer where
  data := 8192
  bytes _ := 0
  width := 1
  height := 1
  channels := 1
  stride := 1

theorem imgResizeV_agree_near : VerticalCopies (farRows 64) none (fun _ => 2) [oneByte, oneByte] :=
  (imgResizeV_agree_iff (farRows 64) none (fun _ => 2) [oneByte, oneByte] (by decide)).mpr
    (by decide) (farRows 64).bytes

-- The offset of the third row is 2^32.
theorem imgResizeV_wraps : SlabSized oneByte ∧ (2 : UInt32) < (farRows 2147483648).height ∧
    oneByte.width.toNat * oneByte.channels.toNat ≤ (farRows 2147483648).stride.toNat ∧
    ¬VerticalCopies (farRows 2147483648) none (fun _ => 2) [oneByte] := by
  refine ⟨by decide, by decide, by decide, fun h => ?_⟩
  have hbyte := (h.rows oneByte List.mem_cons_self).rows 0 (by decide) 0 (by decide)
  exact absurd hbyte (by decide)

end ImgEngine.Arch
