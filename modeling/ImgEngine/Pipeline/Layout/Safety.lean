import ImgEngine.Pipeline.Layout.Theorems

namespace ImgEngine.Pipeline

open ImgEngine.Library.Loop ImgEngine.Memory

-- Which bytes the blits of a layout store to.

section Stores

variable {dst src : ImgBuffer} {x y : UInt32}

theorem blitStores_of_fits (hdst : dst.data ≠ 0) (hsrc : src.data ≠ 0)
    (hx : x + src.width ≤ dst.width) (hy : y + src.height ≤ dst.height) :
    blitStores dst src x y = (List.range src.height.toNat).flatMap fun row =>
      (rowOffsets (src.width * 3)).map fun o =>
        ((y + .ofNat row).toNat * dst.stride.toNat + x.toNat * 3 + o,
          src.bytes (row * src.stride.toNat + o)) := by
  unfold blitStores
  rw [if_neg (by rw [not_or]; exact ⟨hdst, hsrc⟩)]
  dsimp only
  rw [if_neg (UInt32.not_lt.mpr hx), if_neg (UInt32.not_lt.mpr hy)]

-- The last row ends at the last byte that is stored to, unless the rows wrap around.
theorem blitStores_inside_iff (hdst : dst.data ≠ 0) (hsrc : src.data ≠ 0)
    (hx : x + src.width ≤ dst.width) (hy : y + src.height ≤ dst.height)
    (hheight : 1 ≤ src.height.toNat) (hreach : 1 ≤ reach (src.width * 3)) :
    (∀ store ∈ blitStores dst src x y, store.1 < dst.height.toNat * dst.stride.toNat) ↔
      y.toNat + src.height.toNat ≤ 2 ^ 32 ∧
        (y.toNat + src.height.toNat - 1) * dst.stride.toNat + x.toNat * 3 +
          reach (src.width * 3) ≤ dst.height.toNat * dst.stride.toNat := by
  have hylt := y.toNat_lt
  have hheightlt := src.height.toNat_lt
  have hdstlt := dst.height.toNat_lt
  have hrow : ∀ row < src.height.toNat, (y + .ofNat row).toNat = (y.toNat + row) % 2 ^ 32 := by
    intro row hrow
    rw [UInt32.toNat_add, uint32_toNat_ofNat (by omega)]
  have hmem : (∀ store ∈ blitStores dst src x y, store.1 < dst.height.toNat * dst.stride.toNat) ↔
      ∀ row < src.height.toNat, ∀ o < reach (src.width * 3),
        (y.toNat + row) % 2 ^ 32 * dst.stride.toNat + x.toNat * 3 + o <
          dst.height.toNat * dst.stride.toNat := by
    rw [blitStores_of_fits hdst hsrc hx hy]
    constructor
    · intro h row hlt o ho
      rw [← hrow row hlt]
      exact h _ (List.mem_flatMap.mpr ⟨row, List.mem_range.mpr hlt,
        List.mem_map.mpr ⟨o, (mem_rowOffsets _ o).mpr ho, rfl⟩⟩)
    · intro h store hstore
      obtain ⟨row, hlt, hstore⟩ := List.mem_flatMap.mp hstore
      obtain ⟨o, ho, rfl⟩ := List.mem_map.mp hstore
      have hlt := List.mem_range.mp hlt
      dsimp only
      rw [hrow row hlt]
      exact h row hlt o ((mem_rowOffsets _ o).mp ho)
  rw [hmem]
  constructor
  · intro h
    have hend : y.toNat + src.height.toNat ≤ 2 ^ 32 := by
      by_contra hwrap
      -- the row before the wrap is row 2^32 - 1 of the canvas
      have hlast := h (2 ^ 32 - 1 - y.toNat) (by omega) 0 (by omega)
      rw [show y.toNat + (2 ^ 32 - 1 - y.toNat) = 2 ^ 32 - 1 by omega,
        Nat.mod_eq_of_lt (by omega)] at hlast
      have hle : dst.height.toNat * dst.stride.toNat ≤ (2 ^ 32 - 1) * dst.stride.toNat :=
        Nat.mul_le_mul_right _ (by omega)
      omega
    have hlast := h (src.height.toNat - 1) (by omega) (reach (src.width * 3) - 1) (by omega)
    rw [show y.toNat + (src.height.toNat - 1) = y.toNat + src.height.toNat - 1 by omega,
      Nat.mod_eq_of_lt (by omega)] at hlast
    exact ⟨hend, by omega⟩
  · rintro ⟨hend, hlast⟩ row hlt o ho
    rw [Nat.mod_eq_of_lt (by omega)]
    have hle : (y.toNat + row) * dst.stride.toNat ≤
        (y.toNat + src.height.toNat - 1) * dst.stride.toNat := Nat.mul_le_mul_right _ (by omega)
    omega

end Stores

-- The sums that the loop tests do not wrap. On a page so wide that the 32-bit row
-- length wraps, this is not enough, and there the cell ends before the canvas does.
def NoWrap (canvas : ImgCanvas) (cell : ImgCell) : Prop :=
  if 3 * canvas.buf.width.toNat < 2 ^ 32 then
    cell.x.toNat + cell.w.toNat < 2 ^ 32 ∧ cell.y.toNat + cell.h.toNat < 2 ^ 32
  else
    cell.y.toNat + cell.h.toNat ≤ 2 ^ 32 ∧
      (cell.y.toNat + cell.h.toNat - 1) * canvas.buf.stride.toNat + cell.x.toNat * 3 +
        reach (cell.w * 3) ≤ canvas.buf.height.toNat * canvas.buf.stride.toNat

instance (canvas : ImgCanvas) (cell : ImgCell) : Decidable (NoWrap canvas cell) := by
  unfold NoWrap
  infer_instance

theorem uint32_mul_three (w : UInt32) : (w * 3).toNat = 3 * w.toNat % 2 ^ 32 := by
  rw [UInt32.toNat_mul, Nat.mul_comm]
  rfl

-- Three times a positive word is not zero as a word.
theorem three_mul_mod_pos {n : Nat} (hn : n < 2 ^ 32) (hpos : 1 ≤ n) : 1 ≤ 3 * n % 2 ^ 32 := by
  apply Nat.one_le_iff_ne_zero.mpr
  intro hzero
  have hdvd : 2 ^ 32 ∣ n := by
    apply Nat.Coprime.dvd_of_dvd_mul_left (m := 3) _ (Nat.dvd_of_mod_eq_zero hzero)
    exact Nat.Coprime.pow_left 32 (by decide)
  exact absurd (Nat.le_of_dvd hpos hdvd) (Nat.not_le.mpr hn)

theorem reach_pos {w : UInt32} (hw : 1 ≤ w.toNat) : 1 ≤ reach (w * 3) := by
  unfold reach
  split_ifs
  · rw [uint32_mul_three]
    exact three_mul_mod_pos w.toNat_lt hw
  · exact Nat.one_le_two_pow

-- A block of h rows of w pixels at (x, y), on a page of H rows of W pixels of 3 bytes.
section Blocks

variable {W H x y w h : Nat}

theorem lastRow_le (hh : 1 ≤ h) (hx : x + w ≤ W) (hy : y + h ≤ H) :
    (y + h - 1) * (3 * W) + x * 3 + 3 * w ≤ H * (3 * W) := by
  have hend : (y + h) * (3 * W) ≤ H * (3 * W) := Nat.mul_le_mul_right _ hy
  have hsplit : (y + h) * (3 * W) = (y + h - 1) * (3 * W) + 3 * W := by
    rw [← Nat.succ_mul]
    congr 1
    omega
  omega

-- A byte of the last row that lies on the page puts all the rows on it.
theorem rows_le_of_lastRow {o : Nat} (ho : 1 ≤ o)
    (hlast : (y + h - 1) * (3 * W) + o ≤ H * (3 * W)) : 1 ≤ W ∧ y + h ≤ H := by
  constructor
  · by_contra hzero
    rw [show W = 0 by omega, Nat.mul_zero, Nat.mul_zero] at hlast
    omega
  · by_contra hlt
    have hle : H * (3 * W) ≤ (y + h - 1) * (3 * W) := Nat.mul_le_mul_right _ (by omega)
    omega

-- A block of at most 2^31 bytes is narrow, as its height is that of the page at most.
theorem width_lt_of_size (hwlt : w < 2 ^ 32) (hh : 1 ≤ h) (hW : 1 ≤ W) (hH : h ≤ H)
    (hpage : W * H * 3 ≤ 2 ^ 31) (hblock : w * h * 3 % 2 ^ 64 ≤ 2 ^ 31) : w < 2 ^ 31 := by
  have hheight : h ≤ 2 ^ 31 / 3 := by
    have : H * 1 ≤ H * W := Nat.mul_le_mul_left H hW
    rw [Nat.mul_comm W H] at hpage
    omega
  have hsmall : w * h * 3 < 2 ^ 64 := by
    have : w * h ≤ 2 ^ 32 * (2 ^ 31 / 3) := Nat.mul_le_mul hwlt.le hheight
    omega
  rw [Nat.mod_eq_of_lt hsmall] at hblock
  have : w * 1 ≤ w * h := Nat.mul_le_mul_left w hh
  omega

end Blocks

section Cells

variable {canvas : ImgCanvas} {cell : ImgCell}

-- The page is at most 2^31 bytes and a cell at most as large as a block.
theorem noWrap_iff_inside (hstride : canvas.buf.stride = canvas.buf.width * 3)
    (hpage : canvas.buf.width.toNat * canvas.buf.height.toNat * 3 % 2 ^ 64 ≤ 2 ^ 31)
    (hcell : cell.w.toNat * cell.h.toNat * 3 % 2 ^ 64 ≤ 2 ^ 31)
    (hw : 1 ≤ cell.w.toNat) (hh : 1 ≤ cell.h.toNat) (hfits : Fits canvas cell) :
    NoWrap canvas cell ↔ cell.y.toNat + cell.h.toNat ≤ 2 ^ 32 ∧
      (cell.y.toNat + cell.h.toNat - 1) * canvas.buf.stride.toNat + cell.x.toNat * 3 +
        reach (cell.w * 3) ≤ canvas.buf.height.toNat * canvas.buf.stride.toNat := by
  unfold NoWrap
  split_ifs with hwide
  · have hxlt := cell.x.toNat_lt
    have hylt := cell.y.toNat_lt
    have hwlt := cell.w.toNat_lt
    have hHlt := canvas.buf.height.toNat_lt
    have hfitx := UInt32.le_iff_toNat_le.mp hfits.1
    have hfity := UInt32.le_iff_toNat_le.mp hfits.2
    have hreach := reach_pos hw
    have hstride : canvas.buf.stride.toNat = 3 * canvas.buf.width.toNat := by
      rw [hstride, uint32_toNat_mul_three hwide]
    rw [UInt32.toNat_add] at hfitx hfity
    rw [hstride]
    generalize canvas.buf.width.toNat = W at *
    generalize canvas.buf.height.toNat = H at *
    generalize hx : cell.x.toNat = x at *
    generalize hy : cell.y.toNat = y at *
    generalize hww : cell.w.toNat = w at *
    generalize hhh : cell.h.toNat = h at *
    have hpage : W * H * 3 ≤ 2 ^ 31 := by
      rwa [Nat.mod_eq_of_lt] at hpage
      calc
        W * H * 3 = H * (3 * W) := by ring
        _ < 2 ^ 32 * 2 ^ 32 := Nat.mul_lt_mul'' hHlt hwide
    constructor
    · rintro ⟨hsumx, hsumy⟩
      rw [Nat.mod_eq_of_lt hsumx] at hfitx
      rw [Nat.mod_eq_of_lt hsumy] at hfity
      have hrow : 3 * W ≤ 2 ^ 31 := by
        have : W * 1 ≤ W * H := Nat.mul_le_mul_left W (by omega)
        omega
      have hreach : reach (cell.w * 3) = 3 * w := by
        unfold reach
        rw [uint32_mul_three, hww, Nat.mod_eq_of_lt (by omega), if_pos (by omega)]
      rw [hreach]
      exact ⟨by omega, lastRow_le hh hfitx hfity⟩
    · rintro ⟨hend, hlast⟩
      have harea : H * (3 * W) = W * H * 3 := by ring
      rw [Nat.add_assoc] at hlast
      obtain ⟨hW, hH⟩ := rows_le_of_lastRow (hreach.trans (Nat.le_add_left _ _)) hlast
      have hnarrow := width_lt_of_size hwlt hh hW ((Nat.le_add_left _ _).trans hH) hpage hcell
      exact ⟨by omega, by omega⟩
  · rfl

end Cells

section Layouts

variable {F : Type} [FloatType F] {job : ImgJob F} {heap heap' heap'' : Heap}
  {canvas canvas' : ImgCanvas} {photo : ImgBuffer} {arena : ImgArena} {layout : ImgLayout}

-- The blits stay inside of the canvas exactly if no cell that passes the test of the
-- loop has passed it because of a wrap. img_api_init makes blocks of 2^25 bytes.
theorem imgLayoutGrid_inside_iff (hblock : heap.pool.blockSize.toNat ≤ 2 ^ 31)
    (hcanvas : imgCanvasInit heap job = some (.ok canvas, heap'))
    (hlayout : imgLayoutGrid canvas photo job arena heap' = (.ok (canvas', layout), heap'')) :
    (∀ blit ∈ layout.blits, ∀ store ∈ blit.stores,
      store.1 < canvas.buf.height.toNat * canvas.buf.stride.toNat) ↔
    ∀ n < job.rows.toNat * job.cols.toNat, Fits canvas (gridCell canvas job n) →
      NoWrap canvas (gridCell canvas job n) := by
  obtain ⟨hcanvas, hsize⟩ := imgCanvasInit_canvas hcanvas
  obtain ⟨scaled, heap₁, offset, arena', hprepare, -, -, -, hblits, -⟩ := imgLayoutGrid_ok hlayout
  have hscaled := prepareCell_ok hprepare
  have hplaced := placeCells_placed canvas scaled job
    (CellArray.inArena arena' offset) fun i => rfl
  have hpage := UInt64.le_iff_toNat_le.mp hcanvas.size
  have hcell := UInt64.le_iff_toNat_le.mp hscaled.size
  rw [rgbSize_toNat] at hpage hcell
  rw [hsize] at hcell
  rw [hblits]
  have hone : ∀ n, Fits canvas (gridCell canvas job n) →
      ((∀ store ∈ (blitOf canvas scaled (gridCell canvas job n)).stores,
        store.1 < canvas.buf.height.toNat * canvas.buf.stride.toNat) ↔
      NoWrap canvas (gridCell canvas job n)) := by
    intro n hfits
    have hpage := hpage.trans hblock
    have hcell := hcell.trans hblock
    have hinside : NoWrap canvas (gridCell canvas job n) ↔ _ :=
      noWrap_iff_inside hcanvas.stride hpage hcell hcanvas.photoW_pos hcanvas.photoH_pos hfits
    rw [hinside]
    have hwidth : scaled.width = (gridCell canvas job n).w := hscaled.width
    have hheight : scaled.height = (gridCell canvas job n).h := hscaled.height
    have h := blitStores_inside_iff hcanvas.data hscaled.data (hwidth ▸ hfits.1)
      (hheight ▸ hfits.2) (hheight ▸ hcanvas.photoH_pos) (hwidth ▸ reach_pos hcanvas.photoW_pos)
    rw [hwidth, hheight] at h
    exact h
  constructor
  · intro h n hn hfits
    exact (hone n hfits).mp (h _ ((hplaced.blits _).mpr ⟨n, hn, hfits, rfl⟩))
  · intro h blit hblit
    obtain ⟨n, hn, hfits, rfl⟩ := (hplaced.blits _).mp hblit
    exact (hone n hfits).mpr (h n hn hfits)

-- Two by two cells with gaps of two pixels.
theorem imgLayoutGrid_inside_iff_small :
    ∃ canvas canvas' layout, initAndLayout apiHeap smallJob smallPhoto smallArena =
        some (canvas, canvas', layout) ∧
      ∀ blit ∈ layout.blits, ∀ store ∈ blit.stores,
        store.1 < canvas.buf.height.toNat * canvas.buf.stride.toNat := by
  have hall : (initAndLayout apiHeap smallJob smallPhoto smallArena).any fun r =>
      ∀ n < smallJob.rows.toNat * smallJob.cols.toNat, Fits r.1 (gridCell r.1 smallJob n) →
        NoWrap r.1 (gridCell r.1 smallJob n) := by decide +kernel
  obtain ⟨⟨canvas, canvas', layout⟩, hrun, hall⟩ := (Option.any_eq_true _ _).mp hall
  obtain ⟨heap', heap'', hcanvas, hlayout⟩ := initAndLayout_some hrun
  exact ⟨canvas, canvas', layout, hrun,
    (imgLayoutGrid_inside_iff (by decide) hcanvas hlayout).mpr (of_decide_eq_true hall)⟩

-- With a gap of -5 the second cell of the row lies at x = 2^32 - 2. Its right edge wraps
-- to 0 and it passes the test.
theorem imgLayoutGrid_outside :
    ∃ canvas canvas' layout,
      initAndLayout apiHeap { smallJob with rows := 1, gap := -5 } smallPhoto smallArena =
        some (canvas, canvas', layout) ∧
      ∃ blit ∈ layout.blits, ∃ store ∈ blit.stores,
        ¬store.1 < canvas.buf.height.toNat * canvas.buf.stride.toNat := by
  have hany : (initAndLayout apiHeap { smallJob with rows := 1, gap := -5 } smallPhoto
      smallArena).any fun r => ∃ blit ∈ r.2.2.blits, ∃ store ∈ blit.stores,
        ¬store.1 < r.1.buf.height.toNat * r.1.buf.stride.toNat := by decide +kernel
  obtain ⟨⟨canvas, canvas', layout⟩, hrun, hany⟩ := (Option.any_eq_true _ _).mp hany
  exact ⟨canvas, canvas', layout, hrun, of_decide_eq_true hany⟩

end Layouts

end ImgEngine.Pipeline
