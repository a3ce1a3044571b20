import ImgEngine.Pipeline.Layout.Resampling

namespace ImgEngine.Pipeline

open ImgEngine.Library.Painting ImgEngine.Memory

variable {F : Type} [FloatType F] {src : ImgBuffer} {cellW cellH : UInt32} {heap heap' : Heap}

section Sizes

theorem coverSize_ge (src : ImgBuffer) (cellW cellH : UInt32) :
    cellW.toNat ≤ (coverSize F src cellW cellH).1.toNat ∧
      cellH.toNat ≤ (coverSize F src cellW cellH).2.toNat := by
  have hclamp : ∀ size cell : UInt32, cell.toNat ≤ (if size < cell then cell else size).toNat := by
    intro size cell
    split_ifs with hlt
    · exact le_rfl
    · exact UInt32.le_iff_toNat_le.mp (UInt32.not_lt.mp hlt)
  exact ⟨hclamp _ _, hclamp _ _⟩

theorem fitSize_le (src : ImgBuffer) (cellW cellH : UInt32) :
    (fitSize F src cellW cellH).1.toNat ≤ cellW.toNat ∧
      (fitSize F src cellW cellH).2.toNat ≤ cellH.toNat := by
  have hclamp : ∀ size cell : UInt32, (if size > cell then cell else size).toNat ≤ cell.toNat := by
    intro size cell
    split_ifs with hgt
    · exact le_rfl
    · exact UInt32.le_iff_toNat_le.mp (UInt32.not_lt.mp hgt)
  exact ⟨hclamp _ _, hclamp _ _⟩

theorem fitSize_pos (src : ImgBuffer) (hcellW : 1 ≤ cellW.toNat) (hcellH : 1 ≤ cellH.toNat) :
    1 ≤ (fitSize F src cellW cellH).1.toNat ∧ 1 ≤ (fitSize F src cellW cellH).2.toNat := by
  have hpos : ∀ size cell : UInt32, 1 ≤ cell.toNat →
      1 ≤ (if (if size = 0 then 1 else size) > cell then cell
        else if size = 0 then 1 else size).toNat := by
    intro size cell hcell
    split_ifs with hzero hgt hgt
    · exact hcell
    · exact le_rfl
    · exact hcell
    · exact Nat.one_le_iff_ne_zero.mpr fun h => hzero (UInt32.toNat_inj.mp h)
  exact ⟨hpos _ _ hcellW, hpos _ _ hcellH⟩

end Sizes

section Offsets

variable {size : UInt32 × UInt32}

-- Half of what one size exceeds another by.
theorem half_toNat {a b : UInt32} (h : b.toNat ≤ a.toNat) :
    ((a - b) / 2).toNat = (a.toNat - b.toNat) / 2 := by
  rw [UInt32.toNat_div, uint32_toNat_sub h]
  rfl

-- A row of a part of an image, that is half of the difference in from the edges.
theorem partRow_toNat (cell part : UInt32 × UInt32) {last : Nat} (h : RowsInWord cell.1 last)
    (hw : part.1.toNat ≤ cell.1.toNat) (hh : part.2.toNat ≤ cell.2.toNat) {dy : Nat}
    (hdy : dy < part.2.toNat) (hlast : (cell.2.toNat - part.2.toNat) / 2 + dy ≤ last) :
    (((cell.2 - part.2) / 2 + .ofNat dy) * (cell.1 * 3)).toNat + ((cell.1 - part.1) / 2 * 3).toNat =
      ((cell.2.toNat - part.2.toNat) / 2 + dy) * (3 * cell.1.toNat) +
        3 * ((cell.1.toNat - part.1.toNat) / 2) := by
  have hheight := cell.2.toNat_lt
  have hrow := h.row
  have hcoord : (UInt32.ofNat dy).toNat = dy := uint32_toNat_ofNat (by omega)
  have hsum : ((cell.2 - part.2) / 2 + .ofNat dy).toNat = (cell.2.toNat - part.2.toNat) / 2 + dy := by
    rw [uint32_toNat_add, half_toNat hh, hcoord]
    rw [half_toNat hh, hcoord]
    omega
  rw [h.offset (by omega), hsum, uint32_toNat_mul_three, half_toNat hw]
  rw [half_toNat hw]
  omega

-- A row of an image from its start.
theorem wholeRow_toNat {width : UInt32} {rows dy : Nat} (h : RowsInWord width (rows - 1))
    (hrows : rows ≤ 2 ^ 32) (hdy : dy < rows) :
    (UInt32.ofNat dy * (width * 3)).toNat = dy * (3 * width.toNat) := by
  have hcoord : (UInt32.ofNat dy).toNat = dy := uint32_toNat_ofNat (by omega)
  rw [h.offset (by omega), hcoord]

theorem RowsInWord.mono {width width' : UInt32} {last last' : Nat} (h : RowsInWord width last)
    (hwidth : width'.toNat ≤ width.toNat) (hlast : last' ≤ last) : RowsInWord width' last' := by
  have hrow := h.row
  refine ⟨by omega, (Nat.mul_le_mul hlast ?_).trans_lt h.rows⟩
  omega

end Offsets

section Cells

variable {size : UInt32 × UInt32} {x y : Nat}

theorem cropRow_toNat (h : RowsInWord size.1 (size.2.toNat - 1)) (hw : cellW.toNat ≤ size.1.toNat)
    (hh : cellH.toNat ≤ size.2.toNat) (hy : y < cellH.toNat) :
    cropRow size cellW cellH (.ofNat y) =
      ((size.2.toNat - cellH.toNat) / 2 + y) * (3 * size.1.toNat) +
        3 * ((size.1.toNat - cellW.toNat) / 2) :=
  partRow_toNat size (cellW, cellH) h hw hh hy (by dsimp only; omega)

theorem cropped_getRgb (h : RowsInWord size.1 (size.2.toNat - 1))
    (hw : cellW.toNat ≤ size.1.toNat) (hh : cellH.toNat ≤ size.2.toNat) (src : ImgBuffer)
    (stale tmpStale : Bytes) (hx : x < cellW.toNat) (hy : y < cellH.toNat) :
    (cropped src size cellW cellH stale tmpStale).getRgb (y * (3 * cellW.toNat) + 3 * x) =
      src.bytes.getRgb (nearestOffset src size.1 size.2
        (.ofNat ((size.1.toNat - cellW.toNat) / 2 + x))
        (.ofNat ((size.2.toNat - cellH.toNat) / 2 + y))) := by
  have hcell : RowsInWord cellW (cellH.toNat - 1) := h.mono hw (by omega)
  have hheight := cellH.toNat_lt
  have hdst : ∀ dy < cellH.toNat, (UInt32.ofNat dy * (cellW * 3)).toNat =
      (0 + dy) * (3 * cellW.toNat) + 3 * 0 := by
    intro dy hdy
    rw [wholeRow_toNat hcell hheight.le hdy, Nat.zero_add]
    rfl
  have hpainted := copyRows_painted le_rfl (Nat.zero_add _).le stale (scaledBytes src size tmpStale)
    (uint32_toNat_mul_three hcell.row) (fun dy => (dy * (cellW * 3)).toNat) hdst (cropRow size cellW cellH)
  have hcolor := hpainted.color (p := (x, y)) hx
    ⟨⟨Nat.zero_le _, by omega, Nat.zero_le _, by omega⟩, rfl⟩ fun _ hv => hv.2
  refine hcolor.trans ?_
  dsimp only
  rw [Nat.sub_zero, Nat.sub_zero, cropRow_toNat h hw hh hy, Nat.add_assoc, ← Nat.mul_add]
  exact scaledBytes_getRgb h src tmpStale (by omega) (by omega)

-- The rows that are written are those of a part of the cell.
def PasteInWord (fit : UInt32 × UInt32) (cellW cellH : UInt32) : Prop :=
  RowsInWord cellW ((cellH.toNat - fit.2.toNat) / 2 + fit.2.toNat - 1)

-- The points of the cell that the scaled image covers.
def InWindow (fit : UInt32 × UInt32) (cellW cellH : UInt32) (x y : Nat) : Prop :=
  (cellW.toNat - fit.1.toNat) / 2 ≤ x ∧ x < (cellW.toNat - fit.1.toNat) / 2 + fit.1.toNat ∧
    (cellH.toNat - fit.2.toNat) / 2 ≤ y ∧ y < (cellH.toNat - fit.2.toNat) / 2 + fit.2.toNat

instance (fit : UInt32 × UInt32) (cellW cellH : UInt32) (x y : Nat) :
    Decidable (InWindow fit cellW cellH x y) :=
  inferInstanceAs (Decidable (_ ∧ _))

section Pasted

variable {bg : Rgb} {stale tmpStale : Bytes}

theorem pasted_painted (h : PasteInWord size cellW cellH) (hw : size.1.toNat ≤ cellW.toNat)
    (hh : size.2.toNat ≤ cellH.toNat) (src : ImgBuffer) (bg : Rgb) (stale tmpStale : Bytes) :
    Painted (pixels cellW.toNat (3 * cellW.toNat))
      (fun p v => ((cellH.toNat - size.2.toNat) / 2 ≤ p.2 ∧
        p.2 < (cellH.toNat - size.2.toNat) / 2 + size.2.toNat ∧
        (cellW.toNat - size.1.toNat) / 2 ≤ p.1 ∧
        p.1 < (cellW.toNat - size.1.toNat) / 2 + size.1.toNat) ∧
        v = (scaledBytes src size tmpStale).getRgb
          (fitRow size (.ofNat (p.2 - (cellH.toNat - size.2.toNat) / 2)) +
            3 * (p.1 - (cellW.toNat - size.1.toNat) / 2)))
      (fillBackground stale (rgbSize cellW cellH) bg)
      (pasted src size cellW cellH bg stale tmpStale) := by
  have hrow := h.row
  refine copyRows_painted le_rfl (by omega) _ _ (uint32_toNat_mul_three (by omega)) _ (fun dy hdy => ?_) _
  exact partRow_toNat (cellW, cellH) size h hw hh hdy (by dsimp only; omega)

theorem pasted_window (h : PasteInWord size cellW cellH) (hw : size.1.toNat ≤ cellW.toNat)
    (hh : size.2.toNat ≤ cellH.toNat) (src : ImgBuffer) (hx : x < cellW.toNat)
    (hin : InWindow size cellW cellH x y) :
    (pasted src size cellW cellH bg stale tmpStale).getRgb (y * (3 * cellW.toNat) + 3 * x) =
      src.bytes.getRgb (nearestOffset src size.1 size.2
        (.ofNat (x - (cellW.toNat - size.1.toNat) / 2))
        (.ofNat (y - (cellH.toNat - size.2.toNat) / 2))) := by
  obtain ⟨hleft, hright, htop, hbottom⟩ := hin
  have hfit : RowsInWord size.1 (size.2.toNat - 1) := RowsInWord.mono h hw (by omega)
  have hheight := size.2.toNat_lt
  have hcolor := (pasted_painted h hw hh src bg stale tmpStale).color (p := (x, y)) hx
    ⟨⟨htop, hbottom, hleft, hright⟩, rfl⟩ fun _ hv => hv.2
  refine hcolor.trans ?_
  unfold fitRow
  rw [wholeRow_toNat hfit hheight.le (by dsimp only; omega)]
  exact scaledBytes_getRgb hfit src tmpStale (by omega) (by omega)

theorem rgbSize_exact {width height : UInt32} (h : 3 * width.toNat < 2 ^ 32) :
    (rgbSize width height).toNat = 3 * (width.toNat * height.toNat) := by
  have hbound : 3 * width.toNat * height.toNat < 2 ^ 32 * 2 ^ 32 :=
    Nat.mul_lt_mul_of_lt_of_le h height.toNat_lt.le (by decide)
  rw [Nat.mul_assoc] at hbound
  rw [rgbSize_toNat, Nat.mul_comm]
  exact Nat.mod_eq_of_lt hbound

theorem pasted_background (h : PasteInWord size cellW cellH) (hw : size.1.toNat ≤ cellW.toNat)
    (hh : size.2.toNat ≤ cellH.toNat) (src : ImgBuffer) (hx : x < cellW.toNat) (hy : y < cellH.toNat)
    (hout : ¬InWindow size cellW cellH x y) :
    (pasted src size cellW cellH bg stale tmpStale).getRgb (y * (3 * cellW.toNat) + 3 * x) = bg := by
  have hkept := (pasted_painted h hw hh src bg stale tmpStale).kept (p := (x, y)) hx
    fun v ⟨⟨htop, hbottom, hleft, hright⟩, _⟩ => hout ⟨hleft, hright, htop, hbottom⟩
  refine hkept.trans ?_
  have hpixel : y * (3 * cellW.toNat) + 3 * x = 3 * (y * cellW.toNat + x) := by ring
  have hrow := row_le cellW.toNat hy
  change (fillBackground stale (rgbSize cellW cellH) bg).getRgb (y * (3 * cellW.toNat) + 3 * x) = bg
  rw [hpixel]
  refine fillBackground_getRgb _ _ _ ?_
  rw [rgbSize_exact h.row, Nat.mul_comm cellW.toNat]
  omega

end Pasted

-- A prepared cell shows a picture.
def Shows (out : ImgBuffer) (cellW cellH : UInt32) (picture : Nat → Nat → Rgb) : Prop :=
  out.width = cellW ∧ out.height = cellH ∧
    ∀ x < cellW.toNat, ∀ y < cellH.toNat, out.pixel (x, y) = picture x y

theorem rgbBuffer_pixel (h : 3 * cellW.toNat < 2 ^ 32) (mem : Ptr) (bytes : Bytes)
    (hx : x < cellW.toNat) (hy : y < cellH.toNat) :
    (rgbBuffer mem cellW cellH bytes).pixel (x, y) = bytes.getRgb (y * (3 * cellW.toNat) + 3 * x) := by
  have hraster : Raster (rgbBuffer mem cellW cellH bytes) := ⟨(uint32_toNat_mul_three h).ge⟩
  have hin : picture.domain (picture.shape (rgbBuffer mem cellW cellH bytes)) (x, y) :=
    ⟨Int.natCast_nonneg _, Int.ofNat_lt.mpr hx, Int.natCast_nonneg _, Int.ofNat_lt.mpr hy⟩
  rw [ImgBuffer.pixel, hraster.offset hin]
  change bytes.getRgb (y * (cellW * 3).toNat + 3 * x) = _
  rw [uint32_toNat_mul_three h]

-- All reads stay in the rows of the source and of the scaled image.
structure ReadsInside (src : ImgBuffer) (size : UInt32 × UInt32) (rows rowSize : UInt32)
    (row : UInt32 → Nat) : Prop where
  source : ∀ dx < size.1.toNat, ∀ dy < size.2.toNat,
    nearestOffset src size.1 size.2 (.ofNat dx) (.ofNat dy) + 3 ≤ src.height.toNat * src.stride.toNat
  scaled : ∀ dy < rows.toNat, row (.ofNat dy) + rowSize.toNat ≤ 3 * (size.1.toNat * size.2.toNat)

def fillPicture (src : ImgBuffer) (scaled : UInt32 × UInt32) (cellW cellH : UInt32) (x y : Nat) : Rgb :=
  nearestPixel src scaled ((scaled.1.toNat - cellW.toNat) / 2 + x)
    ((scaled.2.toNat - cellH.toNat) / 2 + y)

def fitPicture (src : ImgBuffer) (fit : UInt32 × UInt32) (cellW cellH : UInt32) (bg : Rgb)
    (x y : Nat) : Rgb :=
  if InWindow fit cellW cellH x y then
    nearestPixel src fit (x - (cellW.toNat - fit.1.toNat) / 2) (y - (cellH.toNat - fit.2.toNat) / 2)
  else bg

-- What the two functions are for, whatever the bytes of the source.

structure FillsCell (F : Type) [FloatType F] (src : ImgBuffer) (cellW cellH : UInt32) (heap : Heap) :
    Prop where
  reads : ReadsInside src (coverSize F src cellW cellH) cellH (cellW * 3)
    (cropRow (coverSize F src cellW cellH) cellW cellH)
  shows : ∀ bytes out heap', prepareFill F { src with bytes } cellW cellH heap = (.ok out, heap') →
    Shows out cellW cellH (fillPicture { src with bytes } (coverSize F src cellW cellH) cellW cellH)

structure FitsCell (F : Type) [FloatType F] (src : ImgBuffer) (cellW cellH : UInt32) (heap : Heap)
    (bg : Rgb) : Prop where
  reads : ReadsInside src (fitSize F src cellW cellH) (fitSize F src cellW cellH).2
    ((fitSize F src cellW cellH).1 * 3) (fitRow (fitSize F src cellW cellH))
  shows : ∀ bytes out heap', prepareFit F { src with bytes } cellW cellH heap bg = (.ok out, heap') →
    Shows out cellW cellH (fitPicture { src with bytes } (fitSize F src cellW cellH) cellW cellH bg)

-- The scalable sources of a shape.
theorem Scalable.withBytes (h : Scalable src size) (bytes : Bytes) :
    Scalable { src with bytes } size :=
  ⟨⟨h.stride⟩, h.width_pos, h.height_pos, h.cols, h.rows⟩

theorem prepareFill_iff {out : ImgBuffer}
    (hok : prepareFill F src cellW cellH heap = (.ok out, heap')) (hcellW : 1 ≤ cellW.toNat)
    (hcellH : 1 ≤ cellH.toNat) (hsrc : Scalable src (coverSize F src cellW cellH))
    (h : RowsInWord (coverSize F src cellW cellH).1 ((coverSize F src cellW cellH).2.toNat - 1)) :
    FillsCell F src cellW cellH heap ↔ SourceRowInWord src (coverSize F src cellW cellH)
      (((coverSize F src cellW cellH).2.toNat - cellH.toNat) / 2 + cellH.toNat - 1) := by
  obtain ⟨-, mem, stale, tmpStale, hrun⟩ := Ends.ok (prepareFill_ends src cellW cellH heap) hok
  obtain ⟨hw, hh⟩ := coverSize_ge (F := F) src cellW cellH
  generalize hsize : coverSize F src cellW cellH = size at *
  have hrow := h.row
  have hcell : 3 * cellW.toNat < 2 ^ 32 := by omega
  have hpixel : ∀ bytes, ∀ x < cellW.toNat, ∀ y < cellH.toNat,
      (rgbBuffer mem cellW cellH (cropped { src with bytes } size cellW cellH stale tmpStale)).pixel
        (x, y) = bytes.getRgb (nearestOffset src size.1 size.2
          (.ofNat ((size.1.toNat - cellW.toNat) / 2 + x))
          (.ofNat ((size.2.toNat - cellH.toNat) / 2 + y))) := by
    intro bytes x hx y hy
    rw [rgbBuffer_pixel hcell _ _ hx hy]
    exact cropped_getRgb h hw hh _ _ _ hx hy
  constructor
  · intro hfills
    refine sourceRowInWord_of_nearest hsrc (x := (size.1.toNat - cellW.toNat) / 2 + 0) (by omega)
      (by omega) fun bytes => ?_
    have hshows := (hfills.shows bytes _ _ (hrun bytes)).2.2 0 hcellW (cellH.toNat - 1) (by omega)
    rw [hpixel bytes 0 hcellW (cellH.toNat - 1) (by omega), hsize] at hshows
    rw [Nat.add_sub_assoc hcellH]
    exact hshows
  · intro hlast
    refine ⟨⟨fun dx hdx dy hdy => ?_, fun dy hdy => ?_⟩, fun bytes out' heap'' hok' => ?_⟩
    · rw [hsize] at hdx hdy ⊢
      exact nearestOffset_le hsrc hdx hdy
    · have hend := row_le (3 * size.1.toNat)
        (show (size.2.toNat - cellH.toNat) / 2 + dy < size.2.toNat by omega)
      have harea : size.2.toNat * (3 * size.1.toNat) = 3 * (size.1.toNat * size.2.toNat) := by ring
      rw [hsize, cropRow_toNat h hw hh hdy, uint32_toNat_mul_three hcell]
      omega
    · rw [hrun bytes] at hok'
      cases hok'
      refine ⟨rfl, rfl, fun x hx y hy => ?_⟩
      rw [hpixel bytes x hx y hy, hsize]
      exact nearestOffset_getRgb (hsrc.withBytes bytes) hlast (by omega) (by omega) (by omega)

theorem prepareFit_iff {bg : Rgb} {out : ImgBuffer}
    (hok : prepareFit F src cellW cellH heap bg = (.ok out, heap')) (hcellW : 1 ≤ cellW.toNat)
    (hcellH : 1 ≤ cellH.toNat) (hsrc : Scalable src (fitSize F src cellW cellH))
    (h : PasteInWord (fitSize F src cellW cellH) cellW cellH) :
    FitsCell F src cellW cellH heap bg ↔ SourceRowInWord src (fitSize F src cellW cellH)
      ((fitSize F src cellW cellH).2.toNat - 1) := by
  obtain ⟨-, mem, stale, tmpStale, hrun⟩ := Ends.ok (prepareFit_ends src cellW cellH heap bg) hok
  obtain ⟨hw, hh⟩ := fitSize_le (F := F) src cellW cellH
  obtain ⟨hposW, hposH⟩ := fitSize_pos (F := F) src hcellW hcellH
  generalize hsize : fitSize F src cellW cellH = size at *
  have hrow := h.row
  have hfit : RowsInWord size.1 (size.2.toNat - 1) := RowsInWord.mono h hw (by omega)
  have hpixel : ∀ bytes, ∀ x < cellW.toNat, ∀ y < cellH.toNat, InWindow size cellW cellH x y →
      (rgbBuffer mem cellW cellH (pasted { src with bytes } size cellW cellH bg stale tmpStale)).pixel
        (x, y) = bytes.getRgb (nearestOffset src size.1 size.2
          (.ofNat (x - (cellW.toNat - size.1.toNat) / 2))
          (.ofNat (y - (cellH.toNat - size.2.toNat) / 2))) := by
    intro bytes x hx y hy hin
    rw [rgbBuffer_pixel hrow _ _ hx hy]
    exact pasted_window h hw hh _ hx hin
  constructor
  · intro hfits
    refine sourceRowInWord_of_nearest hsrc (x := 0) (by omega) (by omega) fun bytes => ?_
    -- the first pixel of the last row of the window
    have hx : (cellW.toNat - size.1.toNat) / 2 < cellW.toNat := by omega
    have hy : (cellH.toNat - size.2.toNat) / 2 + (size.2.toNat - 1) < cellH.toNat := by omega
    have hin : InWindow size cellW cellH ((cellW.toNat - size.1.toNat) / 2)
        ((cellH.toNat - size.2.toNat) / 2 + (size.2.toNat - 1)) := by
      unfold InWindow
      omega
    have hshows := (hfits.shows bytes _ _ (hrun bytes)).2.2 _ hx _ hy
    rw [hpixel bytes _ hx _ hy hin, hsize, fitPicture, if_pos hin, Nat.sub_self,
      Nat.add_sub_cancel_left] at hshows
    exact hshows
  · intro hlast
    refine ⟨⟨fun dx hdx dy hdy => ?_, fun dy hdy => ?_⟩, fun bytes out' heap'' hok' => ?_⟩
    · rw [hsize] at hdx hdy ⊢
      exact nearestOffset_le hsrc hdx hdy
    · rw [hsize] at hdy ⊢
      have hend := row_le (3 * size.1.toNat) hdy
      have harea : size.2.toNat * (3 * size.1.toNat) = 3 * (size.1.toNat * size.2.toNat) := by ring
      rw [fitRow, wholeRow_toNat hfit size.2.toNat_lt.le hdy, uint32_toNat_mul_three hfit.row]
      omega
    · rw [hrun bytes] at hok'
      cases hok'
      refine ⟨rfl, rfl, fun x hx y hy => ?_⟩
      rw [hsize]
      by_cases hin : InWindow size cellW cellH x y
      · obtain ⟨hleft, hright, htop, hbottom⟩ := id hin
        rw [hpixel bytes x hx y hy hin, fitPicture, if_pos hin]
        exact nearestOffset_getRgb (hsrc.withBytes bytes) hlast (by omega) (by omega) (by omega)
      · rw [rgbBuffer_pixel hrow _ _ hx hy, fitPicture, if_neg hin]
        exact pasted_background h hw hh _ hx hy hin

end Cells

-- A failure leaves the pool as it was, and a success leaves the right picture in the
-- cell unless the offset of a row that is looked up in the source wraps.
theorem prepare_nearest_iff (src : ImgBuffer) (heap : Heap) (bg : Rgb) (hcellW : 1 ≤ cellW.toNat)
    (hcellH : 1 ≤ cellH.toNat) :
    (Scalable src (coverSize F src cellW cellH) →
      (∀ e heap', prepareFill F src cellW cellH heap = (.error e, heap') → heap'.pool = heap.pool) ∧
      ∀ out heap', prepareFill F src cellW cellH heap = (.ok out, heap') →
        RowsInWord (coverSize F src cellW cellH).1 ((coverSize F src cellW cellH).2.toNat - 1) →
        (FillsCell F src cellW cellH heap ↔ SourceRowInWord src (coverSize F src cellW cellH)
          (((coverSize F src cellW cellH).2.toNat - cellH.toNat) / 2 + cellH.toNat - 1))) ∧
    (Scalable src (fitSize F src cellW cellH) →
      (∀ e heap', prepareFit F src cellW cellH heap bg = (.error e, heap') →
        heap'.pool = heap.pool) ∧
      ∀ out heap', prepareFit F src cellW cellH heap bg = (.ok out, heap') →
        PasteInWord (fitSize F src cellW cellH) cellW cellH →
        (FitsCell F src cellW cellH heap bg ↔ SourceRowInWord src (fitSize F src cellW cellH)
          ((fitSize F src cellW cellH).2.toNat - 1))) :=
  ⟨fun hsrc => ⟨fun _ _ h => (prepareFill_ends src cellW cellH heap).error h,
    fun _ _ hok h => prepareFill_iff hok hcellW hcellH hsrc h⟩,
    fun hsrc => ⟨fun _ _ h => (prepareFit_ends src cellW cellH heap bg).error h,
      fun _ _ hok h => prepareFit_iff hok hcellW hcellH hsrc h⟩⟩

-- A photo of two by two pixels in a cell of four by two.

def squarePhoto : ImgBuffer := rgbBuffer 1 2 2 fun i => .ofNat (20 * i)

theorem prepare_nearest_square :
    FillsCell ℚ squarePhoto 4 2 apiHeap ∧ FitsCell ℚ squarePhoto 4 2 apiHeap .black := by
  have hfill : (prepareFill ℚ squarePhoto 4 2 apiHeap).1.isOk := by decide +kernel
  have hfit : (prepareFit ℚ squarePhoto 4 2 apiHeap .black).1.isOk := by decide +kernel
  have hcover : coverSize ℚ squarePhoto 4 2 = (4, 4) := by decide +kernel
  have hwithin : fitSize ℚ squarePhoto 4 2 = (2, 2) := by decide +kernel
  obtain ⟨htheorem, htheorem'⟩ := prepare_nearest_iff (F := ℚ) squarePhoto apiHeap .black
    (show 1 ≤ (4 : UInt32).toNat by decide) (show 1 ≤ (2 : UInt32).toNat by decide)
  rw [hcover] at htheorem
  rw [hwithin] at htheorem'
  have hsource : ∀ size : UInt32 × UInt32, size.1.toNat ≤ 4 → size.2.toNat ≤ 4 →
      Scalable squarePhoto size := by
    intro size hw hh
    refine ⟨⟨by decide⟩, by decide, by decide, ?_, ?_⟩
    · change _ * 2 < 2 ^ 32
      omega
    · change _ * 2 < 2 ^ 32
      omega
  constructor
  · rcases hrun : prepareFill ℚ squarePhoto 4 2 apiHeap with ⟨_ | out, heap⟩
    · rw [hrun] at hfill
      cases hfill
    · exact ((htheorem (hsource _ (by decide) (by decide))).2 out heap hrun
        ⟨by decide, by decide⟩).mpr (by decide)
  · rcases hrun : prepareFit ℚ squarePhoto 4 2 apiHeap .black with ⟨_ | out, heap⟩
    · rw [hrun] at hfit
      cases hfit
    · exact ((htheorem' (hsource _ (by decide) (by decide))).2 out heap hrun
        ⟨by decide, by decide⟩).mpr (by decide)

-- A column of three pixels whose rows are 2^31 bytes apart: the last one is looked up
-- at the offset of the first.

def distantRows : ImgBuffer where
  data := 1
  bytes i := if i < 3 then 255 else 0
  width := 1
  height := 3
  channels := 3
  stride := 2147483648

theorem prepareFill_wrapped : Scalable distantRows (coverSize ℚ distantRows 1 3) ∧
    ∃ out heap, prepareFill ℚ distantRows 1 3 apiHeap = (.ok out, heap) ∧
      out.pixel (0, 2) = ⟨255, 255, 255⟩ ∧
      fillPicture distantRows (coverSize ℚ distantRows 1 3) 1 3 0 2 = .black := by
  have hcover : coverSize ℚ distantRows 1 3 = (1, 3) := by decide +kernel
  have hrun : ((prepareFill ℚ distantRows 1 3 apiHeap).1.toOption.any
      fun out => out.pixel (0, 2) = ⟨255, 255, 255⟩) = true := by decide +kernel
  rw [hcover]
  refine ⟨⟨⟨by decide⟩, by decide, by decide, by decide, by decide⟩, ?_⟩
  rcases hresult : prepareFill ℚ distantRows 1 3 apiHeap with ⟨_ | out, heap⟩
  all_goals rw [hresult] at hrun
  · cases hrun
  · exact ⟨out, heap, rfl, of_decide_eq_true hrun, by decide +kernel⟩

end ImgEngine.Pipeline
