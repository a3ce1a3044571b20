import ImgEngine.Pipeline.Layout.Nearest
import ImgEngine.Pipeline.Sheet.Order
import ImgEngine.Pipeline.Sheet.Theorems

namespace ImgEngine.Pipeline

open ImgEngine.Library.Painting ImgEngine.Memory

-- Two buffers that show the same picture. Their blocks and all the bytes that are not
-- part of a pixel may differ.
structure SamePicture (buf other : ImgBuffer) : Prop where
  width : buf.width = other.width
  height : buf.height = other.height
  pixel : ∀ p, picture.domain (picture.shape buf) p → buf.pixel p = other.pixel p

section Pictures

variable {buf buf' other other' : ImgBuffer} {W : Int × Int → Rgb → Prop}
  {src : Int × Int → Int × Int}

theorem SamePicture.alike (h : SamePicture buf other) : picture.Alike buf other := by
  refine ⟨fun p => ?_, h.pixel⟩
  rw [mem_domain, mem_domain, h.width, h.height]

theorem SamePicture.of_alike (h : SamePicture buf other)
    (hshape : picture.shape buf' = picture.shape buf)
    (hshape' : picture.shape other' = picture.shape other) (halike : picture.Alike buf' other') :
    SamePicture buf' other' := by
  obtain ⟨-, hwidth, hheight, -⟩ := shape_eq_iff.mp hshape
  obtain ⟨-, hwidth', hheight', -⟩ := shape_eq_iff.mp hshape'
  exact ⟨by rw [hwidth, hwidth', h.width], by rw [hheight, hheight', h.height], halike.view⟩

theorem SamePicture.painted (h : SamePicture buf other) (hpaint : Painted picture W buf buf')
    (hpaint' : Painted picture W other other') (hunique : ∀ p v v', W p v → W p v' → v = v') :
    SamePicture buf' other' :=
  h.of_alike hpaint.1 hpaint'.1 (hpaint.alike hpaint' h.alike hunique)

theorem SamePicture.inked {R : Int × Int → Prop} {ink : Rgb} (h : SamePicture buf other)
    (hpaint : Painted picture (fun p v => R p ∧ v = ink) buf buf')
    (hpaint' : Painted picture (fun p v => R p ∧ v = ink) other other') :
    SamePicture buf' other' :=
  h.painted hpaint hpaint' fun _ _ _ hv hv' => hv.2.trans hv'.2.symm

theorem SamePicture.copied (h : SamePicture buf other) (hcopy : Copied picture src buf buf')
    (hcopy' : Copied picture src other other') : SamePicture buf' other' :=
  h.of_alike hcopy.1 hcopy'.1 (hcopy.alike hcopy' h.alike)

end Pictures

theorem CellInside.of_size {buf other : ImgBuffer} {c : ImgCell} (h : CellInside buf c)
    (hwidth : buf.width = other.width) (hheight : buf.height = other.height) :
    CellInside other c :=
  ⟨h.width, h.height, hwidth ▸ h.right, hheight ▸ h.bottom⟩

theorem CellInside.of_shape {buf other : ImgBuffer} {c : ImgCell} (h : CellInside buf c)
    (hshape : picture.shape other = picture.shape buf) : CellInside other c := by
  obtain ⟨-, hwidth, hheight, -⟩ := shape_eq_iff.mp hshape
  exact h.of_size hwidth.symm hheight.symm

-- Borders, bleed and marks on two canvases that show the same, where both layouts have
-- the same cells.
theorem finishSheet_same {F : Type} (job : ImgJob F) {buf other : ImgBuffer}
    {layout layout' : ImgLayout} {n : Nat} {cell : Nat → ImgCell} (h : SamePicture buf other)
    (hbuf : IntRaster buf) (hother : IntRaster other) (hcells : Cells layout n cell)
    (hcells' : Cells layout' n cell) (hinside : ∀ i < n, CellInside buf (cell i)) :
    ∃ sheet sheet', finishSheet buf layout job = .ok sheet ∧
      finishSheet other layout' job = .ok sheet' ∧ SamePicture sheet sheet' ∧
      picture.shape sheet = picture.shape buf ∧ picture.shape sheet' = picture.shape other := by
  have hinside' : ∀ i < n, CellInside other (cell i) := fun i hi =>
    (hinside i hi).of_size h.width h.height
  obtain ⟨buf₁, hborders, hframes⟩ := imgDrawBorders_painted hbuf hcells
    (fun i hi => (hinside i hi).small hbuf) job.borderPx
  obtain ⟨other₁, hborders', hframes'⟩ := imgDrawBorders_painted hother hcells'
    (fun i hi => (hinside' i hi).small hother) job.borderPx
  have h₁ := h.inked hframes hframes'
  have hraster₁ := hbuf.of_shape hframes.1
  have hraster₁' := hother.of_shape hframes'.1
  obtain ⟨buf₂, hbleed, hrings⟩ := imgApplyBleed_copied hraster₁ hcells
    (fun i hi => (hinside i hi).of_shape hframes.1) job.bleedPx
  obtain ⟨other₂, hbleed', hrings'⟩ := imgApplyBleed_copied hraster₁' hcells'
    (fun i hi => (hinside' i hi).of_shape hframes'.1) job.bleedPx
  have h₂ := h₁.copied hrings hrings'
  have hraster₂ := hraster₁.of_shape hrings.1
  have hraster₂' := hraster₁'.of_shape hrings'.1
  obtain ⟨sheet, hmarks, hbars⟩ := imgDrawCropMarks_painted hraster₂.toRaster hcells
    (fun i hi => (hinside i hi).small hbuf) job
  obtain ⟨sheet', hmarks', hbars'⟩ := imgDrawCropMarks_painted hraster₂'.toRaster hcells'
    (fun i hi => (hinside' i hi).small hother) job
  refine ⟨sheet, sheet', ?_, ?_, h₂.inked hbars hbars',
    hbars.1.trans (hrings.1.trans hframes.1), hbars'.1.trans (hrings'.1.trans hframes'.1)⟩
  · unfold finishSheet
    rw [hborders]
    change (imgApplyBleed buf₁ layout job.bleedPx).bind _ = _
    rw [hbleed]
    exact hmarks
  · unfold finishSheet
    rw [hborders']
    change (imgApplyBleed other₁ layout' job.bleedPx).bind _ = _
    rw [hbleed']
    exact hmarks'

-- The photo that a layout puts into its cells.

section Scaled

variable {photo photo' : ImgBuffer} {size : UInt32 × UInt32} {cellW cellH : UInt32}

-- The pixel that resize_nearest reads, which is inside of the photo whatever the
-- products are.
theorem Delivered.nearest (h : Delivered photo) (newW newH dx dy : UInt32) :
    photo.bytes.getRgb (nearestOffset photo newW newH dx dy) =
        photo.pixel ((nearestCoord dx photo.width newW).toNat,
          (nearestCoord dy photo.height newH).toNat) ∧
      picture.domain (picture.shape photo)
        ((nearestCoord dx photo.width newW).toNat, (nearestCoord dy photo.height newH).toNat) := by
  have hin : picture.domain (picture.shape photo)
      (((nearestCoord dx photo.width newW).toNat : Int),
        ((nearestCoord dy photo.height newH).toNat : Int)) :=
    ⟨Int.natCast_nonneg _, Int.ofNat_lt.mpr (nearestCoord_lt dx newW h.width.1),
      Int.natCast_nonneg _, Int.ofNat_lt.mpr (nearestCoord_lt dy newH h.height.1)⟩
  refine ⟨?_, hin⟩
  rw [ImgBuffer.pixel, h.raster.offset hin, h.offset_eq]
  rfl

theorem SamePicture.nearest (h : SamePicture photo photo') (hphoto : Delivered photo)
    (hphoto' : Delivered photo') (newW newH dx dy : UInt32) :
    photo.bytes.getRgb (nearestOffset photo newW newH dx dy) =
      photo'.bytes.getRgb (nearestOffset photo' newW newH dx dy) := by
  obtain ⟨hpixel, hin⟩ := hphoto.nearest newW newH dx dy
  rw [hpixel, (hphoto'.nearest newW newH dx dy).1, h.pixel _ hin, h.width, h.height]

theorem samePicture_rgbBuffer (hrow : 3 * cellW.toNat < 2 ^ 32) (mem mem' : Ptr)
    {bytes bytes' : Bytes} (hsame : ∀ x < cellW.toNat, ∀ y < cellH.toNat,
      bytes.getRgb (y * (3 * cellW.toNat) + 3 * x) =
        bytes'.getRgb (y * (3 * cellW.toNat) + 3 * x)) :
    SamePicture (rgbBuffer mem cellW cellH bytes) (rgbBuffer mem' cellW cellH bytes') := by
  refine ⟨rfl, rfl, fun p hp => ?_⟩
  obtain ⟨hx, hx', hy, hy'⟩ := mem_domain.mp hp
  obtain ⟨x, hx⟩ := Int.eq_ofNat_of_zero_le hx
  obtain ⟨y, hy⟩ := Int.eq_ofNat_of_zero_le hy
  obtain rfl : p = ((x : Int), (y : Int)) := Prod.ext hx hy
  have hx' : x < cellW.toNat := Int.ofNat_lt.mp hx'
  have hy' : y < cellH.toNat := Int.ofNat_lt.mp hy'
  rw [rgbBuffer_pixel hrow mem bytes hx' hy', rgbBuffer_pixel hrow mem' bytes' hx' hy']
  exact hsame x hx' y hy'

theorem cropped_same (h : SamePicture photo photo') (hphoto : Delivered photo)
    (hphoto' : Delivered photo') (hrows : RowsInWord size.1 (size.2.toNat - 1))
    (hw : cellW.toNat ≤ size.1.toNat) (hh : cellH.toNat ≤ size.2.toNat)
    (mem mem' : Ptr) (stale stale' tmpStale tmpStale' : Bytes) :
    SamePicture (rgbBuffer mem cellW cellH (cropped photo size cellW cellH stale tmpStale))
      (rgbBuffer mem' cellW cellH (cropped photo' size cellW cellH stale' tmpStale')) := by
  have hrow := hrows.row
  refine samePicture_rgbBuffer (by omega) mem mem' fun x hx y hy => ?_
  rw [cropped_getRgb hrows hw hh photo _ _ hx hy, cropped_getRgb hrows hw hh photo' _ _ hx hy]
  exact h.nearest hphoto hphoto' _ _ _ _

theorem pasted_same (h : SamePicture photo photo') (hphoto : Delivered photo)
    (hphoto' : Delivered photo') (hcell : PasteInWord size cellW cellH)
    (hw : size.1.toNat ≤ cellW.toNat) (hh : size.2.toNat ≤ cellH.toNat) (bg : Rgb)
    (mem mem' : Ptr) (stale stale' tmpStale tmpStale' : Bytes) :
    SamePicture (rgbBuffer mem cellW cellH (pasted photo size cellW cellH bg stale tmpStale))
      (rgbBuffer mem' cellW cellH (pasted photo' size cellW cellH bg stale' tmpStale')) := by
  refine samePicture_rgbBuffer hcell.row mem mem' fun x hx y hy => ?_
  by_cases hin : InWindow size cellW cellH x y
  · rw [pasted_window hcell hw hh photo hx hin, pasted_window hcell hw hh photo' hx hin]
    exact h.nearest hphoto hphoto' _ _ _ _
  · rw [pasted_background hcell hw hh photo hx hy hin,
      pasted_background hcell hw hh photo' hx hy hin]

end Scaled

end ImgEngine.Pipeline
