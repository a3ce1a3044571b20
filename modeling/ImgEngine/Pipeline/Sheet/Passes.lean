import ImgEngine.Pipeline.Bleed.Theorems
import ImgEngine.Pipeline.Layout.Blit
import ImgEngine.Pipeline.Layout.Geometry
import ImgEngine.Pipeline.Layout.Safety

namespace ImgEngine.Pipeline

open ImgEngine.Library.Loop ImgEngine.Library.Painting ImgEngine.Memory

-- A blit that is not clipped.
theorem imgBlitAvx2_painted {buf src : ImgBuffer} {x y : UInt32} (h : Raster buf)
    (hbuf : buf.data ≠ 0) (hsrc : src.data ≠ 0) (hwide : 3 * buf.width.toNat + 32 < 2 ^ 32)
    (hx : x.toNat + src.width.toNat ≤ buf.width.toNat)
    (hy : y.toNat + src.height.toNat ≤ buf.height.toNat) :
    Painted picture (fun p v => InRect x.toNat y.toNat src.width.toNat src.height.toNat p ∧
      v = src.pixel (p.1 - x.toNat, p.2 - y.toNat)) buf (imgBlitAvx2 buf src x y) := by
  have hheight := buf.height.toNat_lt
  have hroom : BlitRoom buf src x y := ⟨h, hbuf, hsrc, by omega, by omega, by omega, by omega, hwide⟩
  have hblit := imgBlitAvx2_blitted hroom
  refine ⟨rfl, fun p hp => ?_⟩
  obtain ⟨hpx, hpx', hpy, hpy'⟩ := mem_domain.mp hp
  by_cases hin : InRect x.toNat y.toNat src.width.toNat src.height.toNat p
  · refine .inl ⟨hin, ?_⟩
    obtain ⟨hlow, hhigh, hlow', hhigh'⟩ := hin
    have hpixel := hblit.pixels (p.1.toNat - x.toNat) (by omega) (p.2.toNat - y.toNat) (by omega)
      (by omega) (by omega)
    have hcol : ((x.toNat + (p.1.toNat - x.toNat) : Nat) : Int) = p.1 := by omega
    have hrow : ((y.toNat + (p.2.toNat - y.toNat) : Nat) : Int) = p.2 := by omega
    have hcol' : ((p.1.toNat - x.toNat : Nat) : Int) = p.1 - x.toNat := by omega
    have hrow' : ((p.2.toNat - y.toNat : Nat) : Int) = p.2 - y.toNat := by omega
    rw [hcol, hrow, hcol', hrow'] at hpixel
    exact hpixel
  · refine .inr ⟨fun v hv => hin hv.1, pixel_congr fun k hk => hblit.rest _ ?_⟩
    intro i hi j hj hxi hyj k' hk' heq
    have heq : buf.offset p.1 p.2 + k = buf.offset (x.toNat + i : Nat) (y.toNat + j : Nat) + k' := heq
    have hne : p ≠ (((x.toNat + i : Nat) : Int), ((y.toNat + j : Nat) : Int)) := by
      rintro rfl
      exact hin ⟨by dsimp only; omega, by dsimp only; omega, by dsimp only; omega,
        by dsimp only; omega⟩
    have hq : picture.domain (picture.shape buf)
        (((x.toNat + i : Nat) : Int), ((y.toNat + j : Nat) : Int)) :=
      ⟨Int.natCast_nonneg _, Int.ofNat_lt.mpr hxi, Int.natCast_nonneg _, Int.ofNat_lt.mpr hyj⟩
    have hapart := h.apart hp hq hne
    dsimp only at hapart
    omega

def InCell (c : ImgCell) (p : Int × Int) : Prop := InRect c.x.toNat c.y.toNat c.w.toNat c.h.toNat p

-- Within a distance of a cell in both axes.
def Within (c : ImgCell) (bleed : Nat) (p : Int × Int) : Prop :=
  InRect (c.x.toNat - bleed) (c.y.toNat - bleed) (c.w.toNat + 2 * bleed) (c.h.toNat + 2 * bleed) p

def clampCell (c : ImgCell) (p : Int × Int) : Int × Int :=
  clampTo c.x.toNat c.y.toNat c.w.toNat c.h.toNat p

-- The pixel of an image that lies at the cell's origin.
def imageAt (image : ImgBuffer) (c : ImgCell) (p : Int × Int) : Rgb :=
  image.pixel (p.1 - c.x.toNat, p.2 - c.y.toNat)

section Passes

variable {F : Type} {job : ImgJob F} {canvas : ImgCanvas} {scaled : ImgBuffer} {buf : ImgBuffer}
  {layout : ImgLayout}

theorem placeCells_painted (cells : CellArray) (hplain : Plain canvas.buf)
    (hdata : canvas.buf.data ≠ 0) (hscaled : scaled.data ≠ 0)
    (hwidth : scaled.width = canvas.photoWPx) (hheight : scaled.height = canvas.photoHPx)
    (hwide : 3 * canvas.buf.width.toNat + 32 < 2 ^ 32)
    (hpage : ∀ n < job.rows.toNat * job.cols.toNat, InPage canvas (gridCell canvas job n)) :
    Painted picture (fun p v => ∃ n < job.rows.toNat * job.cols.toNat,
        InCell (gridCell canvas job n) p ∧ v = imageAt scaled (gridCell canvas job n) p)
      canvas.buf (placeCells canvas scaled job cells).buf := by
  unfold placeCells
  rw [forRange_nested]
  refine Painted.forRange (C := picture.comap GridState.buf)
    (a := { buf := canvas.buf, cells := cells, blits := [] })
    (fun n p v => InCell (gridCell canvas job n) p ∧ v = imageAt scaled (gridCell canvas job n) p) ?_
  intro n hn s hs
  have hshape : picture.shape s.buf = picture.shape canvas.buf := hs.1
  obtain ⟨hsdata, hsw, hsh, -⟩ := shape_eq_iff.mp hshape
  have hpage := hpage n hn
  rw [placeCell_fits (eq_of_shape hshape) hpage.fits]
  have hpainted := imgBlitAvx2_painted (x := (gridCell canvas job n).x)
    (y := (gridCell canvas job n).y) (hplain.of_shape hshape).intRaster.toRaster (by rw [hsdata]; exact hdata) hscaled
    (by rw [hsw]; exact hwide) (by rw [hsw, hwidth]; exact hpage.1) (by rw [hsh, hheight]; exact hpage.2)
  rw [hwidth, hheight] at hpainted
  exact hpainted

-- The counted cells, as the passes read them.
structure Cells (layout : ImgLayout) (n : Nat) (cell : Nat → ImgCell) : Prop where
  count : layout.count.toNat = n
  get : ∀ i < n, layout.cells.get (.ofNat i) = cell i

variable {n : Nat} {cell : Nat → ImgCell}

theorem imgDrawBorders_painted (h : IntRaster buf) (hcells : Cells layout n cell)
    (hsmall : ∀ i < n, SmallCell (cell i)) (borderPx : UInt32) :
    ∃ buf', (if borderPx > 0 then imgDrawBorders buf layout borderPx else .ok buf) = .ok buf' ∧
      Painted picture (fun p v => (∃ i < n, OnFrame (cell i) (int32 borderPx) p) ∧ v = .black)
        buf buf' := by
  by_cases hzero : borderPx = 0
  · subst hzero
    refine ⟨buf, rfl, .refl ?_⟩
    rintro p _ v ⟨⟨i, _, hframe⟩, _⟩
    have hnone : int32 0 = 0 := by decide
    rw [hnone] at hframe
    unfold OnFrame InRect at hframe
    omega
  · have hpos : borderPx > 0 := UInt32.pos_iff_ne_zero.mpr hzero
    refine ⟨_, by rw [if_pos hpos, imgDrawBorders, if_neg hzero], ?_⟩
    rw [hcells.count]
    have hloop : Painted picture
        (fun p v => ∃ i < n, OnFrame (cell i) (int32 borderPx) p ∧ v = Rgb.black) buf
        (forRange n (fun i canvas =>
          drawBorder canvas (layout.cells.get (.ofNat i)) (int32 borderPx)) buf) := by
      refine Painted.forRange (fun i p v => OnFrame (cell i) (int32 borderPx) p ∧ v = Rgb.black) ?_
      intro i hi s hs
      rw [hcells.get i hi]
      exact drawBorder_painted (h.of_shape hs.1) (hsmall i hi) _
    exact hloop.congr fun p _ v => by simp only [← and_assoc, exists_and_right]

theorem imgDrawBorders_nearEdge (h : IntRaster buf) (hcells : Cells layout n cell)
    (hsmall : ∀ i < n, SmallCell (cell i)) {borderPx : UInt32}
    (hborder : ∀ i < n, borderPx.toNat ≤ (cell i).w.toNat ∧ borderPx.toNat ≤ (cell i).h.toNat) :
    ∃ buf', (if borderPx > 0 then imgDrawBorders buf layout borderPx else .ok buf) = .ok buf' ∧
      Painted picture (fun p v => ∃ i < n, NearEdge (cell i) borderPx.toNat p ∧ v = .black) buf buf' := by
  obtain ⟨buf', hok, hpainted⟩ := imgDrawBorders_painted h hcells hsmall borderPx
  refine ⟨buf', hok, hpainted.congr fun p _ v => ?_⟩
  have hframe : ∀ i < n, OnFrame (cell i) (int32 borderPx) p ↔ NearEdge (cell i) borderPx.toNat p := by
    intro i hi
    obtain ⟨hw, hh⟩ := hborder i hi
    have hright := (hsmall i hi).right
    rw [int32_of_lt (by omega)]
    exact onFrame_iff hw hh
  constructor
  · rintro ⟨⟨i, hi, hon⟩, hv⟩
    exact ⟨i, hi, (hframe i hi).mp hon, hv⟩
  · rintro ⟨i, hi, hon, hv⟩
    exact ⟨⟨i, hi, (hframe i hi).mpr hon⟩, hv⟩

-- The thickness of the marks, which is 1 for a job that gives none.
def markThickness (job : ImgJob F) : UInt32 :=
  if job.cropThickness ≠ 0 then job.cropThickness else 1

theorem markThickness_toNat (job : ImgJob F) :
    (markThickness job).toNat = max 1 job.cropThickness.toNat := by
  unfold markThickness
  split_ifs with hzero
  · have : job.cropThickness.toNat ≠ 0 := fun h => hzero (UInt32.toNat_inj.mp h)
    omega
  · rw [not_not] at hzero
    rw [hzero]
    rfl

theorem imgDrawCropMarks_painted (h : Raster buf) (hcells : Cells layout n cell)
    (hsmall : ∀ i < n, SmallCell (cell i)) (job : ImgJob F) :
    ∃ buf', imgDrawCropMarks buf layout job = .ok buf' ∧
      Painted picture (fun p v => (∃ i < n, OnBars (cell i) (int32 job.cropOffsetPx)
        (int32 job.cropMarkPx) (markThickness job) p) ∧ v = .black) buf buf' := by
  unfold imgDrawCropMarks
  by_cases hzero : job.cropMarkPx = 0
  · rw [if_pos hzero]
    refine ⟨buf, rfl, .refl ?_⟩
    rintro p _ v ⟨⟨i, _, hmark⟩, _⟩
    have hnone : int32 0 = 0 := by decide
    rw [hzero, hnone] at hmark
    unfold OnBars BarH BarV at hmark
    simp only [add_zero] at hmark
    have hempty : ∀ {th : Nat} {q : Nat → Prop} {x y : Int}, ¬∃ t < th, q t ∧ x ≤ y ∧ y < x :=
      fun ⟨_, _, _, hlow, hhigh⟩ => absurd hhigh (not_lt.mpr hlow)
    simp only [hempty, or_self] at hmark
  · rw [if_neg hzero]
    refine ⟨_, rfl, ?_⟩
    rw [hcells.count]
    have hloop : Painted picture (fun p v => ∃ i < n, OnBars (cell i) (int32 job.cropOffsetPx)
        (int32 job.cropMarkPx) (markThickness job) p ∧ v = Rgb.black) buf
        (forRange n (fun i canvas => drawCropMarks canvas (layout.cells.get (.ofNat i))
          (int32 job.cropOffsetPx) (int32 job.cropMarkPx) (markThickness job)) buf) := by
      refine Painted.forRange (fun i p v => OnBars (cell i) (int32 job.cropOffsetPx)
        (int32 job.cropMarkPx) (markThickness job) p ∧ v = Rgb.black) ?_
      intro i hi s hs
      rw [hcells.get i hi]
      exact drawCropMarks_painted (h.of_shape hs.1) (hsmall i hi) _ _ _
    exact hloop.congr fun p _ v => by simp only [← and_assoc, exists_and_right]

theorem imgDrawCropMarks_onMark (h : Raster buf) (hcells : Cells layout n cell)
    (hsmall : ∀ i < n, SmallCell (cell i)) (hoff : job.cropOffsetPx.toNat < 2 ^ 31)
    (hlen : job.cropMarkPx.toNat < 2 ^ 31) (hth : job.cropThickness.toNat < 2 ^ 31) :
    ∃ buf', imgDrawCropMarks buf layout job = .ok buf' ∧
      Painted picture (fun p v => ∃ i < n, OnMark (cell i) job.cropOffsetPx.toNat
        job.cropMarkPx.toNat (max 1 job.cropThickness.toNat) p ∧ v = .black) buf buf' := by
  obtain ⟨buf', hok, hpainted⟩ := imgDrawCropMarks_painted h hcells hsmall job
  refine ⟨buf', hok, hpainted.congr fun p _ v => ?_⟩
  have hthickness := markThickness_toNat job
  rw [int32_of_lt hoff, int32_of_lt hlen]
  simp only [onBars_iff (show (markThickness job).toNat < 2 ^ 31 by omega), hthickness, ← and_assoc,
    exists_and_right]

-- The rings read the edges of their own cells only, which no ring overlaps.
theorem imgApplyBleed_painted (h : IntRaster buf) (hcells : Cells layout n cell)
    (hcanvas : ∀ i < n, OnCanvas buf (cell i).x.toNat (cell i).y.toNat (cell i).w.toNat (cell i).h.toNat)
    (hsmall : ∀ i < n, SmallCell (cell i)) {bleedPx : UInt32} (hbleed : bleedPx.toNat < 2 ^ 31)
    (hapart : ∀ i < n, ∀ j < n, i ≠ j → ∀ p, Within (cell i) bleedPx.toNat p → ¬InCell (cell j) p) :
    ∃ buf', imgApplyBleed buf layout bleedPx = .ok buf' ∧
      Painted picture (fun p v => ∃ i < n, (Within (cell i) bleedPx.toNat p ∧ ¬InCell (cell i) p) ∧
        v = buf.pixel (clampCell (cell i) p)) buf buf' := by
  unfold imgApplyBleed
  split_ifs with hzero
  · refine ⟨buf, rfl, .refl ?_⟩
    rintro p _ v ⟨i, _, ⟨hwithin, hout⟩, _⟩
    rw [hzero] at hwithin
    have hnone : (0 : UInt32).toNat = 0 := rfl
    rw [Within, hnone] at hwithin
    unfold InRect at hwithin
    unfold InCell InRect at hout
    omega
  · refine ⟨_, rfl, ?_⟩
    rw [hcells.count]
    refine Painted.forRange (fun i p v => (Within (cell i) bleedPx.toNat p ∧ ¬InCell (cell i) p) ∧
      v = buf.pixel (clampCell (cell i) p)) ?_
    intro i hi s hs
    obtain ⟨hx, hy, hw, hh⟩ := (hsmall i hi).int32
    have hcell := (hcanvas i hi).of_shape hs.1
    rw [hcells.get i hi, int32_of_lt hbleed, bleedCell, hx, hy, hw, hh]
    refine (bleedCell_painted (h.of_shape hs.1) hcell (by omega)).congr fun p _ v =>
      and_congr_right fun _ => ?_
    have hclamp : InCell (cell i) (clampCell (cell i) p) := by
      obtain ⟨-, hwidth, -, -, hheight, -⟩ := hcell
      unfold InCell InRect clampCell clampTo
      omega
    have hcolor : s.pixel (clampCell (cell i) p) = buf.pixel (clampCell (cell i) p) := by
      refine hs.kept (p := clampCell (cell i) p) ?_ ?_
      · obtain ⟨hleft, hwidth, hright, htop, hheight, hbottom⟩ := hcanvas i hi
        obtain ⟨hlow, hhigh, hlow', hhigh'⟩ := hclamp
        rw [mem_domain]
        omega
      · rintro v ⟨j, hj, ⟨hwithin, -⟩, -⟩
        exact hapart j (by omega) i hi (by omega) _ hwithin hclamp
    change v = s.pixel (clampCell (cell i) p) ↔ _
    rw [hcolor]

end Passes

end ImgEngine.Pipeline
