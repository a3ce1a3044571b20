import ImgEngine.Pipeline.Sheet
import ImgEngine.Pipeline.Sheet.Passes

namespace ImgEngine.Pipeline

open ImgEngine.Library.Painting ImgEngine.Memory

section Sheets

variable {F : Type} {job : ImgJob F} {canvas canvas' : ImgCanvas} {photo scaled sheet : ImgBuffer}
  {layout : ImgLayout}

-- The crop marks of the grid.
def Marked (canvas : ImgCanvas) (job : ImgJob F) (p : Int × Int) : Prop :=
  ∃ n < job.rows.toNat * job.cols.toNat, OnMark (gridCell canvas job n) job.cropOffsetPx.toNat
    job.cropMarkPx.toNat (max 1 job.cropThickness.toNat) p

-- The finished sheet, pixel by pixel. The cells are those of the grid.
structure SheetPixels (canvas : ImgCanvas) (job : ImgJob F) (scaled sheet : ImgBuffer) : Prop where
  size : sheet.width = canvas.buf.width ∧ sheet.height = canvas.buf.height
  mark : ∀ p, picture.domain (picture.shape canvas.buf) p → Marked canvas job p →
    sheet.pixel p = .black
  unique : ∀ p, ∀ m < job.rows.toNat * job.cols.toNat, ∀ n < job.rows.toNat * job.cols.toNat,
    Within (gridCell canvas job m) job.bleedPx.toNat p →
    Within (gridCell canvas job n) job.bleedPx.toNat p → m = n
  border : ∀ p, picture.domain (picture.shape canvas.buf) p → ¬Marked canvas job p →
    ∀ n < job.rows.toNat * job.cols.toNat, Within (gridCell canvas job n) job.bleedPx.toNat p →
    NearEdge (gridCell canvas job n) job.borderPx.toNat (clampCell (gridCell canvas job n) p) →
    sheet.pixel p = .black
  image : ∀ p, picture.domain (picture.shape canvas.buf) p → ¬Marked canvas job p →
    ∀ n < job.rows.toNat * job.cols.toNat, Within (gridCell canvas job n) job.bleedPx.toNat p →
    ¬NearEdge (gridCell canvas job n) job.borderPx.toNat (clampCell (gridCell canvas job n) p) →
    sheet.pixel p = imageAt scaled (gridCell canvas job n) (clampCell (gridCell canvas job n) p)
  background : ∀ p, picture.domain (picture.shape canvas.buf) p → ¬Marked canvas job p →
    (∀ n < job.rows.toNat * job.cols.toNat, ¬Within (gridCell canvas job n) job.bleedPx.toNat p) →
    sheet.pixel p = job.bg

-- The grid lies on the page, the marks and borders have int32_t sizes and no 32-bit
-- computation wraps.
structure SheetFits (canvas : ImgCanvas) (job : ImgJob F) : Prop where
  grid : GridFits canvas job
  count : job.rows.toNat * job.cols.toNat < 2 ^ 32
  rowBytes : 3 * canvas.buf.width.toNat + 32 < 2 ^ 32
  width : canvas.buf.width.toNat < 2 ^ 31
  height : canvas.buf.height.toNat < 2 ^ 31
  borderW : job.borderPx.toNat ≤ canvas.photoWPx.toNat
  borderH : job.borderPx.toNat ≤ canvas.photoHPx.toNat
  bleed : 2 * job.bleedPx.toNat ≤ job.gap.toNat
  markOffset : job.cropOffsetPx.toNat < 2 ^ 31
  markLength : job.cropMarkPx.toNat < 2 ^ 31
  markThickness : job.cropThickness.toNat < 2 ^ 31

theorem GridFits.within_unique (h : GridFits canvas job)
    (hgap : 2 * job.bleedPx.toNat ≤ job.gap.toNat) {p : Int × Int} {m n : Nat}
    (hm : m < job.rows.toNat * job.cols.toNat) (hn : n < job.rows.toNat * job.cols.toNat)
    (hpm : Within (gridCell canvas job m) job.bleedPx.toNat p)
    (hpn : Within (gridCell canvas job n) job.bleedPx.toNat p) : m = n := by
  by_contra hne
  have hapart := h.apart hm hn hne
  unfold Apart at hapart
  unfold Within InRect at hpm hpn
  omega

theorem InCell.within {c : ImgCell} {p : Int × Int} (h : InCell c p) (bleed : Nat) :
    Within c bleed p := by
  obtain ⟨hx, hx', hy, hy'⟩ := h
  exact ⟨by omega, by omega, by omega, by omega⟩

theorem InCell.clamp {c : ImgCell} {p : Int × Int} (h : InCell c p) : clampCell c p = p := by
  obtain ⟨hx, hx', hy, hy'⟩ := h
  exact Prod.ext (by dsimp only [clampCell, clampTo]; omega) (by dsimp only [clampCell, clampTo]; omega)

theorem clampCell_inCell {c : ImgCell} (hw : 1 ≤ c.w.toNat) (hh : 1 ≤ c.h.toNat) (p : Int × Int) :
    InCell c (clampCell c p) := by
  unfold InCell InRect clampCell clampTo
  omega

theorem InCell.domain {c : ImgCell} {p : Int × Int} (h : InCell c p) (hpage : InPage canvas c) :
    picture.domain (picture.shape canvas.buf) p := by
  obtain ⟨hx, hx', hy, hy'⟩ := h
  obtain ⟨hright, hbottom⟩ := hpage
  rw [mem_domain]
  omega

-- What the four passes paint, each over what the one before has left.
structure Layers (canvas : ImgCanvas) (job : ImgJob F) (scaled buf₁ buf₂ buf₃ sheet : ImgBuffer) :
    Prop where
  photos : Painted picture (fun p v => ∃ n < job.rows.toNat * job.cols.toNat,
    InCell (gridCell canvas job n) p ∧ v = imageAt scaled (gridCell canvas job n) p) canvas.buf buf₁
  borders : Painted picture (fun p v => ∃ n < job.rows.toNat * job.cols.toNat,
    NearEdge (gridCell canvas job n) job.borderPx.toNat p ∧ v = .black) buf₁ buf₂
  bleed : Painted picture (fun p v => ∃ n < job.rows.toNat * job.cols.toNat,
    (Within (gridCell canvas job n) job.bleedPx.toNat p ∧ ¬InCell (gridCell canvas job n) p) ∧
      v = buf₂.pixel (clampCell (gridCell canvas job n) p)) buf₂ buf₃
  marks : Painted picture (fun p v => ∃ n < job.rows.toNat * job.cols.toNat,
    OnMark (gridCell canvas job n) job.cropOffsetPx.toNat job.cropMarkPx.toNat
      (max 1 job.cropThickness.toNat) p ∧ v = .black) buf₃ sheet

section Layering

variable {buf₁ buf₂ buf₃ : ImgBuffer} {p : Int × Int} {n : Nat}

theorem Layers.shapes (h : Layers canvas job scaled buf₁ buf₂ buf₃ sheet) :
    picture.shape buf₁ = picture.shape canvas.buf ∧ picture.shape buf₂ = picture.shape canvas.buf ∧
      picture.shape buf₃ = picture.shape canvas.buf ∧
      picture.shape sheet = picture.shape canvas.buf :=
  ⟨h.photos.1, h.borders.1.trans h.photos.1, h.bleed.1.trans (h.borders.1.trans h.photos.1),
    h.marks.1.trans (h.bleed.1.trans (h.borders.1.trans h.photos.1))⟩

-- A cell after the borders.

theorem Layers.edge (h : Layers canvas job scaled buf₁ buf₂ buf₃ sheet)
    (hn : n < job.rows.toNat * job.cols.toNat) (hp : picture.domain (picture.shape canvas.buf) p)
    (hedge : NearEdge (gridCell canvas job n) job.borderPx.toNat p) : buf₂.pixel p = .black := by
  refine h.borders.color (h.shapes.1.symm ▸ hp) ⟨n, hn, hedge, rfl⟩ ?_
  rintro v ⟨m, _, _, rfl⟩
  rfl

theorem Layers.inner (h : Layers canvas job scaled buf₁ buf₂ buf₃ sheet) (hfits : SheetFits canvas job)
    (hn : n < job.rows.toNat * job.cols.toNat) (hp : picture.domain (picture.shape canvas.buf) p)
    (hin : InCell (gridCell canvas job n) p)
    (hedge : ¬NearEdge (gridCell canvas job n) job.borderPx.toNat p) :
    buf₂.pixel p = imageAt scaled (gridCell canvas job n) p := by
  have hsame : ∀ m < job.rows.toNat * job.cols.toNat, InCell (gridCell canvas job m) p → m = n :=
    fun m hm hin' => hfits.grid.within_unique hfits.bleed hm hn (hin'.within _) (hin.within _)
  have hkept : buf₂.pixel p = buf₁.pixel p := by
    refine h.borders.kept (h.shapes.1.symm ▸ hp) ?_
    rintro v ⟨m, hm, hedge', _⟩
    rw [hsame m hm hedge'.1] at hedge'
    exact hedge hedge'
  rw [hkept]
  refine h.photos.color hp ⟨n, hn, hin, rfl⟩ ?_
  rintro v ⟨m, hm, hin', rfl⟩
  rw [hsame m hm hin']

-- A cell and its ring after the bleed.
theorem Layers.ring (h : Layers canvas job scaled buf₁ buf₂ buf₃ sheet) (hfits : SheetFits canvas job)
    (hn : n < job.rows.toNat * job.cols.toNat) (hp : picture.domain (picture.shape canvas.buf) p)
    (hwithin : Within (gridCell canvas job n) job.bleedPx.toNat p) :
    buf₃.pixel p = buf₂.pixel (clampCell (gridCell canvas job n) p) := by
  have hsame : ∀ m < job.rows.toNat * job.cols.toNat,
      Within (gridCell canvas job m) job.bleedPx.toNat p → m = n :=
    fun m hm hwithin' => hfits.grid.within_unique hfits.bleed hm hn hwithin' hwithin
  by_cases hin : InCell (gridCell canvas job n) p
  · rw [hin.clamp]
    refine h.bleed.kept (h.shapes.2.1.symm ▸ hp) ?_
    rintro v ⟨m, hm, ⟨hwithin', hout⟩, _⟩
    rw [hsame m hm hwithin'] at hout
    exact hout hin
  · refine h.bleed.color (h.shapes.2.1.symm ▸ hp) ⟨n, hn, ⟨hwithin, hin⟩, rfl⟩ ?_
    rintro v ⟨m, hm, ⟨hwithin', _⟩, rfl⟩
    rw [hsame m hm hwithin']

theorem Layers.far (h : Layers canvas job scaled buf₁ buf₂ buf₃ sheet)
    (hp : picture.domain (picture.shape canvas.buf) p)
    (hfar : ∀ n < job.rows.toNat * job.cols.toNat,
      ¬Within (gridCell canvas job n) job.bleedPx.toNat p) : buf₃.pixel p = canvas.buf.pixel p := by
  have hbleed : buf₃.pixel p = buf₂.pixel p := by
    refine h.bleed.kept (h.shapes.2.1.symm ▸ hp) ?_
    rintro v ⟨n, hn, ⟨hwithin, _⟩, _⟩
    exact hfar n hn hwithin
  have hborders : buf₂.pixel p = buf₁.pixel p := by
    refine h.borders.kept (h.shapes.1.symm ▸ hp) ?_
    rintro v ⟨n, hn, ⟨hin, _⟩, _⟩
    exact hfar n hn (InCell.within hin _)
  have hphotos : buf₁.pixel p = canvas.buf.pixel p := by
    refine h.photos.kept hp ?_
    rintro v ⟨n, hn, hin, _⟩
    exact hfar n hn (hin.within _)
  rw [hbleed, hborders, hphotos]

theorem Layers.unmarked (h : Layers canvas job scaled buf₁ buf₂ buf₃ sheet)
    (hp : picture.domain (picture.shape canvas.buf) p) (hmark : ¬Marked canvas job p) :
    sheet.pixel p = buf₃.pixel p := by
  refine h.marks.kept (h.shapes.2.2.1.symm ▸ hp) ?_
  rintro v ⟨n, hn, hon, _⟩
  exact hmark ⟨n, hn, hon⟩

theorem Layers.pixels (h : Layers canvas job scaled buf₁ buf₂ buf₃ sheet) (hfits : SheetFits canvas job)
    (hw : 1 ≤ canvas.photoWPx.toNat) (hh : 1 ≤ canvas.photoHPx.toNat)
    (hbg : ∀ p, picture.domain (picture.shape canvas.buf) p → canvas.buf.pixel p = job.bg) :
    SheetPixels canvas job scaled sheet := by
  obtain ⟨-, hwidth, hheight, -⟩ := shape_eq_iff.mp h.shapes.2.2.2
  have hclamp : ∀ n < job.rows.toNat * job.cols.toNat, ∀ p,
      InCell (gridCell canvas job n) (clampCell (gridCell canvas job n) p) ∧
      picture.domain (picture.shape canvas.buf) (clampCell (gridCell canvas job n) p) := by
    intro n hn p
    have hin : InCell (gridCell canvas job n) (clampCell (gridCell canvas job n) p) :=
      clampCell_inCell hw hh p
    exact ⟨hin, hin.domain (hfits.grid.coordinate hn).2.2⟩
  refine ⟨⟨hwidth, hheight⟩, ?_, fun p m hm n hn => hfits.grid.within_unique hfits.bleed hm hn,
    ?_, ?_, ?_⟩
  · rintro p hp ⟨n, hn, hon⟩
    refine h.marks.color (h.shapes.2.2.1.symm ▸ hp) ⟨n, hn, hon, rfl⟩ ?_
    rintro v ⟨m, _, _, rfl⟩
    rfl
  · intro p hp hmark n hn hwithin hedge
    obtain ⟨-, hdomain⟩ := hclamp n hn p
    rw [h.unmarked hp hmark, h.ring hfits hn hp hwithin]
    exact h.edge hn hdomain hedge
  · intro p hp hmark n hn hwithin hedge
    obtain ⟨hin, hdomain⟩ := hclamp n hn p
    rw [h.unmarked hp hmark, h.ring hfits hn hp hwithin]
    exact h.inner hfits hn hdomain hin hedge
  · intro p hp hmark hfar
    rw [h.unmarked hp hmark, h.far hp hfar]
    exact hbg p hp

end Layering

variable [FloatType F] {heap heap₁ heap' heap'' : Heap} {arena : ImgArena}

-- The pixels that img_canvas_init has filled.
theorem CanvasFor.pixel {blockSize : UInt64} (h : CanvasFor job blockSize canvas)
    (hplain : Plain canvas.buf) (hwide : 3 * canvas.buf.width.toNat + 32 < 2 ^ 32)
    {p : Int × Int} (hp : picture.domain (picture.shape canvas.buf) p) :
    canvas.buf.pixel p = job.bg := by
  obtain ⟨hx, hx', hy, hy'⟩ := mem_domain.mp hp
  have hheight := hplain.height
  have hsize : (rgbSize canvas.buf.width canvas.buf.height).toNat =
      3 * (canvas.buf.height.toNat * canvas.buf.width.toNat) := by
    have hsmall : canvas.buf.height.toNat * (3 * canvas.buf.width.toNat) < 2 ^ 31 * 2 ^ 32 :=
      Nat.mul_lt_mul'' hheight (by omega)
    have harea : canvas.buf.width.toNat * canvas.buf.height.toNat * 3 =
        canvas.buf.height.toNat * (3 * canvas.buf.width.toNat) := by ring
    rw [rgbSize_toNat, harea, Nat.mod_eq_of_lt (by omega)]
    ring
  have hrow : (p.2.toNat + 1) * canvas.buf.width.toNat ≤
      canvas.buf.height.toNat * canvas.buf.width.toNat := Nat.mul_le_mul_right _ (by omega)
  rw [Nat.succ_mul] at hrow
  rw [ImgBuffer.pixel, hplain.offset hp]
  exact h.background _ (by rw [hsize]; omega)

-- The cells of a grid on the page are the ones that the passes read.
theorem imgLayoutGrid_cells (hfits : GridFits canvas job)
    (hcount : job.rows.toNat * job.cols.toNat < 2 ^ 32)
    (hlayout : imgLayoutGrid canvas photo job arena heap = (.ok (canvas', layout), heap')) :
    Cells layout (job.rows.toNat * job.cols.toNat) (gridCell canvas job) := by
  obtain ⟨hcount, hreal⟩ := hfits.realCells hcount hlayout
  refine ⟨hcount, fun i hi => ?_⟩
  rw [CellArray.get, (hreal i hi).written]
  rfl

theorem imgLayoutGrid_shape
    (hlayout : imgLayoutGrid canvas photo job arena heap = (.ok (canvas', layout), heap')) :
    picture.shape canvas'.buf = picture.shape canvas.buf := by
  obtain ⟨scaled, -, offset, arena', -, -, rfl, -⟩ := imgLayoutGrid_ok hlayout
  have hplaced := placeCells_placed canvas scaled job (CellArray.inArena arena' offset) fun i => rfl
  dsimp only
  rw [hplaced.buf]
  rfl

-- The sheet that the steps of img_api_run_job leave, in their order.
theorem finishSheet_pixels (hcanvas : imgCanvasInit heap job = some (.ok canvas, heap'))
    (hprepare : prepareCell canvas photo job heap' = (.ok scaled, heap₁))
    (hlayout : imgLayoutGrid canvas photo job arena heap' = (.ok (canvas', layout), heap''))
    (hfits : SheetFits canvas job) :
    ∃ sheet, finishSheet canvas'.buf layout job = .ok sheet ∧
      SheetPixels canvas job scaled sheet := by
  obtain ⟨hcanvas, -⟩ := imgCanvasInit_canvas hcanvas
  have hcells := imgLayoutGrid_cells hfits.grid hfits.count hlayout
  obtain ⟨scaled', heap₂, offset, arena', hprepare', -, rfl, -⟩ := imgLayoutGrid_ok hlayout
  rw [hprepare] at hprepare'
  cases hprepare'
  have hscaled := prepareCell_ok hprepare
  have hpage := fun n hn => (hfits.grid.coordinate (n := n) hn).2.2
  have hplain : Plain canvas.buf := by
    refine ⟨?_, hfits.width, hfits.height⟩
    have := hfits.rowBytes
    rw [hcanvas.stride, uint32_toNat_mul_three (by omega)]
  have hsmall : ∀ n < job.rows.toNat * job.cols.toNat, SmallCell (gridCell canvas job n) :=
    fun n hn => ⟨(hpage n hn).1.trans_lt hfits.width, (hpage n hn).2.trans_lt hfits.height⟩
  have hapart : ∀ i < job.rows.toNat * job.cols.toNat, ∀ j < job.rows.toNat * job.cols.toNat, i ≠ j →
      ∀ p, Within (gridCell canvas job i) job.bleedPx.toNat p → ¬InCell (gridCell canvas job j) p :=
    fun i hi j hj hne p hwithin hin =>
      hne (hfits.grid.within_unique hfits.bleed hi hj hwithin (hin.within _))
  have h₁ := placeCells_painted (CellArray.inArena arena' offset) hplain hcanvas.data hscaled.data
    hscaled.width hscaled.height hfits.rowBytes hpage
  generalize (placeCells canvas scaled job (CellArray.inArena arena' offset)).buf = buf₁ at *
  obtain ⟨buf₂, hborders, h₂⟩ := imgDrawBorders_nearEdge (hplain.intRaster.of_shape h₁.1) hcells hsmall
    fun i _ => ⟨hfits.borderW, hfits.borderH⟩
  have hshape₂ := h₂.1.trans h₁.1
  have honcanvas : ∀ n < job.rows.toNat * job.cols.toNat, OnCanvas buf₂
      (gridCell canvas job n).x.toNat (gridCell canvas job n).y.toNat
      (gridCell canvas job n).w.toNat (gridCell canvas job n).h.toNat := by
    intro n hn
    obtain ⟨hright, hbottom⟩ := hpage n hn
    have hw : 1 ≤ (gridCell canvas job n).w.toNat := hcanvas.photoW_pos
    have hh : 1 ≤ (gridCell canvas job n).h.toNat := hcanvas.photoH_pos
    refine OnCanvas.of_shape ?_ hshape₂
    exact ⟨by omega, by omega, by omega, by omega, by omega, by omega⟩
  have hbleedlt : job.bleedPx.toNat < 2 ^ 31 := by
    have := hfits.bleed
    have := job.gap.toNat_lt
    omega
  obtain ⟨buf₃, hbleed, h₃⟩ := imgApplyBleed_painted (hplain.intRaster.of_shape hshape₂) hcells honcanvas
    hsmall hbleedlt hapart
  obtain ⟨buf₄, hmarks, h₄⟩ := imgDrawCropMarks_onMark
    (hplain.intRaster.of_shape (h₃.1.trans hshape₂)).toRaster hcells
    hsmall hfits.markOffset hfits.markLength hfits.markThickness
  refine ⟨buf₄, ?_, Layers.pixels ⟨h₁, h₂, h₃, h₄⟩ hfits hcanvas.photoW_pos hcanvas.photoH_pos
    fun p hp => hcanvas.pixel hplain hfits.rowBytes hp⟩
  unfold finishSheet
  rw [hborders]
  change (imgApplyBleed buf₂ layout job.bleedPx).bind _ = _
  rw [hbleed]
  exact hmarks

-- Two by two cells of two pixels and a gap of two pixels on a page of eight by twelve.
theorem smallJob_sheet :
    ∃ canvas canvas' layout heap heap', initAndLayout apiHeap smallJob smallPhoto smallArena =
        some (canvas, canvas', layout) ∧
      imgCanvasInit apiHeap smallJob = some (.ok canvas, heap) ∧
      imgLayoutGrid canvas smallPhoto smallJob smallArena heap = (.ok (canvas', layout), heap') ∧
      GridFits canvas smallJob ∧ canvas.photoWPx = 2 ∧ canvas.photoHPx = 1 ∧
      canvas.buf.width = 8 ∧ canvas.buf.height = 12 ∧ canvas.buf.stride = 24 := by
  have hall : (initAndLayout apiHeap smallJob smallPhoto smallArena).any fun r =>
      r.1.startX = 1 ∧ r.1.startY = 1 ∧ r.1.photoWPx = 2 ∧ r.1.photoHPx = 1 ∧
      r.1.buf.width = 8 ∧ r.1.buf.height = 12 ∧ r.1.buf.stride = 24 := by decide +kernel
  obtain ⟨⟨canvas, canvas', layout⟩, hrun, hall⟩ := (Option.any_eq_true _ _).mp hall
  have hall := of_decide_eq_true hall
  dsimp only at hall
  obtain ⟨hx, hy, hpw, hph, hw, hh, hstride⟩ := hall
  obtain ⟨heap, heap', hcanvas, hlayout⟩ := initAndLayout_some hrun
  refine ⟨canvas, canvas', layout, heap, heap', hrun, hcanvas, hlayout, ⟨?_, ?_⟩, hpw, hph, hw, hh,
    hstride⟩
  all_goals simp only [hx, hy, hpw, hph, hw, hh]
  all_goals decide

-- The rings of the small sheet meet.
theorem finishSheet_pixels_small :
    ∃ canvas canvas' layout scaled sheet, initAndLayout apiHeap smallJob smallPhoto smallArena =
        some (canvas, canvas', layout) ∧
      (∃ heap heap₁, prepareCell canvas smallPhoto smallJob heap = (.ok scaled, heap₁)) ∧
      finishSheet canvas'.buf layout smallJob = .ok sheet ∧
      SheetPixels canvas smallJob scaled sheet := by
  obtain ⟨canvas, canvas', layout, heap, heap', hrun, hcanvas, hlayout, hgrid, hpw, hph, hw, hh, -⟩ :=
    smallJob_sheet
  obtain ⟨scaled, heap₁, -, -, hprepare, -⟩ := imgLayoutGrid_ok hlayout
  have hfits : SheetFits canvas smallJob := by
    refine ⟨hgrid, by decide, ?_, ?_, ?_, ?_, ?_, by decide, by decide, by decide, by decide⟩
    all_goals simp only [hpw, hph, hw, hh]
    all_goals decide
  obtain ⟨sheet, hsheet, hpixels⟩ := finishSheet_pixels hcanvas hprepare hlayout hfits
  exact ⟨canvas, canvas', layout, scaled, sheet, hrun, ⟨heap, heap₁, hprepare⟩, hsheet, hpixels⟩

end Sheets

end ImgEngine.Pipeline
