import ImgEngine.Pipeline.Sheet.Bleed

namespace ImgEngine.Pipeline

open ImgEngine.Library.Loop ImgEngine.Library.Painting ImgEngine.Memory

-- Which layouts the bleed leaves the photos of as they are.

section Cells

variable {canvas : ImgBuffer} {layout : ImgLayout} {bleedPx : UInt32} {c : ImgCell} {p : Int × Int}

-- Whatever the canvas shows, no pixel of a cell takes another color.
def KeepsPhotos (canvas : ImgBuffer) (layout : ImgLayout) (bleedPx : UInt32) : Prop :=
  ∀ bytes, ∃ canvas', imgApplyBleed { canvas with bytes } layout bleedPx = .ok canvas' ∧
    ∀ i < layout.count.toNat, ∀ p, InCell (layout.cell i) p →
      canvas'.pixel p = { canvas with bytes }.pixel p

-- The cells lie at least the bleed apart. From 2^31 on the bleed is negative for the
-- loops, which then have no rounds.
def PhotosApart (layout : ImgLayout) (bleedPx : UInt32) : Prop :=
  ∀ i < layout.count.toNat, ∀ j < layout.count.toNat, i ≠ j →
    Apart (int32 bleedPx).toNat (layout.cell i) (layout.cell j)

-- The point whose color a point has after the bleed.
def bleedOrigin (layout : ImgLayout) (bleedPx : UInt32) : Int × Int → Int × Int :=
  sources (fun i => ringSource (layout.cell i) (int32 bleedPx)) layout.count.toNat

-- A canvas that is black but for one pixel.
theorem exists_spot (h : Raster canvas) (hp : picture.domain (picture.shape canvas) p) :
    ∃ bytes, { canvas with bytes }.pixel p = ⟨255, 255, 255⟩ ∧
      ∀ q, picture.domain (picture.shape canvas) q → q ≠ p →
        { canvas with bytes }.pixel q = .black := by
  refine ⟨Bytes.setRgb (fun _ => 0) (canvas.offset p.1 p.2) ⟨255, 255, 255⟩,
    Bytes.getRgb_setRgb _ _ _, fun q hq hne => ?_⟩
  exact Bytes.getRgb_setRgb_of_apart _ _ (h.apart hp hq hne.symm)

theorem keepsPhotos_iff_origin (h : IntRaster canvas)
    (hinside : ∀ i < layout.count.toNat, CellInside canvas (layout.cell i)) :
    KeepsPhotos canvas layout bleedPx ↔
      ∀ i < layout.count.toNat, ∀ p, InCell (layout.cell i) p → bleedOrigin layout bleedPx p = p := by
  have hread : Cells layout layout.count.toNat layout.cell := ⟨rfl, fun _ _ => rfl⟩
  -- the passes on any content of the canvas
  have hcopied : ∀ bytes, ∃ canvas', imgApplyBleed { canvas with bytes } layout bleedPx = .ok canvas' ∧
      Copied picture (bleedOrigin layout bleedPx) { canvas with bytes } canvas' := by
    intro bytes
    have hraster : IntRaster { canvas with bytes } := h.of_shape rfl
    exact imgApplyBleed_copied hraster hread
      (fun i hi => ⟨(hinside i hi).width, (hinside i hi).height, (hinside i hi).right,
        (hinside i hi).bottom⟩) bleedPx
  constructor
  · intro hkeep i hi p hin
    have hp := (hinside i hi).domain hin
    by_contra hne
    obtain ⟨bytes, hspot, hblack⟩ := exists_spot h.toRaster hp
    obtain ⟨canvas', hok, hcolors⟩ := hcopied bytes
    obtain ⟨kept, hok', hsame⟩ := hkeep bytes
    rw [hok, Except.ok.injEq] at hok'
    subst hok'
    obtain ⟨hsource, hcolor⟩ := hcolors.2 p hp
    have hwhite : ImgBuffer.pixel { canvas with bytes } (bleedOrigin layout bleedPx p) =
        ⟨255, 255, 255⟩ := hcolor.symm.trans ((hsame i hi p hin).trans hspot)
    rw [hblack _ hsource hne] at hwhite
    cases hwhite
  · intro hself bytes
    obtain ⟨canvas', hok, hcolors⟩ := hcopied bytes
    refine ⟨canvas', hok, fun i hi p hin => ?_⟩
    obtain ⟨-, hcolor⟩ := hcolors.2 p ((hinside i hi).domain hin)
    rw [hself i hi p hin] at hcolor
    exact hcolor

theorem sources_self {src : Nat → Int × Int → Int × Int} {n : Nat}
    (h : ∀ k < n, src k p = p) : sources src n p = p := by
  induction n with
  | zero => rfl
  | succ n ih =>
      change sources src n (src n p) = p
      rw [h n (Nat.lt_succ_self n)]
      exact ih fun k hk => h k (Nat.lt_succ_of_lt hk)

-- The cells are apart exactly if no ring reaches into a cell.
theorem apart_iff {bleed : Int} {other : ImgCell} (hw : 1 ≤ c.w.toNat) (hh : 1 ≤ c.h.toNat)
    (hw' : 1 ≤ other.w.toNat) (hh' : 1 ≤ other.h.toNat) (hdisjoint : Apart 0 c other) :
    Apart bleed.toNat c other ↔ ∀ p, InCell other p → ringSource c bleed p = p := by
  constructor
  · intro hapart p hin
    rw [ringSource, if_neg]
    rintro ⟨hwithin, -⟩
    unfold Apart at hapart hdisjoint
    unfold InCell InRect at hin
    unfold InRect at hwithin
    omega
  · intro hself
    by_contra hclose
    -- the point of the other cell that is nearest
    have hin : InCell other (clampTo other.x.toNat other.y.toNat other.w.toNat other.h.toNat
        (c.x.toNat, c.y.toNat)) := by
      unfold InCell InRect clampTo
      omega
    have hsource := hself _ hin
    rw [ringSource, if_pos] at hsource
    · have hcell := clampCell_inCell hw hh
        (clampTo other.x.toNat other.y.toNat other.w.toNat other.h.toNat (c.x.toNat, c.y.toNat))
      rw [hsource] at hcell
      unfold Apart at hdisjoint
      unfold InCell InRect at hin hcell
      omega
    · unfold Apart at hclose hdisjoint
      unfold OnRing InRect clampTo
      dsimp only
      omega

theorem Apart.symm {gap : Nat} {other : ImgCell} (h : Apart gap c other) : Apart gap other c := by
  unfold Apart at h ⊢
  omega

theorem InCell.ringSource (h : InCell c p) (bleed : Int) : ringSource c bleed p = p := by
  rw [Pipeline.ringSource, if_neg]
  exact fun hon => hon.2 h

-- A ring takes its colors from its own cell.
theorem ringSource_inCell {bleed : Int} (hw : 1 ≤ c.w.toNat) (hh : 1 ≤ c.h.toNat)
    (hne : ringSource c bleed p ≠ p) : InCell c (ringSource c bleed p) := by
  unfold ringSource at hne ⊢
  split_ifs at hne ⊢ with hring
  · exact clampCell_inCell hw hh p
  · exact absurd rfl hne

-- The first ring that reaches into another cell leaves the color of no pixel of a cell
-- where it was lost, and from then on every pass reads cells only.
theorem bleedOrigin_ne (hinside : ∀ i < layout.count.toNat, CellInside canvas (layout.cell i))
    {i j : Nat} (hi : i < layout.count.toNat) (hj : j < layout.count.toNat) (hin : InCell (layout.cell j) p)
    (hhit : ringSource (layout.cell i) (int32 bleedPx) p ≠ p)
    (hfirst : ∀ k < i, ∀ j < layout.count.toNat, ∀ q, InCell (layout.cell j) q →
      ringSource (layout.cell k) (int32 bleedPx) q = q) : bleedOrigin layout bleedPx p ≠ p := by
  have hring : ∀ k < layout.count.toNat, ∀ q, ringSource (layout.cell k) (int32 bleedPx) q ≠ q →
      InCell (layout.cell k) (ringSource (layout.cell k) (int32 bleedPx) q) :=
    fun k hk q => ringSource_inCell (hinside k hk).width (hinside k hk).height
  have hpi : ¬InCell (layout.cell i) p := fun hpi => hhit (hpi.ringSource _)
  have hlost : ∀ t, i < t → t ≤ layout.count.toNat → ∀ j < layout.count.toNat, ∀ q,
      InCell (layout.cell j) q →
      sources (fun k => ringSource (layout.cell k) (int32 bleedPx)) t q ≠ p := by
    intro t hit
    induction t with
    | zero => exact absurd hit (Nat.not_lt_zero i)
    | succ t ih =>
        intro ht j hj q hq
        change sources _ t (ringSource (layout.cell t) (int32 bleedPx) q) ≠ p
        have hcell : ∃ j < layout.count.toNat,
            InCell (layout.cell j) (ringSource (layout.cell t) (int32 bleedPx) q) := by
          by_cases hself : ringSource (layout.cell t) (int32 bleedPx) q = q
          · exact ⟨j, hj, hself.symm ▸ hq⟩
          · exact ⟨t, by omega, hring t (by omega) q hself⟩
        obtain ⟨j', hj', hq'⟩ := hcell
        rcases Nat.lt_succ_iff_lt_or_eq.mp hit with hlt | rfl
        · exact ih hlt (by omega) j' hj' _ hq'
        · -- the rings before the first one that reaches into a cell
          rw [sources_self fun k hk => hfirst k hk j' hj' _ hq']
          intro heq
          by_cases hself : ringSource (layout.cell i) (int32 bleedPx) q = q
          · rw [hself] at heq
            rw [heq] at hself
            exact hhit hself
          · exact hpi (heq ▸ hring i hi q hself)
  exact hlost _ hi (Nat.le_refl _) j hj p hin

-- The bleed leaves every photo as it is exactly if no two are closer than the bleed.
theorem keepsPhotos_iff (h : IntRaster canvas)
    (hinside : ∀ i < layout.count.toNat, CellInside canvas (layout.cell i))
    (hdisjoint : ∀ i < layout.count.toNat, ∀ j < layout.count.toNat, i ≠ j →
      Apart 0 (layout.cell i) (layout.cell j)) :
    KeepsPhotos canvas layout bleedPx ↔ PhotosApart layout bleedPx := by
  have hreach : ∀ i < layout.count.toNat, ∀ j < layout.count.toNat, i ≠ j →
      (Apart (int32 bleedPx).toNat (layout.cell i) (layout.cell j) ↔
        ∀ p, InCell (layout.cell j) p → ringSource (layout.cell i) (int32 bleedPx) p = p) :=
    fun i hi j hj hne => apart_iff (hinside i hi).width (hinside i hi).height
      (hinside j hj).width (hinside j hj).height (hdisjoint i hi j hj hne)
  rw [keepsPhotos_iff_origin h hinside]
  constructor
  · intro hself
    by_contra hclose
    have hsome : ∃ i, i < layout.count.toNat ∧ ∃ j < layout.count.toNat, i ≠ j ∧
        ¬Apart (int32 bleedPx).toNat (layout.cell i) (layout.cell j) := by
      unfold PhotosApart at hclose
      push Not at hclose
      exact hclose
    classical
    obtain ⟨hi, j, hj, hne, hhit⟩ := Nat.find_spec hsome
    have hmin := fun k hk => Nat.find_min hsome (m := k) hk
    generalize Nat.find hsome = i at *
    rw [hreach i hi j hj hne] at hhit
    push Not at hhit
    obtain ⟨p, hin, hhit⟩ := hhit
    refine bleedOrigin_ne hinside hi hj hin hhit (fun k hk j' hj' q hq => ?_) (hself j hj p hin)
    by_cases hkj : k = j'
    · subst hkj
      exact hq.ringSource _
    · by_contra hq'
      refine hmin k hk ⟨by omega, j', hj', hkj, fun hapart => hq' ?_⟩
      exact (hreach k (by omega) j' hj' hkj).mp hapart q hq
  · intro hapart i hi p hin
    refine sources_self fun k hk => ?_
    by_cases hki : k = i
    · subst hki
      exact hin.ringSource _
    · exact (hreach k hk i hi hki).mp (hapart k hk i hi hki) p hin

end Cells

section Layouts

variable {F : Type} {job : ImgJob F} {canvas canvas' : ImgCanvas} {layout : ImgLayout}

-- On a grid whose coordinates do not wrap, the distance is the gap.
theorem photosApart_iff_gap (hfits : GridFits canvas job)
    (hcells : Cells layout (job.rows.toNat * job.cols.toNat) (gridCell canvas job))
    (hw : 1 ≤ canvas.photoWPx.toNat) (hh : 1 ≤ canvas.photoHPx.toNat) (bleedPx : UInt32) :
    PhotosApart layout bleedPx ↔
      job.rows.toNat * job.cols.toNat ≤ 1 ∨ (int32 bleedPx).toNat ≤ job.gap.toNat := by
  have hcell : ∀ i < job.rows.toNat * job.cols.toNat, layout.cell i = gridCell canvas job i :=
    fun i hi => hcells.get i hi
  unfold PhotosApart
  rw [hcells.count]
  constructor
  · intro hapart
    by_contra hclose
    rw [not_or] at hclose
    obtain ⟨hmany, hbleed⟩ := hclose
    -- the second cell is beside the first one or, in a single column, below it
    have hnext := hapart 0 (by omega) 1 (by omega) (by omega)
    rw [hcell 0 (by omega), hcell 1 (by omega)] at hnext
    obtain ⟨hx, hy, -⟩ := hfits.coordinate (n := 0) (by omega)
    obtain ⟨hx', hy', -⟩ := hfits.coordinate (n := 1) (by omega)
    have hsize : ∀ n, (gridCell canvas job n).w = canvas.photoWPx ∧
        (gridCell canvas job n).h = canvas.photoHPx := fun _ => ⟨rfl, rfl⟩
    unfold Apart at hnext
    rw [hx, hy, hx', hy', (hsize 0).1, (hsize 0).2, (hsize 1).1, (hsize 1).2, Nat.zero_mod,
      Nat.zero_div, Nat.zero_mul] at hnext
    by_cases hcols : job.cols.toNat = 1
    · rw [hcols, Nat.mod_one, Nat.div_one, Nat.one_mul] at hnext
      omega
    · have hpos : 1 < job.cols.toNat := by
        by_contra hzero
        rw [show job.cols.toNat = 0 by omega, Nat.mul_zero] at hmany
        omega
      rw [Nat.mod_eq_of_lt hpos, Nat.div_eq_of_lt hpos, Nat.one_mul] at hnext
      omega
  · rintro (hone | hgap) i hi j hj hne
    · omega
    · have hapart := hfits.apart hi hj hne
      rw [hcell i hi, hcell j hj]
      unfold Apart at hapart ⊢
      omega

variable [FloatType F] {heap heap' heap'' : Heap} {photo : ImgBuffer} {arena : ImgArena}

theorem RealCell.cell_eq {i : Nat} (h : RealCell canvas photo job heap layout i) :
    layout.cell i = gridCell canvas job i := by
  rw [ImgLayout.cell, CellArray.get, h.written]
  rfl

-- The cells of a grid on the page are real and disjoint.
theorem GridFits.photos (hfits : GridFits canvas job)
    (hcount : job.rows.toNat * job.cols.toNat < 2 ^ 32)
    (hlayout : imgLayoutGrid canvas photo job arena heap = (.ok (canvas', layout), heap')) :
    (∀ i < layout.count.toNat, RealCell canvas photo job heap layout i) ∧
      ∀ i < layout.count.toNat, ∀ j < layout.count.toNat, i ≠ j →
        Apart 0 (layout.cell i) (layout.cell j) := by
  obtain ⟨hcount, hreal⟩ := hfits.realCells hcount hlayout
  rw [hcount]
  refine ⟨hreal, fun i hi j hj hne => ?_⟩
  have hapart := hfits.apart hi hj hne
  rw [(hreal i hi).cell_eq, (hreal j hj).cell_eq]
  unfold Apart at hapart ⊢
  omega

-- The photos that img_layout_grid has placed. Neither img_api_run_job nor
-- img_apply_bleed compares the bleed with their distance.
theorem imgApplyBleed_keepsPhotos_iff (hcanvas : imgCanvasInit heap job = some (.ok canvas, heap'))
    (hlayout : imgLayoutGrid canvas photo job arena heap' = (.ok (canvas', layout), heap''))
    (hraster : IntRaster canvas.buf)
    (hplaced : ∀ i < layout.count.toNat, RealCell canvas photo job heap' layout i)
    (hdisjoint : ∀ i < layout.count.toNat, ∀ j < layout.count.toNat, i ≠ j →
      Apart 0 (layout.cell i) (layout.cell j)) (bleedPx : UInt32) :
    KeepsPhotos canvas'.buf layout bleedPx ↔ PhotosApart layout bleedPx := by
  obtain ⟨hcanvas, -⟩ := imgCanvasInit_canvas hcanvas
  have hshape := imgLayoutGrid_shape hlayout
  obtain ⟨-, hwidth, hheight, -⟩ := shape_eq_iff.mp hshape
  refine keepsPhotos_iff (hraster.of_shape hshape) (fun i hi => ?_) hdisjoint
  obtain ⟨hright, hbottom⟩ := (hplaced i hi).inPage
  rw [(hplaced i hi).cell_eq]
  exact ⟨hcanvas.photoW_pos, hcanvas.photoH_pos, hwidth ▸ hright, hheight ▸ hbottom⟩

instance (gap : Nat) (c other : ImgCell) : Decidable (Apart gap c other) :=
  inferInstanceAs (Decidable (_ ∨ _))

instance (c : ImgCell) (p : Int × Int) : Decidable (InCell c p) :=
  inferInstanceAs (Decidable (InRect ..))

-- The small sheet has gaps of two pixels and a bleed of one.
theorem imgApplyBleed_keepsPhotos_small :
    ∃ canvas canvas' layout, initAndLayout apiHeap smallJob smallPhoto smallArena =
        some (canvas, canvas', layout) ∧ KeepsPhotos canvas'.buf layout smallJob.bleedPx := by
  obtain ⟨canvas, canvas', layout, heap, heap', hrun, hcanvas, hlayout, hfits, hpw, hph, hw, hh,
    hstride⟩ := smallJob_sheet
  have hraster : IntRaster canvas.buf := by
    refine ⟨⟨?_⟩, ?_⟩
    all_goals simp only [hw, hh, hstride]
    all_goals decide
  have hpos : 1 ≤ canvas.photoWPx.toNat ∧ 1 ≤ canvas.photoHPx.toNat := by
    rw [hpw, hph]
    decide
  obtain ⟨hplaced, hdisjoint⟩ := hfits.photos (by decide) hlayout
  have hcells := imgLayoutGrid_cells hfits (by decide) hlayout
  refine ⟨canvas, canvas', layout, hrun, ?_⟩
  refine (imgApplyBleed_keepsPhotos_iff hcanvas hlayout hraster hplaced hdisjoint _).mpr ?_
  exact (photosApart_iff_gap hfits hcells hpos.1 hpos.2 _).mpr (.inr (by decide))

-- Without a gap the bleed of the first photo lies on the second one.

def packedJob : ImgJob Float32 := { smallJob with rows := 1, gap := 0 }

theorem imgApplyBleed_overPhoto :
    ∃ canvas canvas' layout heap, initAndLayout apiHeap packedJob smallPhoto smallArena =
        some (canvas, canvas', layout) ∧ layout.count = 2 ∧
      (∀ i < layout.count.toNat, RealCell canvas smallPhoto packedJob heap layout i) ∧
      (∀ i < layout.count.toNat, ∀ j < layout.count.toNat, i ≠ j →
        Apart 0 (layout.cell i) (layout.cell j)) ∧
      InCell (layout.cell 1) (4, 1) ∧ canvas'.buf.pixel (4, 1) = ⟨1, 2, 3⟩ ∧
      ∃ bled, imgApplyBleed canvas'.buf layout packedJob.bleedPx = .ok bled ∧
        bled.pixel (4, 1) = ⟨4, 5, 6⟩ := by
  have hall : (initAndLayout apiHeap packedJob smallPhoto smallArena).any fun r =>
      r.1.startX = 2 ∧ r.1.startY = 1 ∧ r.1.photoWPx = 2 ∧ r.1.photoHPx = 1 ∧
      r.1.buf.width = 8 ∧ r.1.buf.height = 12 ∧ r.2.2.count = 2 ∧ InCell (r.2.2.cell 1) (4, 1) ∧
      r.2.1.buf.pixel (4, 1) = ⟨1, 2, 3⟩ ∧
      (imgApplyBleed r.2.1.buf r.2.2 packedJob.bleedPx).toOption.map (·.pixel (4, 1)) =
        some ⟨4, 5, 6⟩ := by decide +kernel
  obtain ⟨⟨canvas, canvas', layout⟩, hrun, hall⟩ := (Option.any_eq_true _ _).mp hall
  have hall := of_decide_eq_true hall
  dsimp only at hall
  obtain ⟨hx, hy, hpw, hph, hw, hh, htwo, hin, hbefore, hafter⟩ := hall
  obtain ⟨heap, heap', -, hlayout⟩ := initAndLayout_some hrun
  have hfits : GridFits canvas packedJob := by
    refine ⟨?_, ?_⟩
    all_goals simp only [hx, hy, hpw, hph, hw, hh]
    all_goals decide
  obtain ⟨hplaced, hdisjoint⟩ := hfits.photos (by decide) hlayout
  refine ⟨canvas, canvas', layout, heap, hrun, htwo, hplaced, hdisjoint, hin, hbefore, ?_⟩
  obtain ⟨bled, hbled, -⟩ := imgApplyBleed_keep (f := ImgBuffer.width) (fun _ _ => rfl) canvas'.buf
    layout packedJob.bleedPx
  rw [hbled] at hafter
  exact ⟨bled, hbled, Option.some.inj hafter⟩

end Layouts

end ImgEngine.Pipeline
