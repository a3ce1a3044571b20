import ImgEngine.Pipeline.Sheet.Accesses
import ImgEngine.Pipeline.Sheet.Theorems

namespace ImgEngine.Pipeline

open ImgEngine.Library.Loop ImgEngine.Library.Painting ImgEngine.Memory

-- Crop marks in the gaps of a grid.

-- Cells of one size in rows and columns, with a gap between neighbours.
structure Grid where
  rows : Nat
  cols : Nat
  gap : Nat
  x : Nat
  y : Nat
  w : Nat
  h : Nat

-- The cells of a layout are those of the grid, row by row.
structure Grid.Of (g : Grid) (layout : ImgLayout) : Prop where
  count : layout.count.toNat = g.rows * g.cols
  x : ∀ n < g.rows * g.cols, (layout.cell n).x.toNat = g.x + n % g.cols * (g.w + g.gap)
  y : ∀ n < g.rows * g.cols, (layout.cell n).y.toNat = g.y + n / g.cols * (g.h + g.gap)
  w : ∀ n < g.rows * g.cols, (layout.cell n).w.toNat = g.w
  h : ∀ n < g.rows * g.cols, (layout.cell n).h.toNat = g.h

-- The points up to th beyond a distance off from an interval, on either side of it.
def Beyond (start size off th : Nat) (v : Int) : Prop :=
  (start : Int) - off - th ≤ v ∧ v < (start : Int) - off ∨
    (start : Int) + size + off ≤ v ∧ v < (start : Int) + size + off + th

-- Between intervals at distances of a gap they lie in a gap.
theorem Beyond.in_gap {start size gap off th i j : Nat} {v : Int} (hroom : off + th ≤ gap)
    (h : Beyond (start + i * (size + gap)) size off th v) :
    ¬((start + j * (size + gap) : Nat) ≤ v ∧ v < (start + j * (size + gap) : Nat) + size) := by
  unfold Beyond at h
  rcases Nat.lt_trichotomy i j with hlt | rfl | hlt
  · have hapart := @axis_apart start size gap i j hlt
    omega
  · omega
  · have hapart := @axis_apart start size gap j i hlt
    omega

-- A horizontal bar is above or below its cell and a vertical one beside it, however
-- long they are.
theorem OnBars.beyond {c : ImgCell} {off : Nat} {len : Int} {th : UInt32} {p : Int × Int}
    (hth : th.toNat < 2 ^ 31) (h : OnBars c off len th p) :
    Beyond c.x.toNat c.w.toNat off th.toNat p.1 ∨ Beyond c.y.toNat c.h.toNat off th.toNat p.2 := by
  simp only [OnBars, barH_iff hth, barV_iff hth, int32_of_lt hth, InRect] at h
  unfold Beyond
  rcases h with h | h | h | h | h | h | h | h
  · exact .inr (.inl (by omega))
  · exact .inl (.inl (by omega))
  · exact .inr (.inl (by omega))
  · exact .inl (.inr (by omega))
  · exact .inr (.inr (by omega))
  · exact .inl (.inl (by omega))
  · exact .inr (.inr (by omega))
  · exact .inl (.inr (by omega))

variable {F : Type} {job : ImgJob F} {canvas : ImgBuffer} {layout : ImgLayout} {g : Grid}

theorem Grid.Of.not_inCell (hgrid : g.Of layout) {off th i j : Nat} {p : Int × Int}
    (hroom : off + th ≤ g.gap) (hi : i < layout.count.toNat) (hj : j < layout.count.toNat)
    (h : Beyond (layout.cell i).x.toNat (layout.cell i).w.toNat off th p.1 ∨
      Beyond (layout.cell i).y.toNat (layout.cell i).h.toNat off th p.2) :
    ¬InCell (layout.cell j) p := by
  have hcount := hgrid.count
  rw [hcount] at hi hj
  rw [hgrid.x i hi, hgrid.y i hi, hgrid.w i hi, hgrid.h i hi] at h
  rintro ⟨hx, hx', hy, hy'⟩
  rw [hgrid.x j hj] at hx hx'
  rw [hgrid.y j hj] at hy hy'
  rw [hgrid.w j hj] at hx'
  rw [hgrid.h j hj] at hy'
  rcases h with h | h
  · exact h.in_gap hroom ⟨hx, hx'⟩
  · exact h.in_gap hroom ⟨hy, hy'⟩

-- A grid on the canvas whose gaps hold the marks. Coordinates, offset and thickness
-- are int32_t.
structure MarksFit (canvas : ImgBuffer) (layout : ImgLayout) (job : ImgJob F) (g : Grid) : Prop where
  raster : Raster canvas
  grid : g.Of layout
  right : ∀ i < layout.count.toNat,
    (layout.cell i).x.toNat + (layout.cell i).w.toNat ≤ canvas.width.toNat
  bottom : ∀ i < layout.count.toNat,
    (layout.cell i).y.toNat + (layout.cell i).h.toNat ≤ canvas.height.toNat
  coordinates : ∀ i < layout.count.toNat, SmallCell (layout.cell i)
  offset : job.cropOffsetPx.toNat < 2 ^ 31
  thickness : job.cropThickness.toNat < 2 ^ 31
  room : job.cropOffsetPx.toNat + max 1 job.cropThickness.toNat ≤ g.gap

-- The marks are black pixels of the canvas, and none of them is a pixel of a cell.
theorem imgDrawCropMarks_offPhotos (h : MarksFit canvas layout job g) :
    (∀ p, picture.domain (picture.shape canvas) p →
      canvas.offset p.1 p.2 + 3 ≤ canvas.height.toNat * canvas.stride.toNat) ∧
    ∃ pass, FillsPixels canvas .black pass ∧ (∀ s, imgDrawCropMarks s layout job = .ok (pass s)) ∧
      (∀ i < layout.count.toNat, ∀ p, InCell (layout.cell i) p →
        (pass canvas).pixel p = canvas.pixel p) ∧
      (∀ p, picture.domain (picture.shape canvas) p → (pass canvas).pixel p ≠ canvas.pixel p →
        (pass canvas).pixel p = .black) ∧
      ∀ i, OffPixels canvas i → (pass canvas).bytes i = canvas.bytes i := by
  refine ⟨fun p hp => h.raster.offset_le hp, ?_⟩
  obtain ⟨pass, hfills, hpass⟩ := imgDrawCropMarks_fills canvas layout job
  have hread : Cells layout layout.count.toNat layout.cell := ⟨rfl, fun _ _ => rfl⟩
  obtain ⟨buf', hok, hpainted⟩ := imgDrawCropMarks_painted h.raster hread h.coordinates job
  rw [hpass, Except.ok.injEq] at hok
  subst hok
  have hth := markThickness_toNat job
  have hroom := h.room
  refine ⟨pass, hfills, hpass, fun i hi p hin => ?_, fun p hp hne => ?_, fun i hi => hfills.byte hi⟩
  · have hp : picture.domain (picture.shape canvas) p := by
      have hright := h.right i hi
      have hbottom := h.bottom i hi
      obtain ⟨hx, hx', hy, hy'⟩ := hin
      rw [mem_domain]
      omega
    refine hpainted.kept hp ?_
    rintro v ⟨⟨j, hj, hbars⟩, -⟩
    rw [int32_of_lt h.offset] at hbars
    have hthickness := h.thickness
    exact h.grid.not_inCell (hth.symm ▸ hroom) hj hi (hbars.beyond (by omega)) hin
  · rcases hpainted.2 p hp with ⟨-, hblack⟩ | ⟨-, hkept⟩
    · exact hblack
    · exact absurd hkept hne

-- The grid of a layout that fits on the page.
theorem GridFits.grid {canvas : ImgCanvas} (hfits : GridFits canvas job)
    (hcells : Cells layout (job.rows.toNat * job.cols.toNat) (gridCell canvas job)) :
    Grid.Of ⟨job.rows.toNat, job.cols.toNat, job.gap.toNat, canvas.startX.toNat,
      canvas.startY.toNat, canvas.photoWPx.toNat, canvas.photoHPx.toNat⟩ layout := by
  have hcell : ∀ n < job.rows.toNat * job.cols.toNat, layout.cell n = gridCell canvas job n :=
    hcells.get
  refine ⟨hcells.count, fun n hn => ?_, fun n hn => ?_, fun n hn => ?_, fun n hn => ?_⟩
  all_goals rw [hcell n hn]
  · exact (hfits.coordinate hn).1
  · exact (hfits.coordinate hn).2.1
  · rfl
  · rfl

-- The small sheet has gaps of two pixels, and marks one pixel thick at the corners.
theorem imgDrawCropMarks_offPhotos_small :
    ∃ canvas canvas' layout marked, initAndLayout apiHeap smallJob smallPhoto smallArena =
        some (canvas, canvas', layout) ∧
      imgDrawCropMarks canvas'.buf layout smallJob = .ok marked ∧
      ∀ i < layout.count.toNat, ∀ p, InCell (layout.cell i) p →
        marked.pixel p = canvas'.buf.pixel p := by
  obtain ⟨canvas, canvas', layout, heap, heap', hrun, -, hlayout, hfits, -, -, hw, hh, hstride⟩ :=
    smallJob_sheet
  have hcells := imgLayoutGrid_cells hfits (by decide) hlayout
  obtain ⟨-, hwidth, hheight, -, hstride'⟩ := shape_eq_iff.mp (imgLayoutGrid_shape hlayout)
  rw [hw] at hwidth
  rw [hh] at hheight
  rw [hstride] at hstride'
  have hpage : ∀ i < layout.count.toNat, (layout.cell i).x.toNat + (layout.cell i).w.toNat ≤ 8 ∧
      (layout.cell i).y.toNat + (layout.cell i).h.toNat ≤ 12 := by
    intro i hi
    rw [hcells.count] at hi
    have hpage := (hfits.coordinate hi).2.2
    unfold InPage at hpage
    rw [hw, hh, ← hcells.get i hi] at hpage
    exact hpage
  have hmarks : MarksFit canvas'.buf layout smallJob _ := {
    raster := ⟨by rw [hwidth, hstride']; decide⟩
    grid := hfits.grid hcells
    right := fun i hi => by rw [hwidth]; exact (hpage i hi).1
    bottom := fun i hi => by rw [hheight]; exact (hpage i hi).2
    coordinates := fun i hi => ⟨(hpage i hi).1.trans_lt (by decide), (hpage i hi).2.trans_lt (by decide)⟩
    offset := by decide
    thickness := by decide
    room := (by decide : smallJob.cropOffsetPx.toNat + max 1 smallJob.cropThickness.toNat ≤
      smallJob.gap.toNat) }
  obtain ⟨-, pass, -, hpass, hcell, -⟩ := imgDrawCropMarks_offPhotos hmarks
  exact ⟨canvas, canvas', layout, pass canvas'.buf, hrun, hpass _, hcell⟩

end ImgEngine.Pipeline
