import ImgEngine.Pipeline.Sheet.Bleed

namespace ImgEngine.Pipeline

open ImgEngine.Library.Loop ImgEngine.Library.Painting

-- Where the border of a cell that is thinner than the border lies.

variable {canvas : ImgBuffer} {layout : ImgLayout} {borderPx : UInt32}

-- The parts outside of a cell of the rectangles along its edges. The rectangle at the
-- far edge starts a border before it, which is outside of a cell thinner than that.
def Spill (c : ImgCell) (b : Nat) (p : Int × Int) : Prop :=
  ¬InCell c p ∧ (InRect c.x.toNat (c.y.toNat + c.h.toNat - b) c.w.toNat (2 * b - c.h.toNat) p ∨
    InRect (c.x.toNat + c.w.toNat - b) c.y.toNat (2 * b - c.w.toNat) c.h.toNat p)

theorem onFrame_iff_spill {c : ImgCell} {b : Nat} {p : Int × Int} :
    OnFrame c b p ↔ NearEdge c b p ∨ Spill c b p := by
  unfold OnFrame NearEdge Spill InCell InRect
  omega

theorem not_spill_of_le {c : ImgCell} {b : Nat} (hw : b ≤ c.w.toNat) (hh : b ≤ c.h.toNat)
    (p : Int × Int) : ¬Spill c b p := by
  unfold Spill InCell InRect
  omega

-- The contract in the comments of the source: the borders are black and inside of the
-- cells, and nothing else changes.
structure BordersInside (canvas : ImgBuffer) (layout : ImgLayout) (b : Nat) (canvas' : ImgBuffer) :
    Prop where
  shape : picture.shape canvas' = picture.shape canvas
  inside : ∀ p, picture.domain (picture.shape canvas) p → canvas'.pixel p ≠ canvas.pixel p →
    ∃ i < layout.count.toNat, InCell (layout.cell i) p
  black : ∀ i < layout.count.toNat, ∀ p, NearEdge (layout.cell i) b p → canvas'.pixel p = .black
  kept : ∀ p, picture.domain (picture.shape canvas) p →
    (∀ i < layout.count.toNat, ¬NearEdge (layout.cell i) b p) → canvas'.pixel p = canvas.pixel p

-- What spills out of a cell is off the canvas, on the border of another cell or black
-- already.
def NoSpill (canvas : ImgBuffer) (layout : ImgLayout) (b : Nat) : Prop :=
  ∀ p, picture.domain (picture.shape canvas) p →
    ∀ i < layout.count.toNat, Spill (layout.cell i) b p →
      (∃ j < layout.count.toNat, NearEdge (layout.cell j) b p) ∨ canvas.pixel p = .black

theorem imgDrawBorders_inside_iff (hraster : IntRaster canvas)
    (hinside : ∀ i < layout.count.toNat, CellInside canvas (layout.cell i))
    (hborder : borderPx.toNat < 2 ^ 31) :
    (∃ canvas', imgDrawBorders canvas layout borderPx = .ok canvas' ∧
      BordersInside canvas layout borderPx.toNat canvas') ↔
    NoSpill canvas layout borderPx.toNat := by
  have hread : Cells layout layout.count.toNat layout.cell := ⟨rfl, fun _ _ => rfl⟩
  obtain ⟨canvas', hok, hpainted⟩ := imgDrawBorders_painted hraster hread
    (fun i hi => (hinside i hi).small hraster) borderPx
  have hok : imgDrawBorders canvas layout borderPx = .ok canvas' := by
    by_cases hzero : borderPx = 0
    · rw [← hok, imgDrawBorders, if_pos hzero, if_neg (by rw [hzero]; decide)]
    · rwa [if_pos (UInt32.pos_iff_ne_zero.mpr hzero)] at hok
  rw [int32_of_lt hborder] at hpainted
  simp only [onFrame_iff_spill] at hpainted
  have hdomain : ∀ i < layout.count.toNat, ∀ p, NearEdge (layout.cell i) borderPx.toNat p →
      picture.domain (picture.shape canvas) p :=
    fun i hi p hedge => (hinside i hi).domain hedge.1
  constructor
  · rintro ⟨other, hother, hborders⟩ p hp i hi hspill
    rw [hok, Except.ok.injEq] at hother
    subst hother
    by_cases hedge : ∃ j < layout.count.toNat, NearEdge (layout.cell j) borderPx.toNat p
    · exact .inl hedge
    · push Not at hedge
      refine .inr ?_
      rw [← hborders.kept p hp hedge]
      exact hpainted.inked hp ⟨i, hi, .inr hspill⟩
  · intro hnone
    have hkept : ∀ p, picture.domain (picture.shape canvas) p →
        (∀ i < layout.count.toNat, ¬NearEdge (layout.cell i) borderPx.toNat p) →
        canvas'.pixel p = canvas.pixel p := by
      intro p hp hedge
      by_cases hspill : ∃ i < layout.count.toNat, Spill (layout.cell i) borderPx.toNat p
      · obtain ⟨i, hi, hspill⟩ := hspill
        have hblack : canvas'.pixel p = .black := hpainted.inked hp ⟨i, hi, .inr hspill⟩
        rcases hnone p hp i hi hspill with ⟨j, hj, hedge'⟩ | halready
        · exact absurd hedge' (hedge j hj)
        · rw [hblack, halready]
      · refine hpainted.plain hp ?_
        rintro ⟨i, hi, hedge' | hspill'⟩
        · exact hedge i hi hedge'
        · exact hspill ⟨i, hi, hspill'⟩
    refine ⟨canvas', hok, hpainted.1, fun p hp hne => ?_, fun i hi p hedge => ?_, hkept⟩
    · by_contra hout
      push Not at hout
      exact hne (hkept p hp fun i hi hedge => hout i hi hedge.1)
    · exact hpainted.inked (hdomain i hi p hedge) ⟨i, hi, .inl hedge⟩

-- Borders of two pixels on a cell of four by five pixels and on one of four by four.

def framedPage : ImgBuffer := rgbBuffer 64 12 8 fun i => .ofNat i

def framedCells : ImgLayout where
  cells := { stale := fun i => if i = 0 then ⟨1, 1, 4, 5⟩ else ⟨7, 2, 4, 4⟩, written := fun _ => none }
  count := 2
  blits := []

theorem framedCells_cell (i : Nat) :
    framedCells.cell i = ⟨1, 1, 4, 5⟩ ∨ framedCells.cell i = ⟨7, 2, 4, 4⟩ := by
  have hcell : framedCells.cell i =
      if UInt32.ofNat i = 0 then ⟨1, 1, 4, 5⟩ else ⟨7, 2, 4, 4⟩ := rfl
  rw [hcell]
  split_ifs
  · exact .inl rfl
  · exact .inr rfl

theorem imgDrawBorders_inside_framed : ∃ canvas',
    imgDrawBorders framedPage framedCells 2 = .ok canvas' ∧
      BordersInside framedPage framedCells 2 canvas' := by
  refine (imgDrawBorders_inside_iff ⟨⟨by decide⟩, by decide⟩ (fun i _ => ?_)
    (by decide)).mpr fun p _ i _ hspill => absurd hspill ?_
  · rcases framedCells_cell i with h | h
    all_goals
      rw [h]
      exact ⟨by decide, by decide, by decide, by decide⟩
  · rcases framedCells_cell i with h | h
    all_goals
      rw [h]
      exact not_spill_of_le (by decide) (by decide) p

-- A border of two pixels on a cell of one pixel blackens the pixel beside it.
theorem imgDrawBorders_outside :
    IntRaster whitePage ∧ (∀ i < oneCell.count.toNat, CellInside whitePage (oneCell.cell i)) ∧
      (∀ i < oneCell.count.toNat, ¬InCell (oneCell.cell i) (1, 0)) ∧
      whitePage.pixel (1, 0) = ⟨255, 255, 255⟩ ∧
      (imgDrawBorders whitePage oneCell 2).toOption.map (·.pixel (1, 0)) = some .black := by
  refine ⟨⟨⟨by decide⟩, by decide⟩, oneCell_inside, fun i _ => ?_, by decide, by decide +kernel⟩
  rw [oneCell_cell]
  unfold InCell
  decide

end ImgEngine.Pipeline
