import ImgEngine.Pipeline.Sheet.Frame
import ImgEngine.Pipeline.Sheet.Passes

namespace ImgEngine.Pipeline

open ImgEngine.Library.Loop ImgEngine.Library.Painting

section Bleed

instance (x y w h : Int) (p : Int × Int) : Decidable (InRect x y w h p) :=
  inferInstanceAs (Decidable (_ ∧ _))

instance (cx cy cw2 ch2 bp : Int) (p : Int × Int) : Decidable (OnRing cx cy cw2 ch2 bp p) :=
  inferInstanceAs (Decidable (_ ∧ _))

-- The point of which the bleed of one cell gives the color to p.
def ringSource (c : ImgCell) (bp : Int) (p : Int × Int) : Int × Int :=
  if OnRing c.x.toNat c.y.toNat c.w.toNat c.h.toNat bp p then clampCell c p else p

theorem ringSource_of_nonpos (c : ImgCell) {bp : Int} (hbp : bp ≤ 0) : ringSource c bp = id := by
  funext p
  rw [ringSource, if_neg]
  · rfl
  · unfold OnRing InRect
    omega

-- A negative bleed has no rounds.
theorem bleedCell_of_neg (buf : ImgBuffer) (c : ImgCell) {bp : Int} (hbp : bp < 0) :
    bleedCell buf c bp = buf := by
  have hnone : ∀ (body : Int → ImgBuffer → Option ImgBuffer) s, forUpBreak 1 (bp + 1) body s = s := by
    intro body s
    rw [forUpBreak, show (bp + 1 - 1).toNat = 0 by omega]
    rfl
  have hside : ∀ s rx py, bleedLeft s rx py bp = s ∧ bleedRight s rx py bp = s := by
    intro s rx py
    simp only [bleedLeft, bleedRight, hnone, ite_self, and_self]
  have hsides : ∀ s cx cy cw2 ch2, bleedSides s cx cy cw2 ch2 bp = s := by
    intro s cx cy cw2 ch2
    exact forUp_keep id (fun py s => by rw [(hside s _ py).1, (hside s _ py).2]) _ _ s
  simp only [bleedCell, bleedTop, bleedBottom, hnone, hsides]

-- A cell of at least one pixel that lies on the canvas.
structure CellInside (canvas : ImgBuffer) (c : ImgCell) : Prop where
  width : 1 ≤ c.w.toNat
  height : 1 ≤ c.h.toNat
  right : c.x.toNat + c.w.toNat ≤ canvas.width.toNat
  bottom : c.y.toNat + c.h.toNat ≤ canvas.height.toNat

variable {canvas : ImgBuffer} {c : ImgCell}

theorem CellInside.onCanvas (h : CellInside canvas c) :
    OnCanvas canvas c.x.toNat c.y.toNat c.w.toNat c.h.toNat := by
  obtain ⟨hw, hh, hright, hbottom⟩ := h
  exact ⟨by omega, by omega, by omega, by omega, by omega, by omega⟩

theorem CellInside.small (h : CellInside canvas c) (hplain : IntRaster canvas) : SmallCell c :=
  ⟨h.right.trans_lt hplain.width, h.bottom.trans_lt hplain.height⟩

theorem bleedCell_copied (hplain : IntRaster canvas) (h : CellInside canvas c) (bp : Int) :
    Copied picture (ringSource c bp) canvas (bleedCell canvas c bp) := by
  by_cases hbp : bp < 0
  · rw [bleedCell_of_neg canvas c hbp, ringSource_of_nonpos c hbp.le]
    exact .refl canvas
  · obtain ⟨hx, hy, hw, hh⟩ := (h.small hplain).int32
    have hpainted := bleedCell_painted hplain h.onCanvas (Int.not_lt.mp hbp)
    unfold bleedCell
    rw [hx, hy, hw, hh]
    refine ⟨hpainted.1, fun p hp => ?_⟩
    unfold ringSource
    split_ifs with hring
    · refine ⟨?_, hpainted.color hp ⟨hring, rfl⟩ fun v hv => hv.2⟩
      obtain ⟨hwidth, hheight, hright, hbottom⟩ := h
      rw [mem_domain]
      unfold clampCell clampTo
      omega
    · exact ⟨hp, hpainted.kept hp fun v hv => hring hv.1⟩

theorem imgApplyBleed_copied {layout : ImgLayout} {n : Nat} {cell : Nat → ImgCell}
    (hplain : IntRaster canvas) (hcells : Cells layout n cell)
    (hinside : ∀ i < n, CellInside canvas (cell i)) (bleedPx : UInt32) :
    ∃ canvas', imgApplyBleed canvas layout bleedPx = .ok canvas' ∧
      Copied picture (sources (fun i => ringSource (cell i) (int32 bleedPx)) n) canvas canvas' := by
  unfold imgApplyBleed
  by_cases hzero : bleedPx = 0
  · have hnone : int32 0 ≤ 0 := by decide
    subst hzero
    simp only [ringSource_of_nonpos _ hnone, sources_id]
    exact ⟨canvas, if_pos trivial, .refl canvas⟩
  · refine ⟨_, if_neg hzero, ?_⟩
    rw [hcells.count]
    refine Copied.forRange _ fun i hi s hs => ?_
    obtain ⟨-, hwidth, hheight, -⟩ := shape_eq_iff.mp hs
    obtain ⟨hw, hh, hright, hbottom⟩ := hinside i hi
    rw [hcells.get i hi]
    exact bleedCell_copied (hplain.of_shape hs) ⟨hw, hh, hwidth ▸ hright, hheight ▸ hbottom⟩ _

end Bleed

section Order

variable {F : Type}

-- The order that img_api.h and the comments of img_api_run_job give.
def documentedSheet (canvas : ImgBuffer) (layout : ImgLayout) (job : ImgJob F) :
    Except ImgError ImgBuffer := do
  let canvas ← imgApplyBleed canvas layout job.bleedPx
  let canvas ← imgDrawCropMarks canvas layout job
  if job.borderPx > 0 then imgDrawBorders canvas layout job.borderPx else .ok canvas

namespace ImgLayout

variable (layout : ImgLayout)

def cell (i : Nat) : ImgCell := layout.cells.get (.ofNat i)

-- The borders, the marks and the points that the bleed takes its colors from.

def Framed (job : ImgJob F) (p : Int × Int) : Prop :=
  ∃ i < layout.count.toNat, OnFrame (layout.cell i) (int32 job.borderPx) p

def Marked (job : ImgJob F) (p : Int × Int) : Prop :=
  ∃ i < layout.count.toNat, OnBars (layout.cell i) (int32 job.cropOffsetPx) (int32 job.cropMarkPx)
    (markThickness job) p

def bleedSource (job : ImgJob F) : Int × Int → Int × Int :=
  sources (fun i => ringSource (layout.cell i) (int32 job.bleedPx)) layout.count.toNat

end ImgLayout

-- At every point that no mark covers, the bleed keeps apart what is on a border and
-- what is not, unless the color it takes is the border's.
def BorderAndBleedCommute (canvas : ImgBuffer) (layout : ImgLayout) (job : ImgJob F) : Prop :=
  ∀ p : Int × Int, 0 ≤ p.1 → p.1 < canvas.width.toNat → 0 ≤ p.2 → p.2 < int32 canvas.height →
    ¬layout.Marked job p →
    (layout.Framed job p ↔ layout.Framed job (layout.bleedSource job p)) ∨
      canvas.pixel (layout.bleedSource job p) = .black

-- The two orders give the same sheet.
def InDocumentedOrder (canvas : ImgBuffer) (layout : ImgLayout) (job : ImgJob F) : Prop :=
  ∃ sheet documented, finishSheet canvas layout job = .ok sheet ∧
    documentedSheet canvas layout job = .ok documented ∧ picture.Same sheet documented

variable {canvas : ImgBuffer} {layout : ImgLayout} {job : ImgJob F}

-- Rows from 2^31 on are negative for the loops of the borders.

theorem imgDrawBorders_of_tall (hheight : 2 ^ 31 ≤ canvas.height.toNat) (layout : ImgLayout)
    (borderPx : UInt32) : imgDrawBorders canvas layout borderPx = .ok canvas := by
  have hneg := int32_neg hheight
  have hrect : ∀ s : ImgBuffer, s.height = canvas.height → ∀ x y w h color,
      fillRect s x y w h color = s := by
    intro s hs x y w h color
    refine forUp_keep id (fun py s => ?_) _ _ s
    rw [hs]
    exact if_pos (by omega)
  unfold imgDrawBorders
  split_ifs
  · rfl
  · refine congrArg Except.ok ?_
    refine forRange_invariant (fun _ s => s = canvas) rfl fun i _ s hs => ?_
    subst hs
    simp only [drawBorder, hrect s rfl]

theorem documentedSheet_of_tall (hheight : 2 ^ 31 ≤ canvas.height.toNat) :
    documentedSheet canvas layout job = finishSheet canvas layout job := by
  have hkeep : IgnoresBytes ImgBuffer.height := fun _ _ => rfl
  obtain ⟨bled, hbled, hheight₁⟩ := imgApplyBleed_keep hkeep canvas layout job.bleedPx
  obtain ⟨marked, hmarked, hheight₂⟩ := imgDrawCropMarks_keep hkeep bled layout job
  have hborders : ∀ s : ImgBuffer, s.height = canvas.height →
      (if job.borderPx > 0 then imgDrawBorders s layout job.borderPx else .ok s) = .ok s := by
    intro s hs
    rw [imgDrawBorders_of_tall (hs ▸ hheight), ite_self]
  have hfinish : finishSheet canvas layout job = .ok marked := by
    unfold finishSheet
    rw [hborders canvas rfl]
    change (imgApplyBleed canvas layout job.bleedPx).bind _ = _
    rw [hbled]
    exact hmarked
  have hdocumented : documentedSheet canvas layout job = .ok marked := by
    unfold documentedSheet
    rw [hbled]
    change (imgDrawCropMarks bled layout job).bind _ = _
    rw [hmarked]
    exact hborders marked (hheight₂.trans hheight₁)
  rw [hfinish, hdocumented]

-- What img_api_run_job draws is the documented sheet.
theorem inDocumentedOrder_iff (hstride : canvas.stride.toNat = 3 * canvas.width.toNat)
    (hcells : ∀ i < layout.count.toNat, CellInside canvas (layout.cell i)) :
    InDocumentedOrder canvas layout job ↔ BorderAndBleedCommute canvas layout job := by
  by_cases hheight : 2 ^ 31 ≤ canvas.height.toNat
  · have hneg := int32_neg hheight
    obtain ⟨sheet, hsheet, -⟩ := finishSheet_keep (f := ImgBuffer.height) (fun _ _ => rfl) canvas
      layout job
    refine iff_of_true ⟨sheet, sheet, hsheet, ?_, rfl, fun _ _ => rfl⟩ ?_
    · rw [documentedSheet_of_tall hheight, hsheet]
    · intro p _ _ hlow hhigh
      omega
  · have hplain : IntRaster canvas := ⟨⟨hstride.ge⟩, by omega⟩
    have hread : Cells layout layout.count.toNat layout.cell := ⟨rfl, fun _ _ => rfl⟩
    have hsmall : ∀ i < layout.count.toNat, SmallCell (layout.cell i) :=
      fun i hi => (hcells i hi).small hplain
    have hinside : ∀ s : ImgBuffer, picture.shape s = picture.shape canvas →
        ∀ i < layout.count.toNat, CellInside s (layout.cell i) := by
      intro s hs i hi
      obtain ⟨-, hwidth, hheight', -⟩ := shape_eq_iff.mp hs
      obtain ⟨hw, hh, hright, hbottom⟩ := hcells i hi
      exact ⟨hw, hh, hwidth ▸ hright, hheight' ▸ hbottom⟩
    -- the order of img_api_run_job
    obtain ⟨buf₁, hborder, h₁⟩ := imgDrawBorders_painted hplain hread hsmall job.borderPx
    have hplain₁ := hplain.of_shape h₁.1
    obtain ⟨buf₂, hbleed, h₂⟩ := imgApplyBleed_copied hplain₁ hread (hinside buf₁ h₁.1) job.bleedPx
    obtain ⟨sheet, hmarks, h₃⟩ := imgDrawCropMarks_painted (hplain₁.of_shape h₂.1).toRaster hread hsmall job
    have hsheet : finishSheet canvas layout job = .ok sheet := by
      unfold finishSheet
      rw [hborder]
      change (imgApplyBleed buf₁ layout job.bleedPx).bind _ = _
      rw [hbleed]
      exact hmarks
    -- the documented order
    obtain ⟨buf₃, hbleed', h₄⟩ := imgApplyBleed_copied hplain hread hcells job.bleedPx
    have hplain₃ := hplain.of_shape h₄.1
    obtain ⟨buf₄, hmarks', h₅⟩ := imgDrawCropMarks_painted hplain₃.toRaster hread hsmall job
    obtain ⟨documented, hborder', h₆⟩ := imgDrawBorders_painted (hplain₃.of_shape h₅.1) hread hsmall
      job.borderPx
    have hdocumented : documentedSheet canvas layout job = .ok documented := by
      unfold documentedSheet
      rw [hbleed']
      change (imgDrawCropMarks buf₃ layout job).bind _ = _
      rw [hmarks']
      exact hborder'
    have hsame : picture.Same sheet documented ↔ BorderAndBleedCommute canvas layout job := by
      rw [paint_first_same_iff h₁ h₂ h₃ h₄ h₅ h₆]
      have hrows : int32 canvas.height = canvas.height.toNat := int32_of_lt hplain.height
      simp only [mem_domain, BorderAndBleedCommute, hrows, and_imp]
      rfl
    rw [← hsame]
    constructor
    · rintro ⟨sheet', documented', hsheet', hdocumented', h⟩
      rw [hsheet, Except.ok.injEq] at hsheet'
      rw [hdocumented, Except.ok.injEq] at hdocumented'
      rwa [hsheet', hdocumented']
    · intro h
      exact ⟨sheet, documented, hsheet, hdocumented, h⟩

-- A white page of two pixels, of which the first is the only cell.

def whitePage : ImgBuffer := rgbBuffer 64 2 1 fun _ => 255

def oneCell : ImgLayout where
  cells := { stale := fun _ => ⟨0, 0, 1, 1⟩, written := fun _ => none }
  count := 1
  blits := []

def borderOnly : ImgJob Float32 := { smallJob with bleedPx := 0, cropMarkPx := 0 }

def borderAndBleed : ImgJob Float32 := { smallJob with cropMarkPx := 0 }

theorem oneCell_cell (i : Nat) : oneCell.cell i = ⟨0, 0, 1, 1⟩ := rfl

theorem oneCell_inside : ∀ i < oneCell.count.toNat, CellInside whitePage (oneCell.cell i) := by
  intro i _
  rw [oneCell_cell]
  exact ⟨by decide, by decide, by decide, by decide⟩

theorem inDocumentedOrder_borderOnly : InDocumentedOrder whitePage oneCell borderOnly := by
  refine (inDocumentedOrder_iff rfl oneCell_inside).mpr fun p _ _ _ _ _ => .inl ?_
  have hsource : oneCell.bleedSource borderOnly = id := by
    have hnone : int32 borderOnly.bleedPx ≤ 0 := by decide
    simp only [ImgLayout.bleedSource, ringSource_of_nonpos _ hnone, sources_id]
  rw [hsource]
  rfl

-- What is bled over the second pixel is the border of the cell, and in the
-- documented order the photo.
theorem finishSheet_bleedsBorder :
    (finishSheet whitePage oneCell borderAndBleed).toOption.map (·.pixel (1, 0)) = some .black ∧
    (documentedSheet whitePage oneCell borderAndBleed).toOption.map (·.pixel (1, 0)) =
      some ⟨255, 255, 255⟩ := by
  decide +kernel

end Order

end ImgEngine.Pipeline
