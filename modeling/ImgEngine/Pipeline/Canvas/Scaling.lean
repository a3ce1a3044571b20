import ImgEngine.Core.ExactFloat
import ImgEngine.Pipeline.Canvas.Theorems

namespace ImgEngine.Pipeline

open ImgEngine.Memory

-- The automatic scaling in exact arithmetic.

section Factors

variable {room photo otherRoom otherPhoto : Nat}

-- The factor of one axis, which is 1 where the share of a photo is no pixel.
def shareFactor (room photo : Nat) : ℚ := if 0 < room then room / photo else 1

theorem shareFactor_nonneg (room photo : Nat) : 0 ≤ shareFactor room photo := by
  unfold shareFactor
  split_ifs
  · exact div_nonneg (Nat.cast_nonneg _) (Nat.cast_nonneg _)
  · exact zero_le_one

-- One factor is used for both axes.
theorem min_shareFactor_le_one (hphoto : 1 ≤ photo) (hother : 1 ≤ otherPhoto)
    (hlarge : room < photo ∨ otherRoom < otherPhoto) :
    min (shareFactor room photo) (shareFactor otherRoom otherPhoto) ≤ 1 := by
  have hone : ∀ room photo : Nat, 1 ≤ photo → room < photo → shareFactor room photo ≤ 1 := by
    intro room photo hphoto hlt
    unfold shareFactor
    split_ifs
    · rw [div_le_one (by exact_mod_cast hphoto)]
      exact_mod_cast hlt.le
    · exact le_rfl
  rcases hlarge with hlt | hlt
  · exact (min_le_left _ _).trans (hone _ _ hphoto hlt)
  · exact (min_le_right _ _).trans (hone _ _ hother hlt)

-- When the scaled size of one axis is at most its share: always where the share is a
-- pixel or more, and else if the photo or what the other axis makes of it is below two.
def AxisFits (room photo otherRoom otherPhoto : Nat) : Prop :=
  room = 0 → photo ≤ 1 ∨ 0 < otherRoom ∧ photo * otherRoom < 2 * otherPhoto

instance : Decidable (AxisFits room photo otherRoom otherPhoto) :=
  inferInstanceAs (Decidable (_ → _))

theorem scaled_le_iff (hphoto : 1 ≤ photo) (hother : 1 ≤ otherPhoto) :
    ⌊(photo : ℚ) * min (shareFactor room photo) (shareFactor otherRoom otherPhoto)⌋₊ ≤ max 1 room ↔
      AxisFits room photo otherRoom otherPhoto := by
  have hphoto' : (0 : ℚ) < photo := by exact_mod_cast hphoto
  have hother' : (0 : ℚ) < otherPhoto := by exact_mod_cast hother
  rcases Nat.eq_zero_or_pos room with rfl | hroom
  · have hnonneg : (0 : ℚ) ≤ photo * min (shareFactor 0 photo) (shareFactor otherRoom otherPhoto) :=
      mul_nonneg hphoto'.le (le_min (shareFactor_nonneg _ _) (shareFactor_nonneg _ _))
    have hfactor : shareFactor 0 photo = 1 := if_neg (Nat.lt_irrefl 0)
    rw [Nat.max_eq_left (Nat.zero_le 1), ← Nat.lt_succ_iff, Nat.floor_lt hnonneg, hfactor,
      mul_min_of_nonneg _ _ hphoto'.le, min_lt_iff, mul_one]
    have hself : (photo : ℚ) < Nat.succ 1 ↔ photo ≤ 1 := by
      rw [Nat.cast_lt, Nat.lt_succ_iff]
    rw [hself]
    unfold AxisFits shareFactor
    split_ifs with hpos
    · have hprod : (photo : ℚ) * (otherRoom / otherPhoto) < Nat.succ 1 ↔
          photo * otherRoom < 2 * otherPhoto := by
        rw [← mul_div_assoc, div_lt_iff₀ hother']
        exact_mod_cast Iff.rfl
      rw [hprod]
      simp [hpos]
    · rw [mul_one, hself]
      simp [hpos]
  · refine iff_of_true ?_ fun hzero => absurd hzero (by omega)
    refine Nat.floor_le_of_le ?_
    have hle : (photo : ℚ) * min (shareFactor room photo) (shareFactor otherRoom otherPhoto) ≤ room := by
      calc
        _ ≤ photo * shareFactor room photo :=
          mul_le_mul_of_nonneg_left (min_le_left _ _) hphoto'.le
        _ = room := by rw [shareFactor, if_pos hroom, mul_div_cancel₀ _ hphoto'.ne']
    exact hle.trans (by exact_mod_cast Nat.le_max_right 1 room)

end Factors

section Canvas

variable {F : Type} [ExactFloat F] {job : ImgJob F} {photoW photoH : UInt32}

open ExactFloat

theorem scaleDown_toNat (hw : 1 ≤ photoW.toNat) (hh : 1 ≤ photoH.toNat)
    (hlarge : photoW > job.maxPw ∨ photoH > job.maxPh) :
    (job.scaleDown photoW photoH).1.toNat = ⌊(photoW.toNat : ℚ) *
        min (shareFactor job.maxPw.toNat photoW.toNat) (shareFactor job.maxPh.toNat photoH.toNat)⌋₊ ∧
      (job.scaleDown photoW photoH).2.toNat = ⌊(photoH.toNat : ℚ) *
        min (shareFactor job.maxPh.toNat photoH.toNat) (shareFactor job.maxPw.toNat photoW.toNat)⌋₊ := by
  have hfactor : ∀ room photo : UInt32,
      val (if room > 0 then ofUInt32 room / ofUInt32 photo else 1.0 : F) =
        shareFactor room.toNat photo.toNat := by
    intro room photo
    unfold shareFactor
    have hpos : room > 0 ↔ 0 < room.toNat := UInt32.lt_iff_toNat_lt
    by_cases hroom : room > 0
    · rw [if_pos hroom, if_pos (hpos.mp hroom), val_div, val_ofUInt32, val_ofUInt32]
    · rw [if_neg hroom, if_neg fun h => hroom (hpos.mpr h), val_one]
  have hmin : ∀ x y : F, val (if FloatType.lt x y then x else y) = min (val x) (val y) := by
    intro x y
    by_cases hlt : FloatType.lt x y = true
    · rw [if_pos hlt, min_eq_left ((lt_iff x y).mp hlt).le]
    · rw [if_neg hlt, min_eq_right (not_lt.mp fun h => hlt ((lt_iff x y).mpr h))]
  have hle : min (shareFactor job.maxPw.toNat photoW.toNat)
      (shareFactor job.maxPh.toNat photoH.toNat) ≤ 1 :=
    min_shareFactor_le_one hw hh (hlarge.imp UInt32.lt_iff_toNat_lt.mp UInt32.lt_iff_toNat_lt.mp)
  have hnonneg := le_min (shareFactor_nonneg job.maxPw.toNat photoW.toNat)
    (shareFactor_nonneg job.maxPh.toNat photoH.toNat)
  have hround : ∀ (photo : UInt32) (s : F), val s = min (shareFactor job.maxPw.toNat photoW.toNat)
      (shareFactor job.maxPh.toNat photoH.toNat) →
      (toUInt32 (ofUInt32 photo * s)).toNat = ⌊(photo.toNat : ℚ) * val s⌋₊ := by
    intro photo s hs
    have hphoto : (photo.toNat : ℚ) < 2 ^ 32 := by exact_mod_cast photo.toNat_lt
    have hval : val (ofUInt32 photo * s) = photo.toNat * val s := by
      rw [val_mul, val_ofUInt32]
    rw [toUInt32_val, hval]
    · rw [hval, hs]
      exact mul_nonneg (Nat.cast_nonneg _) hnonneg
    · rw [hval, hs]
      exact (mul_le_of_le_one_right (Nat.cast_nonneg _) hle).trans_lt hphoto
  unfold ImgJob.scaleDown
  rw [if_pos hlarge]
  dsimp only
  rw [hround photoW _ (by rw [hmin, hfactor, hfactor]), hround photoH _ (by rw [hmin, hfactor, hfactor]),
    hmin, hfactor, hfactor, min_comm (shareFactor job.maxPh.toNat _)]
  exact ⟨rfl, rfl⟩

-- The size that img_canvas_init stores is at least one pixel.
theorem atLeastOne_le_iff {size : UInt32} {room : Nat} :
    (if size = 0 then 1 else size).toNat ≤ max 1 room ↔ size.toNat ≤ max 1 room := by
  split_ifs with hzero
  · rw [hzero]
    exact iff_of_true (le_max_left 1 room) (Nat.zero_le _)
  · rfl

-- The photos fit into their shares of the page unless a share is no pixel and the
-- photo keeps two or more in that axis.
theorem imgCanvasInit_photoFits_iff {heap heap' : Heap} {canvas : ImgCanvas}
    (hcanvas : imgCanvasInit heap job = some (.ok canvas, heap'))
    (hw : 1 ≤ (imgCmToPx job.photoWCm job.dpi).toNat)
    (hh : 1 ≤ (imgCmToPx job.photoHCm job.dpi).toNat) :
    (canvas.photoWPx.toNat ≤ max 1 job.maxPw.toNat ∧ canvas.photoHPx.toNat ≤ max 1 job.maxPh.toNat) ↔
      AxisFits job.maxPw.toNat (imgCmToPx job.photoWCm job.dpi).toNat
        job.maxPh.toNat (imgCmToPx job.photoHCm job.dpi).toNat ∧
      AxisFits job.maxPh.toNat (imgCmToPx job.photoHCm job.dpi).toNat
        job.maxPw.toNat (imgCmToPx job.photoWCm job.dpi).toNat := by
  obtain ⟨hcanvas, -⟩ := imgCanvasInit_canvas hcanvas
  rw [hcanvas.photoW, hcanvas.photoH, ImgJob.photoSize]
  dsimp only
  rw [atLeastOne_le_iff, atLeastOne_le_iff]
  generalize imgCmToPx job.photoWCm job.dpi = photoW at *
  generalize imgCmToPx job.photoHCm job.dpi = photoH at *
  by_cases hlarge : photoW > job.maxPw ∨ photoH > job.maxPh
  · obtain ⟨hfirst, hsecond⟩ := scaleDown_toNat hw hh hlarge
    rw [hfirst, hsecond, scaled_le_iff hw hh, scaled_le_iff hh hw]
  · have hkeep : job.scaleDown photoW photoH = (photoW, photoH) := if_neg hlarge
    rw [not_or] at hlarge
    have hfitW := UInt32.le_iff_toNat_le.mp (UInt32.not_lt.mp hlarge.1)
    have hfitH := UInt32.le_iff_toNat_le.mp (UInt32.not_lt.mp hlarge.2)
    rw [hkeep]
    dsimp only
    unfold AxisFits
    refine iff_of_true ⟨?_, ?_⟩ ⟨?_, ?_⟩
    all_goals omega

end Canvas

-- A page of 8 by 12 pixels and photos of 2 by 1.

def exactJob (cols : UInt32) : ImgJob ℚ :=
  { imgJobDefaults with dpi := 1, cols, rows := 1, gap := 0, padding := 0 }

theorem imgCanvasInit_photoFits_four : ∃ canvas heap,
    imgCanvasInit apiHeap (exactJob 4) = some (.ok canvas, heap) ∧
      canvas.photoWPx.toNat ≤ max 1 (exactJob 4).maxPw.toNat ∧
      canvas.photoHPx.toNat ≤ max 1 (exactJob 4).maxPh.toNat := by
  have hany : (imgCanvasInit apiHeap (exactJob 4)).any fun r => r.1.toOption.isSome := by
    decide +kernel
  obtain ⟨⟨_ | canvas, heap⟩, hcanvas, hsome⟩ := (Option.any_eq_true _ _).mp hany
  · cases hsome
  · exact ⟨canvas, heap, hcanvas, (imgCanvasInit_photoFits_iff hcanvas (by decide +kernel)
      (by decide +kernel)).mpr (by decide +kernel)⟩

-- Nine columns leave no pixel for a photo, and the photos keep their two.
theorem imgCanvasInit_photoTooWide : ∃ canvas heap,
    imgCanvasInit apiHeap (exactJob 9) = some (.ok canvas, heap) ∧
      imgCmToPx (exactJob 9).photoWCm (exactJob 9).dpi = 2 ∧
      imgCmToPx (exactJob 9).photoHCm (exactJob 9).dpi = 1 ∧
      (exactJob 9).availW = 8 ∧ (exactJob 9).maxPw = 0 ∧ canvas.photoWPx = 2 := by
  have hany : (imgCanvasInit apiHeap (exactJob 9)).any fun r =>
      r.1.toOption.any fun canvas => canvas.photoWPx = 2 := by decide +kernel
  obtain ⟨⟨_ | canvas, heap⟩, hcanvas, hsome⟩ := (Option.any_eq_true _ _).mp hany
  · cases hsome
  · exact ⟨canvas, heap, hcanvas, by decide +kernel, by decide +kernel, by decide +kernel,
      by decide +kernel, of_decide_eq_true hsome⟩

end ImgEngine.Pipeline
