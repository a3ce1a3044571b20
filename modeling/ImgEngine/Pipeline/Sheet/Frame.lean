import ImgEngine.Pipeline.Sheet

namespace ImgEngine.Pipeline

open ImgEngine.Library.Loop

-- No pass changes more of a buffer than its bytes, whatever the layout holds.

variable {T : Type} {f : ImgBuffer → T}

def IgnoresBytes (f : ImgBuffer → T) : Prop := ∀ buf bytes, f { buf with bytes } = f buf

section Passes

variable (hf : IgnoresBytes f) (buf : ImgBuffer)
include hf

theorem setPixel_keep (x y : Int) (color : Rgb) : f (buf.setPixel x y color) = f buf := hf _ _

theorem copyPixel_keep (dst src : Nat) : f (buf.copyPixel dst src) = f buf := hf _ _

theorem fillRect_keep (x y w h : Int) (color : Rgb) : f (fillRect buf x y w h color) = f buf := by
  unfold fillRect
  apply forUp_keep f
  intro py buf
  split_ifs
  · rfl
  · apply forUp_keep f
    intro px buf
    split_ifs
    · rfl
    · exact setPixel_keep hf buf px py color

theorem drawBorder_keep (c : ImgCell) (bp : Int) : f (drawBorder buf c bp) = f buf := by
  simp only [drawBorder, fillRect_keep hf]

theorem imgDrawBorders_keep (layout : ImgLayout) (borderPx : UInt32) :
    ∃ buf', imgDrawBorders buf layout borderPx = .ok buf' ∧ f buf' = f buf := by
  unfold imgDrawBorders
  by_cases hzero : borderPx = 0
  · exact ⟨buf, if_pos hzero, rfl⟩
  · exact ⟨_, if_neg hzero, forRange_keep f (fun i buf => drawBorder_keep hf buf _ _) _ _⟩

theorem bleedRow_keep (cx cw2 srcY ty : Int) : f (bleedRow buf cx cw2 srcY ty) = f buf := by
  unfold bleedRow
  apply forUp_keep f
  intro x buf
  simp only
  split_ifs
  · rfl
  · rfl
  · exact copyPixel_keep hf buf _ _

theorem bleedTop_keep (cx cy cw2 bp : Int) : f (bleedTop buf cx cy cw2 bp) = f buf := by
  apply forUpBreak_keep f
  intro b buf buf' h
  simp only at h
  split_ifs at h
  cases h
  exact bleedRow_keep hf buf _ _ _ _

theorem bleedBottom_keep (cx cy cw2 ch2 bp : Int) :
    f (bleedBottom buf cx cy cw2 ch2 bp) = f buf := by
  unfold bleedBottom
  apply forUpBreak_keep f
  intro b buf buf' h
  simp only at h
  split_ifs at h
  cases h
  exact bleedRow_keep hf buf _ _ _ _

theorem bleedLeft_keep (cx py bp : Int) : f (bleedLeft buf cx py bp) = f buf := by
  unfold bleedLeft
  split_ifs
  · apply forUpBreak_keep f
    intro b buf buf' h
    simp only at h
    split_ifs at h
    cases h
    exact copyPixel_keep hf buf _ _
  · rfl

theorem bleedRight_keep (rx py bp : Int) : f (bleedRight buf rx py bp) = f buf := by
  unfold bleedRight
  by_cases hcanvas : rx ≥ 0 ∧ rx < int32 buf.width
  · rw [if_pos hcanvas]
    apply forUpBreak_keep f
    intro b buf buf' h
    simp only at h
    split_ifs at h
    cases h
    exact copyPixel_keep hf buf _ _
  · rw [if_neg hcanvas]

theorem bleedCell_keep (c : ImgCell) (bp : Int) : f (bleedCell buf c bp) = f buf := by
  have hsides : ∀ buf cx cy cw2 ch2, f (bleedSides buf cx cy cw2 ch2 bp) = f buf := by
    intro buf cx cy cw2 ch2
    unfold bleedSides
    apply forUp_keep f
    intro py buf
    rw [bleedRight_keep hf, bleedLeft_keep hf]
  simp only [bleedCell, hsides, bleedBottom_keep hf, bleedTop_keep hf]

theorem imgApplyBleed_keep (layout : ImgLayout) (bleedPx : UInt32) :
    ∃ buf', imgApplyBleed buf layout bleedPx = .ok buf' ∧ f buf' = f buf := by
  unfold imgApplyBleed
  by_cases hzero : bleedPx = 0
  · exact ⟨buf, if_pos hzero, rfl⟩
  · exact ⟨_, if_neg hzero, forRange_keep f (fun i buf => bleedCell_keep hf buf _ _) _ _⟩

theorem setPx_keep (x y : Int) (color : Rgb) : f (setPx buf x y color) = f buf := by
  unfold setPx
  split_ifs
  · rfl
  · exact setPixel_keep hf buf x y color

theorem drawH_keep (x y len : Int) (th : UInt32) (color : Rgb) :
    f (drawH buf x y len th color) = f buf := by
  apply forRange_keep f
  intro t buf
  exact forUp_keep f (fun i buf => setPx_keep hf buf _ _ color) _ _ _

theorem drawV_keep (x y len : Int) (th : UInt32) (color : Rgb) :
    f (drawV buf x y len th color) = f buf := by
  apply forRange_keep f
  intro t buf
  exact forUp_keep f (fun i buf => setPx_keep hf buf _ _ color) _ _ _

theorem drawCropMarks_keep (c : ImgCell) (off len : Int) (th : UInt32) :
    f (drawCropMarks buf c off len th) = f buf := by
  simp only [drawCropMarks, drawH_keep hf, drawV_keep hf]

theorem imgDrawCropMarks_keep {F : Type} (layout : ImgLayout) (job : ImgJob F) :
    ∃ buf', imgDrawCropMarks buf layout job = .ok buf' ∧ f buf' = f buf := by
  unfold imgDrawCropMarks
  by_cases hzero : job.cropMarkPx = 0
  · exact ⟨buf, if_pos hzero, rfl⟩
  · exact ⟨_, if_neg hzero, forRange_keep f (fun i buf => drawCropMarks_keep hf buf _ _ _ _) _ _⟩

-- The passes succeed.
theorem finishSheet_keep {F : Type} (layout : ImgLayout) (job : ImgJob F) :
    ∃ sheet, finishSheet buf layout job = .ok sheet ∧ f sheet = f buf := by
  have hborder : ∃ bordered,
      (if job.borderPx > 0 then imgDrawBorders buf layout job.borderPx else .ok buf) =
        .ok bordered ∧ f bordered = f buf := by
    split_ifs
    · exact imgDrawBorders_keep hf buf layout job.borderPx
    · exact ⟨buf, rfl, rfl⟩
  obtain ⟨bordered, hborder, hkeep₁⟩ := hborder
  obtain ⟨bled, hbleed, hkeep₂⟩ := imgApplyBleed_keep hf bordered layout job.bleedPx
  obtain ⟨sheet, hmarks, hkeep₃⟩ := imgDrawCropMarks_keep hf bled layout job
  refine ⟨sheet, ?_, hkeep₃.trans (hkeep₂.trans hkeep₁)⟩
  unfold finishSheet
  rw [hborder]
  change (imgApplyBleed bordered layout job.bleedPx).bind _ = _
  rw [hbleed]
  exact hmarks

end Passes

end ImgEngine.Pipeline
