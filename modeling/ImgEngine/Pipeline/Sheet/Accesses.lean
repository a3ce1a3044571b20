import ImgEngine.Library.Replay
import ImgEngine.Pipeline.Sheet.Order

namespace ImgEngine.Pipeline

open ImgEngine.Library.Loop ImgEngine.Library.Painting ImgEngine.Library.Replay

-- What the passes access. Each is a list of pixel operations that depends on the shape
-- of the canvas, and all of the pixels lie on the canvas.

-- The color of the second point is copied to the first.
def copies : Operations ImgBuffer ((Int × Int) × (Int × Int)) ImgBuffer where
  shape := picture.shape
  run op buf := buf.copyPixel (buf.offset op.1.1 op.1.2) (buf.offset op.2.1 op.2.2)
  keeps _ _ := rfl

def fills (color : Rgb) : Operations ImgBuffer (Int × Int) ImgBuffer where
  shape := picture.shape
  run p buf := buf.setPixel p.1 p.2 color
  keeps _ _ := rfl

-- The pass performs copies from pixels of the canvas to pixels of the canvas.
def CopiesPixels (canvas : ImgBuffer) (pass : ImgBuffer → ImgBuffer) : Prop :=
  Performs copies (picture.shape canvas) (fun op => picture.domain (picture.shape canvas) op.1 ∧
    picture.domain (picture.shape canvas) op.2) pass

-- The pass stores one color to pixels of the canvas.
def FillsPixels (canvas : ImgBuffer) (color : Rgb) (pass : ImgBuffer → ImgBuffer) : Prop :=
  Performs (fills color) (picture.shape canvas) (picture.domain (picture.shape canvas)) pass

section Frame

variable {canvas : ImgBuffer} {color : Rgb} {pass : ImgBuffer → ImgBuffer}

-- A byte of no pixel, as the ends of the rows and all bytes behind the canvas are.
def OffPixels (canvas : ImgBuffer) (i : Nat) : Prop :=
  ∀ p, picture.domain (picture.shape canvas) p →
    i < canvas.offset p.1 p.2 ∨ canvas.offset p.1 p.2 + 3 ≤ i

theorem Raster.offPixels (h : Raster canvas) {i : Nat}
    (hi : canvas.height.toNat * canvas.stride.toNat ≤ i) : OffPixels canvas i :=
  fun _ hp => .inr ((h.offset_le hp).trans hi)

theorem setRgb_of_apart (bytes : Bytes) {i j : Nat} (color : Rgb) (h : i < j ∨ j + 3 ≤ i) :
    bytes.setRgb j color i = bytes i := by
  simp only [Bytes.setRgb, Function.update_apply]
  rw [if_neg (by omega), if_neg (by omega), if_neg (by omega)]

theorem offset_of_shape {s : ImgBuffer} (hs : picture.shape s = picture.shape canvas) (x y : Int) :
    s.offset x y = canvas.offset x y := by
  obtain ⟨-, -, -, -, hstride⟩ := shape_eq_iff.mp hs
  rw [ImgBuffer.offset, ImgBuffer.offset, hstride]

theorem CopiesPixels.byte (h : CopiesPixels canvas pass) {i : Nat} (hi : OffPixels canvas i) :
    (pass canvas).bytes i = canvas.bytes i := by
  refine Performs.keep h (fun s => s.bytes i) (fun op hop s hs => ?_) rfl
  refine setRgb_of_apart _ _ ?_
  rw [offset_of_shape hs]
  exact hi op.1 hop.1

theorem FillsPixels.byte (h : FillsPixels canvas color pass) {i : Nat} (hi : OffPixels canvas i) :
    (pass canvas).bytes i = canvas.bytes i := by
  refine Performs.keep h (fun s => s.bytes i) (fun p hp s hs => ?_) rfl
  refine setRgb_of_apart _ _ ?_
  rw [offset_of_shape hs]
  exact hi p hp

end Frame

section Bleed

variable {canvas : ImgBuffer} {cx cy cw2 ch2 bp : Int}

theorem copyPixel_copies {x y x' y' : Int} (h : picture.domain (picture.shape canvas) (x, y))
    (h' : picture.domain (picture.shape canvas) (x', y')) :
    CopiesPixels canvas fun s => s.copyPixel (s.offset x y) (s.offset x' y') :=
  .single ((x, y), (x', y')) ⟨h, h'⟩ fun _ _ => rfl

theorem bleedRow_copies (h : IntRaster canvas) (cx cw2 : Int) {srcY ty : Int}
    (hsrc : 0 ≤ srcY ∧ srcY < canvas.height.toNat) (hty : 0 ≤ ty ∧ ty < canvas.height.toNat) :
    CopiesPixels canvas fun s => bleedRow s cx cw2 srcY ty := by
  have hwidth : int32 canvas.width = canvas.width.toNat := int32_of_lt h.width
  have hloop : CopiesPixels canvas (forUp cx (cx + cw2) fun x s =>
      if x < 0 ∨ x ≥ int32 canvas.width then s
      else if s.offset x ty + 3 > bufEnd s then s
      else s.copyPixel (s.offset x ty) (s.offset x srcY)) := by
    refine .forUp fun x _ _ => ?_
    by_cases hx : x < 0 ∨ x ≥ int32 canvas.width
    · exact .skip fun s _ => if_pos hx
    · have hto : picture.domain (picture.shape canvas) (x, ty) := by
        rw [mem_domain]
        omega
      have hfrom : picture.domain (picture.shape canvas) (x, srcY) := by
        rw [mem_domain]
        omega
      refine (copyPixel_copies hto hfrom).congr fun s hs => ?_
      rw [if_neg hx]
      exact if_neg ((h.of_shape hs).offset_end (hs.symm ▸ hto))
  refine hloop.congr fun s hs => ?_
  obtain ⟨-, hsw, -⟩ := shape_eq_iff.mp hs
  unfold bleedRow
  rw [hsw]

theorem bleedRows_copies (h : IntRaster canvas) (cx cw2 bp : Int) {srcY : Int}
    (hsrc : 0 ≤ srcY ∧ srcY < canvas.height.toNat) (row : Int → Int) (stop : Int → Prop)
    [DecidablePred stop]
    (hstop : ∀ b, 1 ≤ b → ¬stop b → 0 ≤ row b ∧ row b < canvas.height.toNat) :
    CopiesPixels canvas (forUpBreak 1 (bp + 1) fun b s =>
      if stop b then none else some (bleedRow s cx cw2 srcY (row b))) := by
  refine .forUpBreak fun b hb _ => ?_
  by_cases hend : stop b
  · exact .inl fun s _ => if_pos hend
  · exact .inr ⟨_, bleedRow_copies h cx cw2 hsrc (hstop b hb hend), fun s _ => if_neg hend⟩

theorem bleedTop_copies (h : IntRaster canvas) (cx cw2 bp : Int)
    (hcy : 0 ≤ cy ∧ cy < canvas.height.toNat) :
    CopiesPixels canvas fun s => bleedTop s cx cy cw2 bp :=
  bleedRows_copies h cx cw2 bp hcy (fun b => cy - b) (fun b => cy - b < 0) fun b _ _ => by omega

theorem bleedBottom_copies (h : IntRaster canvas) (cx cw2 bp : Int)
    (hcy : 0 ≤ cy + ch2 - 1 ∧ cy + ch2 - 1 < canvas.height.toNat) :
    CopiesPixels canvas fun s => bleedBottom s cx cy cw2 ch2 bp := by
  have hheight : int32 canvas.height = canvas.height.toNat := int32_of_lt h.height
  refine (bleedRows_copies h cx cw2 bp hcy (fun b => cy + ch2 - 1 + b)
    (fun b => cy + ch2 - 1 + b ≥ int32 canvas.height) fun b _ _ => by omega).congr fun s hs => ?_
  obtain ⟨-, -, hsh, -⟩ := shape_eq_iff.mp hs
  unfold bleedBottom
  rw [hsh]

theorem bleedPixels_copies (h : IntRaster canvas) (bp : Int) {sx py : Int}
    (hsx : 0 ≤ sx ∧ sx < canvas.width.toNat) (hpy : 0 ≤ py ∧ py < canvas.height.toNat)
    (col : Int → Int) (stop : Int → Prop) [DecidablePred stop]
    (hstop : ∀ b, 1 ≤ b → ¬stop b → 0 ≤ col b ∧ col b < canvas.width.toNat) :
    CopiesPixels canvas (forUpBreak 1 (bp + 1) fun b s =>
      if stop b then none
      else if s.offset (col b) py + 3 > bufEnd s then none
      else some (s.copyPixel (s.offset (col b) py) (canvas.offset sx py))) := by
  refine .forUpBreak fun b hb _ => ?_
  by_cases hend : stop b
  · exact .inl fun s _ => if_pos hend
  · obtain ⟨hcol, hcol'⟩ := hstop b hb hend
    have hto : picture.domain (picture.shape canvas) (col b, py) := ⟨hcol, hcol', hpy⟩
    have hfrom : picture.domain (picture.shape canvas) (sx, py) := ⟨hsx.1, hsx.2, hpy⟩
    refine .inr ⟨_, copyPixel_copies hto hfrom,
      fun s (hs : picture.shape s = picture.shape canvas) => ?_⟩
    have hinside := (h.of_shape hs).offset_end (p := (col b, py)) (hs.symm ▸ hto)
    rw [if_neg hend, if_neg hinside, offset_of_shape hs sx py]

theorem bleedLeft_copies (h : IntRaster canvas) (bp : Int) {py : Int}
    (hcx : 0 ≤ cx ∧ cx < canvas.width.toNat) (hpy : 0 ≤ py ∧ py < canvas.height.toNat) :
    CopiesPixels canvas fun s => bleedLeft s cx py bp := by
  refine (bleedPixels_copies h bp hcx hpy (fun b => cx - b) (fun b => cx - b < 0)
    fun b _ _ => by omega).congr fun s hs => ?_
  obtain ⟨-, hsw, -⟩ := shape_eq_iff.mp hs
  unfold bleedLeft
  rw [hsw, int32_of_lt h.width, if_pos hcx, offset_of_shape hs]

theorem bleedRight_copies (h : IntRaster canvas) (bp : Int) {rx py : Int}
    (hrx : 0 ≤ rx ∧ rx < canvas.width.toNat) (hpy : 0 ≤ py ∧ py < canvas.height.toNat) :
    CopiesPixels canvas fun s => bleedRight s rx py bp := by
  refine (bleedPixels_copies h bp hrx hpy (fun b => rx + b)
    (fun b => rx + b ≥ canvas.width.toNat) fun b _ _ => by omega).congr fun s hs => ?_
  obtain ⟨-, hsw, -⟩ := shape_eq_iff.mp hs
  unfold bleedRight
  rw [hsw, int32_of_lt h.width]
  dsimp only
  rw [if_pos hrx, offset_of_shape hs]

theorem bleedSides_copies (h : IntRaster canvas) (hcell : OnCanvas canvas cx cy cw2 ch2) (bp : Int) :
    CopiesPixels canvas fun s => bleedSides s cx cy cw2 ch2 bp := by
  obtain ⟨hleft, hwidth, hright, -, -, -⟩ := hcell
  have hheight : int32 canvas.height = canvas.height.toNat := int32_of_lt h.height
  have hloop : CopiesPixels canvas (forUp (if cy - bp < 0 then 0 else cy - bp)
      (if cy + ch2 + bp > int32 canvas.height then int32 canvas.height else cy + ch2 + bp)
      fun py s => bleedRight (bleedLeft s cx py bp) (cx + cw2 - 1) py bp) := by
    refine .forUp fun py hlow hhigh => ?_
    have hpy : 0 ≤ py ∧ py < canvas.height.toNat := by
      split_ifs at hlow hhigh <;> omega
    exact (bleedLeft_copies h bp ⟨hleft, by omega⟩ hpy).comp (bleedRight_copies h bp (by omega) hpy)
  refine hloop.congr fun s hs => ?_
  obtain ⟨-, -, hsh, -⟩ := shape_eq_iff.mp hs
  unfold bleedSides
  rw [hsh]

theorem bleedCell_copies (h : IntRaster canvas) {c : ImgCell} (hc : CellInside canvas c) (bp : Int) :
    CopiesPixels canvas fun s => bleedCell s c bp := by
  obtain ⟨hx, hy, hw, hh⟩ := (hc.small h).int32
  have hcell := hc.onCanvas
  have hcell' := hcell
  obtain ⟨-, -, -, htop, hheight, hbottom⟩ := hcell'
  unfold bleedCell
  rw [hx, hy, hw, hh]
  exact ((bleedTop_copies h _ _ bp ⟨htop, by omega⟩).comp
    (bleedBottom_copies h _ _ bp ⟨by omega, by omega⟩)).comp (bleedSides_copies h hcell bp)

theorem imgApplyBleed_copies {layout : ImgLayout} (h : IntRaster canvas)
    (hinside : ∀ i < layout.count.toNat, CellInside canvas (layout.cell i)) (bleedPx : UInt32) :
    ∃ pass, CopiesPixels canvas pass ∧ ∀ s, imgApplyBleed s layout bleedPx = .ok (pass s) := by
  unfold imgApplyBleed
  split_ifs with hzero
  · exact ⟨id, .skip fun _ _ => rfl, fun _ => rfl⟩
  · refine ⟨_, .forRange fun i hi => ?_, fun _ => rfl⟩
    exact bleedCell_copies h (hinside i hi) (int32 bleedPx)

end Bleed

section Marks

variable {F : Type} {canvas : ImgBuffer}

theorem setPx_fills (canvas : ImgBuffer) (x y : Int) (color : Rgb) :
    FillsPixels canvas color fun s => setPx s x y color := by
  by_cases hp : picture.domain (picture.shape canvas) (x, y)
  · refine .single (x, y) hp fun s hs => if_neg ?_
    obtain ⟨-, hsw, hsh, -⟩ := shape_eq_iff.mp hs
    obtain ⟨hx, hx', hy, hy'⟩ := mem_domain.mp hp
    rw [hsw, hsh]
    omega
  · refine .skip fun s hs => if_pos ?_
    obtain ⟨-, hsw, hsh, -⟩ := shape_eq_iff.mp hs
    rw [mem_domain] at hp
    rw [hsw, hsh]
    omega

theorem drawH_fills (canvas : ImgBuffer) (x y len : Int) (th : UInt32) (color : Rgb) :
    FillsPixels canvas color fun s => drawH s x y len th color :=
  .forRange fun _ _ => .forUp fun _ _ _ => setPx_fills canvas _ _ color

theorem drawV_fills (canvas : ImgBuffer) (x y len : Int) (th : UInt32) (color : Rgb) :
    FillsPixels canvas color fun s => drawV s x y len th color :=
  .forRange fun _ _ => .forUp fun _ _ _ => setPx_fills canvas _ _ color

theorem drawCropMarks_fills (canvas : ImgBuffer) (c : ImgCell) (off len : Int) (th : UInt32) :
    FillsPixels canvas .black fun s => drawCropMarks s c off len th := by
  have bothBars : ∀ x y x' y', FillsPixels canvas .black fun s =>
      drawV (drawH s x y len th .black) x' y' len th .black :=
    fun x y x' y' => (drawH_fills canvas x y len th .black).comp (drawV_fills canvas x' y' len th .black)
  exact (((bothBars _ _ _ _).comp (bothBars _ _ _ _)).comp (bothBars _ _ _ _)).comp
    (bothBars _ _ _ _)

theorem imgDrawCropMarks_fills (canvas : ImgBuffer) (layout : ImgLayout) (job : ImgJob F) :
    ∃ pass, FillsPixels canvas .black pass ∧ ∀ s, imgDrawCropMarks s layout job = .ok (pass s) := by
  by_cases hzero : job.cropMarkPx = 0
  · exact ⟨id, .skip fun _ _ => rfl, fun s => if_pos hzero⟩
  · exact ⟨_, .forRange fun _ _ => drawCropMarks_fills canvas _ _ _ _, fun s => if_neg hzero⟩

end Marks

end ImgEngine.Pipeline
