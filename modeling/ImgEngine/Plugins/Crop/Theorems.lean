import ImgEngine.Plugins.Crop

namespace ImgEngine.Plugins

variable {buf : ImgBuffer} {p q : CropParams}

-- The test and the offset of the source, which wrap around.

def InBounds (buf : ImgBuffer) (p : CropParams) : Prop :=
  p.x + p.w ≤ buf.width ∧ p.y + p.h ≤ buf.height

def cropOffset (buf : ImgBuffer) (p : CropParams) : UInt32 :=
  p.y * buf.stride + p.x * buf.channels

def cropView (buf : ImgBuffer) (p : CropParams) : ImgBuffer :=
  { buf with
    data := buf.data + (cropOffset buf p).toUInt64
    bytes := fun i => buf.bytes ((cropOffset buf p).toNat + i)
    width := p.w
    height := p.h }

theorem pluginCropSingle_of_inBounds (h : InBounds buf p) :
    pluginCropSingle (some buf) (some p) = some (cropView buf p) := by
  have htest : ¬(p.x + p.w > buf.width ∨ p.y + p.h > buf.height) := by
    rintro (hx | hy)
    · exact UInt32.not_le.mpr hx h.1
    · exact UInt32.not_le.mpr hy h.2
  rw [pluginCropSingle, if_neg htest]
  rfl

theorem pluginCropSingle_of_not_inBounds (h : ¬InBounds buf p) :
    pluginCropSingle (some buf) (some p) = some buf := by
  have htest : p.x + p.w > buf.width ∨ p.y + p.h > buf.height := by
    by_contra hno
    exact h ⟨UInt32.not_lt.mp fun hx => hno (.inl hx), UInt32.not_lt.mp fun hy => hno (.inr hy)⟩
  rw [pluginCropSingle, if_pos htest]

theorem Contained.inBounds (h : Contained buf.width buf.height p) : InBounds buf p := by
  have hwidth := buf.width.toNat_lt
  have hheight := buf.height.toNat_lt
  obtain ⟨hx, hy⟩ := h
  constructor
  · rw [UInt32.le_iff_toNat_le, uint32_toNat_add (by omega)]
    exact hx
  · rw [UInt32.le_iff_toNat_le, uint32_toNat_add (by omega)]
    exact hy

theorem cropOffset_toNat (buf : ImgBuffer) (p : CropParams) :
    (cropOffset buf p).toNat = pixelOffset buf p.x.toNat p.y.toNat % 2 ^ 32 := by
  rw [cropOffset, UInt32.toNat_add, UInt32.toNat_mul, UInt32.toNat_mul, ← Nat.add_mod]
  rfl

-- The offsets within an image are less than 2^64.
theorem pixelOffset_lt (hrow : buf.width.toNat * buf.channels.toNat ≤ buf.stride.toNat)
    {x y : Nat} (hx : x ≤ buf.width.toNat) (hy : y < buf.height.toNat) :
    pixelOffset buf x y < 2 ^ 64 := by
  have hheight := buf.height.toNat_lt
  have hcolumns := (Nat.mul_le_mul_right buf.channels.toNat hx).trans hrow
  have hrows : (y + 1) * buf.stride.toNat < 2 ^ 32 * 2 ^ 32 :=
    Nat.mul_lt_mul_of_le_of_lt (by omega) buf.stride.toNat_lt (by omega)
  rw [Nat.succ_mul] at hrows
  exact (Nat.add_le_add_left hcolumns _).trans_lt hrows

-- A view whose pixels lie in the old image.
structure IsView (buf : ImgBuffer) (p : CropParams) (view : ImgBuffer) : Prop where
  size : view.width = p.w ∧ view.height = p.h
  rows : view.channels = buf.channels ∧ view.stride = buf.stride
  pixels : ∀ i < p.w.toNat, ∀ j < p.h.toNat,
    pixelAddress view i j = pixelAddress buf (p.x.toNat + i) (p.y.toNat + j) ∧
      ∀ c < buf.channels.toNat, view.bytes (pixelOffset view i j + c) =
        buf.bytes (pixelOffset buf (p.x.toNat + i) (p.y.toNat + j) + c)
  inside : ∀ i < p.w.toNat, ∀ j < p.h.toNat,
    p.x.toNat + i < buf.width.toNat ∧ p.y.toNat + j < buf.height.toNat

theorem pixelOffset_cropView (buf : ImgBuffer) (p : CropParams) (i j : Nat) :
    pixelOffset buf p.x.toNat p.y.toNat + pixelOffset (cropView buf p) i j =
      pixelOffset buf (p.x.toNat + i) (p.y.toNat + j) := by
  simp only [pixelOffset, cropView, Nat.add_mul]
  omega

theorem cropView_isView_iff (hrow : buf.width.toNat * buf.channels.toNat ≤ buf.stride.toNat)
    (h : Contained buf.width buf.height p) : IsView buf p (cropView buf p) ↔
      p.w = 0 ∨ p.h = 0 ∨ pixelOffset buf p.x.toNat p.y.toNat < 2 ^ 32 := by
  have hoffset := cropOffset_toNat buf p
  obtain ⟨hx, hy⟩ := h
  constructor
  · intro hview
    by_cases hw : p.w = 0
    · exact .inl hw
    by_cases hh : p.h = 0
    · exact .inr (.inl hh)
    have hw : p.w.toNat ≠ 0 := fun hzero => hw (UInt32.toNat_inj.mp hzero)
    have hh : p.h.toNat ≠ 0 := fun hzero => hh (UInt32.toNat_inj.mp hzero)
    -- the address of the first pixel tells the offset
    have hfirst := (hview.pixels 0 (by omega) 0 (by omega)).1
    have hzero : pixelOffset (cropView buf p) 0 0 = 0 := by simp [pixelOffset]
    rw [pixelAddress, pixelAddress, hzero] at hfirst
    simp only [cropView, Nat.add_zero, UInt64.reduceOfNat, UInt64.add_zero] at hfirst
    have hsame := congrArg UInt64.toNat (UInt64.add_right_inj _ |>.mp hfirst)
    rw [UInt32.toNat_toUInt64, UInt64.toNat_ofNat',
      Nat.mod_eq_of_lt (pixelOffset_lt hrow (by omega) (by omega))] at hsame
    exact .inr (.inr (hsame ▸ UInt32.toNat_lt _))
  · intro hfit
    refine ⟨⟨rfl, rfl⟩, ⟨rfl, rfl⟩, fun i hi j hj => ?_, fun i hi j hj => ⟨by omega, by omega⟩⟩
    have hlt : pixelOffset buf p.x.toNat p.y.toNat < 2 ^ 32 := by
      rcases hfit with hw | hh | hlt
      · rw [hw] at hi
        exact absurd hi (Nat.not_lt_zero i)
      · rw [hh] at hj
        exact absurd hj (Nat.not_lt_zero j)
      · exact hlt
    rw [Nat.mod_eq_of_lt hlt] at hoffset
    have hsum := pixelOffset_cropView buf p i j
    refine ⟨?_, fun c _ => ?_⟩
    · have hdata : (cropView buf p).data = buf.data + (cropOffset buf p).toUInt64 := rfl
      have hwide : (cropOffset buf p).toUInt64 = .ofNat (pixelOffset buf p.x.toNat p.y.toNat) := by
        rw [← UInt64.toNat_inj, UInt32.toNat_toUInt64, hoffset, UInt64.toNat_ofNat',
          Nat.mod_eq_of_lt (by omega)]
      rw [pixelAddress, pixelAddress, hdata, hwide, ← hsum, UInt64.ofNat_add, UInt64.add_assoc]
    · rw [← hsum, ← hoffset, Nat.add_assoc]
      rfl

theorem cropView_eq_iff : cropView buf p = buf ↔
    p.w = buf.width ∧ p.h = buf.height ∧ cropOffset buf p = 0 := by
  constructor
  · intro h
    have hdata : buf.data + (cropOffset buf p).toUInt64 = buf.data := congrArg ImgBuffer.data h
    have hzero := congrArg UInt64.toNat (UInt64.add_eq_left.mp hdata)
    rw [UInt32.toNat_toUInt64] at hzero
    exact ⟨congrArg ImgBuffer.width h, congrArg ImgBuffer.height h, UInt32.toNat_inj.mp hzero⟩
  · rintro ⟨hw, hh, hzero⟩
    simp [cropView, hw, hh, hzero]

-- A crop of a view.

theorem cropOffset_inside (buf : ImgBuffer) (p q : CropParams) :
    cropOffset buf (p.inside q) = cropOffset buf p + cropOffset (cropView buf p) q := by
  simp only [cropOffset, CropParams.inside, cropView]
  grind

theorem Contained.inside (h : Contained buf.width buf.height p) (hq : Contained p.w p.h q) :
    Contained buf.width buf.height (p.inside q) := by
  have hwidth := buf.width.toNat_lt
  have hheight := buf.height.toNat_lt
  obtain ⟨hx, hy⟩ := h
  obtain ⟨hqx, hqy⟩ := hq
  constructor
  · simp only [CropParams.inside]
    rw [uint32_toNat_add (by omega)]
    omega
  · simp only [CropParams.inside]
    rw [uint32_toNat_add (by omega)]
    omega

theorem cropView_cropView_iff : cropView (cropView buf p) q = cropView buf (p.inside q) ↔
    (cropOffset buf p).toNat + (cropOffset buf q).toNat < 2 ^ 32 := by
  have hsum := cropOffset_inside buf p q
  have hsame : cropOffset (cropView buf p) q = cropOffset buf q := rfl
  rw [hsame] at hsum
  have hp := (cropOffset buf p).toNat_lt
  have hq := (cropOffset buf q).toNat_lt
  have hsumNat := congrArg UInt32.toNat hsum
  rw [UInt32.toNat_add] at hsumNat
  constructor
  · intro h
    have hdata : buf.data + (cropOffset buf p).toUInt64 + (cropOffset buf q).toUInt64 =
        buf.data + (cropOffset buf (p.inside q)).toUInt64 := congrArg ImgBuffer.data h
    rw [UInt64.add_assoc] at hdata
    have haddress := congrArg UInt64.toNat (UInt64.add_right_inj _ |>.mp hdata)
    rw [UInt64.toNat_add, UInt32.toNat_toUInt64, UInt32.toNat_toUInt64, UInt32.toNat_toUInt64,
      hsumNat] at haddress
    omega
  · intro hlt
    rw [Nat.mod_eq_of_lt hlt] at hsumNat
    have hdata : buf.data + (cropOffset buf p).toUInt64 + (cropOffset buf q).toUInt64 =
        buf.data + (cropOffset buf (p.inside q)).toUInt64 := by
      rw [UInt64.add_assoc, UInt64.add_right_inj, ← UInt64.toNat_inj, UInt64.toNat_add,
        UInt32.toNat_toUInt64, UInt32.toNat_toUInt64, UInt32.toNat_toUInt64, hsumNat]
      omega
    have hbytes : (fun i => buf.bytes ((cropOffset buf p).toNat + ((cropOffset buf q).toNat + i))) =
        fun i => buf.bytes ((cropOffset buf (p.inside q)).toNat + i) := by
      funext i
      rw [hsumNat, Nat.add_assoc]
    have hview : cropView buf (p.inside q) = { buf with
        data := buf.data + (cropOffset buf (p.inside q)).toUInt64
        bytes := fun i => buf.bytes ((cropOffset buf (p.inside q)).toNat + i)
        width := q.w
        height := q.h } := rfl
    rw [hview, ← hdata, ← hbytes]
    rfl

-- The law of crops.

structure CropLaw (buf : ImgBuffer) (p : CropParams) : Prop where
  kept : ¬Contained buf.width buf.height p → pluginCropSingle (some buf) (some p) = some buf
  view : Contained buf.width buf.height p →
    ∃ view, pluginCropSingle (some buf) (some p) = some view ∧ IsView buf p view

-- Two crops in a row, the second one within the first.
def CropsCompose (buf : ImgBuffer) (p q : CropParams) : Prop :=
  Contained buf.width buf.height p → Contained p.w p.h q →
    pluginCropSingle (pluginCropSingle (some buf) (some p)) (some q) =
      pluginCropSingle (some buf) (some (p.inside q))

theorem cropLaw_iff (hrow : buf.width.toNat * buf.channels.toNat ≤ buf.stride.toNat) :
    CropLaw buf p ↔
      (Contained buf.width buf.height p →
        p.w = 0 ∨ p.h = 0 ∨ pixelOffset buf p.x.toNat p.y.toNat < 2 ^ 32) ∧
      (¬Contained buf.width buf.height p → InBounds buf p →
        p.w = buf.width ∧ p.h = buf.height ∧ cropOffset buf p = 0) := by
  by_cases h : Contained buf.width buf.height p
  · have hview := cropView_isView_iff hrow h
    have hcrop := pluginCropSingle_of_inBounds h.inBounds
    simp only [h, true_implies, not_true_eq_false, false_implies, and_true, ← hview]
    constructor
    · rintro ⟨-, hexists⟩
      obtain ⟨view, hsome, hisView⟩ := hexists h
      rw [hcrop, Option.some.injEq] at hsome
      exact hsome ▸ hisView
    · intro hisView
      exact ⟨fun hno => absurd h hno, fun _ => ⟨_, hcrop, hisView⟩⟩
  · simp only [h, false_implies, not_false_eq_true, true_implies, true_and, ← cropView_eq_iff]
    constructor
    · rintro ⟨hkept, -⟩ hin
      have hsome := hkept h
      rw [pluginCropSingle_of_inBounds hin, Option.some.injEq] at hsome
      exact hsome
    · intro hkept
      refine ⟨fun _ => ?_, fun hyes => absurd hyes h⟩
      by_cases hin : InBounds buf p
      · rw [pluginCropSingle_of_inBounds hin, hkept hin]
      · exact pluginCropSingle_of_not_inBounds hin

theorem cropsCompose_iff : CropsCompose buf p q ↔
    (Contained buf.width buf.height p → Contained p.w p.h q →
      (cropOffset buf p).toNat + (cropOffset buf q).toNat < 2 ^ 32) := by
  refine forall₂_congr fun h hq => ?_
  have hq' : Contained (cropView buf p).width (cropView buf p).height q := hq
  rw [pluginCropSingle_of_inBounds h.inBounds, pluginCropSingle_of_inBounds hq'.inBounds,
    pluginCropSingle_of_inBounds (h.inside hq).inBounds, Option.some.injEq, cropView_cropView_iff]

-- The sums and the offset of the source may wrap around.
theorem pluginCropSingle_law_iff (buf : ImgBuffer) (p q : CropParams)
    (hrow : buf.width.toNat * buf.channels.toNat ≤ buf.stride.toNat) :
    CropLaw buf p ∧ CropsCompose buf p q ↔
      ((Contained buf.width buf.height p →
        p.w = 0 ∨ p.h = 0 ∨ pixelOffset buf p.x.toNat p.y.toNat < 2 ^ 32) ∧
      (¬Contained buf.width buf.height p → InBounds buf p →
        p.w = buf.width ∧ p.h = buf.height ∧ cropOffset buf p = 0)) ∧
      (Contained buf.width buf.height p → Contained p.w p.h q →
        (cropOffset buf p).toNat + (cropOffset buf q).toNat < 2 ^ 32) := by
  rw [cropLaw_iff hrow, cropsCompose_iff]

-- Two rows of four pixels.
def fourByTwo : ImgBuffer where
  data := 4096
  bytes i := .ofNat i
  width := 4
  height := 2
  channels := 3
  stride := 12

theorem pluginCropSingle_law_fourByTwo :
    CropLaw fourByTwo ⟨1, 0, 2, 2⟩ ∧ CropsCompose fourByTwo ⟨1, 0, 2, 2⟩ ⟨1, 1, 1, 1⟩ :=
  (pluginCropSingle_law_iff fourByTwo ⟨1, 0, 2, 2⟩ ⟨1, 1, 1, 1⟩ (by decide)).mpr
    ⟨⟨fun _ => by decide, fun h => absurd (by decide) h⟩, fun _ _ => by decide⟩

-- The end of the rectangle wraps around to column 1.
theorem pluginCropSingle_wraps :
    fourByTwo.width.toNat * fourByTwo.channels.toNat ≤ fourByTwo.stride.toNat ∧
      ¬Contained fourByTwo.width fourByTwo.height ⟨0xFFFFFFFF, 0, 2, 1⟩ ∧
      ¬CropLaw fourByTwo ⟨0xFFFFFFFF, 0, 2, 1⟩ := by
  refine ⟨by decide, by decide, fun h => ?_⟩
  have hkept := congrArg (Option.map ImgBuffer.data) (h.kept (by decide))
  exact absurd hkept (by decide)

end ImgEngine.Plugins
